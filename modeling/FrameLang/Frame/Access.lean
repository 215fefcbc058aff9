/-
Using a frame from outside: building it, and reading its cells.

These are the operations of `Growth`, and reading, as runs: a failure is reported once where it
arises.  An operation that fails gives no new frame, so whoever holds the old one still has it.
-/
import FrameLang.Eval

namespace FrameLang

open Run

/-- A value as one of a scalar type, a long as a double too. -/
def ScalarType.read (type : ScalarType) (v : Value) : Except Error Value :=
  match type with
  | .boolean => v.asBoolean.map .boolean
  | .long => v.asLong.map .long
  | .double => v.asDouble.map .double
  | .string => v.asString.map .string
  | .date => v.asDate.map .date
  | .dateTime => v.asDateTime.map .dateTime

namespace Frame

/-! ### Building -/

def addColumn (f : Frame) (name : String) (type : ValueType) : Run Frame :=
  orReport (f.withColumn name type)

def addComputed (f : Frame) (name source : String) : Run Frame :=
  orReport (f.withComputed name source)

def addRow (f : Frame) (values : List Value) : Run Frame := orReport (f.withRow values)

/-! ### Reading -/

/-- The value of an expression in a physical row. -/
def evaluateOnRow (depth : Nat) (host : Host) (f : Frame) (e : Expr) (row : Nat) : Run Value :=
  isolated ∅ ((Environment.ofRow host f row).evaluate depth e)

/-- The value of a column at a logical row. -/
def get (depth : Nat) (host : Host) (f : Frame) (column : String) (row : Nat) : Run Value :=
  f.readNamed (Expr.runDeep depth) host column row

/-- The value at a logical row of the column at a position. -/
def getAt (depth : Nat) (host : Host) (f : Frame) (row column : Nat) : Run Value :=
  match f.columns[column]? with
  | none => report (.outOfBounds (Int64.ofNat column) f.columns.length)
  | some c =>
    match f.physicalRow? row with
    | none => report (.outOfBounds (Int64.ofNat row) f.rowCount)
    | some physical => f.readColumn (Expr.runDeep depth) host c physical

def isNull (depth : Nat) (host : Host) (f : Frame) (column : String) (row : Nat) : Run Bool := do
  return (← f.get depth host column row).type = .void

/-- The value of a column at a logical row, which must be of the type asked for. -/
def getTyped (depth : Nat) (host : Host) (f : Frame) (type : ScalarType) (column : String)
    (row : Nat) : Run Value := do
  orReport (type.read (← f.get depth host column row))

end Frame
end FrameLang
