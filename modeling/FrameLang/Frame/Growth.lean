/-
Building frames: new columns and new rows.

Columns come first.  A stored column cannot be added any more once there are rows, since it would
have no cells for them; a computed column can.
-/
import FrameLang.Syntax.Source
import FrameLang.Typing
import FrameLang.Value.Basic

namespace FrameLang

/-! ### Cells and values -/

/-- The cell that holds a value in a column of the given type: `none` if the value does not fit.
Longs widen into columns of doubles, and `void` is a null in every column. -/
def ScalarType.fit? : (type : ScalarType) → Value → Option (Option type.Carrier)
  | _, .void => some none
  | .boolean, .boolean b => some (some b)
  | .long, .long n => some (some n)
  | .double, .double d => some (some d)
  | .double, .long n => some (some (Double.ofInt n.toInt))
  | .string, .string s => some (some s)
  | .date, .date d => some (some d)
  | .dateTime, .dateTime t => some (some t)
  | _, _ => none

/-- The value of a cell. -/
def ScalarType.toValue : (type : ScalarType) → Option type.Carrier → Value
  | _, none => .void
  | .boolean, some b => .boolean b
  | .long, some n => .long n
  | .double, some d => .double d
  | .string, some s => .string s
  | .date, some d => .date d
  | .dateTime, some t => .dateTime t

namespace Cells

/-- Storage for a type, which must be scalar. -/
def ofType (type : ValueType) : Except Error Cells :=
  match ScalarType.ofValueType? type with
  | some t => .ok (empty t)
  | none => .error (.configuration (.unsupportedType type))

/-- The value at a row; beyond the last row it is `void`. -/
def get (c : Cells) (row : Nat) : Value := c.type.toValue ((c.entries[row]?).join)

def accepts (c : Cells) (v : Value) : Bool := (c.type.fit? v).isSome

def append (c : Cells) (v : Value) : Except Error Cells :=
  match c.type.fit? v with
  | some entry => .ok (c.push entry)
  | none => .error (.typeMismatch c.type.toValueType v.type)

end Cells

namespace Frame

/-! ### Columns -/

def pushColumn (f : Frame) (column : Column) : Except Error Frame :=
  if f.hasColumn column.name then .error (.configuration (.columnExists column.name f.name))
  else .ok (f.extend column)

/-- The frame with a further stored column. -/
def withColumn (f : Frame) (name : String) (type : ValueType) : Except Error Frame :=
  if f.rowCount = 0 then do
    let cells ← Cells.ofType type
    f.pushColumn { name, content := .stored cells }
  else .error (.configuration (.columnAfterRows name f.name))

/-- The frame with a further column computed from the columns it has. -/
def withComputed (f : Frame) (name source : String) : Except Error Frame := do
  let expression ← (Expr.ofSource source).mapError .malformed
  let type ← f.scope.check expression
  if type = .void then throw (.configuration (.undeterminedType name source))
  f.pushColumn { name, content := .computed source expression type }

/-! ### Rows -/

def storedCount (f : Frame) : Nat := f.columns.countP Column.isStored

/-- The columns with one more row, whose values go to the stored columns in turn.  Values and
stored columns must be equally many. -/
def appendToColumns : List Column → List Value → Except Error (List Column)
  | [], _ => .ok []
  | column :: columns, values =>
    match column.content, values with
    | .computed .., values => (appendToColumns columns values).map (column :: ·)
    | .stored _, [] => (appendToColumns columns []).map (column :: ·)
    | .stored cells, v :: values =>
      match cells.type.fit? v with
      | none =>
        .error (.configuration (.misfit v.literalText column.name cells.type.toValueType))
      | some entry => do
        let rest ← appendToColumns columns values
        return { column with content := .stored (cells.push entry) } :: rest

/-- The frame with a further row, the last one physically and logically. -/
def withRow (f : Frame) (values : List Value) : Except Error Frame :=
  if values.length ≠ f.storedCount then
    .error (.configuration (.rowWidth values.length f.name f.storedCount))
  else do
    let columns ← appendToColumns f.columns values
    return { f with
      columns, rowCount := f.rowCount + 1, order := f.order.map (· ++ [f.rowCount]) }

/-- The values of a physical row in the stored columns. -/
def storedValues (f : Frame) (row : Nat) : List Value :=
  f.columns.filterMap fun column =>
    match column.content with
    | .stored cells => some (cells.get row)
    | .computed .. => none

end Frame
end FrameLang
