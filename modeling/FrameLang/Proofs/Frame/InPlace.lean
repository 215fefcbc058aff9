/-
Frames that are changed in place.

`Frame.withRow` and its like make a new frame or fail, so nobody has to ask what a failure has done
to the old one.  Whoever keeps one frame and writes to it does have to ask.  A column goes into the
index of names and then to the columns; a row goes to one stored column after another; and between
two writes something may fail, which leaves the first one written.

Here are the requests done in that way.  A `Change` may write to the frame that is kept and may
stop, and what it wrote before it stopped stays written.  Each request is written out write by
write, with its failures where they stand between the writes.  Nothing takes a write back.
-/
import FrameLang.Proofs.Frame.Reachable

namespace FrameLang

open Run

/-- A computation that may write to a frame and may stop; what it wrote before stays written. -/
abbrev Change := ExceptT Stop (StateM (Frame × Store))

/-- A run does not write to the frame. -/
instance : MonadLift Run Change where
  monadLift run := fun (f, s) =>
    let (result, s') := run s
    (result, (f, s'))

/-- The stored columns, each with its name. -/
def storedCells (columns : List Column) : List (String × Cells) :=
  columns.filterMap fun column =>
    match column.content with
    | .stored cells => some (column.name, cells)
    | .computed .. => none

/-- The first value that does not fit its column is an error. -/
def checkValues (stored : List (String × Cells)) (values : List Value) : Except Error Unit :=
  (stored.zip values).forM fun ((name, cells), v) =>
    if cells.accepts v then .ok ()
    else .error (.configuration (.misfit v.literalText name cells.type.toValueType))

namespace Change

/-- The frame as it is at this moment. -/
def here : Change Frame := fun (f, s) => (.ok f, (f, s))

def write (change : Frame → Frame) : Change Unit := fun (f, s) => (.ok (), (change f, s))

/-! ### Columns -/

/-- First the index gets the name, then the columns get the column. -/
def pushColumn (column : Column) : Change Unit := do
  let f ← here
  if f.hasColumn column.name then report (.configuration (.columnExists column.name f.name))
  else do
    write fun f => { f with index := f.index.insert column.name f.columns.length }
    write fun f => { f with columns := f.columns ++ [column] }

def addColumn (name : String) (type : ValueType) : Change Unit := do
  let f ← here
  if f.rowCount = 0 then do
    let cells ← orReport (Cells.ofType type)
    pushColumn { name, content := .stored cells }
  else report (.configuration (.columnAfterRows name f.name))

def addComputed (name source : String) : Change Unit := do
  let expression ← orReport ((Expr.ofSource source).mapError .malformed)
  let f ← here
  let type ← orReport (f.scope.check expression)
  if type = .void then report (.configuration (.undeterminedType name source))
  else pushColumn { name, content := .computed source expression type }

/-! ### Rows -/

/-- The column at a place takes the first of the values if it is a stored one.  The other values are
left for the columns after it. -/
def pushValue (values : List Value) (i : Nat) : Change (List Value) := do
  let f ← here
  match f.columns[i]? with
  | none => return values
  | some column =>
    match column.content, values with
    | .stored cells, v :: values => do
      let grown ← orReport (cells.append v)
      write fun f => { f with columns := f.columns.set i { column with content := .stored grown } }
      return values
    | _, values => return values

/-- The columns take values from the first place to the last. -/
def pushValues (values : List Value) : Change (List Value) := do
  let f ← here
  (List.range f.columns.length).foldlM pushValue values

/-- First all values are checked, then the columns take them, then the row is counted. -/
def addRow (values : List Value) : Change Unit := do
  let f ← here
  if values.length ≠ f.storedCount then
    report (.configuration (.rowWidth values.length f.name f.storedCount))
  else do
    orReport (checkValues (storedCells f.columns) values)
    let _ ← pushValues values
    write fun f => { f with order := f.order.map (· ++ [f.rowCount]) }
    write fun f => { f with rowCount := f.rowCount + 1 }

/-! ### Order -/

/-- First every row gets its key, then the rows are put in order, and then the order is kept. -/
def sortWith (sort : Frame.RowSort) (key : Nat → Run (List Value)) : Change Unit := do
  let f ← here
  let keyed ← (f.rows.mapM fun row => return (row, ← key row) : Run (List Frame.KeyedRow))
  let order ← orReport (Frame.sortedRows sort keyed)
  write fun f => { f with order := some order }

def sortBy (depth : Nat) (host : Host) (names : List String) : Change Unit := do
  let f ← here
  let columns ← orReport (f.sortColumns names)
  sortWith Comparing.insertionSort fun row =>
    columns.mapM fun c => f.readColumn (Expr.runDeep depth) host c row

def sortByExpression (depth : Nat) (host : Host) (text : String) : Change Unit := do
  let e ← orReport ((Expr.ofSource text).mapError .malformed)
  let f ← here
  discard <| orReport (f.scope.check e)
  sortWith Comparing.insertionSort fun row => return [← f.evaluateOnRow depth host e row]

def unsort : Change Unit := write fun f => { f with order := none }

end Change

namespace Frame

/-- A request done in place. -/
def Request.perform (depth : Nat) (host : Host) : Request → Change Unit
  | column name type => Change.addColumn name type
  | computed name source => Change.addComputed name source
  | row values => Change.addRow values
  | sortBy names => Change.sortBy depth host names
  | sortByExpression text => Change.sortByExpression depth host text
  | unsort => Change.unsort

/-- The frame and the store after some requests done in place, each of which may stop. -/
def performAll (depth : Nat) (host : Host) : List Request → Frame × Store → Frame × Store
  | [], kept => kept
  | r :: rs, kept => performAll depth host rs (r.perform depth host kept).2

end Frame

end FrameLang
