/-
Sorting.

Each row gets a key, computed once, and the rows are put in ascending order of their keys.  Rows
with equal keys stay as they were, so sorting by one column after another refines the order.  Two
keys may be of types that have no order between them; if such a pair is met the sort goes on, but it
has failed when it ends, and the frame stays as it is.
-/
import FrameLang.Comparing
import FrameLang.Frame.Access

namespace FrameLang

/-- The order of two keys, by the first place where they differ, as a sort gets to know it.  A sort
has no use for a failure: the first one is noted, and to the sort the two keys are equal. -/
def compareNoting : List Value → List Value → StateM (Option Error) Ordering
  | a :: as, b :: bs =>
    match a.compareKeys b with
    | .ok .eq => compareNoting as bs
    | .ok o => return o
    | .error e => do
      modify fun noted => noted.or (some e)
      return .eq
  | _, _ => return .eq

namespace Frame

open Run

/-- A physical row with its key. -/
abbrev KeyedRow := Nat × List Value

/-- A way of sorting rows, with comparisons as the only way of looking at their keys. -/
abbrev RowSort := List KeyedRow → Comparing KeyedRow (List KeyedRow)

/-- The rows in ascending order of their keys.  The sort runs to its end, and only then is a failure
that was noted on the way looked for. -/
def sortedRows (sort : RowSort) (keyed : List KeyedRow) : Except Error (List Nat) :=
  match ((sort keyed).run fun a b => compareNoting a.2 b.2).run none with
  | (_, some e) => .error e
  | (rows, none) => .ok (rows.map Prod.fst)

/-- The frame in ascending order of the keys that `key` gives its rows. -/
def sortWith (sort : RowSort) (f : Frame) (key : Nat → Run (List Value)) : Run Frame := do
  let keyed ← f.rows.mapM fun row => return (row, ← key row)
  return { f with order := some (← orReport (sortedRows sort keyed)) }

/-- The columns of the given names, to sort by. -/
def sortColumns (f : Frame) (names : List String) : Except Error (List Column) :=
  names.mapM fun name =>
    (f.column? name).elim (.error (.configuration (.noSortColumn f.name name))) .ok

/-- Sorts by columns, the first one deciding first. -/
def sortBy (depth : Nat) (host : Host) (f : Frame) (names : List String) : Run Frame := do
  let columns ← orReport (f.sortColumns names)
  f.sortWith Comparing.insertionSort fun row =>
    columns.mapM fun c => f.readColumn (Expr.runDeep depth) host c row

/-- The expression that a sort key's text stands for. -/
def sortKey (f : Frame) (text : String) : Except Error Expr := do
  let e ← (Expr.ofSource text).mapError .malformed
  discard <| f.scope.check e
  return e

/-- Sorts by the value of an expression in each row, in the way that `sort` sorts. -/
def sortByExpressionUsing (sort : RowSort) (depth : Nat) (host : Host) (f : Frame) (text : String) :
    Run Frame := do
  let e ← orReport (f.sortKey text)
  f.sortWith sort fun row => return [← f.evaluateOnRow depth host e row]

def sortByExpression (depth : Nat) (host : Host) (f : Frame) (text : String) : Run Frame :=
  f.sortByExpressionUsing Comparing.insertionSort depth host text

end Frame
end FrameLang
