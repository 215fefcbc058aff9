/-
Choosing rows by a condition.

The condition is an expression over the frame's columns and must be of type boolean.  A row is
chosen if the condition is true of it, so a condition that comes out `void` leaves the row out.
Chosen rows keep the order in which the frame shows them, which becomes their order of insertion.
-/
import FrameLang.Frame.Access

namespace FrameLang.Frame

open Run

/-- The expression that a condition's text stands for. -/
def condition (f : Frame) (text : String) : Except Error Expr := do
  let e ← (Expr.ofSource text).mapError .malformed
  let type ← f.scope.check e
  if type = .boolean then return e
  else throw (.illTyped { problem := .condition, expression := e })

/-- A frame like this one with some of its physical rows. -/
def pick (f : Frame) (rows : List Nat) : Except Error Frame :=
  rows.foldlM (fun g row => g.withRow (f.storedValues row)) f.cleared

/-- The rows of which a condition is true and those of which it is not. -/
def split (depth : Nat) (host : Host) (f : Frame) (text : String) :
    Run (List Nat × List Nat) := do
  let e ← orReport (f.condition text)
  let judged ← f.rows.mapM fun row => do
    match ← f.evaluateOnRow depth host e row with
    | .boolean true => return (row, true)
    | _ => return (row, false)
  let (chosen, left) := judged.partition Prod.snd
  return (chosen.map Prod.fst, left.map Prod.fst)

def select (depth : Nat) (host : Host) (f : Frame) (text : String) : Run Frame := do
  let (chosen, _) ← f.split depth host text
  orReport (f.pick chosen)

/-- The rows of which a condition is true in one frame and all others in a second. -/
def partition (depth : Nat) (host : Host) (f : Frame) (text : String) : Run (Frame × Frame) := do
  let (chosen, left) ← f.split depth host text
  return (← orReport (f.pick chosen), ← orReport (f.pick left))

end FrameLang.Frame
