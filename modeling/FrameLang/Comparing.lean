/-
Sorting by comparisons.

A sort learns nothing of what it sorts but how two things compare.  So it is a tree: either it is
done, or it asks about two things and goes on with the answer.  Who answers is not its business; the
same sort can be run with answers that are computed, that may fail, or that leave a note.
-/
namespace FrameLang

/-- A computation that may ask how two things compare. -/
inductive Comparing (α β : Type)
  | done (result : β)
  | ask (a b : α) (next : Ordering → Comparing α β)

namespace Comparing

variable {α β γ : Type}

protected def bind : Comparing α β → (β → Comparing α γ) → Comparing α γ
  | done result, f => f result
  | ask a b next, f => ask a b fun answer => (next answer).bind f

instance : Monad (Comparing α) where
  pure := done
  bind := Comparing.bind

def compare (a b : α) : Comparing α Ordering := ask a b done

/-- The result where `answer` compares. -/
def run {m : Type → Type} [Monad m] (answer : α → α → m Ordering) : Comparing α β → m β
  | done result => pure result
  | ask a b next => do (next (← answer a b)).run answer

/-- Puts one thing among others in descending order, in front of the first that it does not come
before. -/
def insert (x : α) : List α → Comparing α (List α)
  | [] => return [x]
  | y :: ys => do
    match ← compare x y with
    | .lt => return y :: (← insert x ys)
    | _ => return x :: y :: ys

/-- Puts one thing after another in its place, behind those that are equal to it. -/
def insertionSort (xs : List α) : Comparing α (List α) := do
  let descending ← xs.foldlM (fun placed x => insert x placed) []
  return descending.reverse

end Comparing
end FrameLang
