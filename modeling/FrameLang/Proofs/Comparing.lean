/-
Sorts as they are relied on.

What a sort does depends on nothing but the answers it gets.  With fixed answers it has a result
(`answered`) and a list of what it asked (`asked`), and that is all there is to say of it: `Sorts`
asks for nothing else, and insertion meets it (`sorts_insertionSort`).

Comparing keys may fail.  The comparison that a sort is given notes the first failure and answers
all the same, so the sort goes its way to the end.  That comes to the same as giving up at the first
failure (`sortedRows_eq_run`): up to there the answers are the same, and after it nothing counts.
-/
import FrameLang.Frame.Sorting
import Mathlib.Data.List.Chain
import Mathlib.Data.List.Sort
import Mathlib.Tactic.Tauto

namespace FrameLang

namespace Comparing

variable {α β γ : Type}

/-! ### Fixed answers -/

/-- The result where things compare as `answer` says. -/
def answered (answer : α → α → Ordering) : Comparing α β → β
  | done result => result
  | ask a b next => (next (answer a b)).answered answer

/-- What is compared on the way to the result, first things first. -/
def asked (answer : α → α → Ordering) : Comparing α β → List (α × α)
  | done _ => []
  | ask a b next => (a, b) :: (next (answer a b)).asked answer

section Answers

variable (answer : α → α → Ordering)

@[simp]
theorem answered_pure (result : β) : (pure result : Comparing α β).answered answer = result := rfl

@[simp]
theorem asked_pure (result : β) : (pure result : Comparing α β).asked answer = [] := rfl

@[simp]
theorem answered_compare (a b : α) : (compare a b).answered answer = answer a b := rfl

@[simp]
theorem asked_compare (a b : α) : (compare a b).asked answer = [(a, b)] := rfl

@[simp]
theorem answered_bind (p : Comparing α β) (f : β → Comparing α γ) :
    (p >>= f).answered answer = (f (p.answered answer)).answered answer := by
  induction p with
  | done result => rfl
  | ask a b next ih => exact ih (answer a b)

@[simp]
theorem asked_bind (p : Comparing α β) (f : β → Comparing α γ) :
    (p >>= f).asked answer = p.asked answer ++ (f (p.answered answer)).asked answer := by
  induction p with
  | done result => rfl
  | ask a b next ih => exact congrArg ((a, b) :: ·) (ih (answer a b))

end Answers

/-- `a` may stand in front of `b`: the two have been compared, and the answer was not that they are
the other way round. -/
def Settles (answer : α → α → Ordering) (asked : List (α × α)) (a b : α) : Prop :=
  (a, b) ∈ asked ∧ answer a b ≠ .gt ∨ (b, a) ∈ asked ∧ answer b a ≠ .lt

theorem Settles.mono {answer : α → α → Ordering} {asked asked' : List (α × α)} {a b : α}
    (h : Settles answer asked a b) (hsubset : asked ⊆ asked') : Settles answer asked' a b :=
  h.imp (And.imp_left (hsubset ·)) (And.imp_left (hsubset ·))

/-- A sort, whatever it is told: it gives back what it was given, it compares different things, and
of two things that end up side by side it has been told that they may. -/
structure Sorts (sort : List α → Comparing α (List α)) : Prop where
  perm : ∀ answer xs, ((sort xs).answered answer).Perm xs
  different : ∀ answer xs, xs.Nodup → ∀ a b, (a, b) ∈ (sort xs).asked answer →
    a ∈ xs ∧ b ∈ xs ∧ a ≠ b
  neighbours : ∀ answer xs,
    ((sort xs).answered answer).IsChain (Settles answer ((sort xs).asked answer))

/-! ### Insertion -/

section Insertion

variable (answer : α → α → Ordering) (x y : α) (xs ys : List α)

theorem answered_insert_cons : (insert x (y :: ys)).answered answer =
    if answer x y = .lt then y :: (insert x ys).answered answer else x :: y :: ys := by
  rw [insert, answered_bind, answered_compare]
  cases answer x y <;> simp

theorem asked_insert_cons : (insert x (y :: ys)).asked answer =
    (x, y) :: if answer x y = .lt then (insert x ys).asked answer else [] := by
  rw [insert, asked_bind, answered_compare, asked_compare]
  cases answer x y <;> simp

theorem perm_insert : ((insert x ys).answered answer).Perm (x :: ys) := by
  induction ys with
  | nil => exact List.Perm.refl _
  | cons y ys ih =>
      rw [answered_insert_cons]
      split
      · exact (ih.cons y).trans (List.Perm.swap x y ys)
      · exact List.Perm.refl _

/-- Only the thing that is put in place is compared with others. -/
theorem mem_of_asked_insert {a b : α} (h : (a, b) ∈ (insert x ys).asked answer) :
    a = x ∧ b ∈ ys := by
  induction ys with
  | nil => cases h
  | cons y ys ih =>
      rw [asked_insert_cons, List.mem_cons] at h
      rcases h with heq | hlater
      · cases heq
        exact ⟨rfl, List.mem_cons_self⟩
      · split at hlater
        · exact (ih hlater).imp_right (List.mem_cons_of_mem y)
        · cases hlater

/-- **What is put in place is compared with both its neighbours.** -/
theorem isChain_insert {asked : List (α × α)}
    (hplaced : ys.IsChain fun a b => Settles answer asked b a)
    (hasked : (insert x ys).asked answer ⊆ asked) :
    ((insert x ys).answered answer).IsChain (fun a b => Settles answer asked b a) ∧
      ∀ first ∈ ((insert x ys).answered answer).head?, first = x ∨ first ∈ ys.head? := by
  induction ys with
  | nil => exact ⟨List.isChain_singleton x, by simp [insert]⟩
  | cons y ys ih =>
      rw [asked_insert_cons, List.cons_subset] at hasked
      rw [answered_insert_cons]
      split at hasked
      · rename_i hlt
        obtain ⟨hchain, hhead⟩ := ih hplaced.tail hasked.2
        rw [if_pos hlt]
        refine ⟨hchain.cons fun first hfirst => ?_, by simp⟩
        rcases hhead first hfirst with rfl | hnext
        · exact Or.inl ⟨hasked.1, by simp [hlt]⟩
        · exact hplaced.rel_head? hnext
      · rename_i hnot
        rw [if_neg hnot]
        exact ⟨hplaced.cons_cons (Or.inr ⟨hasked.1, hnot⟩), by simp⟩

/-- Puts one thing after another among those that are placed. -/
abbrev insertAll (xs placed : List α) : Comparing α (List α) :=
  xs.foldlM (fun placed x => insert x placed) placed

theorem insertAll_cons (placed : List α) :
    insertAll (x :: xs) placed = insert x placed >>= insertAll xs :=
  List.foldlM_cons

theorem perm_insertAll (placed : List α) :
    ((insertAll xs placed).answered answer).Perm (xs ++ placed) := by
  induction xs generalizing placed with
  | nil => exact List.Perm.refl _
  | cons x xs ih =>
      rw [insertAll_cons, answered_bind]
      exact (ih _).trans
        (((perm_insert answer x placed).append_left xs).trans List.perm_middle)

theorem mem_of_asked_insertAll {placed : List α} (hnodup : (xs ++ placed).Nodup) {a b : α}
    (h : (a, b) ∈ (insertAll xs placed).asked answer) :
    a ∈ xs ++ placed ∧ b ∈ xs ++ placed ∧ a ≠ b := by
  induction xs generalizing placed with
  | nil => cases h
  | cons x xs ih =>
      rw [insertAll_cons, asked_bind, List.mem_append] at h
      rcases h with hfirst | hlater
      · obtain ⟨rfl, hb⟩ := mem_of_asked_insert answer x placed hfirst
        refine ⟨List.mem_cons_self, List.mem_append_right _ hb, ?_⟩
        rintro rfl
        exact (List.nodup_cons.mp hnodup).1 (List.mem_append_right _ hb)
      · have hperm : (xs ++ (insert x placed).answered answer).Perm (x :: xs ++ placed) :=
          ((perm_insert answer x placed).append_left xs).trans List.perm_middle
        simpa only [hperm.mem_iff] using ih (hperm.symm.nodup hnodup) hlater

theorem isChain_insertAll {placed : List α} {asked : List (α × α)}
    (hplaced : placed.IsChain fun a b => Settles answer asked b a)
    (hasked : (insertAll xs placed).asked answer ⊆ asked) :
    ((insertAll xs placed).answered answer).IsChain fun a b => Settles answer asked b a := by
  induction xs generalizing placed with
  | nil => exact hplaced
  | cons x xs ih =>
      rw [insertAll_cons, asked_bind, List.append_subset] at hasked
      rw [insertAll_cons, answered_bind]
      exact ih (isChain_insert answer x placed hplaced hasked.1).1 hasked.2

theorem answered_insertionSort :
    (insertionSort xs).answered answer = ((insertAll xs []).answered answer).reverse := by
  rw [insertionSort, answered_bind, answered_pure]

theorem asked_insertionSort :
    (insertionSort xs).asked answer = (insertAll xs []).asked answer := by
  rw [insertionSort, asked_bind, asked_pure, List.append_nil]

end Insertion

/-- **Insertion is a sort.** -/
theorem sorts_insertionSort : Sorts (insertionSort (α := α)) where
  perm answer xs := by
    rw [answered_insertionSort]
    exact (List.reverse_perm _).trans (by simpa using perm_insertAll answer xs [])
  different answer xs hnodup a b h := by
    rw [asked_insertionSort] at h
    simpa using mem_of_asked_insertAll answer xs (by simpa using hnodup) h
  neighbours answer xs := by
    rw [answered_insertionSort, asked_insertionSort, List.isChain_reverse]
    exact isChain_insertAll answer xs List.isChain_nil (List.Subset.refl _)

/-! ### Comparisons that may fail -/

section Failing

variable {cmp : α → α → Except Error Ordering} {p : Comparing α β}

/-- The answer that a sort gets to hear. -/
def heard (cmp : α → α → Except Error Ordering) (a b : α) : Ordering :=
  match cmp a b with
  | .ok o => o
  | .error _ => .eq

/-- Where no comparison fails, the result is the one by the answers. -/
theorem run_eq_ok {result : β} (h : p.run cmp = .ok result) :
    result = p.answered (heard cmp) ∧
      ∀ a b, (a, b) ∈ p.asked (heard cmp) → cmp a b = .ok (heard cmp a b) := by
  induction p with
  | done result' =>
      cases h
      exact ⟨rfl, by simp [asked]⟩
  | ask a b next ih =>
      cases hcmp : cmp a b with
      | error e =>
          rw [run, hcmp] at h
          cases h
      | ok o =>
          rw [run, hcmp] at h
          have hheard : heard cmp a b = o := by rw [heard, hcmp]
          obtain ⟨hresult, hall⟩ := ih o h
          rw [answered, asked, hheard]
          refine ⟨hresult, fun a' b' hmem => ?_⟩
          rcases List.mem_cons.mp hmem with heq | hlater
          · cases heq
            rw [hheard, hcmp]
          · exact hall a' b' hlater

theorem run_of_asked {answer : α → α → Ordering}
    (h : ∀ a b, (a, b) ∈ p.asked answer → cmp a b = .ok (answer a b)) :
    p.run cmp = .ok (p.answered answer) := by
  induction p with
  | done result => rfl
  | ask a b next ih =>
      rw [run, h a b List.mem_cons_self]
      exact ih _ fun a' b' hmem => h a' b' (List.mem_cons_of_mem _ hmem)

/-- A run fails where a comparison does. -/
theorem run_eq_error {e : Error} (h : p.run cmp = .error e) :
    ∃ a b, (a, b) ∈ p.asked (heard cmp) ∧ cmp a b = .error e := by
  induction p with
  | done result => cases h
  | ask a b next ih =>
      rw [asked]
      cases hcmp : cmp a b with
      | error e' =>
          rw [run, hcmp] at h
          cases h
          exact ⟨a, b, List.mem_cons_self, hcmp⟩
      | ok o =>
          have hheard : heard cmp a b = o := by rw [heard, hcmp]
          rw [run, hcmp] at h
          obtain ⟨a', b', hmem, he⟩ := ih o h
          exact ⟨a', b', List.mem_cons_of_mem _ (hheard ▸ hmem), he⟩

end Failing

end Comparing

/-! ### Comparing keys -/

/-- The order of two keys, by the first place where they differ. -/
def compareKeyLists : List Value → List Value → Except Error Ordering
  | a :: as, b :: bs => do
    match ← a.compareKeys b with
    | .eq => compareKeyLists as bs
    | o => return o
  | _, _ => .ok .eq

/-- A comparison that notes failures answers like one that fails, and notes what that one fails
with. -/
theorem compareNoting_eq (as bs : List Value) (noted : Option Error) :
    (compareNoting as bs).run noted =
      match compareKeyLists as bs with
      | .ok o => (o, noted)
      | .error e => (.eq, noted.or (some e)) := by
  induction as generalizing bs with
  | nil => rfl
  | cons a as ih =>
      cases bs with
      | nil => rfl
      | cons b bs =>
          rw [compareNoting, compareKeyLists]
          cases a.compareKeys b with
          | error e => rfl
          | ok o =>
              cases o with
              | eq => exact ih bs
              | lt => rfl
              | gt => rfl

namespace Frame

/-- How two rows compare, by their keys. -/
abbrev compareRows (a b : KeyedRow) : Except Error Ordering := compareKeyLists a.2 b.2

/-- The comparison that a sort of rows is given. -/
abbrev compareRowsNoting (a b : KeyedRow) : StateM (Option Error) Ordering := compareNoting a.2 b.2

open Comparing (heard)

/-- What has been noted stays noted. -/
theorem run_compareRowsNoting_of_noted {β : Type} (p : Comparing KeyedRow β) (e : Error) :
    (p.run compareRowsNoting).run (some e) = (p.answered (heard compareRows), some e) := by
  induction p with
  | done result => rfl
  | ask a b next ih =>
      have hstep : (compareRowsNoting a b).run (some e) = (heard compareRows a b, some e) := by
        rw [compareRowsNoting, compareNoting_eq, heard, compareRows]
        cases compareKeyLists a.2 b.2 with
        | ok o => rfl
        | error e' => rfl
      rw [Comparing.run, StateT.run_bind, hstep]
      exact ih (heard compareRows a b)

/-- A run that notes failures ends as one that stops at them. -/
theorem run_compareRowsNoting {β : Type} (p : Comparing KeyedRow β) :
    (p.run compareRowsNoting).run none =
      match p.run compareRows with
      | .ok result => (result, none)
      | .error e => (p.answered (heard compareRows), some e) := by
  induction p with
  | done result => rfl
  | ask a b next ih =>
      have hstep := compareNoting_eq a.2 b.2 none
      rw [Comparing.run, Comparing.run, Comparing.answered, StateT.run_bind, hstep, heard,
        compareRows]
      cases compareKeyLists a.2 b.2 with
      | ok o => exact ih o
      | error e => exact run_compareRowsNoting_of_noted (next .eq) e

/-- **To note the first failure and look for it in the end is to stop at it.** -/
theorem sortedRows_eq_run (sort : RowSort) (keyed : List KeyedRow) :
    sortedRows sort keyed = ((sort keyed).run compareRows).map (List.map Prod.fst) := by
  unfold sortedRows
  rw [run_compareRowsNoting]
  cases (sort keyed).run compareRows with
  | ok rows => rfl
  | error e => rfl

variable {sort : RowSort} {keyed : List KeyedRow}

theorem sortedRows_eq_ok {rows : List Nat} (h : sortedRows sort keyed = .ok rows) :
    rows = ((sort keyed).answered (heard compareRows)).map Prod.fst ∧
      ∀ a b, (a, b) ∈ (sort keyed).asked (heard compareRows) →
        compareRows a b = .ok (heard compareRows a b) := by
  rw [sortedRows_eq_run] at h
  cases hrun : (sort keyed).run compareRows with
  | error e =>
      rw [hrun] at h
      cases h
  | ok sorted =>
      rw [hrun] at h
      cases h
      obtain ⟨rfl, hall⟩ := Comparing.run_eq_ok hrun
      exact ⟨rfl, hall⟩

theorem sortedRows_eq_error {e : Error} (h : sortedRows sort keyed = .error e) :
    ∃ a b, (a, b) ∈ (sort keyed).asked (heard compareRows) ∧ compareRows a b = .error e := by
  rw [sortedRows_eq_run] at h
  cases hrun : (sort keyed).run compareRows with
  | ok sorted =>
      rw [hrun] at h
      cases h
  | error e' =>
      rw [hrun] at h
      cases h
      exact Comparing.run_eq_error hrun

/-- The sorted rows are the rows that were given. -/
theorem perm_of_sortedRows (hsort : Comparing.Sorts sort) {rows : List Nat}
    (h : sortedRows sort keyed = .ok rows) : rows.Perm (keyed.map Prod.fst) := by
  obtain ⟨rfl, -⟩ := sortedRows_eq_ok h
  exact (hsort.perm _ keyed).map Prod.fst

end Frame

end FrameLang
