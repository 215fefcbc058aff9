/-
Sorting rows is stable.

A comparison of rows does not say in full how they are to be arranged, because rows may compare
equal.  If these have to stay as they were, it does: `Arranges` asks for the rows in ascending
order, equal ones in the order of before, and there is one such arrangement (`Arranges.unique`).
So two ways of sorting are the same if both arrange the same rows, and to arrange them by one
comparison and then by another is to arrange them by the second and then the first
(`Arranges.trans`).

Putting one thing after another in its place is an insertion sort (`answered_insertionSort_eq`), and
where the answers are a total preorder it arranges them (`arranges_insertionSort`).  Keys are
compared by a function that may fail; where it does not fail for the keys at hand, rows are sorted
in this way (`sortedRows_eq`).
-/
import FrameLang.Proofs.Comparing

namespace FrameLang

/-! ### Pairs in a list -/

section Pairs

variable {α : Type} {l : List α} {a b : α}

theorem not_sublist_swap (hl : l.Nodup) (h : [a, b].Sublist l) : ¬[b, a].Sublist l := by
  intro hswap
  have heq : [a, b] = [b, a] :=
    (hl.perm_iff_eq_of_sublist h hswap).mp (List.Perm.swap b a [])
  have hab : a = b := (List.cons.inj heq).1
  exact absurd (hl.sublist h) (by simp [hab])

/-- Of two members of a list one stands before the other. -/
theorem sublist_or_swap (ha : a ∈ l) (hb : b ∈ l) (hab : a ≠ b) :
    [a, b].Sublist l ∨ [b, a].Sublist l := by
  induction l with
  | nil => cases ha
  | cons c l ih =>
      rcases List.mem_cons.mp ha with rfl | ha'
      · have hb' := (List.mem_cons.mp hb).resolve_left (Ne.symm hab)
        exact Or.inl ((List.singleton_sublist.mpr hb').cons_cons a)
      · rcases List.mem_cons.mp hb with rfl | hb'
        · exact Or.inr ((List.singleton_sublist.mpr ha').cons_cons b)
        · exact (ih ha' hb').imp (List.Sublist.cons c) (List.Sublist.cons c)

end Pairs

/-! ### Arrangements -/

/-- `a` has to come before `b`: it is smaller, or they are equal and it stands before `b` in `rows`
already. -/
def ComesBefore {α : Type} (cmp : α → α → Ordering) (rows : List α) (a b : α) : Prop :=
  cmp a b = .lt ∨ cmp a b = .eq ∧ [a, b].Sublist rows

/-- `sorted` has the rows in ascending order, and equal ones as they were. -/
structure Arranges {α : Type} (cmp : α → α → Ordering) (rows sorted : List α) : Prop where
  perm : sorted.Perm rows
  ascending : sorted.Pairwise (ComesBefore cmp rows)

namespace Arranges

variable {α : Type} {cmp cmp' : α → α → Ordering} {rows sorted : List α}

theorem comesBefore (h : Arranges cmp rows sorted) {a b : α} (hab : [a, b].Sublist sorted) :
    ComesBefore cmp rows a b :=
  List.pairwise_iff_forall_sublist.mp h.ascending hab

/-- **Rows can be arranged in one way only.** -/
theorem unique [Std.OrientedCmp cmp] (hrows : rows.Nodup) {sorted' : List α}
    (h : Arranges cmp rows sorted) (h' : Arranges cmp rows sorted') : sorted = sorted' := by
  refine List.Perm.eq_of_pairwise ?_ h.ascending h'.ascending (h.perm.trans h'.perm.symm)
  intro a b _ _ hab hba
  have hswap : cmp a b = (cmp b a).swap := Std.OrientedCmp.eq_swap
  rcases hab with hlt | ⟨heq, hfirst⟩
  · rcases hba with hlt' | ⟨heq', _⟩
    · rw [hswap, hlt'] at hlt
      cases hlt
    · rw [hswap, heq'] at hlt
      cases hlt
  · rcases hba with hlt' | ⟨_, hfirst'⟩
    · rw [hswap, hlt'] at heq
      cases heq
    · exact absurd hfirst' (not_sublist_swap hrows hfirst)

/-- Arranged rows are arranged further: what compares equal the second time is as the first time
left it. -/
theorem trans {middle last : List α} (h : Arranges cmp rows middle)
    (h' : Arranges cmp' middle last) : Arranges (compareLex cmp' cmp) rows last := by
  refine ⟨h'.perm.trans h.perm, h'.ascending.imp ?_⟩
  intro a b hab
  unfold ComesBefore compareLex
  rcases hab with hlt | ⟨heq, hfirst⟩
  · exact Or.inl (by rw [hlt]; rfl)
  · rw [heq]
    exact h.comesBefore hfirst

/-- Arranged rows are arranged already. -/
theorem again (h : Arranges cmp rows sorted) : Arranges cmp sorted sorted := by
  refine ⟨List.Perm.refl _, List.pairwise_iff_forall_sublist.mpr ?_⟩
  intro a b hab
  exact (h.comesBefore hab).imp_right fun heq => ⟨heq.1, hab⟩

/-- Some of the arranged rows are arranged. -/
theorem filter (h : Arranges cmp rows sorted) (chosen : α → Bool) :
    Arranges cmp (rows.filter chosen) (sorted.filter chosen) := by
  refine ⟨h.perm.filter chosen, List.pairwise_iff_forall_sublist.mpr fun {a b} hab => ?_⟩
  have hboth : [a, b].filter chosen = [a, b] :=
    List.filter_eq_self.mpr fun c hc => (List.mem_filter.mp (hab.subset hc)).2
  refine (h.comesBefore (hab.trans List.filter_sublist)).imp_right fun ⟨heq, hfirst⟩ => ⟨heq, ?_⟩
  exact hboth ▸ hfirst.filter chosen

/-- Under other names rows are arranged as they were. -/
theorem map {β : Type} {cmp' : β → β → Ordering} {name : α → β} (h : Arranges cmp rows sorted)
    (hcmp : ∀ a ∈ rows, ∀ b ∈ rows, cmp' (name a) (name b) = cmp a b) :
    Arranges cmp' (rows.map name) (sorted.map name) := by
  refine ⟨h.perm.map name, List.pairwise_map.mpr (h.ascending.imp_of_mem ?_)⟩
  intro a b ha hb hab
  unfold ComesBefore
  rw [hcmp a (h.perm.mem_iff.mp ha) b (h.perm.mem_iff.mp hb)]
  exact hab.imp_right fun ⟨heq, hfirst⟩ => ⟨heq, hfirst.map name⟩

/-- Rows that compare equal stay in their order. -/
theorem sublist_iff [Std.OrientedCmp cmp] (hrows : rows.Nodup) (h : Arranges cmp rows sorted)
    {a b : α} (hab : cmp a b = .eq) : [a, b].Sublist sorted ↔ [a, b].Sublist rows := by
  have hforth : ∀ {a b : α}, cmp a b = .eq → [a, b].Sublist sorted → [a, b].Sublist rows := by
    intro a b hab hsorted
    rcases h.comesBefore hsorted with hlt | ⟨_, hfirst⟩
    · rw [hab] at hlt
      cases hlt
    · exact hfirst
  refine ⟨hforth hab, fun hfirst => ?_⟩
  have hne : a ≠ b := by
    rintro rfl
    exact not_sublist_swap hrows hfirst hfirst
  have hmem : ∀ c ∈ [a, b], c ∈ sorted := fun c hc => h.perm.mem_iff.mpr (hfirst.subset hc)
  rcases sublist_or_swap (hmem a (by simp)) (hmem b (by simp)) hne with hsorted | hsorted
  · exact hsorted
  · have hba : cmp b a = .eq := Std.OrientedCmp.eq_symm hab
    exact absurd (hforth hba hsorted) (not_sublist_swap hrows hfirst)

end Arranges

/-! ### Insertion -/

/-- Being not smaller, the order in which rows are put in place. -/
abbrev NotBelow {α : Type} (cmp : α → α → Ordering) (a b : α) : Prop := cmp a b ≠ .lt

section Insertion

variable {α : Type} {cmp : α → α → Ordering} [Std.TransCmp cmp]

instance : Std.Total (NotBelow cmp) where
  total a b := by
    have hswap : cmp b a = (cmp a b).swap := Std.OrientedCmp.eq_swap
    unfold NotBelow
    rw [hswap]
    cases cmp a b <;> simp

instance : IsTrans α (NotBelow cmp) where
  trans a b c hab hbc := by
    unfold NotBelow at *
    have hge : ∀ o : Ordering, o ≠ .lt ↔ o.isGE = true := by decide
    rw [hge] at *
    exact Std.TransCmp.isGE_trans hab hbc

/-- **Insertion from the end arranges the rows.** -/
theorem arranges_insertionSort {rows : List α} (hrows : rows.Nodup) :
    Arranges cmp rows (rows.reverse.insertionSort (NotBelow cmp)).reverse := by
  have hperm : (rows.reverse.insertionSort (NotBelow cmp)).Perm rows :=
    (List.perm_insertionSort _ _).trans (List.reverse_perm rows)
  refine ⟨(List.reverse_perm _).trans hperm, List.pairwise_iff_forall_sublist.mpr ?_⟩
  intro a b hab
  have hba : [b, a].Sublist (rows.reverse.insertionSort (NotBelow cmp)) := by
    rw [← List.reverse_sublist]
    exact hab
  have hnot : NotBelow cmp b a :=
    List.pairwise_iff_forall_sublist.mp (List.pairwise_insertionSort _ _) hba
  have hnodup := hperm.symm.nodup hrows
  cases hcmp : cmp a b with
  | lt => exact Or.inl hcmp
  | gt => exact absurd (Std.OrientedCmp.lt_of_gt hcmp) hnot
  | eq =>
      refine Or.inr ⟨hcmp, ?_⟩
      have hne : a ≠ b := by
        rintro rfl
        exact not_sublist_swap hnodup hba hba
      have hmem : ∀ c ∈ [b, a], c ∈ rows := fun c hc => hperm.mem_iff.mp (hba.subset hc)
      rcases sublist_or_swap (hmem a (by simp)) (hmem b (by simp)) hne with hfirst | hfirst
      · exact hfirst
      · -- the other way round, `a` would have been placed later and in front of `b`
        have hback : [a, b].Sublist rows.reverse := by
          rw [← List.reverse_sublist, List.reverse_reverse]
          exact hfirst
        have hkept := List.pair_sublist_insertionSort (r := NotBelow cmp)
          (by rw [NotBelow, hcmp]; nofun) hback
        exact absurd hkept (not_sublist_swap hnodup hba)

end Insertion

/-- Putting things in place one after another is an insertion sort from the end. -/
theorem Comparing.answered_insertionSort_eq {α : Type} (answer : α → α → Ordering) (xs : List α) :
    (insertionSort xs).answered answer = (xs.reverse.insertionSort (NotBelow answer)).reverse := by
  have hinsert : ∀ (x : α) (placed : List α),
      (insert x placed).answered answer = placed.orderedInsert (NotBelow answer) x := by
    intro x placed
    induction placed with
    | nil => rfl
    | cons y placed ih =>
        rw [answered_insert_cons, List.orderedInsert, ih]
        by_cases hlt : answer x y = .lt
        · rw [if_pos hlt, if_neg (not_not.mpr hlt)]
        · rw [if_neg hlt, if_pos hlt]
  have hfold : ∀ placed : List α, (insertAll xs placed).answered answer =
      xs.foldl (fun placed x => placed.orderedInsert (NotBelow answer) x) placed := by
    induction xs with
    | nil => exact fun _ => rfl
    | cons x xs ih =>
        intro placed
        rw [insertAll_cons, answered_bind, hinsert, ih, List.foldl_cons]
  rw [answered_insertionSort, hfold, List.insertionSort, List.foldr_reverse]

/-! ### Rows with keys -/

namespace Frame

section Keys

variable {key : Nat → List Value} {cmp : Nat → Nat → Ordering}

/-- Where keys can be compared, sorting is an insertion sort. -/
theorem sortedRows_eq {rows : List Nat} (hrows : rows.Nodup)
    (h : ∀ a b, compareKeyLists (key a) (key b) = .ok (cmp a b)) :
    sortedRows Comparing.insertionSort (rows.map fun r => (r, key r)) =
      .ok (rows.reverse.insertionSort (NotBelow cmp)).reverse := by
  have hnodup : (rows.map fun r => (r, key r)).Nodup :=
    hrows.map fun _ _ heq => (Prod.mk.inj heq).1
  have hasked : ∀ a b,
      (a, b) ∈ (Comparing.insertionSort (rows.map fun r => (r, key r))).asked
        (fun a b => cmp a.1 b.1) → compareRows a b = .ok (cmp a.1 b.1) := by
    intro a b hab
    obtain ⟨ha, hb, -⟩ := Comparing.sorts_insertionSort.different _ _ hnodup a b hab
    obtain ⟨i, -, rfl⟩ := List.mem_map.mp ha
    obtain ⟨j, -, rfl⟩ := List.mem_map.mp hb
    exact h i j
  have hsorted : (rows.map fun r => (r, key r)).reverse.insertionSort
      (NotBelow fun a b => cmp a.1 b.1) =
      (rows.reverse.insertionSort (NotBelow cmp)).map fun r => (r, key r) := by
    rw [← List.map_reverse]
    exact (List.map_insertionSort (NotBelow cmp) (NotBelow fun a b => cmp a.1 b.1)
      (fun r => (r, key r)) rows.reverse fun _ _ _ _ => Iff.rfl).symm
  rw [sortedRows_eq_run, Comparing.run_of_asked hasked, Comparing.answered_insertionSort_eq,
    hsorted, Except.map, ← List.map_reverse, List.map_map]
  exact congrArg Except.ok (List.map_id _)

end Keys

/-- **Sorting arranges the rows**, if their keys are there without a run and compare as `cmp`
does. -/
theorem sortWith_eq_ok {f : Frame} (hf : f.rows.Nodup) {key : Nat → Run (List Value)}
    {value : Nat → List Value} (hkey : ∀ row, key row = pure (value row))
    {cmp : Nat → Nat → Ordering} [Std.TransCmp cmp]
    (hcmp : ∀ a b, compareKeyLists (value a) (value b) = .ok (cmp a b)) :
    ∃ order, Arranges cmp f.rows order ∧
      f.sortWith Comparing.insertionSort key = pure { f with order := some order } := by
  refine ⟨_, arranges_insertionSort hf, ?_⟩
  have hkeyed : (f.rows.mapM fun row => do return (row, ← key row) : Run (List KeyedRow)) =
      pure (f.rows.map fun row => (row, value row)) := by
    simp only [hkey, pure_bind]
    exact List.mapM_pure
  unfold sortWith
  rw [hkeyed, pure_bind, sortedRows_eq hf hcmp]
  rfl

end Frame

end FrameLang
