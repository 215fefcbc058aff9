/-
Frames with the same rows.

Two frames may differ in the order of their rows and in nothing else that can be seen: a frame and a
sorted copy of it, or the tables that a projection makes of one set of rows in two orders.  What
counts is the rows as they are shown.  So `SameRows` speaks of places: each place of the second
frame shows what some place of the first one shows, and each place of the first is used once.
-/
import FrameLang.Proofs.Frame.Partition
import FrameLang.Proofs.Frame.Table
import Mathlib.Data.List.Perm.Basic

namespace FrameLang

/-- A list in another order has each of its elements from a place of the first. -/
theorem exists_perm_range {α : Type} {l l' : List α} (h : l'.Perm l) :
    ∃ places, places.Perm (List.range l.length) ∧
      List.Forall₂ (fun i j => l[i]? = l'[j]?) places (List.range l'.length) := by
  have hrange : List.Forall₂ (fun a i => l[i]? = some a) l (List.range l.length) :=
    List.forall₂_iff_get.mpr ⟨List.length_range.symm, fun i hi hi' => by simp⟩
  obtain ⟨places, hfound, hplaces⟩ := List.perm_comp_forall₂ h hrange
  refine ⟨places, hplaces, List.forall₂_iff_get.mpr ⟨?_, fun i hi hi' => ?_⟩⟩
  · rw [← hfound.length_eq, List.length_range]
  · have hlt : i < l'.length := by simpa using hi'
    have hget := hfound.get hlt hi
    simpa [hlt] using hget

theorem rel_refl {α : Type} {r : α → α → Prop} (h : ∀ a, r a a) : ∀ o, Option.Rel r o o
  | none => .none
  | some a => .some (h a)

theorem exists_of_rel_some {α β : Type} {r : α → β → Prop} {a : α} {o : Option α}
    {o' : Option β} (h : Option.Rel r o o') (ho : o = some a) : ∃ b, o' = some b ∧ r a b := by
  cases h with
  | none => cases ho
  | some hab =>
      cases ho
      exact ⟨_, rfl, hab⟩

namespace Frame

/-- Two places in two frames show the same row, or neither frame has a row there. -/
def ShowsThere (f g : Frame) (row row' : Nat) : Prop :=
  Option.Rel (fun physical physical' => f.ShowsAs physical g physical')
    (f.physicalRow? row) (g.physicalRow? row')

/-- Two frames have the same name, columns and rows, the rows perhaps in another order. -/
structure SameRows (f g : Frame) : Prop where
  cleared : f.cleared = g.cleared
  places : ∃ places, places.Perm (List.range f.rowCount) ∧
    List.Forall₂ (f.ShowsThere g) places (List.range g.rowCount)

theorem showsThere_refl (f : Frame) (row : Nat) : f.ShowsThere f row row :=
  rel_refl (ShowsAs.refl f) (f.physicalRow? row)

namespace SameRows

variable {f g : Frame}

theorem refl (f : Frame) : f.SameRows f :=
  ⟨rfl, _, List.Perm.refl _, List.forall₂_same.mpr fun row _ => f.showsThere_refl row⟩

theorem name_eq (h : f.SameRows g) : f.name = g.name := by
  change f.cleared.name = g.cleared.name
  rw [h.cleared]

theorem columnType?_eq (h : f.SameRows g) : f.columnType? = g.columnType? := by
  rw [← columnType?_cleared, h.cleared, columnType?_cleared]

end SameRows

/-- Frames that differ in the order at most have the same rows. -/
theorem WellFormed.sameRows {f g : Frame} (hf : f.WellFormed) (hg : g.WellFormed)
    (h : g.unsort = f.unsort) : f.SameRows g := by
  obtain ⟨order, rfl⟩ : ∃ order, g = { f with order } :=
    ⟨g.order, congrArg (fun u : Frame => { u with order := g.order }) h⟩
  have hperm := hg.rows_perm.trans hf.rows_perm.symm
  have hcount : f.rows.length = f.rowCount := by simpa using hf.rows_perm.length_eq
  obtain ⟨places, hplaces, hsame⟩ := exists_perm_range hperm
  rw [hcount] at hplaces
  rw [hperm.length_eq, hcount] at hsame
  refine ⟨rfl, places, hplaces, hsame.imp fun i j hij => ?_⟩
  unfold ShowsThere
  rw [hf.physicalRow?_eq_getElem?, hg.physicalRow?_eq_getElem?, hij]
  cases ({ f with order } : Frame).rows[j]? with
  | none => exact Option.Rel.none
  | some row => exact Option.Rel.some (f.showsAs_reordered order row)

/-! ### Tables -/

section Tables

variable {registry : Registry} {name : String} {rows rows' : List (List Value)}

theorem cleared_table (headings : List Heading) :
    (table registry name headings rows).cleared = table registry name headings [] := by
  have hcolumns : (columnsOf headings rows).map Column.cleared = columnsOf headings [] := by
    induction headings generalizing rows with
    | nil => rfl
    | cons heading headings ih =>
        rw [columnsOf, List.map_cons, ih]
        rfl
  simp only [Frame.cleared, table, hcolumns, List.length_nil]

/-- The columns of two tables show the same where the tables have the same row. -/
theorem showsAs_columnsOf (headings : List Heading) {row : List Value} {i j : Nat}
    (hi : rows[i]? = some row) (hj : rows'[j]? = some row) :
    List.Forall₂ (Column.ShowsAs i j) (columnsOf headings rows) (columnsOf headings rows') := by
  induction headings generalizing rows rows' row with
  | nil => exact List.Forall₂.nil
  | cons heading headings ih =>
      have hi' : (rows.map List.tail)[i]? = some row.tail := by simp [hi]
      have hj' : (rows'.map List.tail)[j]? = some row.tail := by simp [hj]
      exact List.Forall₂.cons (.stored rfl (by simp [Cells.get, hi, hj])) (ih hi' hj')

theorem physicalRow?_table (headings : List Heading) (i : Nat) :
    (table registry name headings rows).physicalRow? i = rows[i]?.map fun _ => i := by
  by_cases hi : i < rows.length
  · simp [physicalRow?, Frame.rows, table, hi]
  · simp [physicalRow?, table, hi]

/-- **A table has the rows that it is made of**, in whatever order they came. -/
theorem sameRows_table (headings : List Heading) (h : rows'.Perm rows) :
    (table registry name headings rows).SameRows (table registry name headings rows') := by
  obtain ⟨places, hplaces, hsame⟩ := exists_perm_range h
  refine ⟨by rw [cleared_table, cleared_table], places, hplaces, hsame.imp fun i j hij => ?_⟩
  unfold ShowsThere
  rw [physicalRow?_table, physicalRow?_table]
  cases hrow : rows'[j]? with
  | none =>
      rw [hij, hrow]
      exact Option.Rel.none
  | some row =>
      rw [hij, hrow]
      exact Option.Rel.some ⟨rfl, rfl, showsAs_columnsOf headings (hij.trans hrow) hrow⟩

end Tables

end Frame

end FrameLang
