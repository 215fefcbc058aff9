/-
Every computed column was accepted over the columns before it.

A computed column is checked once, when it is declared, against the columns there are at that
moment.  The frame then goes on changing: columns and rows come, rows are sorted, others leave.
None of that undoes the check, because the check sees names and types only.  Those are what is
left of a frame when it is cleared, and a new row, a new order or clearing itself make no
difference to the cleared frame.

`upTo i` is the frame as far as its first `i` columns go, and `Declared` says that the column in
place `i`, if it is computed, has an expression that passes the check there.  A proof by induction
on the place of a column starts from it.
-/
import FrameLang.Proofs.Frame.WellFormed

namespace FrameLang

/-! ### Clearing a column -/

namespace Column

@[simp] theorem name_cleared (c : Column) : c.cleared.name = c.name := by
  obtain ⟨name, content⟩ := c
  cases content <;> rfl

@[simp] theorem type_cleared (c : Column) : c.cleared.type = c.type := by
  obtain ⟨name, content⟩ := c
  cases content <;> rfl

/-- Clearing leaves a computed column as it is, and makes none. -/
theorem cleared_eq_computed {c : Column} {name source : String} {e : Expr} {t : ValueType} :
    c.cleared = { name, content := .computed source e t } ↔
      c = { name, content := .computed source e t } := by
  obtain ⟨other, content⟩ := c
  cases content with
  | stored cells => simp [cleared]
  | computed => exact Iff.rfl

theorem Grows.map_cleared_eq {columns grown : List Column}
    (h : List.Forall₂ Grows columns grown) : grown.map cleared = columns.map cleared := by
  induction h with
  | nil => rfl
  | cons hc _ ih =>
      rw [List.map_cons, List.map_cons, ih]
      cases hc with
      | stored entry => rfl
      | computed => rfl

end Column

namespace Frame

/-- The frame with its first columns only.  What the index says of the others leads nowhere. -/
def upTo (f : Frame) (i : Nat) : Frame := { f with columns := f.columns.take i }

/-- Each computed column has the expression of its source text, which passes the check over the
columns before it and has a type there. -/
def Declared (f : Frame) : Prop :=
  ∀ i name source e t, f.columns[i]? = some { name, content := .computed source e t } →
    Expr.ofSource source = .ok e ∧ (f.upTo i).scope.check e = .ok t ∧ t ≠ .void

/-! ### Clearing a frame -/

@[simp] theorem columnType?_cleared (f : Frame) : f.cleared.columnType? = f.columnType? := by
  funext name
  unfold columnType? column? columnIndex? cleared
  simp [Function.comp_def]

@[simp] theorem scope_cleared (f : Frame) : f.cleared.scope = f.scope := by
  unfold scope
  rw [columnType?_cleared]
  rfl

theorem upTo_cleared (f : Frame) (i : Nat) : f.cleared.upTo i = (f.upTo i).cleared := by
  simp [upTo, cleared, List.map_take]

theorem declared_cleared {f : Frame} : f.cleared.Declared ↔ f.Declared := by
  unfold Declared
  simp only [upTo_cleared, scope_cleared]
  simp [cleared, Column.cleared_eq_computed]

/-- A step adds a column at the end or is none of the cleared frame's business. -/
theorem Step.adds_or_cleared_eq {f g : Frame} (h : Step f g) :
    (∃ c, f.hasColumn c.name = false ∧ g = f.extend c ∧
      ∀ source e t, c.content = .computed source e t →
        Expr.ofSource source = .ok e ∧ f.scope.check e = .ok t ∧ t ≠ .void) ∨
    g.cleared = f.cleared := by
  cases h with
  | column hcolumn =>
      obtain ⟨_, t, _, hname, rfl⟩ := withColumn_eq_ok.mp hcolumn
      refine Or.inl ⟨_, hname, rfl, ?_⟩
      rintro _ _ _ ⟨⟩
  | computed hcomputed =>
      obtain ⟨e, t, hsource, hcheck, ht, hname, rfl⟩ := withComputed_eq_ok.mp hcomputed
      refine Or.inl ⟨_, hname, rfl, ?_⟩
      rintro _ _ _ ⟨⟩
      exact ⟨hsource, hcheck, ht⟩
  | row hrow =>
      obtain ⟨hlength, columns, hcolumns, rfl⟩ := withRow_eq_ok.mp hrow
      have hgrows := grows_of_appendToColumns hlength hcolumns
      exact Or.inr (by simp [cleared, Column.Grows.map_cleared_eq hgrows])
  | order => exact Or.inr rfl
  | unsort => exact Or.inr rfl
  | clear =>
      have hcleared : Column.cleared ∘ Column.cleared = Column.cleared := by
        funext c
        obtain ⟨name, content⟩ := c
        cases content <;> rfl
      exact Or.inr (by simp [cleared, hcleared])

/-! ### Declarations last -/

theorem find?_index_of_hasColumn {f : Frame} {name : String} (h : f.hasColumn name = false) :
    f.index.find? name = none := by
  rwa [hasColumn, Bindings.contains, Option.isSome_eq_false_iff, Option.isNone_iff_eq_none] at h

/-- A new column makes no difference to what the first ones show. -/
theorem scope_upTo_extend {f : Frame} {i : Nat} (hi : i ≤ f.columns.length) {c : Column}
    (hname : f.hasColumn c.name = false) : ((f.extend c).upTo i).scope = (f.upTo i).scope := by
  have htake : (f.columns ++ [c]).take i = f.columns.take i := List.take_append_of_le_length hi
  have hcolumn : ((f.extend c).upTo i).columnType? = (f.upTo i).columnType? := by
    funext name
    change ((f.index.insert c.name f.columns.length).find? name |>.bind
        fun j => ((f.columns ++ [c]).take i)[j]?).map Column.type = _
    rw [Bindings.find?_insert, htake]
    split
    · rename_i heq
      unfold columnType? column? columnIndex? Frame.upTo
      rw [heq, find?_index_of_hasColumn hname, Option.bind_some,
        List.getElem?_eq_none (List.length_take_le' i f.columns)]
      rfl
    · rfl
  unfold scope
  rw [hcolumn]
  rfl

theorem upTo_length (f : Frame) : f.upTo f.columns.length = f := by
  simp [upTo]

theorem Declared.step {f g : Frame} (hstep : Step f g) (h : f.Declared) : g.Declared := by
  rcases hstep.adds_or_cleared_eq with ⟨c, hname, rfl, hc⟩ | hcleared
  · intro i name source e t hi
    change (f.columns ++ [c])[i]? = _ at hi
    rcases Nat.lt_trichotomy i f.columns.length with hlt | rfl | hgt
    · rw [scope_upTo_extend (Nat.le_of_lt hlt) hname]
      exact h i name source e t (by simpa [List.getElem?_append_left hlt] using hi)
    · rw [scope_upTo_extend (Nat.le_refl _) hname, upTo_length]
      have hlast : c = { name, content := .computed source e t } := by simpa using hi
      exact hc source e t (by rw [hlast])
    · rw [List.getElem?_eq_none (by simp; omega)] at hi
      cases hi
  · rw [← declared_cleared, hcleared, declared_cleared]
    exact h

/-- **The check of a computed column stays right.**  In every frame there can be, the expression
of each computed column passes the check over the columns before it, with the column's type. -/
theorem Reachable.declared {f : Frame} (h : Reachable f) : f.Declared := by
  refine h.induct (fun _ _ => ?_) fun _ _ => Declared.step
  intro i name source e t hi
  cases hi

theorem Declared.type_ne_void {f : Frame} (hf : f.Declared) {c : Column} (hc : c ∈ f.columns) :
    c.type ≠ .void := by
  obtain ⟨name, content⟩ := c
  cases content with
  | stored cells =>
      obtain ⟨type, entries⟩ := cells
      cases type <;> nofun
  | computed source e t =>
      obtain ⟨i, hi⟩ := List.mem_iff_getElem?.mp hc
      exact (hf i name source e t hi).2.2

/-! ### Names -/

/-- A column found among the first ones is the one found among all. -/
theorem column?_of_upTo {f : Frame} {i : Nat} {name : String} {c : Column}
    (h : (f.upTo i).column? name = some c) :
    f.column? name = some c ∧ ∃ j < i, f.columns[j]? = some c := by
  obtain ⟨j, hj, hc⟩ := Option.bind_eq_some_iff.mp h
  change (f.columns.take i)[j]? = some c at hc
  rw [List.getElem?_take] at hc
  split at hc
  · rename_i hlt
    exact ⟨Option.bind_eq_some_iff.mpr ⟨j, hj, hc⟩, j, hlt, hc⟩
  · cases hc

theorem columnType?_of_upTo {f : Frame} {i : Nat} {name : String} {t : ValueType}
    (h : (f.upTo i).columnType? name = some t) : f.columnType? name = some t := by
  obtain ⟨c, hc, rfl⟩ := Option.map_eq_some_iff.mp h
  exact Option.map_eq_some_iff.mpr ⟨c, (column?_of_upTo hc).1, rfl⟩

end Frame
end FrameLang
