/-
Every frame is well formed.

A frame keeps things that have to fit together: the names of its columns, of which no two may be
alike, and the index, which has to say where each of them is and nothing else; the cells of its
stored columns, one for every row; and the order of its rows, which has to name every row once.
Nothing in the type of a frame says that they do, and nothing that reads a frame checks it.  A cell
that is missing reads as `void`, so a column that came out short would not fail but show nulls.

They do fit.  `WellFormed` collects them, each step that builds a frame keeps it, and so every frame
there can be has it, with the index that it was built with or that was copied for it.  What follows
is that no read ever goes astray: every name in the index leads to the column of that name, every
row that is shown has a physical place, and every stored column has a cell there.
-/
import FrameLang.Proofs.Frame.Reachable
import Mathlib.Data.List.Induction
import Mathlib.Data.List.Nodup

namespace FrameLang

/-- A stored column that has as many cells as there are rows; a computed column has none to
count. -/
def Column.Holds (rowCount : Nat) (c : Column) : Prop :=
  ∀ cells, c.content = .stored cells → cells.size = rowCount

/-- A column before and after a row is appended. -/
inductive Column.Grows : Column → Column → Prop
  | stored {name : String} {cells : Cells} (entry : Option cells.type.Carrier) :
      Grows { name, content := .stored cells } { name, content := .stored (cells.push entry) }
  | computed {name source : String} {e : Expr} {type : ValueType} :
      Grows { name, content := .computed source e type }
        { name, content := .computed source e type }

/-- A column takes its part of a row: the first column is before, the second one after, and the
second list is left for the columns that come next. -/
inductive Column.Takes : Column → List Value → Column → List Value → Prop
  | stored {name : String} {cells : Cells} {v : Value} {values : List Value}
      {entry : Option cells.type.Carrier} (h : cells.type.fit? v = some entry) :
      Takes { name, content := .stored cells } (v :: values)
        { name, content := .stored (cells.push entry) } values
  | exhausted {name : String} {cells : Cells} :
      Takes { name, content := .stored cells } [] { name, content := .stored cells } []
  | computed {name source : String} {e : Expr} {type : ValueType} {values : List Value} :
      Takes { name, content := .computed source e type } values
        { name, content := .computed source e type } values

namespace Column.Grows

variable {c d : Column}

theorem name_eq (h : Grows c d) : d.name = c.name := by
  cases h with
  | stored entry => rfl
  | computed => rfl

theorem holds (h : Grows c d) {n : Nat} (hc : c.Holds n) : d.Holds (n + 1) := by
  cases h with
  | @stored name cells entry =>
      rintro _ ⟨⟩
      rw [Cells.size_push, hc cells rfl]
  | computed => rintro _ ⟨⟩

theorem map_name_eq {columns grown : List Column} (h : List.Forall₂ Grows columns grown) :
    grown.map Column.name = columns.map Column.name := by
  induction h with
  | nil => rfl
  | cons hc _ ih => rw [List.map_cons, List.map_cons, hc.name_eq, ih]

theorem forall_holds {columns grown : List Column} (h : List.Forall₂ Grows columns grown) {n : Nat}
    (hcolumns : ∀ c ∈ columns, c.Holds n) : ∀ d ∈ grown, d.Holds (n + 1) := by
  induction h with
  | nil => simp
  | cons hc _ ih =>
      intro d hd
      rcases List.mem_cons.mp hd with rfl | hrest
      · exact hc.holds (hcolumns _ (by simp))
      · exact ih (fun c hmem => hcolumns c (by simp [hmem])) d hrest

end Column.Grows

namespace Bindings

/-- Every name is at the place that it is bound to, and no other name is bound. -/
def Places (b : Bindings Nat) (names : List String) : Prop :=
  ∀ name i, b.find? name = some i ↔ names[i]? = some name

/-- A new name is bound to the place behind the others. -/
theorem Places.insert {b : Bindings Nat} {names : List String} (h : b.Places names) {last : String}
    (hlast : last ∉ names) : (b.insert last names.length).Places (names ++ [last]) := by
  intro name i
  rw [find?_insert]
  rcases Nat.lt_trichotomy i names.length with hlt | rfl | hgt
  · rw [List.getElem?_append_left hlt]
    split
    · rename_i heq
      subst heq
      refine ⟨fun hplace => absurd (Option.some.inj hplace) hlt.ne', fun hplace => ?_⟩
      exact absurd (List.mem_of_getElem? hplace) hlast
    · exact h name i
  · rw [List.getElem?_concat_length]
    split
    · rename_i heq
      simp [heq]
    · rename_i hne
      rw [h, List.getElem?_eq_none (Nat.le_refl _)]
      simpa using Ne.symm hne
  · rw [List.getElem?_eq_none (by simpa using Nat.succ_le_of_lt hgt)]
    split
    · simpa using hgt.ne
    · rw [h, List.getElem?_eq_none hgt.le]

/-- The places of names that came one after another. -/
def places (names : List String) : Bindings Nat := ofList names.zipIdx

theorem places_concat (names : List String) (last : String) :
    places (names ++ [last]) = (places names).insert last names.length := by
  unfold places ofList
  rw [List.zipIdx_append, List.zipIdx_singleton, List.foldl_append, List.foldl_cons, List.foldl_nil,
    Nat.zero_add]

theorem places_spec {names : List String} (h : names.Nodup) : (places names).Places names := by
  induction names using List.reverseRecOn with
  | nil => simp [Places, places, ofList]
  | append_singleton names last ih =>
      rw [← List.concat_eq_append, List.nodup_concat] at h
      rw [places_concat]
      exact (ih h.2).insert h.1

end Bindings

namespace Frame

/-- The parts of a frame fit together. -/
structure WellFormed (f : Frame) : Prop where
  names : f.columnNames.Nodup
  index : f.index.Places f.columnNames
  cells : ∀ c ∈ f.columns, c.Holds f.rowCount
  order : ∀ order, f.order = some order → order.Perm (List.range f.rowCount)

/-- The rows that are shown are the rows there are. -/
theorem WellFormed.rows_perm {f : Frame} (h : f.WellFormed) :
    f.rows.Perm (List.range f.rowCount) := by
  unfold rows
  cases horder : f.order with
  | none => exact List.Perm.refl _
  | some order => exact h.order order horder

/-! ### Each step keeps it -/

/-- A frame has a column of a name if the index has the name. -/
theorem WellFormed.mem_columnNames {f : Frame} (h : f.WellFormed) {name : String} :
    name ∈ f.columnNames ↔ f.hasColumn name = true := by
  unfold hasColumn Bindings.contains
  rw [Option.isSome_iff_exists, List.mem_iff_getElem?]
  exact exists_congr fun i => (h.index name i).symm

theorem columnNames_extend (f : Frame) (c : Column) :
    (f.extend c).columnNames = f.columnNames ++ [c.name] :=
  List.map_append

theorem WellFormed.extend {f : Frame} {c : Column} (h : f.WellFormed) (hc : c.Holds f.rowCount)
    (hname : f.hasColumn c.name = false) : (f.extend c).WellFormed := by
  have hnew : c.name ∉ f.columnNames := by
    rw [h.mem_columnNames, hname]
    exact Bool.false_ne_true
  refine ⟨?_, ?_, ?_, h.order⟩
  · rw [columnNames_extend, ← List.concat_eq_append]
    exact h.names.concat hnew
  · rw [columnNames_extend]
    have hindex := h.index.insert hnew
    rwa [columnNames, List.length_map] at hindex
  · intro d hd
    rcases List.mem_append.mp hd with hold | hnew
    · exact h.cells d hold
    · rw [List.mem_singleton.mp hnew]
      exact hc

/-- Appending a row lets one column after another take its part. -/
theorem takes_of_appendToColumns {c : Column} {rest grown : List Column}
    {values : List Value} (h : appendToColumns (c :: rest) values = .ok grown) :
    ∃ d left tail, c.Takes values d left ∧ appendToColumns rest left = .ok tail ∧
      grown = d :: tail := by
  obtain ⟨name, content⟩ := c
  cases content with
  | computed source e type =>
      simp only [appendToColumns] at h
      obtain ⟨tail, htail, rfl⟩ := exists_of_map_eq_ok h
      exact ⟨_, _, tail, .computed, htail, rfl⟩
  | stored cells =>
      cases values with
      | nil =>
          simp only [appendToColumns] at h
          obtain ⟨tail, htail, rfl⟩ := exists_of_map_eq_ok h
          exact ⟨_, _, tail, .exhausted, htail, rfl⟩
      | cons v values =>
          simp only [appendToColumns] at h
          cases hfit : cells.type.fit? v with
          | none =>
              rw [hfit] at h
              cases h
          | some entry =>
              rw [hfit] at h
              obtain ⟨tail, htail, htake⟩ := exists_of_bind_eq_ok h
              cases htake
              exact ⟨_, _, tail, .stored hfit, htail, rfl⟩

/-- If there is a value for each stored column, appending a row makes every column grow. -/
theorem grows_of_appendToColumns {columns grown : List Column} {values : List Value}
    (hlength : values.length = columns.countP Column.isStored)
    (h : appendToColumns columns values = .ok grown) :
    List.Forall₂ Column.Grows columns grown := by
  induction columns generalizing values grown with
  | nil =>
      cases h
      exact List.Forall₂.nil
  | cons c columns ih =>
      obtain ⟨d, left, tail, htakes, htail, rfl⟩ := takes_of_appendToColumns h
      cases htakes with
      | @stored name cells v _ entry hfit =>
          rw [List.countP_cons_of_pos (by simp [Column.isStored]), List.length_cons,
            Nat.add_right_cancel_iff] at hlength
          exact List.Forall₂.cons (Column.Grows.stored entry) (ih hlength htail)
      | exhausted =>
          rw [List.countP_cons_of_pos (by simp [Column.isStored])] at hlength
          cases hlength
      | computed =>
          rw [List.countP_cons_of_neg (by simp [Column.isStored])] at hlength
          exact List.Forall₂.cons Column.Grows.computed (ih hlength htail)

theorem WellFormed.withRow {f g : Frame} {values : List Value} (h : f.WellFormed)
    (hrow : f.withRow values = .ok g) : g.WellFormed := by
  obtain ⟨hlength, columns, hcolumns, rfl⟩ := withRow_eq_ok.mp hrow
  have hgrows := grows_of_appendToColumns hlength hcolumns
  have hnames : columns.map Column.name = f.columnNames := Column.Grows.map_name_eq hgrows
  refine ⟨?_, ?_, Column.Grows.forall_holds hgrows h.cells, ?_⟩
  · change (columns.map Column.name).Nodup
    exact hnames ▸ h.names
  · change f.index.Places (columns.map Column.name)
    exact hnames ▸ h.index
  · intro order horder
    obtain ⟨old, hold, rfl⟩ := Option.map_eq_some_iff.mp horder
    rw [List.range_succ]
    exact (h.order old hold).append_right [f.rowCount]

theorem columnNames_cleared (f : Frame) : f.cleared.columnNames = f.columnNames := by
  have hname : Column.name ∘ Column.cleared = Column.name := by
    funext c
    obtain ⟨name, content⟩ := c
    cases content <;> rfl
  change List.map Column.name (f.columns.map Column.cleared) = _
  rw [List.map_map, hname]
  rfl

theorem WellFormed.cleared {f : Frame} (h : f.WellFormed) : f.cleared.WellFormed := by
  refine ⟨?_, ?_, ?_, fun _ horder => nomatch horder⟩
  · rw [columnNames_cleared]
    exact h.names
  · rw [columnNames_cleared]
    exact h.index
  · intro d hd cells hcells
    obtain ⟨⟨name, content⟩, _, rfl⟩ := List.mem_map.mp hd
    cases content with
    | stored old =>
        cases hcells
        rfl
    | computed source e type => cases hcells

theorem WellFormed.step {f g : Frame} (hstep : Step f g) (h : f.WellFormed) : g.WellFormed := by
  cases hstep with
  | column hcolumn =>
      obtain ⟨hrows, t, _, hname, rfl⟩ := withColumn_eq_ok.mp hcolumn
      refine h.extend ?_ hname
      rintro _ ⟨⟩
      exact hrows.symm
  | computed hcomputed =>
      obtain ⟨e, t, _, _, _, hname, rfl⟩ := withComputed_eq_ok.mp hcomputed
      refine h.extend ?_ hname
      rintro _ ⟨⟩
  | row hrow => exact h.withRow hrow
  | order horder =>
      refine ⟨h.names, h.index, h.cells, ?_⟩
      rintro _ ⟨⟩
      exact horder.trans h.rows_perm
  | unsort => exact ⟨h.names, h.index, h.cells, fun _ horder => nomatch horder⟩
  | clear => exact h.cleared

theorem Reachable.wellFormed {f : Frame} (h : Reachable f) : f.WellFormed := by
  refine h.induct (fun _ _ => ⟨List.nodup_nil, ?_, ?_, ?_⟩) fun _ _ => WellFormed.step
  · intro name i
    simp [columnNames]
  · intro c hc
    cases hc
  · intro order horder
    cases horder

/-! ### Nothing goes astray -/

/-- A name finds the one column that has it. -/
theorem WellFormed.columnIndex?_eq_some {f : Frame} (h : f.WellFormed) {name : String} {i : Nat} :
    f.columnIndex? name = some i ↔ ∃ c, f.columns[i]? = some c ∧ c.name = name := by
  unfold columnIndex?
  rw [h.index, columnNames, List.getElem?_map, Option.map_eq_some_iff]

theorem WellFormed.column?_name {f : Frame} (hf : f.WellFormed) {c : Column}
    (hc : c ∈ f.columns) : f.column? c.name = some c := by
  obtain ⟨i, hi⟩ := List.mem_iff_getElem?.mp hc
  unfold column?
  rw [hf.columnIndex?_eq_some.mpr ⟨c, hi, rfl⟩]
  exact hi

/-- The column that a name finds has that name. -/
theorem WellFormed.name_of_column? {f : Frame} (hf : f.WellFormed) {name : String} {c : Column}
    (h : f.column? name = some c) : c.name = name := by
  obtain ⟨i, hi, hc⟩ := Option.bind_eq_some_iff.mp h
  obtain ⟨d, hd, rfl⟩ := hf.columnIndex?_eq_some.mp hi
  rw [Option.some.inj (hc.symm.trans hd)]

/-- A row that is shown has a physical place. -/
theorem WellFormed.physicalRow? {f : Frame} (h : f.WellFormed) {row : Nat}
    (hrow : row < f.rowCount) :
    ∃ physical, f.rows[row]? = some physical ∧ f.physicalRow? row = some physical ∧
      physical < f.rowCount := by
  have hlength : row < f.rows.length := by
    rw [h.rows_perm.length_eq, List.length_range]
    exact hrow
  have hmem : f.rows[row] ∈ List.range f.rowCount :=
    h.rows_perm.mem_iff.mp (List.getElem_mem hlength)
  refine ⟨f.rows[row], List.getElem?_eq_getElem hlength, ?_, List.mem_range.mp hmem⟩
  unfold Frame.physicalRow?
  rw [if_pos hrow, List.getElem?_eq_getElem hlength]

/-- A stored column has a cell at every physical place. -/
theorem WellFormed.cell {f : Frame} (h : f.WellFormed) {c : Column} (hc : c ∈ f.columns)
    {cells : Cells} (hcells : c.content = .stored cells) {physical : Nat}
    (hrow : physical < f.rowCount) :
    ∃ entry, cells.entries[physical]? = some entry ∧
      cells.get physical = cells.type.toValue entry := by
  have hsize : physical < cells.entries.size := by
    have hholds : cells.entries.size = f.rowCount := h.cells c hc cells hcells
    omega
  refine ⟨cells.entries[physical], Array.getElem?_eq_getElem hsize, ?_⟩
  unfold Cells.get
  rw [Array.getElem?_eq_getElem hsize]
  rfl

/-- **Every frame there can be is well formed, and reading it never goes astray.**  Its columns
have different names, and its index finds each of them by its name and finds nothing else; its
stored columns have a cell for every row; its order names every row once.  So each row that is shown
has a physical place, and each stored column has a cell there, so that no cell reads as `void` for
want of one. -/
theorem reachable_representation {f : Frame} (h : Reachable f) :
    (f.columnNames.Nodup ∧
      ∀ name i, f.columnIndex? name = some i ↔ ∃ c, f.columns[i]? = some c ∧ c.name = name) ∧
    (∀ c ∈ f.columns, ∀ cells, c.content = .stored cells → cells.size = f.rowCount) ∧
    (f.order = none ∨ ∃ order, f.order = some order ∧ order.Perm (List.range f.rowCount)) ∧
    ∀ row < f.rowCount, ∃ physical, f.rows[row]? = some physical ∧
      f.physicalRow? row = some physical ∧ physical < f.rowCount ∧
      ∀ c ∈ f.columns, ∀ cells, c.content = .stored cells →
        ∃ entry, cells.entries[physical]? = some entry ∧
          cells.get physical = cells.type.toValue entry := by
  have hf := h.wellFormed
  refine ⟨⟨hf.names, fun _ _ => hf.columnIndex?_eq_some⟩, hf.cells, ?_, ?_⟩
  · cases horder : f.order with
    | none => exact Or.inl rfl
    | some order => exact Or.inr ⟨order, rfl, hf.order order horder⟩
  · intro row hrow
    obtain ⟨physical, hplace, hphysical, hlt⟩ := hf.physicalRow? hrow
    exact ⟨physical, hplace, hphysical, hlt, fun c hc cells hcells => hf.cell hc hcells hlt⟩

/-- Two rows sorted into the other order: the one shown first is the second physically. -/
theorem reachable_representation_sorted : ∃ f, Reachable f ∧ f.order = some [1, 0] ∧
    f.columnNames.Nodup ∧ ∃ physical, f.physicalRow? 0 = some physical ∧ physical < f.rowCount := by
  have host : Host := fun key _ => .error (.unknownFunction key)
  have hempty : Reachable { name := "prices", registry := ∅ } := .new _ _
  have hcolumn := hempty.of_run 0 host (.column "price" .long) (s := {}) rfl
  have hfirst := hcolumn.of_run 0 host (.row [.long 2]) (s := {}) rfl
  have hsecond := hfirst.of_run 0 host (.row [.long 1]) (s := {}) rfl
  have hsorted := hsecond.of_run 0 host (.sortBy ["price"]) (s := {}) rfl
  obtain ⟨⟨hnames, _⟩, _, _, hrows⟩ := reachable_representation hsorted
  obtain ⟨physical, _, hphysical, hlt, _⟩ := hrows 0 (by decide)
  exact ⟨_, hsorted, rfl, hnames, physical, hphysical, hlt⟩

end Frame
end FrameLang
