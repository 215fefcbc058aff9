/-
Selecting and partitioning lose nothing.

A partition walks through the rows as they are shown, asks the condition of each, and copies the row
into one of two new frames.  The copy goes cell by cell, value by value, through the same `withRow`
that any new row goes through, and a computed column is not copied but computed anew.

Copying cannot fail, since a value that a cell shows fits into a cell of the same type and gives the
same cell (`ScalarType.fit?_toValue`).  So a copy is known beforehand: it is `picked`, the frame
with the cells of some rows, and a partition fails only if the condition does.  A copied row shows
what the row shows that it was copied from, and by `Proofs/Frame/Rows.lean` that is all there is to
reading it, computed columns included.
-/
import FrameLang.Proofs.Frame.Declared
import FrameLang.Proofs.Frame.Rows
import Mathlib

namespace FrameLang

open Run

/-! ### Copies of cells -/

theorem map_getD_range (rows : List Nat) : (List.range rows.length).map (rows.getD · 0) = rows := by
  refine List.ext_getElem? fun i => ?_
  by_cases hi : i < rows.length
  · simp [hi]
  · simp [hi]

/-- What a cell shows goes back into a cell. -/
theorem ScalarType.fit?_toValue (type : ScalarType) (entry : Option type.Carrier) :
    type.fit? (type.toValue entry) = some entry := by
  cases type with
  | _ => cases entry <;> rfl

theorem Cells.fit?_get (c : Cells) (row : Nat) :
    c.type.fit? (c.get row) = some c.entries[row]?.join :=
  c.type.fit?_toValue _

/-- The cells of some physical rows. -/
def Cells.picked (rows : List Nat) (c : Cells) : Cells :=
  ⟨c.type, (rows.map fun row => c.entries[row]?.join).toArray⟩

/-- A copied row has the cells of the row it was copied from. -/
theorem Cells.entries_picked {rows : List Nat} {i row : Nat} (hi : rows[i]? = some row)
    (c : Cells) : (c.picked rows).entries[i]?.join = c.entries[row]?.join := by
  change (rows.map fun row => c.entries[row]?.join).toArray[i]?.join = _
  simp [hi]

namespace Column

/-- The column with the cells of some physical rows. -/
def picked (rows : List Nat) (c : Column) : Column :=
  match c.content with
  | .stored cells => { c with content := .stored (cells.picked rows) }
  | .computed .. => c

@[simp] theorem cleared_picked (rows : List Nat) (c : Column) :
    (c.picked rows).cleared = c.cleared := by
  obtain ⟨name, content⟩ := c
  cases content <;> rfl

theorem picked_nil (c : Column) : c.picked [] = c.cleared := by
  obtain ⟨name, content⟩ := c
  cases content <;> rfl

/-- The cells of a copied row show what they were copied from. -/
theorem showsAs_picked {rows : List Nat} {i row : Nat} (hrow : rows[i]? = some row) (c : Column) :
    ShowsAs row i c (c.picked rows) := by
  obtain ⟨name, content⟩ := c
  cases content with
  | stored cells =>
      refine .stored rfl ?_
      unfold Cells.get
      rw [cells.entries_picked hrow]
      rfl
  | computed => exact .computed

end Column

namespace Frame

/-- The frame with some physical rows, in that order and not sorted. -/
def picked (f : Frame) (rows : List Nat) : Frame :=
  { f with columns := f.columns.map (Column.picked rows), rowCount := rows.length, order := none }

theorem picked_nil (f : Frame) : f.picked [] = f.cleared := by
  simp [picked, cleared, Column.picked_nil]

@[simp] theorem cleared_picked (f : Frame) (rows : List Nat) :
    (f.picked rows).cleared = f.cleared := by
  simp [picked, cleared]

theorem appendToColumns_picked (columns : List Column) (rows : List Nat) (row : Nat) :
    appendToColumns (columns.map (Column.picked rows)) (columns.filterMap fun c =>
      match c.content with
      | .stored cells => some (cells.get row)
      | .computed .. => none) = .ok (columns.map (Column.picked (rows ++ [row]))) := by
  induction columns with
  | nil => rfl
  | cons c columns ih =>
      obtain ⟨name, content⟩ := c
      cases content with
      | computed source e type =>
          rw [List.map_cons, List.filterMap_cons, List.map_cons]
          simp only [Column.picked, appendToColumns, ih]
          rfl
      | stored cells =>
          rw [List.map_cons, List.filterMap_cons, List.map_cons]
          have hfit : (cells.picked rows).type.fit? (cells.get row) =
            some cells.entries[row]?.join := cells.fit?_get row
          simp only [Column.picked, appendToColumns, hfit, ih]
          simp [bind, Except.bind, pure, Except.pure, Cells.push, Cells.picked]

/-- A further row is copied. -/
theorem withRow_picked (f : Frame) (rows : List Nat) (row : Nat) :
    (f.picked rows).withRow (f.storedValues row) = .ok (f.picked (rows ++ [row])) := by
  refine withRow_eq_ok.mpr ⟨?_, _, appendToColumns_picked f.columns rows row, ?_⟩
  · change (f.columns.filterMap _).length = (f.columns.map (Column.picked rows)).countP _
    rw [List.countP_map, List.length_filterMap_eq_countP]
    congr 1
    funext c
    obtain ⟨name, content⟩ := c
    cases content <;> rfl
  · simp [picked]

/-- **Copying rows cannot fail.** -/
theorem pick_eq (f : Frame) (rows : List Nat) : f.pick rows = .ok (f.picked rows) := by
  have hfold : ∀ copied : List Nat,
      rows.foldlM (fun g row => g.withRow (f.storedValues row)) (f.picked copied) =
        .ok (f.picked (copied ++ rows)) := by
    induction rows with
    | nil =>
        intro copied
        rw [List.append_nil]
        rfl
    | cons row rows ih =>
        intro copied
        rw [List.foldlM_cons, withRow_picked]
        exact (ih (copied ++ [row])).trans (by simp)
  unfold pick
  rw [← picked_nil]
  exact hfold []

/-- A copied row shows what it was copied from. -/
theorem showsAs_picked (f : Frame) {rows : List Nat} {i row : Nat} (hrow : rows[i]? = some row) :
    f.ShowsAs row (f.picked rows) i :=
  ⟨rfl, rfl, List.forall₂_map_right_iff.mpr
    (List.forall₂_same.mpr fun c _ => Column.showsAs_picked hrow c)⟩

/-- A row shows the same in any order of the rows. -/
theorem showsAs_reordered (f : Frame) (order : Option (List Nat)) (row : Nat) :
    f.ShowsAs row { f with order } row :=
  ⟨rfl, rfl, (ShowsAs.refl f row).columns⟩

/-! ### Conditions -/

theorem condition_eq_ok {f : Frame} {text : String} {e : Expr} :
    f.condition text = .ok e ↔ Expr.ofSource text = .ok e ∧ f.scope.check e = .ok .boolean := by
  unfold condition
  cases hsource : Expr.ofSource text with
  | error e => simp [Except.mapError, bind, Except.bind]
  | ok d =>
      cases hcheck : f.scope.check d with
      | error cause =>
          simp only [Except.mapError, bind, Except.bind, hcheck, reduceCtorEq, Except.ok.injEq,
            false_iff, not_and]
          rintro rfl
          simp [hcheck]
      | ok t =>
          by_cases ht : t = .boolean
          · simp only [Except.mapError, bind, Except.bind, hcheck, if_pos ht]
            constructor
            · rintro ⟨⟩
              exact ⟨rfl, ht ▸ hcheck⟩
            · rintro ⟨⟨⟩, _⟩
              rfl
          · simp only [Except.mapError, bind, Except.bind, hcheck, if_neg ht]
            refine ⟨nofun, ?_⟩
            rintro ⟨⟨⟩, h⟩
            rw [hcheck] at h
            exact absurd (Except.ok.inj h) ht

section Judging

variable (f : Frame) (depth : Nat) (host : Host)

/-- An expression has a value in a physical row, whatever the store is. -/
def HasValue (e : Expr) (row : Nat) (v : Value) : Prop :=
  ∀ s, (f.evaluateOnRow depth host e row s : Except Stop Value × Store).1 = .ok v

/-- Whether an expression is true of a physical row. -/
def isTrueOf (e : Expr) (row : Nat) : Bool :=
  match (f.evaluateOnRow depth host e row {} : Except Stop Value × Store).1 with
  | .ok (.boolean true) => true
  | _ => false

/-- A text is a condition that can be decided in every row. -/
def Decides (text : String) (e : Expr) : Prop :=
  f.condition text = .ok e ∧ ∀ row ∈ f.rows, ∃ v, f.HasValue depth host e row v

variable {f depth host} {e : Expr}

/-- An expression has one value at most. -/
theorem HasValue.unique {row : Nat} {v v' : Value} (hv : f.HasValue depth host e row v)
    (hv' : f.HasValue depth host e row v') : v = v' := by
  cases (hv {}).symm.trans (hv' {})
  rfl

/-- An expression has the same value over rows that show the same. -/
theorem ShowsAs.hasValue_iff {g : Frame} {row row' : Nat} (h : f.ShowsAs row g row') {v : Value} :
    f.HasValue depth host e row v ↔ g.HasValue depth host e row' v := by
  have hends := h.endAlike_evaluateOnRow host depth e
  exact ⟨fun hv s => (hends s s).symm.trans (hv s), fun hv s => (hends s s).trans (hv s)⟩

theorem HasValue.isTrueOf_iff {row : Nat} {v : Value} (h : f.HasValue depth host e row v) :
    f.isTrueOf depth host e row = true ↔ v = .boolean true := by
  unfold isTrueOf
  rw [h {}]
  split
  · rename_i hv
    cases hv
    simp
  · rename_i hv
    constructor
    · nofun
    · rintro rfl
      exact absurd rfl hv

theorem isTrueOf_iff {row : Nat} :
    f.isTrueOf depth host e row = true ↔ f.HasValue depth host e row (.boolean true) := by
  constructor
  · intro h s
    rw [(ShowsAs.refl f row).endAlike_evaluateOnRow host depth e s {}]
    unfold isTrueOf at h
    split at h
    · assumption
    · cases h
  · intro h
    exact h.isTrueOf_iff.mpr rfl

theorem ShowsAs.isTrueOf_eq {g : Frame} {row row' : Nat} (h : f.ShowsAs row g row') :
    f.isTrueOf depth host e row = g.isTrueOf depth host e row' :=
  Bool.eq_iff_iff.mpr (isTrueOf_iff.trans (h.hasValue_iff.trans isTrueOf_iff.symm))

theorem meets_evaluateOnRow (row : Nat) (s : Store) :
    Meets (f.evaluateOnRow depth host e row) s (fun v _ => f.HasValue depth host e row v)
      fun _ _ => ¬∃ v, f.HasValue depth host e row v := by
  refine (((ShowsAs.refl f row).endAlike_evaluateOnRow host depth e).meets s).imp
    (fun _ _ => id) ?_
  rintro stop _ hstop ⟨v, hv⟩
  have hresult := (hstop s).symm.trans (hv s)
  cases hresult

/-- An expression has a value if one run ends with it. -/
theorem hasValue_iff_meets {row : Nat} {v : Value} (s : Store) :
    f.HasValue depth host e row v ↔
      Meets (f.evaluateOnRow depth host e row) s (fun w _ => w = v) fun _ _ => False := by
  constructor
  · intro hv
    exact (meets_evaluateOnRow row s).imp (fun _ _ hw => hw.unique hv) fun _ _ hnone =>
      hnone ⟨v, hv⟩
  · intro h s'
    rw [(ShowsAs.refl f row).endAlike_evaluateOnRow host depth e s' s]
    rcases hrun : f.evaluateOnRow depth host e row s with ⟨stop | w, s''⟩
    · exact (h.stop hrun).elim
    · exact congrArg Except.ok (h.result hrun)

/-- **Splitting the rows fails only if the condition cannot be decided.** -/
theorem meets_split (text : String) (s : Store) :
    Meets (f.split depth host text) s
      (fun rows _ => ∃ e, f.Decides depth host text e ∧
        rows = (f.rows.filter (f.isTrueOf depth host e),
          f.rows.filter (!f.isTrueOf depth host e ·)))
      fun _ _ => ¬∃ e, f.Decides depth host text e := by
  unfold split
  refine meets_bind (meets_orReport (Q := fun e s' => f.condition text = .ok e)
    (fun _ h => h) fun _ h => ?_) ?_
  · rintro ⟨e, he, _⟩
    rw [h] at he
    cases he
  · intro e s₁ he
    refine meets_bind (meets_mapM (R := fun row judged => (∃ v, f.HasValue depth host e row v) ∧
      (row, f.isTrueOf depth host e row) = judged) (I := fun _ => True) ?_ trivial) ?_
    · intro row hrow s _
      refine meets_bind ((meets_evaluateOnRow row s).imp (fun _ _ => id) ?_) ?_
      · rintro _ _ hnone ⟨e', he', hall⟩
        rw [he] at he'
        cases he'
        exact hnone (hall row hrow)
      · intro v s' hv
        split
        · exact meets_pure ⟨⟨⟨_, hv⟩, by rw [hv.isTrueOf_iff.mpr rfl]⟩, trivial⟩
        · rename_i hfalse
          have hnot : f.isTrueOf depth host e row = false :=
            Bool.eq_false_iff.mpr fun h => hfalse (hv.isTrueOf_iff.mp h)
          exact meets_pure ⟨⟨⟨_, hv⟩, by rw [hnot]⟩, trivial⟩
    · rintro judged s₂ ⟨hjudged, _⟩
      obtain ⟨hdecided, hjudged⟩ := (List.forall₂_and_left _ _).mp hjudged
      obtain rfl : f.rows.map (fun row => (row, f.isTrueOf depth host e row)) = judged :=
        List.forall₂_eq_eq_eq ▸ List.forall₂_map_left_iff.mpr hjudged
      rw [List.partition_eq_filter_filter]
      refine meets_pure ⟨e, ⟨he, hdecided⟩, ?_⟩
      simp [List.filter_map, Function.comp_def]

end Judging

/-! ### Logical rows -/

/-- The physical place of a row that is shown. -/
def place (f : Frame) (row : Nat) : Nat := (f.physicalRow? row).getD 0

theorem WellFormed.physicalRow?_eq {f : Frame} (hf : f.WellFormed) {row : Nat}
    (hrow : row < f.rowCount) : f.physicalRow? row = some (f.place row) := by
  obtain ⟨physical, _, hphysical, _⟩ := hf.physicalRow? hrow
  rw [place, hphysical]
  rfl

/-- Of a frame that is well formed every row is shown. -/
theorem WellFormed.physicalRow?_eq_getElem? {f : Frame} (hf : f.WellFormed) (row : Nat) :
    f.physicalRow? row = f.rows[row]? := by
  unfold Frame.physicalRow?
  split
  · rfl
  · rename_i hrow
    rw [List.getElem?_eq_none]
    rw [hf.rows_perm.length_eq, List.length_range]
    omega

theorem WellFormed.rows_eq {f : Frame} (hf : f.WellFormed) :
    f.rows = (List.range f.rowCount).map f.place := by
  refine List.ext_getElem? fun row => ?_
  by_cases hrow : row < f.rowCount
  · obtain ⟨physical, hplace, hphysical, _⟩ := hf.physicalRow? hrow
    simp [hplace, hrow, place, hphysical]
  · have hlength : f.rows.length ≤ row := by
      rw [hf.rows_perm.length_eq, List.length_range]
      exact Nat.le_of_not_lt hrow
    rw [List.getElem?_eq_none hlength, List.getElem?_eq_none (by simpa using hrow)]

/-- A frame consists of some logical rows of another one, in that order: it has the columns of the
other, is not sorted, and reads in each row as the other does in the row it comes from. -/
structure ConsistsOf (g f : Frame) (rows : List Nat) : Prop where
  cleared : g.cleared = f.cleared
  order : g.order = none
  rowCount : g.rowCount = rows.length
  get : ∀ i row, rows[i]? = some row → ∀ depth host name,
    EndAlike (g.get depth host name i) (f.get depth host name row)
  getAt : ∀ i row, rows[i]? = some row → ∀ depth host column,
    EndAlike (g.getAt depth host i column) (f.getAt depth host row column)

theorem physicalRow?_picked {f : Frame} {rows : List Nat} {i : Nat} (hi : i < rows.length) :
    (f.picked rows).physicalRow? i = some i := by
  simp [physicalRow?, Frame.rows, picked, hi]

/-- Copied rows are the rows they were copied from. -/
theorem WellFormed.consistsOf_picked {f : Frame} (hf : f.WellFormed) {rows : List Nat}
    (hrows : ∀ row ∈ rows, row < f.rowCount) :
    (f.picked (rows.map f.place)).ConsistsOf f rows := by
  have hplaces : ∀ {i row : Nat}, rows[i]? = some row →
      f.physicalRow? row = some (f.place row) ∧
        (f.picked (rows.map f.place)).physicalRow? i = some i ∧
        f.ShowsAs (f.place row) (f.picked (rows.map f.place)) i := by
    intro i row hi
    obtain ⟨hlt, rfl⟩ := List.getElem?_eq_some_iff.mp hi
    exact ⟨hf.physicalRow?_eq (hrows _ (List.getElem_mem hlt)),
      physicalRow?_picked (by simpa using hlt), f.showsAs_picked (by simp [hlt])⟩
  refine ⟨cleared_picked _ _, rfl, by simp [picked], ?_, ?_⟩
  · intro i row hi depth host name s s'
    obtain ⟨hrow, hi, hshows⟩ := hplaces hi
    exact (hshows.endAlike_get hrow hi rfl depth host name s' s).symm
  · intro i row hi depth host column s s'
    obtain ⟨hrow, hi, hshows⟩ := hplaces hi
    exact (hshows.endAlike_getAt hrow hi depth host column s' s).symm

/-- Chosen rows are logical rows in their order. -/
theorem WellFormed.consistsOf_filter {f : Frame} (hf : f.WellFormed) (chosen : Nat → Bool) :
    (f.picked (f.rows.filter chosen)).ConsistsOf f
      ((List.range f.rowCount).filter (chosen ∘ f.place)) := by
  rw [hf.rows_eq, List.filter_map]
  exact hf.consistsOf_picked fun row hrow => List.mem_range.mp (List.mem_of_mem_filter hrow)

/-- An expression has a value in a logical row, whatever the store is. -/
def HasValueAt (f : Frame) (depth : Nat) (host : Host) (e : Expr) (row : Nat) (v : Value) : Prop :=
  ∃ physical, f.physicalRow? row = some physical ∧ f.HasValue depth host e physical v

theorem WellFormed.hasValueAt_iff {f : Frame} (hf : f.WellFormed) {depth : Nat} {host : Host}
    {e : Expr} {row : Nat} {v : Value} (hrow : row < f.rowCount) :
    f.HasValueAt depth host e row v ↔ f.HasValue depth host e (f.place row) v := by
  simp [HasValueAt, hf.physicalRow?_eq hrow]

theorem WellFormed.decides_iff {f : Frame} (hf : f.WellFormed) {depth : Nat} {host : Host}
    {text : String} {e : Expr} : f.Decides depth host text e ↔
      Expr.ofSource text = .ok e ∧ f.scope.check e = .ok .boolean ∧
        ∀ row < f.rowCount, ∃ v, f.HasValueAt depth host e row v := by
  unfold Decides
  rw [condition_eq_ok, hf.rows_eq, and_assoc]
  refine and_congr_right fun _ => and_congr_right fun _ => ?_
  simp only [List.mem_map, List.mem_range, forall_exists_index, and_imp, forall_apply_eq_imp_iff₂]
  exact forall₂_congr fun row hrow => exists_congr fun v => (hf.hasValueAt_iff hrow).symm

/-- What is filtered out and what is left merge to what there was. -/
theorem merge_filter_range (n : Nat) (p : Nat → Bool) :
    List.merge ((List.range n).filter p) ((List.range n).filter (!p ·)) = List.range n := by
  have hsorted : (List.range n).Pairwise (· ≤ ·) := List.pairwise_le_range
  refine List.Perm.eq_of_pairwise' ((hsorted.filter p).merge (hsorted.filter _)) hsorted ?_
  exact (List.merge_perm_append _).trans (List.filter_append_perm p (List.range n))

/-! ### Selecting and partitioning -/

section Partition

variable {f : Frame} {depth : Nat} {host : Host} {text : String} {s : Store}

/-- What a partition ends with is known if the condition can be decided. -/
theorem partition_eq_ok_iff {g h : Frame} :
    (f.partition depth host text s : Except Stop (Frame × Frame) × Store).1 = .ok (g, h) ↔
      ∃ e, f.Decides depth host text e ∧
        g = f.picked (f.rows.filter (f.isTrueOf depth host e)) ∧
        h = f.picked (f.rows.filter (!f.isTrueOf depth host e ·)) := by
  have hmeets : Meets (f.partition depth host text) s
      (fun frames _ => ∃ e, f.Decides depth host text e ∧
        frames.1 = f.picked (f.rows.filter (f.isTrueOf depth host e)) ∧
        frames.2 = f.picked (f.rows.filter (!f.isTrueOf depth host e ·)))
      fun _ _ => ¬∃ frames : Frame × Frame, ∃ e, f.Decides depth host text e ∧
        frames.1 = f.picked (f.rows.filter (f.isTrueOf depth host e)) ∧
        frames.2 = f.picked (f.rows.filter (!f.isTrueOf depth host e ·)) := by
    unfold partition
    refine meets_bind ((meets_split text s).imp (fun _ _ => id) ?_) ?_
    · rintro _ _ hnone ⟨_, e, hdecides, -⟩
      exact hnone ⟨e, hdecides⟩
    · rintro _ s' ⟨e, hdecides, rfl⟩
      simp only [pick_eq]
      exact meets_pure ⟨e, hdecides, rfl, rfl⟩
  refine hmeets.eq_ok_iff ?_
  rintro ⟨g, h⟩ ⟨g', h'⟩ ⟨e, hdecides, rfl, rfl⟩ ⟨e', hdecides', rfl, rfl⟩
  cases hdecides.1.symm.trans hdecides'.1
  rfl

/-- A selection is the first half of a partition. -/
theorem select_eq_partition :
    (f.select depth host text s : Except Stop Frame × Store).1 =
      (f.partition depth host text s : Except Stop (Frame × Frame) × Store).1.map Prod.fst := by
  unfold select partition
  rw [run_bind, run_bind]
  rcases f.split depth host text s with ⟨stop | ⟨chosen, left⟩, s'⟩
  · rfl
  · simp only [pick_eq]
    rfl

/-- What a selection ends with is known if the condition can be decided. -/
theorem select_eq_ok_iff {g : Frame} :
    (f.select depth host text s : Except Stop Frame × Store).1 = .ok g ↔
      ∃ e, f.Decides depth host text e ∧
        g = f.picked (f.rows.filter (f.isTrueOf depth host e)) := by
  rw [select_eq_partition]
  constructor
  · cases hrun : (f.partition depth host text s : Except Stop (Frame × Frame) × Store).1 with
    | error stop => nofun
    | ok frames =>
        rintro ⟨⟩
        obtain ⟨e, hdecides, hg, -⟩ := partition_eq_ok_iff.mp hrun
        exact ⟨e, hdecides, hg⟩
  · rintro ⟨e, hdecides, rfl⟩
    rw [partition_eq_ok_iff.mpr ⟨e, hdecides, rfl, rfl⟩]
    rfl

/-- A partition fails only if the condition cannot be decided. -/
theorem WellFormed.meets_partition (hf : f.WellFormed) :
    Meets (f.partition depth host text) s
      (fun frames _ => ∃ e verdict, f.Decides depth host text e ∧
        (∀ row < f.rowCount, verdict row = true ↔
          f.HasValueAt depth host e row (.boolean true)) ∧
        frames.1.ConsistsOf f ((List.range f.rowCount).filter verdict) ∧
        frames.2.ConsistsOf f ((List.range f.rowCount).filter (!verdict ·)))
      fun _ _ => ¬∃ e, f.Decides depth host text e := by
  unfold partition
  refine meets_bind (meets_split text s) ?_
  rintro _ s' ⟨e, hdecides, rfl⟩
  simp only [pick_eq]
  refine meets_pure ⟨e, f.isTrueOf depth host e ∘ f.place, hdecides, fun row hrow => ?_,
    hf.consistsOf_filter _, hf.consistsOf_filter _⟩
  rw [hf.hasValueAt_iff hrow]
  exact isTrueOf_iff

end Partition

/-- **A partition is exact, keeps the order and loses nothing.**  It succeeds if and only if the
text is a condition over the frame that has a value in every row.  One frame then consists of the
logical rows of which the condition is true, and the other of all the others; each in the order in
which the frame shows them, so that the two merge to all rows.  A selection ends as the partition
does, with the first of the two frames. -/
theorem reachable_partition_exact {f : Frame} (hf : Reachable f) (depth : Nat) (host : Host)
    (text : String) (s : Store) :
    ((∃ g h s', f.partition depth host text s = (.ok (g, h), s')) ↔
      ∃ e, Expr.ofSource text = .ok e ∧ f.scope.check e = .ok .boolean ∧
        ∀ row < f.rowCount, ∃ v, f.HasValueAt depth host e row v) ∧
    (∀ g h s', f.partition depth host text s = (.ok (g, h), s') →
      ∃ e verdict, Expr.ofSource text = .ok e ∧
        (∀ row < f.rowCount, verdict row = true ↔
          f.HasValueAt depth host e row (.boolean true)) ∧
        g.ConsistsOf f ((List.range f.rowCount).filter verdict) ∧
        h.ConsistsOf f ((List.range f.rowCount).filter (!verdict ·)) ∧
        List.merge ((List.range f.rowCount).filter verdict)
          ((List.range f.rowCount).filter (!verdict ·)) = List.range f.rowCount) ∧
    (f.select depth host text s : Except Stop Frame × Store).1 =
      (f.partition depth host text s : Except Stop (Frame × Frame) × Store).1.map Prod.fst := by
  have hwf := hf.wellFormed
  have hmeets : Meets (f.partition depth host text) s _ _ := hwf.meets_partition
  refine ⟨?_, ?_, select_eq_partition⟩
  · simp only [← hwf.decides_iff]
    constructor
    · rintro ⟨g, h, s', hrun⟩
      obtain ⟨e, _, hdecides, _⟩ := hmeets.result hrun
      exact ⟨e, hdecides⟩
    · intro hdecides
      rcases hrun : f.partition depth host text s with ⟨stop | ⟨g, h⟩, s'⟩
      · exact absurd hdecides (hmeets.stop hrun)
      · exact ⟨g, h, s', rfl⟩
  · intro g h s' hrun
    obtain ⟨e, verdict, ⟨hcondition, _⟩, hverdict, hg, hh⟩ := hmeets.result hrun
    exact ⟨e, verdict, (condition_eq_ok.mp hcondition).1, hverdict, hg, hh,
      merge_filter_range _ _⟩

/-- Two rows shown in the other order, the null first: the condition is about a computed column, is
false of the null and true of the other row. -/
theorem reachable_partition_sorted : ∃ f g h host s', Reachable f ∧ f.order = some [1, 0] ∧
    f.partition 1 host "twice > 1" {} = (.ok (g, h), s') ∧ g.ConsistsOf f [1] ∧
    h.ConsistsOf f [0] := by
  let twice : Expr := .binary (.arithmetic .add) (.var "price") (.var "price")
  let condition : Expr := .binary (.comparison .gt) (.var "twice") (.literal (.long 1))
  let host : Host := fun key _ => .error (.unknownFunction key)
  let f : Frame :=
    { name := "prices"
      columns := [{ name := "price", content := .stored ⟨.long, #[some 2, none]⟩ },
        { name := "twice", content := .computed "price + price" twice .long }]
      index := .places ["price", "twice"]
      rowCount := 2
      order := some [1, 0]
      registry := ∅ }
  have htwice : Expr.ofSource "price + price" = .ok twice := by cbv
  have hcondition : Expr.ofSource "twice > 1" = .ok condition := by cbv
  have hf : Reachable f := by
    have hempty : Reachable { name := "prices", registry := ∅ } := .new _ _
    have hprice := hempty.of_run 0 host (.column "price" .long) (s := {}) rfl
    have hcomputed := hprice.of_run 0 host (.computed "twice" "price + price") (s := {}) (by
      change orReport (Frame.withComputed _ "twice" "price + price") {} = _
      rw [withComputed_eq_ok.mpr ⟨twice, .long, htwice, rfl, by decide, by decide, rfl⟩]
      rfl)
    have hfirst := hcomputed.of_run 0 host (.row [.long 2]) (s := {}) rfl
    have hsecond : Reachable { f with order := none } :=
      hfirst.of_run 0 host (.row [.void]) (s := {}) rfl
    exact hsecond.of_run 0 host (.sortBy ["price"]) (s := {}) rfl
  have hnull : f.HasValueAt 1 host condition 0 (.boolean false) := ⟨1, rfl, fun _ => rfl⟩
  have hprice : f.HasValueAt 1 host condition 1 (.boolean true) := ⟨0, rfl, fun _ => rfl⟩
  obtain ⟨hsucceeds, hexact, _⟩ := reachable_partition_exact hf 1 host "twice > 1" {}
  have hdecided : ∀ row < f.rowCount, ∃ v, f.HasValueAt 1 host condition row v := by
    intro row hrow
    have hrows : row < 2 := hrow
    obtain rfl | rfl : row = 0 ∨ row = 1 := by omega
    · exact ⟨_, hnull⟩
    · exact ⟨_, hprice⟩
  obtain ⟨g, h, s', hrun⟩ := hsucceeds.mpr ⟨condition, hcondition, rfl, hdecided⟩
  obtain ⟨e, verdict, he, hverdict, hg, hh, _⟩ := hexact g h s' hrun
  rw [hcondition] at he
  cases he
  have htrue : verdict 1 = true := (hverdict 1 (by decide)).mpr hprice
  have hfalse : verdict 0 = false := by
    refine Bool.eq_false_iff.mpr fun h => ?_
    obtain ⟨physical, hphysical, hvalue⟩ := (hverdict 0 (by decide)).mp h
    cases hphysical
    cases hvalue {}
  have hrange : List.range f.rowCount = [0, 1] := rfl
  rw [hrange] at hg hh
  exact ⟨f, g, h, host, s', hf, rfl, hrun, by simpa [htrue, hfalse] using hg,
    by simpa [htrue, hfalse] using hh⟩

end Frame
end FrameLang
