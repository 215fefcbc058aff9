/-
The frame that a projection makes.

A projection has a list of rows, each with a value for every column, and makes a frame of them by
adding the columns and then the rows, one after the other.  Adding a row fails if a value does not
fit into its column, and nothing else can go wrong once the names of the columns are different.  So
the frame is known beforehand: it is the `table` of these columns and rows, and there is one if and
only if every value fits (`projectedFrame_eq_ok`).

What a column shows of a value is the value itself if that is of the column's type, or `void`.  The
only other value that fits is a long in a column of doubles, which shows the double.
-/
import FrameLang.Proofs.Frame.WellFormed

namespace FrameLang

open Run

/-! ### Values in cells -/

namespace ScalarType

/-- The value fits into a cell of the type. -/
def Fits (type : ScalarType) (v : Value) : Prop := (type.fit? v).isSome = true

/-- The cell of a value that fits. -/
def cell (type : ScalarType) (v : Value) : Option type.Carrier := (type.fit? v).join

/-- What a cell of the type shows of a value that fits. -/
def shown (type : ScalarType) (v : Value) : Value := type.toValue (type.cell v)

theorem Fits.fit?_eq {type : ScalarType} {v : Value} (h : type.Fits v) :
    type.fit? v = some (type.cell v) := by
  obtain ⟨entry, hentry⟩ := Option.isSome_iff_exists.mp h
  rw [cell, hentry, Option.join_some]

/-- A value of the type, or `void`, fits and is shown as it is. -/
theorem shown_eq_self {type : ScalarType} {v : Value}
    (h : v.type = .void ∨ v.type = type.toValueType) : type.Fits v ∧ type.shown v = v := by
  cases v with
  | void => cases type <;> exact ⟨rfl, rfl⟩
  | _ =>
      replace h := h.resolve_left (by intro h; cases h)
      cases type with
      | _ => first | exact ⟨rfl, rfl⟩ | cases h

theorem toValueType_ne_void (type : ScalarType) : type.toValueType ≠ .void := by
  cases type <;> decide

theorem ofValueType?_toValueType (type : ScalarType) : ofValueType? type.toValueType = some type :=
  ofValueType?_eq_some.mpr rfl

theorem eq_of_toValueType_eq {type type' : ScalarType}
    (h : type.toValueType = type'.toValueType) : type = type' := by
  have hsome := congrArg ofValueType? h
  rw [ofValueType?_toValueType, ofValueType?_toValueType] at hsome
  exact Option.some.inj hsome

end ScalarType

/-- What is said of a column to be made: its name and its type. -/
abbrev Heading := String × ScalarType

namespace Frame

/-! ### Tables -/

/-- Stored columns with the values of some rows, which have one for each column. -/
def columnsOf : List Heading → List (List Value) → List Column
  | [], _ => []
  | (name, type) :: headings, rows =>
    ⟨name, .stored ⟨type, (rows.map fun row => type.cell (row.headD .void)).toArray⟩⟩ ::
      columnsOf headings (rows.map List.tail)

/-- A frame of stored columns with some rows, not sorted. -/
def table (registry : Registry) (name : String) (headings : List Heading)
    (rows : List (List Value)) : Frame :=
  { name, registry
    columns := columnsOf headings rows
    index := .places (headings.map Prod.fst)
    rowCount := rows.length }

/-- The values of a row fit into the columns, and there is one for each. -/
def FitsInto (headings : List Heading) (row : List Value) : Prop :=
  List.Forall₂ (fun heading v => heading.2.Fits v) headings row

section Columns

variable {headings : List Heading} {rows : List (List Value)} {row : List Value}

@[simp] theorem length_columnsOf (headings : List Heading) (rows : List (List Value)) :
    (columnsOf headings rows).length = headings.length := by
  induction headings generalizing rows with
  | nil => rfl
  | cons heading headings ih => rw [columnsOf, List.length_cons, ih, List.length_cons]

theorem countP_columnsOf (headings : List Heading) (rows : List (List Value)) :
    (columnsOf headings rows).countP Column.isStored = headings.length := by
  induction headings generalizing rows with
  | nil => rfl
  | cons heading headings ih =>
      rw [columnsOf, List.countP_cons_of_pos rfl, ih, List.length_cons]

theorem columnsOf_append (headings further : List Heading) :
    columnsOf (headings ++ further) [] = columnsOf headings [] ++ columnsOf further [] := by
  induction headings with
  | nil => rfl
  | cons heading headings ih => simp [columnsOf, ih]

/-- The column at a place has the values at that place of the rows. -/
theorem getElem?_columnsOf {i : Nat} {name : String} {type : ScalarType}
    (h : headings[i]? = some (name, type)) (rows : List (List Value)) :
    (columnsOf headings rows)[i]? = some ⟨name,
      .stored ⟨type, (rows.map fun row => type.cell (row.getD i .void)).toArray⟩⟩ := by
  induction headings generalizing i rows with
  | nil => cases h
  | cons heading headings ih =>
      cases i with
      | zero =>
          cases h
          simp [columnsOf, List.headD_eq_head?_getD, List.head?_eq_getElem?]
      | succ i =>
          rw [columnsOf, List.getElem?_cons_succ, ih h, List.map_map]
          simp [Function.comp_def]

theorem map_columnsOf (headings : List Heading) (rows : List (List Value)) :
    (columnsOf headings rows).map (fun c => (c.name, c.type)) =
      headings.map fun heading => (heading.1, heading.2.toValueType) := by
  induction headings generalizing rows with
  | nil => rfl
  | cons heading headings ih => rw [columnsOf, List.map_cons, ih]; rfl

theorem columnNames_table (registry : Registry) (name : String) (headings : List Heading)
    (rows : List (List Value)) :
    (table registry name headings rows).columnNames = headings.map Prod.fst := by
  have hnames := congrArg (List.map Prod.fst) (map_columnsOf headings rows)
  simpa [columnNames, table, Function.comp_def] using hnames

/-- **A row whose values fit is appended**, and no other row. -/
theorem appendToColumns_columnsOf (h : FitsInto headings row) (rows : List (List Value)) :
    appendToColumns (columnsOf headings rows) row = .ok (columnsOf headings (rows ++ [row])) := by
  induction h generalizing rows with
  | nil => rfl
  | @cons heading v headings row hv _ ih =>
      obtain ⟨name, type⟩ := heading
      simp [columnsOf, appendToColumns, hv.fit?_eq, ih, bind, Except.bind, pure, Except.pure,
        Cells.push]

theorem fitsInto_of_appendToColumns {grown : List Column}
    (hlength : row.length = headings.length)
    (h : appendToColumns (columnsOf headings rows) row = .ok grown) : FitsInto headings row := by
  induction headings generalizing rows row grown with
  | nil =>
      rw [List.length_eq_zero_iff.mp hlength]
      exact List.Forall₂.nil
  | cons heading headings ih =>
      obtain ⟨name, type⟩ := heading
      cases row with
      | nil => cases hlength
      | cons v row =>
          obtain ⟨d, left, tail, htakes, htail, _⟩ := takes_of_appendToColumns h
          cases htakes with
          | stored hfit =>
              exact List.Forall₂.cons (by rw [ScalarType.Fits, hfit]; rfl)
                (ih (Nat.succ.inj hlength) htail)

end Columns

section Table

variable {registry : Registry} {name : String} {headings : List Heading}

theorem withRow_table_eq_ok {rows : List (List Value)} {row : List Value} {g : Frame} :
    (table registry name headings rows).withRow row = .ok g ↔
      FitsInto headings row ∧ g = table registry name headings (rows ++ [row]) := by
  rw [withRow_eq_ok]
  change row.length = (columnsOf headings rows).countP _ ∧ _ ↔ _
  rw [countP_columnsOf]
  constructor
  · rintro ⟨hlength, grown, hgrown, rfl⟩
    have hfits := fitsInto_of_appendToColumns hlength hgrown
    have hsame := (appendToColumns_columnsOf hfits rows).symm.trans hgrown
    cases hsame
    exact ⟨hfits, by simp [table]⟩
  · rintro ⟨hfits, rfl⟩
    exact ⟨hfits.length_eq.symm, _, appendToColumns_columnsOf hfits rows, by simp [table]⟩

/-- **Rows make a table if and only if all their values fit.** -/
theorem foldlM_withRow_eq_ok {rows further : List (List Value)} {g : Frame} :
    further.foldlM withRow (table registry name headings rows) = .ok g ↔
      (∀ row ∈ further, FitsInto headings row) ∧
        g = table registry name headings (rows ++ further) := by
  induction further generalizing rows with
  | nil =>
      rw [List.append_nil]
      constructor
      · rintro ⟨⟩
        exact ⟨fun _ h => absurd h List.not_mem_nil, rfl⟩
      · rintro ⟨_, rfl⟩
        rfl
  | cons row further ih =>
      rw [List.foldlM_cons, List.forall_mem_cons]
      cases hrow : (table registry name headings rows).withRow row with
      | error e =>
          constructor
          · intro h
            cases h
          · rintro ⟨⟨hfits, _⟩, _⟩
            rw [withRow_table_eq_ok.mpr ⟨hfits, rfl⟩] at hrow
            cases hrow
      | ok next =>
          obtain ⟨hfits, rfl⟩ := withRow_table_eq_ok.mp hrow
          change List.foldlM withRow _ further = _ ↔ _
          rw [ih, List.append_assoc]
          exact ⟨fun h => ⟨⟨hfits, h.1⟩, h.2⟩, fun h => ⟨h.1.2, h.2⟩⟩

theorem wellFormed_table (hnames : (headings.map Prod.fst).Nodup) (rows : List (List Value)) :
    (table registry name headings rows).WellFormed := by
  refine ⟨by rwa [columnNames_table], ?_, ?_, fun _ h => by cases h⟩
  · rw [columnNames_table]
    exact Bindings.places_spec hnames
  intro c hc cells hcells
  obtain ⟨i, hi⟩ := List.mem_iff_getElem?.mp hc
  have hlt : i < headings.length := by
    simpa [table] using (List.getElem?_eq_some_iff.mp hi).1
  have hcolumn := getElem?_columnsOf (List.getElem?_eq_getElem hlt) rows
  cases hi.symm.trans hcolumn
  cases hcells
  simp [Cells.size, table]

theorem table_concat (heading : Heading) :
    table registry name (headings ++ [heading]) [] =
      (table registry name headings []).extend
        { name := heading.1, content := .stored (.empty heading.2) } := by
  simp [table, extend, columnsOf_append, columnsOf, Cells.empty, Bindings.places_concat]

theorem foldlM_withColumn_eq {further : List Heading}
    (h : ((headings ++ further).map Prod.fst).Nodup) :
    (further.map fun heading => (heading.1, heading.2.toValueType)).foldlM
        (fun f column => f.withColumn column.1 column.2) (table registry name headings []) =
      .ok (table registry name (headings ++ further) []) := by
  induction further generalizing headings with
  | nil =>
      rw [List.append_nil]
      rfl
  | cons heading further ih =>
      have hname : (table registry name headings []).hasColumn heading.1 = false := by
        rw [List.map_append, List.nodup_append] at h
        rw [← Bool.not_eq_true, ← (wellFormed_table h.1 []).mem_columnNames, columnNames_table]
        exact fun hmem => h.2.2 _ hmem _ (by simp) rfl
      have hstep : (table registry name headings []).withColumn heading.1
          heading.2.toValueType = .ok (table registry name (headings ++ [heading]) []) :=
        withColumn_eq_ok.mpr ⟨rfl, heading.2, heading.2.ofValueType?_toValueType, hname,
          table_concat heading⟩
      rw [List.append_cons] at h ⊢
      rw [List.map_cons, List.foldlM_cons, hstep]
      exact ih h

theorem projectedFrame_eq (elements : List Expr) (types : List ValueType)
    (rows : List (List Value)) :
    projectedFrame registry name elements types rows = (do
      let empty ← ((elements.zip types).zipIdx.map fun c =>
        (c.1.1.columnName, observedType c.1.2 (rows.map fun row => row[c.2]?.getD .void))).foldlM
          (fun f column => f.withColumn column.1 column.2) (table registry name [] [])
      rows.foldlM withRow empty) :=
  rfl

/-- **A projection makes the table of its rows**, if all their values fit, and fails if not. -/
theorem projectedFrame_eq_ok {elements : List Expr} {rows : List (List Value)} {g : Frame}
    (helements : elements.map Expr.columnName = headings.map Prod.fst)
    (hnames : (headings.map Prod.fst).Nodup) :
    projectedFrame registry name elements (headings.map fun heading => heading.2.toValueType)
        rows = .ok g ↔
      (∀ row ∈ rows, FitsInto headings row) ∧ g = table registry name headings rows := by
  have hcolumns : ((elements.zip (headings.map fun heading => heading.2.toValueType)).zipIdx.map
      fun c => (c.1.1.columnName, observedType c.1.2 (rows.map fun row => row[c.2]?.getD .void))) =
      headings.map fun heading => (heading.1, heading.2.toValueType) := by
    have hlength : elements.length = headings.length := by
      simpa using congrArg List.length helements
    refine List.ext_getElem (by simp [hlength]) fun i hi hi' => ?_
    have hi₁ : i < elements.length := by simp_all
    have hi₂ : i < headings.length := by simp_all
    have hname : elements[i].columnName = headings[i].1 := by
      simpa [hi₁, hi₂] using congrArg (·[i]?) helements
    simp [hname, observedType, ScalarType.toValueType_ne_void]
  rw [projectedFrame_eq, hcolumns, foldlM_withColumn_eq (by simpa using hnames)]
  exact foldlM_withRow_eq_ok

/-! ### Reading a table -/

/-- A cell of a table shows the value that the row has there. -/
theorem get_table (hnames : (headings.map Prod.fst).Nodup) {rows : List (List Value)}
    {heading : Heading} {row : List Value} {v : Value} {i r : Nat}
    (hi : headings[i]? = some heading) (hr : rows[r]? = some row) (hv : row[i]? = some v)
    (depth : Nat) (host : Host) :
    (table registry name headings rows).get depth host heading.1 r =
      pure (heading.2.shown v) := by
  have hcolumn := getElem?_columnsOf hi rows
  have hlt : r < rows.length := (List.getElem?_eq_some_iff.mp hr).1
  have hphysical : (table registry name headings rows).physicalRow? r = some r := by
    simp [physicalRow?, Frame.rows, table, hlt]
  unfold get readNamed
  rw [(wellFormed_table hnames rows).column?_name (c := ⟨heading.1, _⟩)
    (List.mem_of_getElem? hcolumn), hphysical]
  simp [readColumn, Cells.get, hr, hv, ScalarType.shown]

end Table

end Frame
end FrameLang
