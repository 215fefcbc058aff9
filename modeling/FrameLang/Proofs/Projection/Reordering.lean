/-
Projections of the same rows in another order.

A projection plans its columns before it fills them.  A column has the type that is known of its
element; if none is known, it has the type of the first value there that is not `void`.  So the
order of the rows matters in one way only.  A column of doubles takes longs as well, and one of
longs takes no doubles: where both kinds of numbers come up, the column is one of doubles or one of
longs by which of them comes first.  In the second case there is a double that does not fit.

Everything else about the table that a projection makes is the same, with the rows in the order they
come in (`projectedFrame_perm`).
-/
import FrameLang.Proofs.Frame.Appending
import FrameLang.Proofs.Frame.SameRows

namespace FrameLang

namespace Frame

/-- The names and types of the columns that a projection makes of its elements. -/
def plannedColumns (elements : List Expr) (types : List ValueType) (rows : List (List Value)) :
    List (String × ValueType) :=
  (elements.zip types).zipIdx.map fun c =>
    (c.1.1.columnName, observedType c.1.2 (rows.map fun row => row[c.2]?.getD .void))

section Planned

variable {registry : Registry} {name : String} {headings : List Heading} {elements : List Expr}
  {types : List ValueType} {rows rows' : List (List Value)} {g : Frame}

/-- Columns that can be added one after another have scalar types and different names. -/
theorem exists_headings_of_foldlM {columns : List (String × ValueType)}
    (hnodup : (headings.map Prod.fst).Nodup)
    (h : columns.foldlM (fun f column => f.withColumn column.1 column.2)
      (table registry name headings []) = .ok g) :
    ∃ further : List Heading,
      columns = further.map (fun heading => (heading.1, heading.2.toValueType)) ∧
      ((headings ++ further).map Prod.fst).Nodup ∧
      g = table registry name (headings ++ further) [] := by
  induction columns generalizing headings with
  | nil =>
      cases h
      exact ⟨[], rfl, by simpa using hnodup, by rw [List.append_nil]⟩
  | cons column columns ih =>
      rw [List.foldlM_cons] at h
      obtain ⟨next, hnext, hrest⟩ := exists_of_bind_eq_ok h
      obtain ⟨-, t, ht, hname, rfl⟩ := withColumn_eq_ok.mp hnext
      rw [← table_concat (column.1, t)] at hrest
      have hfresh : ((headings ++ [(column.1, t)]).map Prod.fst).Nodup := by
        have hnew : column.1 ∉ headings.map Prod.fst := by
          rw [← columnNames_table registry name headings [],
            (wellFormed_table hnodup []).mem_columnNames, hname]
          exact Bool.false_ne_true
        rw [List.map_append, List.nodup_append]
        refine ⟨hnodup, List.nodup_singleton _, fun a ha b hb hab => ?_⟩
        rw [List.map_singleton, List.mem_singleton] at hb
        exact hnew (hb ▸ hab ▸ ha)
      obtain ⟨further, rfl, hnodup', rfl⟩ := ih hfresh hrest
      have htype : column.2 = t.toValueType := ScalarType.ofValueType?_eq_some.mp ht
      refine ⟨(column.1, t) :: further, ?_, by simpa using hnodup', by simp⟩
      rw [List.map_cons, ← htype]

/-- **A projection makes a table.** -/
theorem exists_headings_of_projectedFrame
    (h : projectedFrame registry name elements types rows = .ok g) :
    ∃ headings : List Heading, plannedColumns elements types rows =
        headings.map (fun heading => (heading.1, heading.2.toValueType)) ∧
      (headings.map Prod.fst).Nodup ∧ (∀ row ∈ rows, FitsInto headings row) ∧
      g = table registry name headings rows := by
  rw [projectedFrame_eq] at h
  obtain ⟨empty, hempty, hrows⟩ := exists_of_bind_eq_ok h
  have hnone : (([] : List Heading).map Prod.fst).Nodup := List.nodup_nil
  obtain ⟨headings, hcolumns, hnodup, rfl⟩ := exists_headings_of_foldlM hnone hempty
  obtain ⟨hfits, rfl⟩ := foldlM_withRow_eq_ok.mp hrows
  exact ⟨headings, hcolumns, hnodup, hfits, rfl⟩

/-- The rows decide from there on. -/
theorem projectedFrame_of_planned (hplanned : plannedColumns elements types rows =
      headings.map fun heading => (heading.1, heading.2.toValueType))
    (hnodup : (headings.map Prod.fst).Nodup) :
    projectedFrame registry name elements types rows =
      rows.foldlM withRow (table registry name headings []) := by
  rw [projectedFrame_eq]
  change ((plannedColumns elements types rows).foldlM _ _ >>= _) = _
  rw [hplanned, foldlM_withColumn_eq (by simpa using hnodup)]
  rfl

end Planned

/-! ### Values that do not fit -/

/-- The error says of a value of the row that it does not fit into the column at its place. -/
def IsMisfitOf (headings : List Heading) (row : List Value) (e : Error) : Prop :=
  ∃ heading v, (heading, v) ∈ headings.zip row ∧ ¬heading.2.Fits v ∧
    e = .configuration (.misfit v.literalText heading.1 heading.2.toValueType)

theorem IsMisfitOf.tail {heading : Heading} {headings : List Heading} {v : Value}
    {row : List Value} {e : Error} (h : IsMisfitOf headings row e) :
    IsMisfitOf (heading :: headings) (v :: row) e := by
  obtain ⟨heading', w, hmem, hw⟩ := h
  exact ⟨heading', w, List.mem_cons_of_mem _ hmem, hw⟩

section Misfits

variable {registry : Registry} {name : String} {headings : List Heading}
  {rows further : List (List Value)} {row : List Value} {e : Error}

theorem isMisfitOf_of_appendToColumns (hlength : row.length = headings.length)
    (h : appendToColumns (columnsOf headings rows) row = .error e) :
    IsMisfitOf headings row e := by
  induction headings generalizing rows row with
  | nil => cases h
  | cons heading headings ih =>
      cases row with
      | nil => cases hlength
      | cons v row =>
          by_cases hv : heading.2.Fits v
          · cases htail : appendToColumns (columnsOf headings (rows.map List.tail)) row with
            | error e' =>
                simp only [columnsOf, appendToColumns, hv.fit?_eq, htail, bind, Except.bind,
                  Except.error.injEq] at h
                exact (ih (Nat.succ.inj hlength) (h ▸ htail)).tail
            | ok grown =>
                simp [columnsOf, appendToColumns, hv.fit?_eq, htail, bind, Except.bind, pure,
                  Except.pure] at h
          · have hfit : heading.2.fit? v = none := by
              simpa [ScalarType.Fits] using hv
            simp only [columnsOf, appendToColumns, hfit, Except.error.injEq] at h
            exact ⟨heading, v, List.mem_cons_self, hv, h.symm⟩

theorem isMisfitOf_of_withRow (hlength : row.length = headings.length)
    (h : (table registry name headings rows).withRow row = .error e) :
    IsMisfitOf headings row e := by
  have hcount : (table registry name headings rows).storedCount = headings.length :=
    countP_columnsOf headings rows
  rw [withRow, hcount, if_neg (not_not.mpr hlength)] at h
  change (appendToColumns (columnsOf headings rows) row >>= _) = _ at h
  cases happend : appendToColumns (columnsOf headings rows) row with
  | error e' =>
      rw [happend] at h
      cases h
      exact isMisfitOf_of_appendToColumns hlength happend
  | ok grown =>
      rw [happend] at h
      cases h

/-- Rows of the right length that cannot be appended to a table have a value that does not fit. -/
theorem isMisfitOf_of_foldlM_withRow (hlength : ∀ row ∈ further, row.length = headings.length)
    (h : further.foldlM withRow (table registry name headings rows) = .error e) :
    ∃ row ∈ further, IsMisfitOf headings row e := by
  induction further generalizing rows with
  | nil => cases h
  | cons row further ih =>
      rw [List.foldlM_cons] at h
      cases hrow : (table registry name headings rows).withRow row with
      | error e' =>
          rw [hrow] at h
          cases h
          exact ⟨row, List.mem_cons_self,
            isMisfitOf_of_withRow (hlength row List.mem_cons_self) hrow⟩
      | ok next =>
          obtain ⟨-, rfl⟩ := withRow_table_eq_ok.mp hrow
          rw [hrow] at h
          obtain ⟨row', hrow', hmisfit⟩ :=
            ih (fun row hr => hlength row (List.mem_cons_of_mem _ hr)) h
          exact ⟨row', List.mem_cons_of_mem _ hrow', hmisfit⟩

end Misfits

/-! ### Types that the rows decide -/

theorem observedType_of_ne_void {t : ValueType} (h : t ≠ .void) (vs : List Value) :
    observedType t vs = t := if_neg h

/-- The values of a column in another order make for another type only if a long has come before
the first double. -/
theorem observedType_perm {t : ValueType} {vs vs' : List Value} {type : ScalarType}
    (htype : observedType t vs = type.toValueType) (hfits : ∀ v ∈ vs, type.Fits v)
    (hperm : vs'.Perm vs) :
    observedType t vs' = type.toValueType ∨
      t = .void ∧ type = .double ∧ observedType t vs' = ScalarType.long.toValueType ∧
        ∃ d, .double d ∈ vs' := by
  by_cases ht : t = .void
  · subst ht
    have hnone : ∀ vs : List Value, (vs.map Value.type).find? (· ≠ .void) = none ↔
        ∀ v ∈ vs, v.type = .void := by simp
    cases hfirst : (vs'.map Value.type).find? (· ≠ .void) with
    | none =>
        have hfirst' := (hnone vs).mpr fun v hv => (hnone vs').mp hfirst v (hperm.mem_iff.mpr hv)
        left
        rw [← htype, observedType, observedType, if_pos rfl, if_pos rfl, hfirst, hfirst']
    | some u =>
        have hu : observedType .void vs' = u := by
          rw [observedType, if_pos rfl, hfirst]
          rfl
        have hne : u ≠ .void := by simpa using List.find?_some hfirst
        obtain ⟨v, hv, rfl⟩ := List.mem_map.mp (List.mem_of_find?_eq_some hfirst)
        have hfit := ScalarType.fits_iff.mp (hfits v (hperm.mem_iff.mp hv))
        rcases hfit with rfl | hown | ⟨hlong, hdouble⟩
        · exact absurd rfl hne
        · exact Or.inl (hu.trans hown)
        · right
          refine ⟨rfl, ScalarType.eq_of_toValueType_eq hdouble, hu.trans hlong, ?_⟩
          rw [hdouble, observedType, if_pos rfl] at htype
          cases hseen : (vs.map Value.type).find? (· ≠ .void) with
          | none =>
              rw [hseen] at htype
              cases htype
          | some w =>
              rw [hseen] at htype
              obtain ⟨v', hv', rfl⟩ := List.mem_map.mp (List.mem_of_find?_eq_some hseen)
              cases v' with
              | double d => exact ⟨d, hperm.mem_iff.mpr hv'⟩
              | _ => cases htype
  · left
    rw [observedType_of_ne_void ht, ← htype, observedType_of_ne_void ht]

/-! ### Rows in another order -/

section Reordered

variable {registry : Registry} {name : String} {elements : List Expr} {types : List ValueType}
  {headings : List Heading} {rows rows' : List (List Value)} {g : Frame}

theorem getElem?_plannedColumns (elements : List Expr) (types : List ValueType)
    (rows : List (List Value)) (i : Nat) :
    (plannedColumns elements types rows)[i]? = (elements.zip types)[i]?.map fun c =>
      (c.1.columnName, observedType c.2 (rows.map fun row => row[i]?.getD .void)) := by
  simp [plannedColumns, List.getElem?_zipIdx, Option.map_map, Function.comp_def]

/-- The column of doubles at a place turns into one of longs when the rows come in another order:
its element has no type but what the values have, and one of them is a double. -/
def TurnsToLongs (elements : List Expr) (types : List ValueType) (rows : List (List Value))
    (i : Nat) (heading heading' : Heading) : Prop :=
  heading.2 = .double ∧ heading' = (heading.1, .long) ∧
    (∃ e, (e, ValueType.void) ∈ elements.zip types ∧ e.columnName = heading.1) ∧
    ∃ row ∈ rows, ∃ d, row[i]? = some (.double d)

theorem FitsInto.getElem? {row : List Value} (h : FitsInto headings row) {i : Nat}
    {heading : Heading} (hi : headings[i]? = some heading) :
    ∃ v, row[i]? = some v ∧ heading.2.Fits v := by
  obtain ⟨hlt, rfl⟩ := List.getElem?_eq_some_iff.mp hi
  have hlt' : i < row.length := h.length_eq ▸ hlt
  exact ⟨row[i], List.getElem?_eq_getElem hlt', h.get hlt hlt'⟩

/-- A column is planned as before or turns from doubles to longs. -/
theorem exists_heading_perm
    (hplanned : plannedColumns elements types rows =
      headings.map fun heading => (heading.1, heading.2.toValueType))
    (hfits : ∀ row ∈ rows, FitsInto headings row) (hperm : rows'.Perm rows) {i : Nat}
    {heading : Heading} (hi : headings[i]? = some heading) :
    ∃ heading' : Heading, (plannedColumns elements types rows')[i]? =
        some (heading'.1, heading'.2.toValueType) ∧
      (heading' = heading ∨ TurnsToLongs elements types rows' i heading heading') := by
  have hcolumn : ∀ v ∈ rows.map (fun row => row[i]?.getD .void), heading.2.Fits v := by
    intro v hv
    obtain ⟨row, hrow, rfl⟩ := List.mem_map.mp hv
    obtain ⟨v, hget, hfit⟩ := (hfits row hrow).getElem? hi
    rwa [hget]
  have hget := congrArg (fun columns => columns[i]?) hplanned
  simp only [getElem?_plannedColumns, List.getElem?_map, hi, Option.map_some,
    Option.map_eq_some_iff] at hget
  obtain ⟨⟨e, t⟩, hc, hheading⟩ := hget
  rw [Prod.mk.injEq] at hheading
  obtain ⟨hname, htype⟩ := hheading
  rw [getElem?_plannedColumns, hc]
  rcases observedType_perm htype hcolumn (hperm.map _) with hsame | ⟨rfl, hdouble, hlong, d, hd⟩
  · exact ⟨heading, by rw [Option.map_some, hname, hsame], Or.inl rfl⟩
  · obtain ⟨row, hrow, hv⟩ := List.mem_map.mp hd
    refine ⟨(heading.1, .long), by rw [Option.map_some, hname, hlong], Or.inr ?_⟩
    refine ⟨hdouble, rfl, ⟨e, List.mem_of_getElem? hc, hname⟩, row, hrow, d, ?_⟩
    cases hvalue : row[i]? with
    | none =>
        rw [hvalue] at hv
        cases hv
    | some v =>
        rw [hvalue] at hv
        exact congrArg some hv

/-- The columns that are planned when the rows come in another order. -/
theorem exists_headings_perm
    (hplanned : plannedColumns elements types rows =
      headings.map fun heading => (heading.1, heading.2.toValueType))
    (hfits : ∀ row ∈ rows, FitsInto headings row) (hperm : rows'.Perm rows) :
    ∃ headings' : List Heading, headings'.length = headings.length ∧
      plannedColumns elements types rows' =
        headings'.map (fun heading => (heading.1, heading.2.toValueType)) ∧
      ∀ i heading heading', headings[i]? = some heading → headings'[i]? = some heading' →
        heading' = heading ∨ TurnsToLongs elements types rows' i heading heading' := by
  have hcolumn : ∀ p ∈ headings.zipIdx, ∃ heading' : Heading,
      (plannedColumns elements types rows')[p.2]? = some (heading'.1, heading'.2.toValueType) ∧
        (heading' = p.1 ∨ TurnsToLongs elements types rows' p.2 p.1 heading') :=
    fun _ hp => exists_heading_perm hplanned hfits hperm (List.mem_zipIdx_iff_getElem?.mp hp)
  obtain ⟨headings', hall⟩ := exists_forall₂_of_forall hcolumn
  have hlength : headings'.length = headings.length := by simpa using hall.length_eq.symm
  have hcount : (plannedColumns elements types rows').length = headings.length := by
    simpa [plannedColumns] using congrArg List.length hplanned
  have hat : ∀ i (hi : i < headings.length) (hi' : i < headings'.length),
      (plannedColumns elements types rows')[i]? =
        some (headings'[i].1, headings'[i].2.toValueType) ∧
      (headings'[i] = headings[i] ∨
        TurnsToLongs elements types rows' i headings[i] headings'[i]) := by
    intro i hi hi'
    simpa using hall.get (by simpa using hi) hi'
  refine ⟨headings', hlength, ?_, ?_⟩
  · refine List.ext_getElem (by simp [hcount, hlength]) fun i hi hi' => ?_
    have hget := (hat i (by omega) (by omega)).1
    simpa [hi] using hget
  · intro i heading heading' hi hi'
    obtain ⟨hlt, rfl⟩ := List.getElem?_eq_some_iff.mp hi
    obtain ⟨hlt', rfl⟩ := List.getElem?_eq_some_iff.mp hi'
    exact (hat i hlt hlt').2

/-- **A projection makes of its rows in another order the same table in another order**, unless it
has to find out the type of a column.  Then the column may turn out to be of longs because a long
comes first, and fails to take a double. -/
theorem projectedFrame_perm (h : projectedFrame registry name elements types rows = .ok g)
    (hperm : rows'.Perm rows) :
    (∃ g', projectedFrame registry name elements types rows' = .ok g' ∧ g.SameRows g') ∨
      ∃ d e, (e, ValueType.void) ∈ elements.zip types ∧
        (e.columnName, ValueType.double) ∈ g.columns.map (fun c => (c.name, c.type)) ∧
        projectedFrame registry name elements types rows' = .error (.configuration
          (.misfit (Value.double d).literalText e.columnName .long)) := by
  obtain ⟨headings, hplanned, hnodup, hfits, rfl⟩ := exists_headings_of_projectedFrame h
  obtain ⟨headings', hlength, hplanned', hturns⟩ := exists_headings_perm hplanned hfits hperm
  have hnames : headings'.map Prod.fst = headings.map Prod.fst := by
    refine List.ext_getElem (by simp [hlength]) fun i hi hi' => ?_
    rw [List.getElem_map, List.getElem_map]
    rcases hturns i _ _ (List.getElem?_eq_getElem (by simpa using hi'))
      (List.getElem?_eq_getElem (by simpa using hi)) with hsame | ⟨_, hturned, _⟩
    · rw [hsame]
    · rw [hturned]
  rw [projectedFrame_of_planned hplanned' (hnames ▸ hnodup)]
  have hfits' : ∀ row ∈ rows', FitsInto headings row := fun row hrow =>
    hfits row (hperm.mem_iff.mp hrow)
  cases hresult : rows'.foldlM withRow (table registry name headings' []) with
  | ok g' =>
      -- all rows fit, so no column is one of longs now that has a double
      obtain ⟨hall, rfl⟩ := foldlM_withRow_eq_ok.mp hresult
      have hsame : headings' = headings := by
        refine List.ext_getElem hlength fun i hi hi' => ?_
        refine (hturns i _ _ (List.getElem?_eq_getElem hi')
          (List.getElem?_eq_getElem hi)).resolve_right ?_
        rintro ⟨_, hturned, _, row, hrow, d, hd⟩
        obtain ⟨v, hv, hfit⟩ := (hall row hrow).getElem? (List.getElem?_eq_getElem hi)
        cases hd.symm.trans hv
        rw [hturned] at hfit
        cases hfit
      rw [hsame]
      exact Or.inl ⟨_, rfl, sameRows_table headings hperm⟩
  | error e =>
      -- the value fitted into its column before, so the column has turned
      right
      obtain ⟨row, hrow, heading', v, hmem, hmisfit, rfl⟩ := isMisfitOf_of_foldlM_withRow
        (fun row hrow => (hfits' row hrow).length_eq.symm.trans hlength.symm) hresult
      obtain ⟨i, hi⟩ := List.mem_iff_getElem?.mp hmem
      obtain ⟨hheading', hv⟩ := List.getElem?_zip_eq_some.mp hi
      obtain ⟨hlt', rfl⟩ := List.getElem?_eq_some_iff.mp hheading'
      have hget := List.getElem?_eq_getElem (hlength ▸ hlt' : i < headings.length)
      obtain ⟨_, hv', hfit⟩ := (hfits' row hrow).getElem? hget
      cases hv.symm.trans hv'
      have hturn := hturns i _ headings'[i] hget hheading'
      rcases hturn with hsame | ⟨hdouble, hturned, ⟨e, he, hname⟩, _⟩
      · exact absurd (hsame ▸ hfit) hmisfit
      · rw [hturned] at hmisfit ⊢
        rw [hdouble] at hfit
        cases v with
        | double d =>
            refine ⟨d, e, he, ?_, by rw [hname]; rfl⟩
            change _ ∈ (columnsOf headings rows).map _
            rw [map_columnsOf, List.mem_map]
            exact ⟨_, List.mem_of_getElem? hget, by rw [hname, hdouble]; rfl⟩
        | void | long => exact absurd rfl hmisfit
        | _ => cases hfit

end Reordered

end Frame

end FrameLang
