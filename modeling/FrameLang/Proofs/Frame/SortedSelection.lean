/-
Selecting commutes with sorting.

Sorted first, a frame has the chosen rows in ascending order already when they are copied, and the
copy is in no other order than its own.  Selected first, the rows are copied as they stood, and then
the copy is sorted; it has other physical rows, but their cells are the same (`rowOrder_picked`).
So there are two ways to put the chosen rows in ascending order with equal ones as they stood, and
since rows can be arranged in one way only (`Arranges.unique`), the copies show the same
(`sortBy_picked`).

Which rows are chosen does not depend on the order, because a row reads the same wherever it stands.
-/
import FrameLang.Proofs.Frame.Partition
import FrameLang.Proofs.Frame.StableSorting

namespace FrameLang

open Run

/-! ### The order of copies -/

theorem Cells.rowOrder_picked {rows : List Nat} {i j row row' : Nat} (hi : rows[i]? = some row)
    (hj : rows[j]? = some row') (c : Cells) :
    (c.picked rows).rowOrder i j = c.rowOrder row row' := by
  unfold rowOrder
  rw [c.entries_picked hi, c.entries_picked hj]
  rfl

/-- Copied rows are in the order of the rows they were copied from. -/
theorem rowOrder_picked {rows : List Nat} {i j row row' : Nat} (hi : rows[i]? = some row)
    (hj : rows[j]? = some row') (columns : List Cells) :
    rowOrder (columns.map (Cells.picked rows)) i j = rowOrder columns row row' := by
  induction columns with
  | nil => rfl
  | cons c columns ih =>
      rw [List.map_cons, rowOrder, rowOrder, ih, c.rowOrder_picked hi hj]

namespace Frame

/-- Two frames show the same rows in the same order: they have the same columns and as many rows,
and read alike in each row. -/
structure ShowsLike (g h : Frame) : Prop where
  cleared : g.cleared = h.cleared
  rowCount : g.rowCount = h.rowCount
  get : ∀ row < g.rowCount, ∀ depth host name,
    EndAlike (g.get depth host name row) (h.get depth host name row)
  getAt : ∀ row < g.rowCount, ∀ depth host column,
    EndAlike (g.getAt depth host row column) (h.getAt depth host row column)

/-- A copy has the stored columns of the frame. -/
theorem stores_picked {f : Frame} {name : String} {cells : Cells} (h : f.Stores name cells)
    (rows : List Nat) : (f.picked rows).Stores name (cells.picked rows) := by
  obtain ⟨i, hi, hc⟩ := Option.bind_eq_some_iff.mp h
  refine Option.bind_eq_some_iff.mpr ⟨i, hi, ?_⟩
  change (f.columns.map (Column.picked rows))[i]? = _
  rw [List.getElem?_map, hc]
  rfl

/-- Copies of a row show the same. -/
theorem showsAs_picked_picked (f : Frame) {rows rows' : List Nat} {i j row : Nat}
    (hi : rows[i]? = some row) (hj : rows'[j]? = some row) :
    (f.picked rows).ShowsAs i (f.picked rows') j := by
  refine ⟨rfl, rfl, List.forall₂_map_left_iff.mpr (List.forall₂_map_right_iff.mpr
    (List.forall₂_same.mpr fun c _ => ?_))⟩
  exact (Column.showsAs_picked hi c).symm.trans (Column.showsAs_picked hj c)

/-- Copied rows that are shown in another order are a copy in that order. -/
theorem showsLike_picked (f : Frame) {rows order : List Nat}
    (horder : order.Perm (List.range rows.length)) :
    (f.picked (order.map (rows.getD · 0))).ShowsLike
      { f.picked rows with order := some order } := by
  have hlength : order.length = rows.length := by rw [horder.length_eq, List.length_range]
  have hshows : ∀ i < order.length, ∃ j,
      (f.picked (order.map (rows.getD · 0))).physicalRow? i = some i ∧
        ({ f.picked rows with order := some order } : Frame).physicalRow? i = some j ∧
        (f.picked (order.map (rows.getD · 0))).ShowsAs i
          { f.picked rows with order := some order } j := by
    intro i hi
    have hj : order[i] < rows.length :=
      List.mem_range.mp (horder.mem_iff.mp (List.getElem_mem hi))
    refine ⟨order[i], physicalRow?_picked (by simpa using hi), ?_, ?_⟩
    · simp [physicalRow?, Frame.rows, picked, hlength ▸ hi]
    · have hcopied : (order.map (rows.getD · 0))[i]? = some rows[order[i]] := by simp [hi, hj]
      have hplace : rows[order[i]]? = some rows[order[i]] := List.getElem?_eq_getElem hj
      exact ⟨rfl, rfl, (f.showsAs_picked_picked hcopied hplace).columns⟩
  have hcleared : ({ f.picked rows with order := some order } : Frame).cleared = f.cleared :=
    cleared_picked f rows
  refine ⟨(cleared_picked _ _).trans hcleared.symm, by simp [picked, hlength], ?_, ?_⟩
  · intro i hi depth host name
    obtain ⟨j, hrow, hrow', hshows⟩ := hshows i (by simpa [picked] using hi)
    exact hshows.endAlike_get hrow hrow' rfl depth host name
  · intro i hi depth host column
    obtain ⟨j, hrow, hrow', hshows⟩ := hshows i (by simpa [picked] using hi)
    exact hshows.endAlike_getAt hrow hrow' depth host column

/-- **Chosen rows are sorted as they are among all rows.** -/
theorem sortBy_picked {f : Frame} (hf : f.rows.Nodup) {names : List String} {columns : List Cells}
    (hnames : List.Forall₂ f.Stores names columns) {order : List Nat}
    (horder : Arranges (rowOrder columns) f.rows order) (chosen : Nat → Bool) (depth : Nat)
    (host : Host) :
    ∃ h, (f.picked (f.rows.filter chosen)).sortBy depth host names = pure h ∧
      (f.picked (order.filter chosen)).ShowsLike h := by
  let rows := f.rows.filter chosen
  have hstores : List.Forall₂ (f.picked rows).Stores names (columns.map (Cells.picked rows)) :=
    List.forall₂_map_right_iff.mpr (hnames.imp fun _ _ h => stores_picked h rows)
  obtain ⟨places, hplaces, hsort⟩ :=
    sortBy_eq (f := f.picked rows) List.nodup_range hstores depth host
  have hsame : places.map (rows.getD · 0) = order.filter chosen := by
    have hmap : Arranges (rowOrder columns) ((List.range rows.length).map (rows.getD · 0))
        (places.map (rows.getD · 0)) := by
      have hrow : ∀ i ∈ (f.picked rows).rows, rows[i]? = some (rows.getD i 0) := by
        intro i hi
        have hlt : i < rows.length := List.mem_range.mp hi
        simp [hlt]
      exact hplaces.map fun i hi j hj => (rowOrder_picked (hrow i hi) (hrow j hj) columns).symm
    rw [map_getD_range] at hmap
    exact hmap.unique (hf.filter chosen) (horder.filter chosen)
  refine ⟨_, hsort, hsame ▸ ?_⟩
  exact f.showsLike_picked hplaces.perm

/-! ### Sorting before and after -/

section Reordered

variable {f : Frame} {depth : Nat} {host : Host} {text : String} {e : Expr}

/-- A condition has the same meaning in any order of the rows. -/
theorem decides_reordered_iff {order : List Nat} (horder : order.Perm f.rows) :
    ({ f with order := some order } : Frame).Decides depth host text e ↔
      f.Decides depth host text e := by
  refine and_congr Iff.rfl (forall_congr' fun row => ?_)
  rw [show ({ f with order := some order } : Frame).rows = order from rfl, horder.mem_iff]
  exact imp_congr_right fun _ => exists_congr fun v =>
    (f.showsAs_reordered (some order) row).hasValue_iff.symm

theorem isTrueOf_reordered (order : List Nat) :
    ({ f with order := some order } : Frame).isTrueOf depth host e = f.isTrueOf depth host e :=
  funext fun row => (f.showsAs_reordered (some order) row).isTrueOf_eq.symm

end Reordered

end Frame

namespace Run

variable {α β ι : Type} {r : α → β → Prop} {run : Run α} {run' : Run β}

/-- From any two stores, two runs both end with a result or both stop, and the results are
related. -/
def EndRelated (r : α → β → Prop) (run : Run α) (run' : Run β) : Prop :=
  ∀ s s' : Store,
    ((∃ a, (run s : Except Stop α × Store).1 = .ok a) ↔
      ∃ b, (run' s' : Except Stop β × Store).1 = .ok b) ∧
    ∀ a b, (run s : Except Stop α × Store).1 = .ok a →
      (run' s' : Except Stop β × Store).1 = .ok b → r a b

/-- Two runs end related if the results of both are known from one and the same thing. -/
theorem endRelated_of_iff {P : ι → Prop} (result : ι → α) (result' : ι → β)
    (hrun : ∀ s a, (run s : Except Stop α × Store).1 = .ok a ↔ ∃ i, P i ∧ a = result i)
    (hrun' : ∀ s b, (run' s : Except Stop β × Store).1 = .ok b ↔ ∃ i, P i ∧ b = result' i)
    (hunique : ∀ i j, P i → P j → i = j) (hresult : ∀ i, P i → r (result i) (result' i)) :
    EndRelated r run run' := by
  intro s s'
  simp only [hrun, hrun']
  refine ⟨⟨?_, ?_⟩, ?_⟩
  · rintro ⟨_, i, hi, -⟩
    exact ⟨_, i, hi, rfl⟩
  · rintro ⟨_, i, hi, -⟩
    exact ⟨_, i, hi, rfl⟩
  · rintro _ _ ⟨i, hi, rfl⟩ ⟨j, hj, rfl⟩
    obtain rfl := hunique i j hi hj
    exact hresult i hi

end Run

namespace Frame

/-- **Selecting commutes with sorting.**  Let a frame that there can be be sorted by some of its
stored columns and then have rows selected by a condition, or have them selected first and be sorted
then.  Either both ways succeed or neither does, and if they do, both show the same rows in the same
order.  So do the two halves of a partition. -/
theorem reachable_sortBy_select {f : Frame} (hf : Reachable f) {names : List String}
    (hnames : ∀ name ∈ names, ∃ cells, f.Stores name cells) (depth : Nat) (host : Host)
    (text : String) :
    EndRelated ShowsLike (f.sortBy depth host names >>= fun g => g.select depth host text)
      (f.select depth host text >>= fun g => g.sortBy depth host names) ∧
    EndRelated (fun g h => g.1.ShowsLike h.1 ∧ g.2.ShowsLike h.2)
      (f.sortBy depth host names >>= fun g => g.partition depth host text)
      (f.partition depth host text >>= fun g => do
        return (← g.1.sortBy depth host names, ← g.2.sortBy depth host names)) := by
  have hrows := hf.wellFormed.rows_nodup
  obtain ⟨columns, hcolumns⟩ := exists_forall₂_of_forall hnames
  obtain ⟨order, horder, hsort⟩ := sortBy_eq hrows hcolumns depth host
  choose sorted hsorted hshows using fun chosen =>
    sortBy_picked hrows hcolumns horder chosen depth host
  have hunique : ∀ e d, f.Decides depth host text e → f.Decides depth host text d → e = d :=
    fun e d he hd => Except.ok.inj (he.1.symm.trans hd.1)
  refine ⟨endRelated_of_iff (fun e => f.picked (order.filter (f.isTrueOf depth host e)))
      (fun e => sorted (f.isTrueOf depth host e)) ?_ ?_ hunique
      fun e _ => hshows (f.isTrueOf depth host e),
    endRelated_of_iff (fun e => (f.picked (order.filter (f.isTrueOf depth host e)),
        f.picked (order.filter (!f.isTrueOf depth host e ·))))
      (fun e => (sorted (f.isTrueOf depth host e), sorted (!f.isTrueOf depth host e ·))) ?_ ?_
      hunique fun e _ => ⟨hshows (f.isTrueOf depth host e), hshows (!f.isTrueOf depth host e ·)⟩⟩
  · intro s g
    rw [hsort, pure_bind, select_eq_ok_iff]
    simp only [decides_reordered_iff horder.perm, isTrueOf_reordered]
    rfl
  · intro s h
    rw [fst_run_bind_eq_ok_iff]
    constructor
    · rintro ⟨g, s', hrun, hrun'⟩
      obtain ⟨e, hdecides, rfl⟩ := select_eq_ok_iff.mp (congrArg Prod.fst hrun)
      rw [hsorted] at hrun'
      exact ⟨e, hdecides, (Except.ok.inj hrun').symm⟩
    · rintro ⟨e, hdecides, rfl⟩
      refine ⟨_, _, Prod.ext (select_eq_ok_iff (s := s).mpr ⟨e, hdecides, rfl⟩) rfl, ?_⟩
      rw [hsorted]
      rfl
  · rintro s ⟨g, g'⟩
    rw [hsort, pure_bind, partition_eq_ok_iff]
    simp only [decides_reordered_iff horder.perm, isTrueOf_reordered, Prod.ext_iff]
    rfl
  · intro s h
    rw [fst_run_bind_eq_ok_iff]
    constructor
    · rintro ⟨⟨g, g'⟩, s', hrun, hrun'⟩
      obtain ⟨e, hdecides, rfl, rfl⟩ := partition_eq_ok_iff.mp (congrArg Prod.fst hrun)
      simp only [hsorted] at hrun'
      exact ⟨e, hdecides, (Except.ok.inj hrun').symm⟩
    · rintro ⟨e, hdecides, rfl⟩
      refine ⟨_, _, Prod.ext (partition_eq_ok_iff (s := s).mpr ⟨e, hdecides, rfl, rfl⟩) rfl, ?_⟩
      simp only [hsorted]
      rfl

/-- Two rows of one lot, the later of which has the lower price. -/
theorem reachable_sortBy_select_stock : ∃ (host : Host) (h : Frame), Reachable stock ∧
    ((stock.select 0 host "lot == 2" >>= fun g => g.sortBy 0 host ["price"]) {} :
      Except Stop Frame × Store).1 = .ok h ∧ (stock.picked [2, 0]).ShowsLike h := by
  let host : Host := fun key _ => .error (.unknownFunction key)
  let e : Expr := .binary (.comparison .eq) (.var "lot") (.literal (.long 2))
  have he : Expr.ofSource "lot == 2" = .ok e := by cbv
  have hnames : ∀ name ∈ ["price"], ∃ cells, stock.Stores name cells :=
    List.forall_mem_singleton.mpr ⟨_, rfl⟩
  have hvalues : ∀ row ∈ [1, 2, 0, 3], ∃ v,
      ({ stock with order := some [1, 2, 0, 3] } : Frame).HasValue 0 host e row v := by
    simp only [List.forall_mem_cons, List.not_mem_nil, false_imp_iff, implies_true, and_true]
    exact ⟨⟨.boolean false, fun _ => rfl⟩, ⟨.boolean true, fun _ => rfl⟩,
      ⟨.boolean true, fun _ => rfl⟩, ⟨.boolean false, fun _ => rfl⟩⟩
  have hsorted : ((stock.sortBy 0 host ["price"] >>= fun g => g.select 0 host "lot == 2") {} :
      Except Stop Frame × Store).1 = .ok (stock.picked [2, 0]) :=
    fst_run_bind_eq_ok_iff.mpr ⟨{ stock with order := some [1, 2, 0, 3] }, {}, rfl,
      select_eq_ok_iff.mpr ⟨e, ⟨condition_eq_ok.mpr ⟨he, rfl⟩, hvalues⟩, rfl⟩⟩
  obtain ⟨hends, hshows⟩ :=
    (reachable_sortBy_select reachable_stock hnames 0 host "lot == 2").1 {} {}
  obtain ⟨h, hh⟩ := hends.mp ⟨_, hsorted⟩
  exact ⟨host, h, reachable_stock, hh, hshows _ _ hsorted hh⟩

end Frame

end FrameLang
