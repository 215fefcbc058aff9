/-
Sorting by stored columns.

The cells of one column are all of one type, so any two of them can be compared, and on each type
the comparison is a total preorder: numbers, texts and dates by their own orders, doubles by the
line of their encodings, and a null before everything else.  Keys of several columns are compared
place by place, which is a total preorder again (`rowOrder`).  So sorting by stored columns cannot
fail, and it arranges the rows as they are shown (`sortBy_eq`).

Two statements follow.  Sorting is a stable sort (`reachable_sortBy_stable`).  And to sort by some
columns and then by others is to sort once, by the others first, since rows can be arranged in one
way only (`reachable_sortBy_refines`).
-/
import FrameLang.Proofs.Frame.Arrangement
import FrameLang.Proofs.Frame.WellFormed

namespace FrameLang

open Run

/-! ### The order of cells -/

/-- Things that are compared by a part of them are in order if the parts are. -/
theorem transCmp_of_part {α β : Type} (cmp : β → β → Ordering) [Std.TransCmp cmp] (part : α → β) :
    Std.TransCmp fun a b => cmp (part a) (part b) where
  eq_swap := Std.OrientedCmp.eq_swap
  isLE_trans := Std.TransCmp.isLE_trans

instance : Std.TransCmp Date.compare :=
  inferInstanceAs (Std.TransCmp (compareLex (compareOn Date.year)
    (compareLex (compareOn Date.month) (compareOn Date.day))))

instance : Std.TransCmp DateTime.compare :=
  have := transCmp_of_part Date.compare DateTime.date
  inferInstanceAs (Std.TransCmp (compareLex (fun a b => a.date.compare b.date)
    (compareLex (compareOn DateTime.hour) (compareLex (compareOn DateTime.minute)
      (compareLex (compareOn DateTime.second) (compareOn DateTime.nanos))))))

namespace ScalarType

/-- The order of the contents of cells of one type. -/
def compare : (type : ScalarType) → type.Carrier → type.Carrier → Ordering
  | .boolean, a, b => Ord.compare a b
  | .long, a, b => Ord.compare a.toInt b.toInt
  | .double, a, b => a.compare b
  | .string, a, b => Ord.compare a b
  | .date, a, b => a.compare b
  | .dateTime, a, b => a.compare b

instance (type : ScalarType) : Std.TransCmp type.compare :=
  match type with
  | .boolean => inferInstanceAs (Std.TransCmp (Ord.compare : Bool → Bool → Ordering))
  | .long => inferInstanceAs (Std.TransCmp (compareOn Int64.toInt))
  | .double => inferInstanceAs (Std.TransCmp (compareOn Double.order))
  | .string => inferInstanceAs (Std.TransCmp (Ord.compare : String → String → Ordering))
  | .date => inferInstanceAs (Std.TransCmp Date.compare)
  | .dateTime => inferInstanceAs (Std.TransCmp DateTime.compare)

/-- The order of cells of one type, nulls first. -/
def compareEntries (type : ScalarType) : Option type.Carrier → Option type.Carrier → Ordering
  | none, none => .eq
  | none, some _ => .lt
  | some _, none => .gt
  | some a, some b => type.compare a b

instance (type : ScalarType) : Std.TransCmp type.compareEntries where
  eq_swap {a b} := by
    cases a with
    | none => cases b <;> rfl
    | some a =>
        cases b with
        | none => rfl
        | some b => exact @Std.OrientedCmp.eq_swap _ type.compare _ a b
  isLE_trans {a b c} hab hbc := by
    cases a with
    | none => cases c <;> rfl
    | some a =>
        cases b with
        | none => cases hab
        | some b =>
            cases c with
            | none => cases hbc
            | some c => exact @Std.TransCmp.isLE_trans _ type.compare _ a b c hab hbc

/-- Cells of one type can be compared. -/
theorem compareKeys_toValue (type : ScalarType) (a b : Option type.Carrier) :
    (type.toValue a).compareKeys (type.toValue b) = .ok (type.compareEntries a b) := by
  cases type with
  | _ => cases a <;> cases b <;> rfl

end ScalarType

/-! ### The order of rows -/

namespace Cells

/-- The order of two rows by the cells of one column. -/
def rowOrder (c : Cells) (a b : Nat) : Ordering :=
  c.type.compareEntries c.entries[a]?.join c.entries[b]?.join

instance (c : Cells) : Std.TransCmp c.rowOrder :=
  transCmp_of_part c.type.compareEntries fun row => c.entries[row]?.join

theorem compareKeys_get (c : Cells) (a b : Nat) :
    (c.get a).compareKeys (c.get b) = .ok (c.rowOrder a b) :=
  c.type.compareKeys_toValue _ _

end Cells

/-- The sort key that some stored columns give to a physical row. -/
def rowKey (columns : List Cells) (row : Nat) : List Value := columns.map (·.get row)

/-- The order of two rows by the cells of some columns, the first one deciding first. -/
def rowOrder : List Cells → Nat → Nat → Ordering
  | [], _, _ => .eq
  | c :: columns, a, b => (c.rowOrder a b).then (rowOrder columns a b)

theorem rowOrder_cons (c : Cells) (columns : List Cells) :
    rowOrder (c :: columns) = compareLex c.rowOrder (rowOrder columns) := rfl

theorem rowOrder_append (columns further : List Cells) :
    rowOrder (columns ++ further) = compareLex (rowOrder columns) (rowOrder further) := by
  funext a b
  induction columns with
  | nil => rfl
  | cons c columns ih =>
      rw [List.cons_append, rowOrder_cons, rowOrder_cons]
      unfold compareLex at *
      rw [ih, Ordering.then_assoc]

instance (columns : List Cells) : Std.TransCmp (rowOrder columns) := by
  induction columns with
  | nil => exact { eq_swap := rfl, isLE_trans := fun _ _ => rfl }
  | cons c columns ih => exact inferInstanceAs (Std.TransCmp (compareLex c.rowOrder _))

/-- Keys of stored columns can be compared. -/
theorem compareKeyLists_rowKey (columns : List Cells) (a b : Nat) :
    compareKeyLists (rowKey columns a) (rowKey columns b) = .ok (rowOrder columns a b) := by
  induction columns with
  | nil => rfl
  | cons c columns ih =>
      unfold rowKey at *
      rw [List.map_cons, List.map_cons, compareKeyLists, c.compareKeys_get, rowOrder]
      cases c.rowOrder a b with
      | eq => exact ih
      | lt => rfl
      | gt => rfl

/-! ### Keys in order -/

/-- One key comes before another: there is a place where it is smaller, and up to there they are
equal. -/
inductive KeyBefore : List Value → List Value → Prop
  | here {v w : Value} {vs ws : List Value} (h : v.compareKeys w = .ok .lt) :
      KeyBefore (v :: vs) (w :: ws)
  | later {v w : Value} {vs ws : List Value} (h : v.compareKeys w = .ok .eq)
      (hrest : KeyBefore vs ws) : KeyBefore (v :: vs) (w :: ws)

/-- Two keys are equal in every place. -/
def KeysEqual (vs ws : List Value) : Prop :=
  List.Forall₂ (fun v w => v.compareKeys w = .ok .eq) vs ws

theorem keyBefore_of_rowOrder {columns : List Cells} {a b : Nat}
    (h : rowOrder columns a b = .lt) : KeyBefore (rowKey columns a) (rowKey columns b) := by
  induction columns with
  | nil => cases h
  | cons c columns ih =>
      have hcompare := c.compareKeys_get a b
      rw [rowOrder] at h
      cases hc : c.rowOrder a b with
      | lt => exact .here (hc ▸ hcompare)
      | eq =>
          rw [hc] at h
          exact .later (hc ▸ hcompare) (ih h)
      | gt =>
          rw [hc] at h
          cases h

theorem keysEqual_iff {columns : List Cells} {a b : Nat} :
    KeysEqual (rowKey columns a) (rowKey columns b) ↔ rowOrder columns a b = .eq := by
  induction columns with
  | nil => exact ⟨fun _ => rfl, fun _ => List.Forall₂.nil⟩
  | cons c columns ih =>
      unfold KeysEqual rowKey at *
      rw [List.map_cons, List.map_cons, List.forall₂_cons, ih, c.compareKeys_get, rowOrder,
        Ordering.then_eq_eq, Except.ok.injEq]

/-- A key that does not come after one with a null in front has a null in front. -/
theorem eq_void_of_keyBefore {v : Value} {vs ws : List Value}
    (h : KeyBefore (v :: vs) (.void :: ws) ∨ KeysEqual (v :: vs) (.void :: ws)) : v = .void := by
  have hvoid : ∀ o, v.compareKeys .void = .ok o → o = .gt ∨ v = .void := by
    intro o ho
    cases v with
    | void => exact Or.inr rfl
    | _ => exact Or.inl (Except.ok.inj ho).symm
  rcases h with h | h
  · cases h with
    | here h => exact (hvoid _ h).resolve_left nofun
    | later h _ => exact (hvoid _ h).resolve_left nofun
  · exact (hvoid _ (List.forall₂_cons.mp h).1).resolve_left nofun

/-! ### Sorting -/

namespace Frame

/-- The frame has a stored column of the given name, with the given cells. -/
def Stores (f : Frame) (name : String) (cells : Cells) : Prop :=
  f.column? name = some { name, content := .stored cells }

theorem WellFormed.rows_nodup {f : Frame} (hf : f.WellFormed) : f.rows.Nodup :=
  hf.rows_perm.symm.nodup List.nodup_range

theorem exists_forall₂_of_forall {α β : Type} {R : α → β → Prop} {l : List α}
    (h : ∀ a ∈ l, ∃ b, R a b) : ∃ bs, List.Forall₂ R l bs := by
  induction l with
  | nil => exact ⟨[], List.Forall₂.nil⟩
  | cons a l ih =>
      obtain ⟨b, hb⟩ := h a (by simp)
      obtain ⟨bs, hbs⟩ := ih fun a ha => h a (by simp [ha])
      exact ⟨b :: bs, List.Forall₂.cons hb hbs⟩

theorem sortColumns_of_stores {f : Frame} {names : List String} {columns : List Cells}
    (h : List.Forall₂ f.Stores names columns) :
    f.sortColumns names =
      .ok ((names.zip columns).map fun (name, cells) => { name, content := .stored cells }) := by
  unfold sortColumns
  induction h with
  | nil => rfl
  | @cons name cells names columns hname _ ih =>
      rw [List.mapM_cons, ih, hname]
      rfl

/-- **Sorting by stored columns arranges the rows.** -/
theorem sortBy_eq {f : Frame} (hf : f.rows.Nodup) {names : List String} {columns : List Cells}
    (h : List.Forall₂ f.Stores names columns) (depth : Nat) (host : Host) :
    ∃ order, Arranges (rowOrder columns) f.rows order ∧
      f.sortBy depth host names = pure { f with order := some order } := by
  have hkey : ∀ row, ((names.zip columns).map fun (name, cells) =>
      ({ name, content := .stored cells } : Column)).mapM
        (fun c => f.readColumn (Expr.runDeep depth) host c row) = pure (rowKey columns row) := by
    intro row
    have hcells : (names.zip columns).map Prod.snd = columns :=
      List.map_snd_zip (Nat.le_of_eq h.length_eq.symm)
    rw [rowKey, ← hcells, List.map_map, List.mapM_map, hcells]
    exact List.mapM_pure
  unfold sortBy
  rw [sortColumns_of_stores h]
  exact sortWith_eq_ok hf hkey fun a b => compareKeyLists_rowKey columns a b

/-- Two prices of either lot, one of them null and two of them zeros of different sign. -/
def stock : Frame where
  name := "stock"
  columns := [{ name := "lot", content := .stored ⟨.long, #[some 2, some 1, some 2, some 1]⟩ },
    { name := "price", content := .stored ⟨.double,
      #[some (.ofParts false 0), none, some (.ofParts true 0), some (.ofParts false 0)]⟩ }]
  index := .places ["lot", "price"]
  rowCount := 4
  registry := ∅

theorem reachable_stock : Reachable stock := by
  let host : Host := fun key _ => .error (.unknownFunction key)
  have hempty : Reachable { name := "stock", registry := ∅ } := .new _ _
  have hlot := hempty.of_run 0 host (.column "lot" .long) (s := {}) rfl
  have hprice := hlot.of_run 0 host (.column "price" .double) (s := {}) rfl
  have hfirst := hprice.of_run 0 host (.row [.long 2, .double (.ofParts false 0)]) (s := {}) rfl
  have hsecond := hfirst.of_run 0 host (.row [.long 1, .void]) (s := {}) rfl
  have hthird := hsecond.of_run 0 host (.row [.long 2, .double (.ofParts true 0)]) (s := {}) rfl
  exact hthird.of_run 0 host (.row [.long 1, .double (.ofParts false 0)]) (s := {}) rfl

/-- **Sorting by stored columns is a stable sort.**  In every frame there can be, it succeeds and
changes nothing but the order of the rows.  That then has every row once, in ascending order of the
keys, nulls first.  Rows with equal keys stand in the order in which they stood before. -/
theorem reachable_sortBy_stable {f : Frame} (hf : Reachable f) {names : List String}
    {columns : List Cells} (hnames : List.Forall₂ f.Stores names columns) (depth : Nat)
    (host : Host) :
    ∃ order, f.sortBy depth host names = pure { f with order := some order } ∧
      order.Perm (List.range f.rowCount) ∧
      order.Pairwise (fun a b => KeyBefore (rowKey columns a) (rowKey columns b) ∨
        KeysEqual (rowKey columns a) (rowKey columns b)) ∧
      (∀ first ∈ columns.head?, order.Pairwise fun a b =>
        first.get b = .void → first.get a = .void) ∧
      ∀ a b, KeysEqual (rowKey columns a) (rowKey columns b) →
        ([a, b].Sublist order ↔ [a, b].Sublist f.rows) := by
  have hrows := hf.wellFormed.rows_nodup
  obtain ⟨order, horder, hsort⟩ := sortBy_eq hrows hnames depth host
  have hascending : order.Pairwise fun a b =>
      KeyBefore (rowKey columns a) (rowKey columns b) ∨
        KeysEqual (rowKey columns a) (rowKey columns b) :=
    horder.ascending.imp fun h => h.imp keyBefore_of_rowOrder fun h => keysEqual_iff.mpr h.1
  refine ⟨order, hsort, horder.perm.trans hf.wellFormed.rows_perm, hascending, ?_, ?_⟩
  · intro first hfirst
    obtain ⟨rest, rfl⟩ : ∃ rest, columns = first :: rest := List.head?_eq_some_iff.mp hfirst
    refine hascending.imp fun {a b} h hb => ?_
    unfold rowKey at h
    rw [List.map_cons, List.map_cons, hb] at h
    exact eq_void_of_keyBefore h
  · intro a b hab
    exact horder.sublist_iff hrows (keysEqual_iff.mp hab)

/-- Sorted by price, the stock has the null first and then the negative zero.  Sorted by lot after
that, it has the first lot first, and within either lot the prices as they were. -/
theorem reachable_sortBy_stable_again : ∃ f lots order host, Reachable f ∧
    f.rows = [1, 2, 0, 3] ∧ List.Forall₂ f.Stores ["lot"] [lots] ∧
    f.sortBy 0 host ["lot"] = pure { f with order := some order } ∧
    order = [1, 3, 2, 0] ∧ [2, 0].Sublist order := by
  let host : Host := fun key _ => .error (.unknownFunction key)
  let lots : Cells := ⟨.long, #[some 2, some 1, some 2, some 1]⟩
  have hf := reachable_stock.of_run 0 host (.sortBy ["price"]) (s := {})
    (g := { stock with order := some [1, 2, 0, 3] }) rfl
  have hlots : List.Forall₂ ({ stock with order := some [1, 2, 0, 3] } : Frame).Stores
      ["lot"] [lots] := .cons rfl .nil
  obtain ⟨order, hsort, _, _, _, hstable⟩ := reachable_sortBy_stable hf hlots 0 host
  have horder : order = [1, 3, 2, 0] := by
    have hrun : (.ok { stock with order := some [1, 3, 2, 0] }, {}) =
        ((.ok { stock with order := some order }, {}) : Except Stop Frame × Store) :=
      congrFun hsort {}
    cases hrun
    rfl
  exact ⟨_, lots, order, host, hf, rfl, hlots, hsort, horder,
    (hstable 2 0 (.cons rfl .nil)).mpr (by decide)⟩

/-- **Sorts refine each other.**  In every frame there can be, sorting by some stored columns and
then by others gives the frame that comes of sorting by the others first and then by the former, in
one go; and sorting by the same columns once more changes nothing. -/
theorem reachable_sortBy_refines {f : Frame} (hf : Reachable f) {names others : List String}
    (hnames : ∀ name ∈ names, ∃ cells, f.Stores name cells)
    (hothers : ∀ name ∈ others, ∃ cells, f.Stores name cells) (depth : Nat) (host : Host) :
    ∃ g h, f.sortBy depth host others = pure g ∧ g.sortBy depth host names = pure h ∧
      f.sortBy depth host (names ++ others) = pure h ∧ g.sortBy depth host others = pure g := by
  obtain ⟨columns, hcolumns⟩ := exists_forall₂_of_forall hnames
  obtain ⟨further, hfurther⟩ := exists_forall₂_of_forall hothers
  have hrows := hf.wellFormed.rows_nodup
  obtain ⟨middle, hmiddle, hfirst⟩ := sortBy_eq hrows hfurther depth host
  let g : Frame := { f with order := some middle }
  have hgrows : g.rows.Nodup := hmiddle.perm.symm.nodup hrows
  obtain ⟨last, hlast, hsecond⟩ := sortBy_eq (f := g) hgrows hcolumns depth host
  obtain ⟨once, honce, hboth⟩ :=
    sortBy_eq hrows (List.rel_append hcolumns hfurther) depth host
  obtain ⟨same, hsame, hagain⟩ := sortBy_eq (f := g) hgrows hfurther depth host
  have hlexicographic : last = once := by
    rw [rowOrder_append] at honce
    exact (hmiddle.trans hlast).unique hrows honce
  have hunchanged : same = middle := hsame.unique hgrows hmiddle.again
  refine ⟨g, _, hfirst, hsecond, hlexicographic ▸ hboth, ?_⟩
  rw [hagain, hunchanged]

/-- Sorting the stock by price and then by lot is sorting it by lot and price. -/
theorem reachable_sortBy_refines_stock : ∃ f g h host, Reachable f ∧
    f.sortBy 0 host ["price"] = pure g ∧ g.sortBy 0 host ["lot"] = pure h ∧
    f.sortBy 0 host ["lot", "price"] = pure h ∧ h.order = some [1, 3, 2, 0] := by
  let host : Host := fun key _ => .error (.unknownFunction key)
  have hnames : ∀ name ∈ ["lot"], ∃ cells, stock.Stores name cells :=
    List.forall_mem_singleton.mpr ⟨_, rfl⟩
  have hothers : ∀ name ∈ ["price"], ∃ cells, stock.Stores name cells :=
    List.forall_mem_singleton.mpr ⟨_, rfl⟩
  obtain ⟨g, h, hprice, hlot, hboth, _⟩ :=
    reachable_sortBy_refines reachable_stock hnames hothers 0 host
  have horder : h.order = some [1, 3, 2, 0] := by
    have hrun : (.ok { stock with order := some [1, 3, 2, 0] }, {}) =
        ((.ok h, {}) : Except Stop Frame × Store) := congrFun hboth {}
    cases hrun
    rfl
  exact ⟨stock, g, h, host, reachable_stock, hprice, hlot, hboth, horder⟩

end Frame

end FrameLang
