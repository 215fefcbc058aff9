/-
Sorting by an expression.

The values of an expression need not have an order between any two of them.  A sort does not look at
all pairs; which ones it looks at is its own affair, and two keys without an order are equal to it.
Still none can miss a pair that has no order.

What every sort compares is whatever ends up side by side (`Comparing.Sorts`), and that is enough.
If nothing has been noted, each key leads the next in the order that comes out, which only `void`
and keys of one kind do, and leading passes on from neighbour to neighbour although being in order
does not (`Proofs/Keys/Preorder.lean`).  So if every two neighbours can be compared, all keys can.
-/
import FrameLang.Proofs.Frame.ComputedKeys
import FrameLang.Proofs.Frame.Partition
import FrameLang.Proofs.Keys.Preorder

namespace FrameLang

open Run

theorem compareKeyLists_single (v w : Value) : compareKeyLists [v] [w] = v.compareKeys w := by
  rw [compareKeyLists]
  cases v.compareKeys w with
  | error e => rfl
  | ok o => cases o <;> rfl

/-- Only keys without an order between them make a comparison fail, and the error names them. -/
theorem Value.eq_incompatible_of_compareKeys {v w : Value} {e : Error}
    (h : v.compareKeys w = .error e) : e = .incompatible .compare v.literalText w.literalText := by
  unfold compareKeys at h
  split at h
  · cases h
  · cases h
  · cases h
  · unfold orderFor at h
    cases horder : v.order? w with
    | none =>
        rw [horder] at h
        exact (Except.error.inj h).symm
    | some o =>
        rw [horder] at h
        cases h

theorem Value.not_isComparable_iff {v w : Value} :
    ¬v.IsComparable w ↔ ∃ e, v.compareKeys w = .error e := by
  unfold IsComparable
  cases v.compareKeys w with
  | error e => simp
  | ok o => simp

/-- **Neighbours that are in order can all be compared**, near or far. -/
theorem Value.pairwise_of_isChain {keys : List Value} (h : keys.IsChain Precedes) :
    keys.Pairwise IsComparable :=
  (List.isChain_iff_pairwise.mp (h.imp fun _ _ => Precedes.leads)).imp fun h => h.isComparable

namespace Frame

/-! ### Keys with one value -/

section Keys

variable (key : Nat → Value)

/-- A row with its key. -/
abbrev tagged (row : Nat) : KeyedRow := (row, [key row])

variable {key} {sort : RowSort} {rows : List Nat}

theorem compareRows_tagged (a b : Nat) :
    compareRows (tagged key a) (tagged key b) = (key a).compareKeys (key b) :=
  compareKeyLists_single (key a) (key b)

/-- Rows that have been compared without a failure are in order as the answer says. -/
theorem precedes_of_settles {asked : List (KeyedRow × KeyedRow)}
    (hasked : ∀ a b, (a, b) ∈ asked →
      compareRows a b = .ok (Comparing.heard compareRows a b)) {a b : Nat}
    (h : Comparing.Settles (Comparing.heard compareRows) asked (tagged key a) (tagged key b)) :
    (key a).Precedes (key b) := by
  rcases h with ⟨hmem, hanswer⟩ | ⟨hmem, hanswer⟩
  · have hcompare := hasked _ _ hmem
    rw [compareRows_tagged] at hcompare
    exact ⟨_, hcompare, hanswer⟩
  · have hcompare := hasked _ _ hmem
    rw [compareRows_tagged] at hcompare
    refine ⟨_, Value.compareKeys_swap hcompare, fun hgt => hanswer ?_⟩
    rw [Ordering.swap_eq_iff_eq_swap.mp hgt]
    rfl

/-- **Sorted rows are in order, and any two of them can be compared.** -/
theorem sortedRows_isChain (hsort : Comparing.Sorts sort) {order : List Nat}
    (h : sortedRows sort (rows.map (tagged key)) = .ok order) :
    order.Perm rows ∧ order.IsChain (fun a b => (key a).Precedes (key b)) ∧
      order.Pairwise fun a b => (key a).IsComparable (key b) := by
  have hperm := hsort.perm (Comparing.heard compareRows) (rows.map (tagged key))
  have hchain := hsort.neighbours (Comparing.heard compareRows) (rows.map (tagged key))
  obtain ⟨horder, hasked⟩ := sortedRows_eq_ok h
  -- a sort moves the rows and leaves their keys with them
  have htagged : order.map (tagged key) =
      (sort (rows.map (tagged key))).answered (Comparing.heard compareRows) := by
    rw [horder, List.map_map]
    refine (List.map_congr_left fun row hrow => ?_).trans (List.map_id _)
    obtain ⟨r, -, rfl⟩ := List.mem_map.mp (hperm.mem_iff.mp hrow)
    rfl
  rw [← htagged, List.isChain_map] at hchain
  have hascending : order.IsChain fun a b => (key a).Precedes (key b) :=
    hchain.imp fun _ _ => precedes_of_settles hasked
  refine ⟨?_, hascending, ?_⟩
  · simpa [Function.comp_def] using perm_of_sortedRows hsort h
  · exact List.pairwise_map.mp
      (Value.pairwise_of_isChain ((List.isChain_map key).mpr hascending))

/-- Rows that cannot be sorted have two keys among them that cannot be compared. -/
theorem clash_of_sortedRows (hsort : Comparing.Sorts sort) (hrows : rows.Nodup) {e : Error}
    (h : sortedRows sort (rows.map (tagged key)) = .error e) :
    ∃ a ∈ rows, ∃ b ∈ rows, a ≠ b ∧ (key a).compareKeys (key b) = .error e := by
  obtain ⟨x, y, hasked, hfail⟩ := sortedRows_eq_error h
  have hnodup : (rows.map (tagged key)).Nodup := hrows.map fun _ _ heq => (Prod.mk.inj heq).1
  obtain ⟨hx, hy, hne⟩ := hsort.different _ _ hnodup x y hasked
  obtain ⟨a, ha, rfl⟩ := List.mem_map.mp hx
  obtain ⟨b, hb, rfl⟩ := List.mem_map.mp hy
  rw [compareRows_tagged] at hfail
  exact ⟨a, ha, b, hb, fun heq => hne (congrArg _ heq), hfail⟩

end Keys

/-! ### Keys that an expression gives -/

section Expression

variable {f : Frame} {depth : Nat} {host : Host} {text : String} {e : Expr} {sort : RowSort}

/-- Two rows have keys without an order between them. -/
def HasClash (f : Frame) (depth : Nat) (host : Host) (e : Expr) (v w : Value) : Prop :=
  ∃ i j, i ≠ j ∧ f.HasValueAt depth host e i v ∧ f.HasValueAt depth host e j w ∧
    ¬v.IsComparable w

/-- Sorting by an expression that has a value in every row is sorting by these values. -/
theorem meets_sortByExpression (hsort : Comparing.Sorts sort) (hrows : f.rows.Nodup)
    (hkey : f.sortKey text = .ok e) {key : Nat → Value}
    (hvalues : ∀ row ∈ f.rows, f.HasValue depth host e row (key row)) (s : Store) :
    Meets (f.sortByExpressionUsing sort depth host text) s
      (fun g _ => ∃ order : List Nat, g = { f with order := some order } ∧ order.Perm f.rows ∧
        order.IsChain (fun a b => (key a).Precedes (key b)) ∧
        order.Pairwise fun a b => (key a).IsComparable (key b))
      fun stop _ => ∃ a ∈ f.rows, ∃ b ∈ f.rows, a ≠ b ∧ ¬(key a).IsComparable (key b) ∧
        stop = .failed (.incompatible .compare (key a).literalText (key b).literalText) := by
  unfold sortByExpressionUsing sortWith
  rw [hkey]
  change Meets (f.rows.mapM _ >>= _) s _ _
  refine meets_bind (meets_mapM (R := fun row keyed => tagged key row = keyed)
    (I := fun _ => True) ?_ trivial) ?_
  · intro row hrow s _
    have hvalue := (hasValue_iff_meets s).mp (hvalues row hrow)
    refine meets_bind (Q := fun keys _ => keys = [key row])
      (meets_bind (hvalue.imp (fun _ _ => id) fun _ _ => False.elim) ?_) ?_
    · rintro _ s' rfl
      exact meets_pure rfl
    · rintro _ s' rfl
      exact meets_pure ⟨rfl, trivial⟩
  · rintro keyed s' ⟨hkeyed, -⟩
    obtain rfl : f.rows.map (tagged key) = keyed :=
      List.forall₂_eq_eq_eq ▸ List.forall₂_map_left_iff.mpr hkeyed
    refine meets_bind (meets_orReport (Q := fun order _ => sortedRows _ _ = .ok order)
      (fun _ => id) ?_) ?_
    · intro e h
      obtain ⟨a, ha, b, hb, hab, he⟩ := clash_of_sortedRows hsort hrows h
      exact ⟨a, ha, b, hb, hab, Value.not_isComparable_iff.mpr ⟨e, he⟩,
        congrArg Stop.failed (Value.eq_incompatible_of_compareKeys he)⟩
    · intro order s'' h
      exact meets_pure ⟨order, rfl, sortedRows_isChain hsort h⟩

theorem WellFormed.hasClash_iff (hf : f.WellFormed) {key : Nat → Value}
    (hvalues : ∀ row ∈ f.rows, f.HasValue depth host e row (key row)) {v w : Value} :
    f.HasClash depth host e v w ↔ ∃ a ∈ f.rows, ∃ b ∈ f.rows, a ≠ b ∧
      ¬(key a).IsComparable (key b) ∧ v = key a ∧ w = key b := by
  unfold HasClash HasValueAt
  simp only [hf.physicalRow?_eq_getElem?]
  constructor
  · rintro ⟨i, j, hij, ⟨a, ha, hv⟩, ⟨b, hb, hw⟩, hclash⟩
    have hamem := List.mem_of_getElem? ha
    have hbmem := List.mem_of_getElem? hb
    obtain rfl := hv.unique (hvalues a hamem)
    obtain rfl := hw.unique (hvalues b hbmem)
    refine ⟨a, hamem, b, hbmem, ?_, hclash, rfl, rfl⟩
    rintro rfl
    obtain ⟨hi, -⟩ := List.getElem?_eq_some_iff.mp ha
    exact hij ((List.getElem?_inj hi hf.rows_nodup).mp (ha.trans hb.symm))
  · rintro ⟨a, ha, b, hb, hab, hclash, rfl, rfl⟩
    obtain ⟨i, hi⟩ := List.mem_iff_getElem?.mp ha
    obtain ⟨j, hj⟩ := List.mem_iff_getElem?.mp hb
    refine ⟨i, j, ?_, ⟨a, hi, hvalues a ha⟩, ⟨b, hj, hvalues b hb⟩, hclash⟩
    rintro rfl
    exact hab (Option.some.inj (hi.symm.trans hj))

end Expression

/-- **Sorting by an expression misses no clash**, whatever the sort.  Let a text be an expression
that passes the check and has a value in every row of a frame there can be.  Sorting by it fails if
and only if there are two rows whose values have no order between them, and the failure is then
about two such values.  Otherwise nothing changes but the order of the rows, which has every row
once; and of every two rows that are then shown one after the other, the value in the first does not
come after the value in the second. -/
theorem reachable_sortByExpression_exact {sort : RowSort} (hsort : Comparing.Sorts sort)
    {f : Frame} (hf : Reachable f) {depth : Nat} {host : Host} {text : String} {e : Expr}
    {t : ValueType} (hsource : Expr.ofSource text = .ok e)
    (hcheck : f.scope.check e = .ok t)
    (hvalues : ∀ row < f.rowCount, ∃ v, f.HasValueAt depth host e row v) (s : Store) :
    ((∃ stop s', f.sortByExpressionUsing sort depth host text s = (.error stop, s')) ↔
      ∃ v w, f.HasClash depth host e v w) ∧
    (∀ stop s', f.sortByExpressionUsing sort depth host text s = (.error stop, s') →
      ∃ v w, f.HasClash depth host e v w ∧
        stop = .failed (.incompatible .compare v.literalText w.literalText)) ∧
    ∀ g s', f.sortByExpressionUsing sort depth host text s = (.ok g, s') →
      (∃ order : List Nat, g = { f with order := some order } ∧
        order.Perm (List.range f.rowCount)) ∧
      ∀ row, row + 1 < g.rowCount → ∃ v w, g.HasValueAt depth host e row v ∧
        g.HasValueAt depth host e (row + 1) w ∧ v.Precedes w := by
  have hwf := hf.wellFormed
  have hdecided : ∀ row ∈ f.rows, ∃ v, f.HasValue depth host e row v := by
    intro row hrow
    rw [hwf.rows_eq, List.mem_map] at hrow
    obtain ⟨i, hi, rfl⟩ := hrow
    have hi : i < f.rowCount := List.mem_range.mp hi
    exact (hvalues i hi).imp fun _ => (hwf.hasValueAt_iff hi).mp
  choose! key hkey using hdecided
  have hmeets := meets_sortByExpression hsort hwf.rows_nodup (sortKey_eq_ok hsource hcheck) hkey s
  refine ⟨⟨?_, ?_⟩, ?_, ?_⟩
  · rintro ⟨stop, s', hrun⟩
    obtain ⟨a, ha, b, hb, hab, hclash, -⟩ := hmeets.stop hrun
    exact ⟨_, _, (hwf.hasClash_iff hkey).mpr ⟨a, ha, b, hb, hab, hclash, rfl, rfl⟩⟩
  · rintro ⟨v, w, hvw⟩
    obtain ⟨a, ha, b, hb, hab, hclash, rfl, rfl⟩ := (hwf.hasClash_iff hkey).mp hvw
    rcases hrun : f.sortByExpressionUsing sort depth host text s with ⟨stop | g, s'⟩
    · exact ⟨stop, s', rfl⟩
    · obtain ⟨order, -, hperm, -, hcomparable⟩ := hmeets.result hrun
      have : Std.Symm fun a b => (key a).IsComparable (key b) :=
        ⟨fun _ _ => Value.IsComparable.symm⟩
      exact absurd
        (hcomparable.forall (hperm.mem_iff.mpr ha) (hperm.mem_iff.mpr hb) hab) hclash
  · intro stop s' hrun
    obtain ⟨a, ha, b, hb, hab, hclash, hstop⟩ := hmeets.stop hrun
    exact ⟨_, _, (hwf.hasClash_iff hkey).mpr ⟨a, ha, b, hb, hab, hclash, rfl, rfl⟩, hstop⟩
  · intro g s' hrun
    obtain ⟨order, rfl, hperm, hchain, -⟩ := hmeets.result hrun
    refine ⟨⟨order, rfl, hperm.trans hwf.rows_perm⟩, fun row hrow => ?_⟩
    have hlength : order.length = f.rowCount := by
      rw [hperm.length_eq, hwf.rows_perm.length_eq, List.length_range]
    have hvalue : ∀ (i : Nat) (hi : i < order.length),
        ({ f with order := some order } : Frame).HasValueAt depth host e i (key order[i]) := by
      intro i hi
      refine ⟨order[i], ?_, ?_⟩
      · simp [physicalRow?, rows, hlength ▸ hi]
      · have hmem : order[i] ∈ f.rows := hperm.mem_iff.mp (List.getElem_mem hi)
        exact (f.showsAs_reordered (some order) order[i]).hasValue_iff.mp (hkey _ hmem)
    have hrow : row + 1 < order.length := hlength ▸ hrow
    exact ⟨_, _, hvalue row (Nat.lt_of_succ_lt hrow), hvalue (row + 1) hrow,
      List.isChain_iff_getElem.mp hchain row hrow⟩

/-- The lots of the stock in words, of which there is one for the second lot only. -/
theorem reachable_sortByExpression_exact_stock : ∃ text e v w host stop s', Reachable stock ∧
    Expr.ofSource text = .ok e ∧ stock.HasClash 0 host e v w ∧
    stock.sortByExpression 0 host text {} = (.error stop, s') := by
  let host : Host := fun key _ => .error (.unknownFunction key)
  let text : String := "(0, 1, \"two\")[lot]"
  let e : Expr := .index (.vector [.literal (.long 0), .literal (.long 1),
    .literal (.string "two")]) (.var "lot")
  have hsource : Expr.ofSource text = .ok e := by cbv
  have hcheck : stock.scope.check e = .ok .void := by rfl
  have hsecond : stock.HasValueAt 0 host e 0 (.string "two") := ⟨0, rfl, fun _ => rfl⟩
  have hfirst : stock.HasValueAt 0 host e 1 (.long 1) := ⟨1, rfl, fun _ => rfl⟩
  have hvalues : ∀ row < stock.rowCount, ∃ v, stock.HasValueAt 0 host e row v := by
    intro row hrow
    have hrows : row < 4 := hrow
    obtain rfl | rfl | rfl | rfl : row = 0 ∨ row = 1 ∨ row = 2 ∨ row = 3 := by omega
    · exact ⟨_, hsecond⟩
    · exact ⟨_, hfirst⟩
    · exact ⟨_, 2, rfl, fun _ => rfl⟩
    · exact ⟨_, 3, rfl, fun _ => rfl⟩
  have hclash : stock.HasClash 0 host e (.string "two") (.long 1) :=
    ⟨0, 1, by decide, hsecond, hfirst, Value.not_isComparable_iff.mpr ⟨_, rfl⟩⟩
  obtain ⟨hfails, -, -⟩ :=
    reachable_sortByExpression_exact Comparing.sorts_insertionSort reachable_stock hsource hcheck
      hvalues {}
  obtain ⟨stop, s', hrun⟩ := hfails.mpr ⟨_, _, hclash⟩
  exact ⟨text, e, _, _, host, stop, s', reachable_stock, hsource, hclash, hrun⟩

end Frame

end FrameLang
