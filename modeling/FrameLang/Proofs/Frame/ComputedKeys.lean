/-
Sorting by a computed column is sorting by its expression.

A computed column has the text of its expression, and rows may be sorted by that text as well.  It
is read and checked anew then, against the columns that there are by now.  Columns may have come
since the column was declared, also one with a name that the expression assigns.  But a name that
was found when the column was declared is found again, with the same type, and one that is assigned
is not looked for.  So the check is passed again (`Declared.check`).

The two sorts compute the same keys then, from the same runs.  Only the way there differs.  A
column is read one level deeper than an expression is evaluated, so a bound on depth that is just
enough for the expression is too small by one for the column.
-/
import FrameLang.Proofs.Depth
import FrameLang.Proofs.Frame.ColumnOrder

namespace FrameLang

open Run

namespace Frame

/-- **An expression that was accepted is accepted ever after.** -/
theorem Declared.check {f : Frame} (hf : f.Declared) {name source : String} {e : Expr}
    {t : ValueType} (hc : { name, content := .computed source e t } ∈ f.columns) :
    f.scope.check e = .ok t := by
  obtain ⟨i, hi⟩ := List.mem_iff_getElem?.mp hc
  obtain ⟨_, hcheck, _⟩ := hf i name source e t hi
  have hblank : (f.upTo i).scope.blank = f.scope.blank := rfl
  exact Scope.check_of_knows hblank (fun _ _ => columnType?_of_upTo) hcheck

/-- A text that is an expression and passes the check is a key to sort by. -/
theorem sortKey_eq_ok {f : Frame} {text : String} {e : Expr} {t : ValueType}
    (hsource : Expr.ofSource text = .ok e) (hcheck : f.scope.check e = .ok t) :
    f.sortKey text = .ok e := by
  unfold sortKey
  rw [hsource]
  change (discard (f.scope.check e) >>= fun _ => .ok e) = _
  rw [hcheck]
  rfl

/-- The text of a computed column is a key to sort by. -/
theorem Declared.sortKey_eq {f : Frame} (hf : f.Declared) {name source : String} {e : Expr}
    {t : ValueType} (hc : { name, content := .computed source e t } ∈ f.columns) :
    f.sortKey source = .ok e := by
  obtain ⟨i, hi⟩ := List.mem_iff_getElem?.mp hc
  obtain ⟨hsource, _⟩ := hf i name source e t hi
  exact sortKey_eq_ok hsource (hf.check hc)

/-- To read a computed column is to evaluate its expression, one level deeper. -/
theorem readColumn_computed (f : Frame) (depth : Nat) (host : Host) (name source : String)
    (e : Expr) (t : ValueType) (row : Nat) :
    f.readColumn (Expr.runDeep (depth + 1)) host { name, content := .computed source e t } row =
      f.evaluateOnRow depth host e row := by
  change isolated ∅ (Expr.runDeep (depth + 1) (.ofRow host f row) [e]) = _
  rw [Expr.runDeep_single]
  rfl

/-- The two sorts are one run, if the column may be read one level deeper. -/
theorem sortBy_computed {f : Frame} (hwf : f.WellFormed) (hf : f.Declared) {name source : String}
    {e : Expr} {t : ValueType} (hc : { name, content := .computed source e t } ∈ f.columns)
    (depth : Nat) (host : Host) :
    f.sortBy (depth + 1) host [name] = f.sortByExpression depth host source := by
  have hcolumns : f.sortColumns [name] = .ok [{ name, content := .computed source e t }] := by
    unfold sortColumns
    rw [List.mapM_cons, hwf.column?_name hc]
    rfl
  unfold sortBy sortByExpression sortByExpressionUsing
  rw [hcolumns, hf.sortKey_eq hc]
  change f.sortWith _ _ = f.sortWith _ _
  congr 1
  funext row
  rw [List.mapM_cons, readColumn_computed]
  rfl

/-- **Sorting by a computed column is sorting by its expression.**  Let a frame that there can be
have a computed column, declared at any time before.  The text that it was declared with is still a
key, and its expression still passes the check with the type of the column.  Sorting by the column
and sorting by the text end alike, with the same frame or the same failure, and report the same: in
any case if the one may go a level deeper than the other, and within any bounds that neither
reaches. -/
theorem reachable_sortBy_computed {f : Frame} (hf : Reachable f) {name source : String} {e : Expr}
    {t : ValueType} (hc : { name, content := .computed source e t } ∈ f.columns) (host : Host) :
    f.sortKey source = .ok e ∧ f.scope.check e = .ok t ∧
    (∀ depth, f.sortBy (depth + 1) host [name] = f.sortByExpression depth host source) ∧
    ∀ depth depth' s, (∀ s', f.sortBy depth host [name] s ≠ (.error .outOfDepth, s')) →
      (∀ s', f.sortByExpression depth' host source s ≠ (.error .outOfDepth, s')) →
      f.sortBy depth host [name] s = f.sortByExpression depth' host source s := by
  have hsame := sortBy_computed hf.wellFormed hf.declared hc
  refine ⟨hf.declared.sortKey_eq hc, hf.declared.check hc, fun depth => hsame depth host, ?_⟩
  intro depth depth' s hcolumn htext
  have hdepth : depth ≤ max depth depth' + 1 := by omega
  have hdepth' : depth' ≤ max depth depth' := by omega
  calc f.sortBy depth host [name] s
      = f.sortBy (max depth depth' + 1) host [name] s :=
        ((deepens_sortBy hdepth host f [name]).run_eq hcolumn).symm
    _ = f.sortByExpression (max depth depth') host source s := by rw [hsame]
    _ = f.sortByExpression depth' host source s :=
        (deepens_sortByExpression hdepth' host f source).run_eq htext

/-- The expression of `c` assigns `x`, as a long in either branch, and later there is a column `x`
of doubles.  The value in the first row is `4` and in the second `2`, so the sort changes their
places. -/
theorem reachable_sortBy_computed_assigned : ∃ f source e host, Reachable f ∧
    { name := "c", content := .computed source e .long } ∈ f.columns ∧
    f.columnType? "x" = some .double ∧ f.scope.check e = .ok .long ∧
    (∀ depth host, f.sortBy (depth + 1) host ["c"] = f.sortByExpression depth host source) ∧
    ∃ s', f.sortByExpression 0 host source {} = (.ok { f with order := some [1, 0] }, s') := by
  let source : String := "if on then x = 1 else x = 2 endif + x"
  let assign (n : Long) : Expr := .sequence [.assign "x" (.literal (.long n))]
  let e : Expr := .binary (.arithmetic .add)
    (.ifElse (.var "on") (assign 1) (some (assign 2))) (.var "x")
  let host : Host := fun key _ => .error (.unknownFunction key)
  let pair : Frame :=
    { name := "switched"
      columns := [{ name := "on", content := .stored ⟨.boolean, #[some false, some true]⟩ },
        { name := "d", content := .stored ⟨.double, #[none, none]⟩ },
        { name := "c", content := .computed source e .long }]
      index := .places ["on", "d", "c"]
      rowCount := 2
      registry := ∅ }
  let f : Frame := pair.extend { name := "x", content := .computed "d" (.var "d") .double }
  have hsource : Expr.ofSource source = .ok e := by cbv
  have hlater : Expr.ofSource "d" = .ok (.var "d") := by cbv
  have hswitched : Reachable (switched source e .long) :=
    reachable_switched hsource rfl (by decide)
  have hpair : Reachable pair :=
    hswitched.of_run 0 host (.row [.boolean true, .void]) (s := {}) rfl
  have hf : Reachable f := hpair.of_run 0 host (.computed "x" "d") (s := {}) (by
    change orReport (pair.withComputed "x" "d") {} = _
    rw [withComputed_eq_ok.mpr ⟨_, .double, hlater, rfl, by decide, rfl, rfl⟩]
    rfl)
  have hc : { name := "c", content := .computed source e .long } ∈ f.columns := by
    simp [f, pair]
  have hboth := reachable_sortBy_computed hf hc
  have hmoved : f.sortBy 1 host ["c"] {} = (.ok { f with order := some [1, 0] }, {}) := by rfl
  refine ⟨f, source, e, host, hf, hc, rfl, (hboth host).2.1, fun depth host =>
    (hboth host).2.2.1 depth, {}, ?_⟩
  rw [← (hboth host).2.2.1 0]
  exact hmoved

end Frame

end FrameLang
