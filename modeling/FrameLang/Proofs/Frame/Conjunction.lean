/-
Selecting twice is selecting by a conjunction.

Of two selections the second one sees the rows only that the first one has left, in a frame of their
own.  A conjunction is decided row by row in the one frame there is, and looks at its right operand
only where the left one is true.  Both ways the right operand is evaluated in the same rows, and it
finds the same there: a copied row shows what it was copied from, and an operand without assignments
leaves no variables behind for the other one (`evaluateOnRow_connective`).

The two ways differ in what they make of values that are neither booleans nor `void`.  A selection
leaves such a row out, while a conjunction fails.  The check keeps these values away as long as
functions give what they announce (`Declared.isOf_of_hasValue`), and only that long: of the host's
functions nothing is known (`diverge_of_wrapping`).
-/
import FrameLang.Proofs.Frame.ComputedKeys
import FrameLang.Proofs.Frame.Partition
import FrameLang.Proofs.Frame.TypeSafety

namespace FrameLang

open Run FrameLang.Expr

/-! ### Copies of copies -/

theorem Cells.picked_picked {rows chosen : List Nat} (h : ∀ i ∈ chosen, i < rows.length)
    (c : Cells) : (c.picked rows).picked chosen = c.picked (chosen.map (rows.getD · 0)) := by
  have hentries : (chosen.map fun i => (c.picked rows).entries[i]?.join) =
      (chosen.map (rows.getD · 0)).map fun row => c.entries[row]?.join := by
    rw [List.map_map]
    exact List.map_congr_left fun i hi => c.entries_picked (by simp [h i hi])
  exact congrArg (fun entries => (⟨c.type, entries.toArray⟩ : Cells)) hentries

namespace Frame

/-- A copy of a copy is a copy. -/
theorem picked_picked (f : Frame) {rows chosen : List Nat} (h : ∀ i ∈ chosen, i < rows.length) :
    (f.picked rows).picked chosen = f.picked (chosen.map (rows.getD · 0)) := by
  have hcolumn : ∀ c : Column,
      (c.picked rows).picked chosen = c.picked (chosen.map (rows.getD · 0)) := by
    rintro ⟨name, content⟩
    cases content with
    | stored cells => simp only [Column.picked, cells.picked_picked h]
    | computed => rfl
  simp [picked, hcolumn]

/-- To choose rows among copied ones is to copy those that are chosen. -/
theorem picked_filter (f : Frame) {rows : List Nat} {chosen test : Nat → Bool}
    (h : ∀ i row, rows[i]? = some row → test i = chosen row) :
    (f.picked rows).picked ((f.picked rows).rows.filter test) = f.picked (rows.filter chosen) := by
  have htest : (List.range rows.length).filter test =
      (List.range rows.length).filter (chosen ∘ (rows.getD · 0)) := by
    refine List.filter_congr fun i hi => ?_
    have hi : i < rows.length := List.mem_range.mp hi
    exact h i _ (by simp [hi])
  change (f.picked rows).picked ((List.range rows.length).filter test) = _
  rw [htest, picked_picked f fun i hi => List.mem_range.mp (List.mem_of_mem_filter hi),
    ← List.filter_map, map_getD_range]

/-- A condition has the same meaning for copied rows. -/
theorem decides_picked_iff {f : Frame} {depth : Nat} {host : Host} {text : String} {e : Expr}
    {rows : List Nat} : (f.picked rows).Decides depth host text e ↔
      f.condition text = .ok e ∧ ∀ row ∈ rows, ∃ v, f.HasValue depth host e row v := by
  have hcondition : (f.picked rows).condition text = f.condition text := by
    unfold condition
    rw [← scope_cleared (f.picked rows), cleared_picked, scope_cleared]
  unfold Decides
  rw [hcondition]
  refine and_congr_right fun _ => ?_
  change (∀ i ∈ List.range rows.length, _) ↔ _
  constructor
  · intro h row hrow
    obtain ⟨i, hi⟩ := List.mem_iff_getElem?.mp hrow
    obtain ⟨hlt, -⟩ := List.getElem?_eq_some_iff.mp hi
    exact (h i (List.mem_range.mpr hlt)).imp fun v => (f.showsAs_picked hi).hasValue_iff.mpr
  · intro h i hi
    have hi : rows[i]? = some _ := List.getElem?_eq_getElem (List.mem_range.mp hi)
    exact (h _ (List.mem_of_getElem? hi)).imp fun v => (f.showsAs_picked hi).hasValue_iff.mp

end Frame

/-! ### Connectives -/

/-- The check asks of the operands of a connective that both are booleans, and nothing more. -/
theorem Scope.check_connective {scope : Scope} (hscope : scope.functions = ∅) {op : Connective}
    {l r : Expr} (hl : l.IsSimple) (hr : r.IsSimple) :
    scope.check (.binary (.connective op) l r) = .ok .boolean ↔
      scope.check l = .ok .boolean ∧ scope.check r = .ok .boolean := by
  have hsuits := Discipline.suits_simple hscope
  have hknown : ∀ name t, (View.ofTypes scope.variableType).types name = some t →
      scope.variableType name = some t := fun _ _ ht => by simpa using ht
  constructor
  · intro h
    have hboth : (Expr.binary (.connective op) l r).IsSimple := by
      unfold IsSimple at *
      rw [every, hl, hr]
      rfl
    obtain ⟨_, _, htyped, -⟩ := typed_of_check hsuits hboth h (View.types_ofTypes _)
    cases htyped with
    | binary hconnective => exact absurd rfl (hconnective op)
    | @connective _ _ Γ₁ _ _ _ _ j k hleft hright hop =>
        obtain rfl := hleft.view_eq fun _ _ => rfl
        obtain ⟨hj, hk⟩ : j.type = .boolean ∧ k.type = .boolean :=
          by_contra fun hn => hop (if_neg hn)
        exact ⟨hj ▸ check_of_typed hleft hknown, hk ▸ check_of_typed hright hknown⟩
  · rintro ⟨hleft, hright⟩
    obtain ⟨j, Γ₁, hleft, hj⟩ := typed_of_check hsuits hl hleft (View.types_ofTypes _)
    obtain ⟨k, Γ₂, hright, hk⟩ := typed_of_check hsuits hr hright (View.types_ofTypes _)
    obtain rfl := hleft.view_eq fun _ _ => rfl
    have hop : BinaryOp.resultType (.connective op) j.type k.type = .boolean :=
      if_pos ⟨hj, hk⟩
    exact hop ▸ check_of_typed (.connective hleft hright (by simp [hop]) trivial) hknown

namespace Value

variable {v : Value}

theorem isOf_boolean_iff :
    v.IsOf .boolean ↔ (v = .void ∨ v = .boolean false) ∨ v = .boolean true := by
  cases v with
  | boolean b => cases b <;> simp [IsOf, type]
  | _ => simp [IsOf, type]

/-- The left operand of a conjunction is its value, or is true and leaves it open. -/
theorem shortcut_and_eq_ok_iff {settled : Value ⊕ Bool} :
    v.shortcut .and = .ok settled ↔ (v = .void ∨ v = .boolean false) ∧ settled = .inl v ∨
      v = .boolean true ∧ settled = .inr true := by
  cases v with
  | boolean b => cases b <;> simp [shortcut, eq_comm]
  | _ => simp [shortcut, eq_comm]

/-- Beside a true left operand the right one is the value of a conjunction. -/
theorem connective_and_eq_ok_iff {w : Value} :
    v.connective .and true = .ok w ↔ v.IsOf .boolean ∧ w = v := by
  cases v with
  | boolean b => cases b <;> simp [connective, IsOf, type, eq_comm]
  | _ => simp [connective, IsOf, type, eq_comm]

end Value

namespace Run

variable {α β : Type}

/-- A run with variables of its own may be taken apart where its first part keeps them. -/
theorem isolated_bind {x : Run α} {vars : Bindings Value} (hx : Keeps (· = vars) x)
    (f : α → Run β) :
    isolated vars (x >>= f) = isolated vars x >>= fun a => isolated vars (f a) := by
  funext s
  have hkept := hx { s with vars } rfl
  rw [run_bind]
  unfold isolated
  rw [run_bind]
  rcases hrun : x { s with vars } with ⟨stop | a, s'⟩
  · rfl
  · have hs' : s'.vars = vars := hkept.result hrun
    subst hs'
    rfl

theorem isolated_orReport (vars : Bindings Value) (x : Except Error α) :
    isolated vars (orReport x) = orReport x := by
  cases x with
  | ok a => rfl
  | error e => rfl

end Run

/-! ### Evaluating a conjunction -/

theorem Expr.keeps_of_isSimple {e : Expr} (he : e.IsSimple) (deeper : RunStatements)
    (env : Environment) (vars : Bindings Value) : Keeps (· = vars) (e.evaluateWith deeper env) :=
  keeps_evaluateWith (p := isSimpleNode) (fun _ _ h => absurd h Bool.false_ne_true) deeper e he env

namespace Frame

/-- The operands of a connective are evaluated on a row of their own. -/
theorem evaluateOnRow_connective (f : Frame) (depth : Nat) (host : Host) (op : Connective)
    {l r : Expr} (hl : l.IsSimple) (hr : r.IsSimple) (row : Nat) :
    f.evaluateOnRow depth host (.binary (.connective op) l r) row = (do
      let left ← f.evaluateOnRow depth host l row
      match ← orReport (left.shortcut op) with
      | .inl v => return v
      | .inr b =>
        let right ← f.evaluateOnRow depth host r row
        orReport (right.connective op b)) := by
  unfold evaluateOnRow Environment.evaluate
  rw [evaluateWith, isolated_bind (keeps_of_isSimple hl _ _ _)]
  congr 1
  funext left
  cases left.shortcut op with
  | error e => rfl
  | ok settled =>
      cases settled with
      | inl v => rfl
      | inr b =>
          change isolated ∅ (r.evaluateWith _ _ >>= fun _ => _) = _
          rw [isolated_bind (keeps_of_isSimple hr _ _ _)]
          simp only [isolated_orReport]
          rfl

section Conjunction

variable {f : Frame} {depth : Nat} {host : Host} {p q : Expr}

/-- **The value of a conjunction** is that of its left operand if this is not true, and else that of
the right one.  Both have to be booleans, or `void`. -/
theorem hasValue_and_iff (hp : p.IsSimple) (hq : q.IsSimple) {row : Nat} {v : Value} :
    f.HasValue depth host (.binary (.connective .and) p q) row v ↔
      f.HasValue depth host p row v ∧ (v = .void ∨ v = .boolean false) ∨
      f.HasValue depth host p row (.boolean true) ∧ f.HasValue depth host q row v ∧
        v.IsOf .boolean := by
  have hmeets : Meets (f.evaluateOnRow depth host (.binary (.connective .and) p q) row) {}
      (fun v _ => f.HasValue depth host p row v ∧ (v = .void ∨ v = .boolean false) ∨
        f.HasValue depth host p row (.boolean true) ∧ f.HasValue depth host q row v ∧
          v.IsOf .boolean) fun _ _ => True := by
    have hrun : ∀ e s, Meets (f.evaluateOnRow depth host e row) s
        (fun v _ => f.HasValue depth host e row v) fun _ _ => True :=
      fun e s => (meets_evaluateOnRow row s).imp (fun _ _ => id) fun _ _ _ => trivial
    rw [evaluateOnRow_connective f depth host .and hp hq row]
    refine meets_bind (hrun p _) fun left s hleft => ?_
    refine meets_bind (meets_orReport (Q := fun settled _ => left.shortcut .and = .ok settled)
      (fun _ => id) fun _ _ => trivial) fun settled s' hshortcut => ?_
    obtain ⟨hleft', rfl⟩ | ⟨rfl, rfl⟩ := Value.shortcut_and_eq_ok_iff.mp hshortcut
    · exact meets_pure (.inl ⟨hleft, hleft'⟩)
    · refine meets_bind (hrun q _) fun right s'' hright => ?_
      refine meets_orReport (fun v hv => ?_) fun _ _ => trivial
      obtain ⟨hboolean, rfl⟩ := Value.connective_and_eq_ok_iff.mp hv
      exact .inr ⟨hleft, hright, hboolean⟩
  constructor
  · intro hv
    exact hmeets.result (Prod.ext (hv {}) rfl)
  · rw [hasValue_iff_meets (e := .binary _ p q) {},
      evaluateOnRow_connective f depth host .and hp hq]
    rintro (⟨hv, hsettled⟩ | ⟨hleft, hv, hboolean⟩)
    · refine meets_bind ((hasValue_iff_meets {}).mp hv) ?_
      rintro _ s rfl
      rw [Value.shortcut_and_eq_ok_iff.mpr (.inl ⟨hsettled, rfl⟩)]
      exact meets_pure rfl
    · refine meets_bind ((hasValue_iff_meets {}).mp hleft) ?_
      rintro _ s rfl
      change Meets (f.evaluateOnRow depth host q row >>= _) s _ _
      refine meets_bind ((hasValue_iff_meets s).mp hv) ?_
      rintro _ s' rfl
      rw [Value.connective_and_eq_ok_iff.mpr ⟨hboolean, rfl⟩]
      exact meets_pure rfl

theorem isTrueOf_and (hp : p.IsSimple) (hq : q.IsSimple) (row : Nat) :
    f.isTrueOf depth host (.binary (.connective .and) p q) row =
      (f.isTrueOf depth host p row && f.isTrueOf depth host q row) := by
  rw [Bool.eq_iff_iff, Bool.and_eq_true, isTrueOf_iff, isTrueOf_iff, isTrueOf_iff,
    hasValue_and_iff hp hq]
  simp [Value.IsOf, Value.type]

/-- A conjunction has a value where its left operand has one and, if that is true, the right operand
does; and these are booleans or `void`. -/
theorem exists_hasValue_and (hp : p.IsSimple) (hq : q.IsSimple) (row : Nat) :
    (∃ v, f.HasValue depth host (.binary (.connective .and) p q) row v) ↔
      (∃ v, f.HasValue depth host p row v ∧ v.IsOf .boolean) ∧
      (f.isTrueOf depth host p row = true →
        ∃ v, f.HasValue depth host q row v ∧ v.IsOf .boolean) := by
  simp only [hasValue_and_iff hp hq, isTrueOf_iff]
  constructor
  · rintro ⟨v, ⟨hv, hsettled⟩ | ⟨htrue, hv⟩⟩
    · refine ⟨⟨v, hv, ?_⟩, fun htrue => ?_⟩
      · rcases hsettled with rfl | rfl
        · exact .inr (.inl rfl)
        · exact .inr (.inr rfl)
      · cases hv.unique htrue
        simp at hsettled
    · exact ⟨⟨_, htrue, .inr (.inr rfl)⟩, fun _ => ⟨v, hv⟩⟩
  · rintro ⟨⟨v, hv, hboolean⟩, hright⟩
    rcases Value.isOf_boolean_iff.mp hboolean with hsettled | rfl
    · exact ⟨v, .inl ⟨hv, hsettled⟩⟩
    · obtain ⟨w, hw⟩ := hright hv
      exact ⟨w, .inr ⟨hv, hw⟩⟩

/-- Beside a left operand that is true the right one is evaluated. -/
theorem evaluateOnRow_and_of_true (hp : p.IsSimple) (hq : q.IsSimple) {row : Nat}
    (h : f.HasValue depth host p row (.boolean true)) :
    f.evaluateOnRow depth host (.binary (.connective .and) p q) row = (do
      let _ ← f.evaluateOnRow depth host p row
      let right ← f.evaluateOnRow depth host q row
      orReport (right.connective .and true)) := by
  funext s
  have hleft : f.evaluateOnRow depth host p row s = (.ok (.boolean true), _) := Prod.ext (h s) rfl
  rw [evaluateOnRow_connective f depth host .and hp hq, run_bind, run_bind, hleft]
  rfl

/-- Beside one that is not, the right operand is not evaluated, whatever it is. -/
theorem evaluateOnRow_and_of_not_true (hp : p.IsSimple) (hq : q.IsSimple) {other : Expr}
    (hother : other.IsSimple) {row : Nat} (h : ¬f.HasValue depth host p row (.boolean true)) :
    f.evaluateOnRow depth host (.binary (.connective .and) p q) row =
      f.evaluateOnRow depth host (.binary (.connective .and) p other) row := by
  funext s
  rw [evaluateOnRow_connective f depth host .and hp hq,
    evaluateOnRow_connective f depth host .and hp hother, run_bind, run_bind]
  rcases hrun : f.evaluateOnRow depth host p row s with ⟨stop | left, s'⟩
  · rfl
  · dsimp only
    cases hshortcut : left.shortcut .and with
    | error e => rfl
    | ok settled =>
        obtain ⟨-, rfl⟩ | ⟨rfl, -⟩ := Value.shortcut_and_eq_ok_iff.mp hshortcut
        · rfl
        · refine absurd ((hasValue_iff_meets s).mpr ?_) h
          unfold Meets
          rw [hrun]

end Conjunction

/-! ### Values of the announced type -/

section Typed

variable {f : Frame} {host : Host} {row : Nat}

/-- A column is read to a value of its type or not at all, however deep reads are nested. -/
theorem readsOr_columns (hf : f.Declared) (hsimple : f.HasSimpleColumns)
    (hhonest : ∀ name g, f.registry.get? name = some g → g.IsHonest host fun _ => True)
    (depth : Nat) : f.ReadsOr host row (fun _ => True) f.columns.length depth := by
  induction depth using Nat.strongRecOn with
  | ind depth ih =>
      intro name t ht s hs
      rw [upTo_length] at ht
      obtain ⟨c, hc, rfl⟩ := Option.map_eq_some_iff.mp ht
      refine meets_lookUp_column hc hs fun s' hs' => ?_
      obtain ⟨name, content⟩ := c
      cases content with
      | stored cells => exact meets_pure ⟨.inr (type_get cells row), hs'⟩
      | computed source e t =>
          cases depth with
          | zero => exact meets_isolated (meets_throw trivial)
          | succ depth =>
              have hmem := mem_of_column? hc
              have hcheck : (f.upTo f.columns.length).scope.check e = .ok t :=
                (upTo_length f).symm ▸ hf.check hmem
              rw [readColumn_computed]
              refine meets_isolated ((meets_of_readsOr (fun _ _ => trivial) hhonest (· = depth) ?_
                (hsimple _ hmem source e t rfl) hcheck rfl rfl).imp_result
                  fun v s₁ ⟨hv, _⟩ => ⟨hv, hs'⟩)
              rintro below rfl
              exact ih below (Nat.lt_succ_self below)

/-- **Where functions keep their rules, an expression has values of its type only.** -/
theorem Declared.isOf_of_hasValue (hf : f.Declared) (hsimple : f.HasSimpleColumns)
    (hhonest : ∀ name g, f.registry.get? name = some g → g.IsHonest host fun _ => True) {e : Expr}
    (he : e.IsSimple) {t : ValueType} (hcheck : f.scope.check e = .ok t) {depth : Nat} {v : Value}
    (hv : f.HasValue depth host e row v) : v.IsOf t := by
  have hmeets : Meets (f.evaluateOnRow depth host e row) {} (fun v _ => v.IsOf t)
      fun _ _ => True := by
    rw [← upTo_length f] at hcheck
    have hreads : ∀ depth, True → f.ReadsOr host row (fun _ => True) f.columns.length depth :=
      fun depth _ => readsOr_columns hf hsimple hhonest depth
    exact meets_isolated ((meets_of_readsOr (fun _ _ => trivial) hhonest (fun _ => True) hreads he
      hcheck trivial rfl).imp_result fun _ _ => And.left)
  exact hmeets.result (Prod.ext (hv {}) rfl)

end Typed

/-! ### Selecting twice -/

section Selecting

variable {f : Frame} {depth : Nat} {host : Host} {p q : String} {s : Store}

theorem select_eq_ok_iff_of_source {text : String} {e : Expr} (hsource : Expr.ofSource text = .ok e)
    {g : Frame} : (f.select depth host text s : Except Stop Frame × Store).1 = .ok g ↔
      f.Decides depth host text e ∧ g = f.picked (f.rows.filter (f.isTrueOf depth host e)) := by
  rw [select_eq_ok_iff]
  constructor
  · rintro ⟨d, hdecides, rfl⟩
    obtain rfl : e = d :=
      Except.ok.inj (hsource.symm.trans (condition_eq_ok.mp hdecides.1).1)
    exact ⟨hdecides, rfl⟩
  · intro h
    exact ⟨e, h⟩

/-- Two selections succeed if the first condition can be decided in every row and the second one in
those of which the first is true. -/
theorem select_select_eq_ok_iff {h : Frame} :
    (((f.select depth host p >>= fun g => g.select depth host q) s :
      Except Stop Frame × Store).1 = .ok h) ↔
      ∃ e d, f.Decides depth host p e ∧ f.condition q = .ok d ∧
        (∀ row ∈ f.rows, f.isTrueOf depth host e row = true →
          ∃ v, f.HasValue depth host d row v) ∧
        h = f.picked (f.rows.filter fun row =>
          f.isTrueOf depth host e row && f.isTrueOf depth host d row) := by
  have hboth : ∀ e d,
      (f.picked (f.rows.filter (f.isTrueOf depth host e))).picked
        ((f.picked (f.rows.filter (f.isTrueOf depth host e))).rows.filter
          ((f.picked (f.rows.filter (f.isTrueOf depth host e))).isTrueOf depth host d)) =
        f.picked (f.rows.filter fun row =>
          f.isTrueOf depth host e row && f.isTrueOf depth host d row) := by
    intro e d
    rw [picked_filter f fun i row hi => (f.showsAs_picked hi).isTrueOf_eq.symm, List.filter_filter]
    simp only [Bool.and_comm]
  rw [fst_run_bind_eq_ok_iff]
  constructor
  · rintro ⟨g, s', hrun, hrun'⟩
    obtain ⟨e, hdecides, rfl⟩ := select_eq_ok_iff.mp (congrArg Prod.fst hrun)
    obtain ⟨d, hdecides', rfl⟩ := select_eq_ok_iff.mp hrun'
    obtain ⟨hd, hvalues⟩ := decides_picked_iff.mp hdecides'
    refine ⟨e, d, hdecides, hd, fun row hrow htrue => ?_, hboth e d⟩
    exact hvalues row (List.mem_filter.mpr ⟨hrow, htrue⟩)
  · rintro ⟨e, d, hdecides, hd, hvalues, rfl⟩
    have hfirst := select_eq_ok_iff (s := s).mpr ⟨e, hdecides, rfl⟩
    refine ⟨_, _, Prod.ext hfirst rfl, select_eq_ok_iff.mpr ⟨d, decides_picked_iff.mpr ⟨hd, ?_⟩,
      (hboth e d).symm⟩⟩
    intro row hrow
    exact hvalues row (List.mem_of_mem_filter hrow) (List.mem_filter.mp hrow).2

/-- A conjunction can be decided if both operands can, and have booleans or `void` for values. -/
theorem decides_and_iff {r : String} {e d : Expr}
    (hr : Expr.ofSource r = .ok (.binary (.connective .and) e d)) (he : e.IsSimple)
    (hd : d.IsSimple) :
    f.Decides depth host r (.binary (.connective .and) e d) ↔
      f.scope.check e = .ok .boolean ∧ f.scope.check d = .ok .boolean ∧
        ∀ row ∈ f.rows, (∃ v, f.HasValue depth host e row v ∧ v.IsOf .boolean) ∧
          (f.isTrueOf depth host e row = true →
            ∃ v, f.HasValue depth host d row v ∧ v.IsOf .boolean) := by
  unfold Decides
  have hcheck : f.scope.check (.binary (.connective .and) e d) = .ok .boolean ↔ _ :=
    Scope.check_connective rfl he hd
  simp only [condition_eq_ok, hr, true_and, hcheck, exists_hasValue_and he hd, and_assoc]

end Selecting

/-- **Selecting by a conjunction is selecting twice.**  Let two expressions without assignments and
projections be given, in a frame there can be whose computed columns have none either.  If selecting
by the conjunction of the two succeeds, then so does selecting by the first and then by the second,
with the same frame.  The converse is true as well where functions keep their rules.  The first
selection has the rows of which the first expression is true, and those are the rows that the second
one asks; in the end there are the rows of which both are true, in their order.  The conjunction
evaluates the second expression in the same rows: where the first one is true it is evaluated next,
and elsewhere any other expression might stand in its place. -/
theorem reachable_select_and {f : Frame} (hf : Reachable f) (hsimple : f.HasSimpleColumns)
    {p q r : String} {e d : Expr} (hp : Expr.ofSource p = .ok e) (hq : Expr.ofSource q = .ok d)
    (hr : Expr.ofSource r = .ok (.binary (.connective .and) e d)) (he : e.IsSimple)
    (hd : d.IsSimple) (depth : Nat) (host : Host) :
    (∀ s s' h, (f.select depth host r s : Except Stop Frame × Store).1 = .ok h →
      ((f.select depth host p >>= fun g => g.select depth host q) s' :
        Except Stop Frame × Store).1 = .ok h) ∧
    ((∀ name g, f.registry.get? name = some g → g.IsHonest host fun _ => True) →
      ∀ s s' h, ((f.select depth host p >>= fun g => g.select depth host q) s :
        Except Stop Frame × Store).1 = .ok h →
          (f.select depth host r s' : Except Stop Frame × Store).1 = .ok h) ∧
    (∃ first both : Nat → Bool,
      (∀ row < f.rowCount, first row = true ↔ f.HasValueAt depth host e row (.boolean true)) ∧
      (∀ row < f.rowCount, both row = true ↔ f.HasValueAt depth host e row (.boolean true) ∧
        f.HasValueAt depth host d row (.boolean true)) ∧
      (∀ s g, (f.select depth host p s : Except Stop Frame × Store).1 = .ok g →
        g.ConsistsOf f ((List.range f.rowCount).filter first)) ∧
      ∀ s h, (f.select depth host r s : Except Stop Frame × Store).1 = .ok h →
        h.ConsistsOf f ((List.range f.rowCount).filter both)) ∧
    ∀ row, (f.HasValue depth host e row (.boolean true) →
        f.evaluateOnRow depth host (.binary (.connective .and) e d) row = (do
          let _ ← f.evaluateOnRow depth host e row
          let right ← f.evaluateOnRow depth host d row
          orReport (right.connective .and true))) ∧
      (¬f.HasValue depth host e row (.boolean true) → ∀ other, other.IsSimple →
        f.evaluateOnRow depth host (.binary (.connective .and) e d) row =
          f.evaluateOnRow depth host (.binary (.connective .and) e other) row) := by
  have hwf := hf.wellFormed
  refine ⟨?_, ?_, ?_, fun row => ⟨evaluateOnRow_and_of_true he hd, fun h other hother =>
    evaluateOnRow_and_of_not_true he hd hother h⟩⟩
  · intro s s' h hrun
    obtain ⟨hdecides, rfl⟩ := (select_eq_ok_iff_of_source hr).mp hrun
    obtain ⟨hcheck, hcheck', hvalues⟩ := (decides_and_iff hr he hd).mp hdecides
    refine select_select_eq_ok_iff.mpr ⟨e, d, ⟨condition_eq_ok.mpr ⟨hp, hcheck⟩, ?_⟩,
      condition_eq_ok.mpr ⟨hq, hcheck'⟩, ?_, ?_⟩
    · exact fun row hrow => (hvalues row hrow).1.imp fun _ => And.left
    · exact fun row hrow htrue => ((hvalues row hrow).2 htrue).imp fun _ => And.left
    · exact congrArg f.picked (List.filter_congr fun row _ => isTrueOf_and he hd row)
  · intro hhonest s s' h hrun
    obtain ⟨e', d', ⟨hcondition, hvalues⟩, hcondition', hvalues', rfl⟩ :=
      select_select_eq_ok_iff.mp hrun
    obtain ⟨hp', hcheck⟩ := condition_eq_ok.mp hcondition
    obtain ⟨hq', hcheck'⟩ := condition_eq_ok.mp hcondition'
    cases hp.symm.trans hp'
    cases hq.symm.trans hq'
    refine (select_eq_ok_iff_of_source hr).mpr
      ⟨(decides_and_iff hr he hd).mpr ⟨hcheck, hcheck', ?_⟩, ?_⟩
    · intro row hrow
      refine ⟨(hvalues row hrow).imp fun v hv => ⟨hv, ?_⟩, fun htrue =>
        (hvalues' row hrow htrue).imp fun v hv => ⟨hv, ?_⟩⟩
      · exact hf.declared.isOf_of_hasValue hsimple hhonest he hcheck hv
      · exact hf.declared.isOf_of_hasValue hsimple hhonest hd hcheck' hv
    · exact congrArg f.picked (List.filter_congr fun row _ => (isTrueOf_and he hd row).symm)
  · refine ⟨f.isTrueOf depth host e ∘ f.place,
      (fun row => f.isTrueOf depth host e row && f.isTrueOf depth host d row) ∘ f.place, ?_, ?_,
      ?_, ?_⟩
    · intro row hrow
      rw [hwf.hasValueAt_iff hrow]
      exact isTrueOf_iff
    · intro row hrow
      rw [hwf.hasValueAt_iff hrow, hwf.hasValueAt_iff hrow, ← isTrueOf_iff, ← isTrueOf_iff]
      exact Bool.and_eq_true_iff
    · intro s g hrun
      obtain ⟨-, rfl⟩ := (select_eq_ok_iff_of_source hp).mp hrun
      exact hwf.consistsOf_filter _
    · intro s h hrun
      obtain ⟨-, rfl⟩ := (select_eq_ok_iff_of_source hr).mp hrun
      rw [List.filter_congr fun row _ => isTrueOf_and he hd row]
      exact hwf.consistsOf_filter _

/-- Shares of four, which cannot be computed in the row that is off; of the second row nothing is
known. -/
def quarters : Frame where
  name := "quarters"
  columns := [{ name := "on", content := .stored ⟨.boolean, #[some false, none, some true]⟩ },
    { name := "n", content := .stored ⟨.long, #[some 0, none, some 2]⟩ },
    { name := "share", content := .computed "4 / n"
        (.binary (.arithmetic .divide) (.literal (.long 4)) (.var "n")) .long }]
  index := .places ["on", "n", "share"]
  rowCount := 3
  registry := ∅

theorem reachable_quarters : Reachable quarters := by
  let host : Host := fun key _ => .error (.unknownFunction key)
  have hempty : Reachable { name := "quarters", registry := ∅ } := .new _ _
  have hon := hempty.of_run 0 host (.column "on" .boolean) (s := {}) rfl
  have hn := hon.of_run 0 host (.column "n" .long) (s := {}) rfl
  have hsource : Expr.ofSource "4 / n" =
      .ok (.binary (.arithmetic .divide) (.literal (.long 4)) (.var "n")) := by cbv
  have hshare := hn.of_run 0 host (.computed "share" "4 / n") (s := {})
    (g := quarters.cleared) (by
      change orReport (Frame.withComputed _ "share" "4 / n") {} = _
      rw [withComputed_eq_ok.mpr ⟨_, .long, hsource, rfl, by decide, by decide, rfl⟩]
      rfl)
  have hfirst := hshare.of_run 0 host (.row [.boolean false, .long 0]) (s := {}) rfl
  have hsecond := hfirst.of_run 0 host (.row [.void, .void]) (s := {}) rfl
  exact hsecond.of_run 0 host (.row [.boolean true, .long 2]) (s := {}) rfl

theorem hasSimpleColumns_quarters : quarters.HasSimpleColumns := by
  intro c hc source e t hcontent
  simp only [quarters, List.mem_cons, List.not_mem_nil, or_false] at hc
  rcases hc with rfl | rfl | rfl
  · cases hcontent
  · cases hcontent
  · cases hcontent
    rfl

/-- The share that cannot be computed is not asked for. -/
theorem reachable_select_and_quarters : ∃ (host : Host) (d : Expr), Reachable quarters ∧
    Expr.ofSource "share > 1" = .ok d ∧ (¬∃ v, quarters.HasValueAt 1 host d 0 v) ∧
    ∀ s, (quarters.select 1 host "on and share > 1" s : Except Stop Frame × Store).1 =
      .ok (quarters.picked [2]) := by
  let host : Host := fun key _ => .error (.unknownFunction key)
  let e : Expr := .var "on"
  let d : Expr := .binary (.comparison .gt) (.var "share") (.literal (.long 1))
  have he : Expr.ofSource "on" = .ok e := by cbv
  have hd : Expr.ofSource "share > 1" = .ok d := by cbv
  have hboth : Expr.ofSource "on and share > 1" = .ok (.binary (.connective .and) e d) := by cbv
  have hon : ∀ row ∈ quarters.rows, ∃ v, quarters.HasValue 1 host e row v := by
    intro row hrow
    have hrow : row < 3 := List.mem_range.mp hrow
    obtain rfl | rfl | rfl : row = 0 ∨ row = 1 ∨ row = 2 := by omega
    · exact ⟨.boolean false, fun _ => rfl⟩
    · exact ⟨.void, fun _ => rfl⟩
    · exact ⟨.boolean true, fun _ => rfl⟩
  have hshare : ∀ row ∈ quarters.rows, quarters.isTrueOf 1 host e row = true →
      ∃ v, quarters.HasValue 1 host d row v := by
    intro row hrow htrue
    have hrow : row < 3 := List.mem_range.mp hrow
    obtain rfl | rfl | rfl : row = 0 ∨ row = 1 ∨ row = 2 := by omega
    · cases htrue
    · cases htrue
    · exact ⟨.boolean true, fun _ => rfl⟩
  have htwice := select_select_eq_ok_iff (s := {}) (h := quarters.picked [2]).mpr ⟨e, d,
    ⟨condition_eq_ok.mpr ⟨he, rfl⟩, hon⟩, condition_eq_ok.mpr ⟨hd, rfl⟩, hshare, rfl⟩
  obtain ⟨-, honce, -⟩ := reachable_select_and reachable_quarters hasSimpleColumns_quarters he hd
    hboth rfl rfl 1 host
  refine ⟨host, d, reachable_quarters, hd, ?_, fun s => honce ?_ {} s _ htwice⟩
  · rintro ⟨v, physical, hphysical, hv⟩
    cases hphysical
    cases hv {}
  · intro name g hg
    cases hg

/-! ### Values of another type -/

/-- A host function that announces booleans. -/
def wrapping : Function where
  name := "wrap"
  parameters := some ["x"]
  resultType := fun _ => some .boolean
  body := .host "wrap"

def wrappable : Frame where
  name := "N"
  columns := [{ name := "a", content := .stored ⟨.long, #[some 1]⟩ }]
  index := .places ["a"]
  rowCount := 1
  registry := Registry.add ∅ wrapping

/-- A function that announces booleans and gives vectors: a vector is not true, so selecting by it
leaves the row out; but in a conjunction it is a mistake. -/
theorem diverge_of_wrapping : ∃ (f : Frame) (host : Host) (p q r : String) (e d : Expr),
    Reachable f ∧ f.HasSimpleColumns ∧ Expr.ofSource p = .ok e ∧ Expr.ofSource q = .ok d ∧
    Expr.ofSource r = .ok (.binary (.connective .and) e d) ∧ e.IsSimple ∧ d.IsSimple ∧
    ∀ s, (∃ h, ((f.select 1 host p >>= fun g => g.select 1 host q) s :
        Except Stop Frame × Store).1 = .ok h) ∧
      ¬∃ h, (f.select 1 host r s : Except Stop Frame × Store).1 = .ok h := by
  let host : Host := fun _ arguments => .ok (.vector arguments)
  let e : Expr := .call "wrap" [.var "a"]
  let d : Expr := .binary (.comparison .eq) (.var "a") (.literal (.long 1))
  have he : Expr.ofSource "wrap(a)" = .ok e := by cbv
  have hd : Expr.ofSource "a == 1" = .ok d := by cbv
  have hboth : Expr.ofSource "wrap(a) and a == 1" = .ok (.binary (.connective .and) e d) := by cbv
  have hvalue : wrappable.HasValue 1 host e 0 (.vector [.long 1]) := fun _ => rfl
  have hf : Reachable wrappable := by
    have hempty : Reachable { name := "N", registry := Registry.add ∅ wrapping } := .new _ _
    have hcolumn := hempty.of_run 0 host (.column "a" .long) (s := {}) rfl
    exact hcolumn.of_run 0 host (.row [.long 1]) (s := {}) rfl
  have hsimple : wrappable.HasSimpleColumns := by
    intro c hc source e t hcontent
    obtain rfl := List.mem_singleton.mp hc
    cases hcontent
  have hcheck : wrappable.scope.check e = .ok .boolean :=
    Scope.check_eq_ok_iff.mpr ⟨_, _, .callRegistered (.cons (.var rfl) .nil) rfl
      (Bindings.find?_insert_self _ _ _) rfl rfl fun h : false = true =>
        absurd h Bool.false_ne_true, rfl⟩
  refine ⟨wrappable, host, _, _, _, e, d, hf, hsimple, he, hd, hboth, rfl, rfl, fun s => ⟨?_, ?_⟩⟩
  · refine ⟨_, select_select_eq_ok_iff.mpr ⟨e, d, ⟨condition_eq_ok.mpr ⟨he, hcheck⟩, ?_⟩,
      condition_eq_ok.mpr ⟨hd, rfl⟩, ?_, rfl⟩⟩
    · intro row hrow
      obtain rfl : row = 0 := Nat.lt_one_iff.mp (List.mem_range.mp hrow)
      exact ⟨_, hvalue⟩
    · intro row hrow htrue
      obtain rfl : row = 0 := Nat.lt_one_iff.mp (List.mem_range.mp hrow)
      cases hvalue.isTrueOf_iff.mp htrue
  · rintro ⟨h, hrun⟩
    obtain ⟨hdecides, -⟩ := (select_eq_ok_iff_of_source hboth).mp hrun
    obtain ⟨-, -, hvalues⟩ := (decides_and_iff hboth rfl rfl).mp hdecides
    obtain ⟨⟨v, hv, hboolean⟩, -⟩ := hvalues 0 (List.mem_range.mpr Nat.one_pos)
    cases hv.unique hvalue
    simp [Value.IsOf, Value.type] at hboolean

end Frame

end FrameLang
