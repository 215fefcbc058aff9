/-
Expressions over the rows of a frame are type safe.

For expressions without assignments and projections the check tells the truth about every row.  An
expression that passes it evaluates to a value of its type, or to `void`, or fails for a reason
that the check could not have foreseen, such as a division by zero.

A computed column is read by evaluating its expression, and that may read further computed columns.
They come earlier, because the expression was accepted when the later ones were not there.  So the
proof is an induction on the place of a column, and the expressions over the first `i` columns are
a setting as soon as those columns can be read.  It also follows that a read is never nested deeper
than there are columns.
-/
import FrameLang.Proofs.Frame.Declared
import FrameLang.Proofs.Typing.Check
import FrameLang.Proofs.Typing.Soundness
import Mathlib

namespace FrameLang

open Run FrameLang.Expr

/-- No assignments and no projections. -/
def Discipline.simple : Discipline where
  allows := isSimpleNode
  Skips _ _ := True
  Besides _ _ _ _ := True

theorem Discipline.suits_simple {functions : FunctionDefs} (h : functions = ∅) :
    Discipline.simple.Suits functions :=
  ⟨fun _ _ => trivial, fun _ _ _ _ => trivial, fun _ _ hf => by rw [h] at hf; cases hf⟩

/-- A run that stops has failed, and not about a name or a number of arguments. -/
def Stop.IsResolved (stop : Stop) : Prop := ∃ e, stop = .failed e ∧ e.isUnresolved = false

namespace Frame

/-- Every computed column has an expression without assignments and projections. -/
def HasSimpleColumns (f : Frame) : Prop :=
  ∀ c ∈ f.columns, ∀ source e t, c.content = .computed source e t → e.IsSimple

/-- The functions of a frame keep their rules and do not complain about names or arguments. -/
def HasHonestFunctions (f : Frame) (host : Host) : Prop :=
  ∀ name g, f.registry.get? name = some g → g.IsHonest host fun e => e.isUnresolved = false

theorem HasHonestFunctions.resolved {f : Frame} {host : Host} (h : f.HasHonestFunctions host)
    (name : String) (g : Function) (hg : f.registry.get? name = some g) :
    g.IsHonest host fun e => Stop.IsResolved (.failed e) :=
  (h name g hg).imp_right fun ⟨hkeeps, hfails⟩ =>
    ⟨hkeeps, fun arguments e htakes he => ⟨e, rfl, hfails arguments e htakes he⟩⟩

theorem hasHonestFunctions_of_defaults {f : Frame} (hf : f.registry = .defaults) (host : Host) :
    f.HasHonestFunctions host :=
  fun _ _ hg => Or.inl (Registry.get?_defaults (hf ▸ hg))

/-! ### Columns -/

theorem type_get (cells : Cells) (row : Nat) :
    (cells.get row).type = .void ∨ (cells.get row).type = cells.type.toValueType := by
  unfold Cells.get
  obtain ⟨type, entries⟩ := cells
  cases h : (entries[row]?).join with
  | none => exact Or.inl rfl
  | some entry => exact Or.inr (by cases type <;> rfl)

/-- What is known after a merge is known of the later view. -/
theorem agrees_merge {Γ Γ' : View} {name : String} {k : Known} {t? : Option ValueType}
    (hname : Γ.merge Γ' name = some k)
    (h : ∀ k, Γ' name = some k → k.exact = false ∧ t? = some k.type) :
    k.exact = false ∧ t? = some k.type := by
  unfold View.merge at hname
  cases hb : Γ' name with
  | none =>
      rw [hb] at hname
      cases hname
  | some b =>
      obtain ⟨hexact, htype⟩ := h b hb
      rw [hb] at hname
      cases ha : Γ name with
      | none =>
          rw [ha] at hname
          cases hname
          exact ⟨rfl, htype⟩
      | some a =>
          rw [ha] at hname
          cases hname
          exact ⟨by simp [hexact], htype⟩

/-! ### The setting -/

section Rows

variable (host : Host) (f : Frame) (row : Nat)

/-- Reading one of the first `i` columns in a row gives a value of the column's type, or stops in
one of the ways in `stops`. -/
def ReadsOr (stops : Stop → Prop) (i depth : Nat) : Prop :=
  ∀ name t, (f.upTo i).columnType? name = some t → ∀ s : Store, s.vars = ∅ →
    Meets (lookUp (runDeep depth) (.ofRow host f row) name) s
      (fun v s' => v.IsOf t ∧ s'.vars = ∅) fun stop _ => stops stop

/-- Reading one of the first `i` columns in a row gives a value of the column's type. -/
def Reads (i depth : Nat) : Prop := ReadsOr host f row Stop.IsResolved i depth

/-- Expressions over the first `i` columns, where runs may stop in the ways in `stops` and these
columns can be read within the bounds in `depths`. -/
def rowSetting {stops : Stop → Prop} (hplain : ∀ stop : Stop, stop.IsResolved → stops stop)
    (hhonest : ∀ name g, f.registry.get? name = some g →
      g.IsHonest host fun e => stops (.failed e))
    (depths : Nat → Prop) (i : Nat)
    (hreads : ∀ depth, depths depth → f.ReadsOr host row stops i depth) :
    Setting .simple (.ofRow host f row) where
  depths := depths
  agrees Γ vars := vars = ∅ ∧ ∀ name k, Γ name = some k →
    k.exact = false ∧ (f.upTo i).columnType? name = some k.type
  stops := stops
  plain h := hplain _ ⟨_, rfl, h⟩
  unprojected := rfl
  lookUp := by
    intro depth hdepth Γ s ⟨hs, hΓ⟩ name k hname
    obtain ⟨hexact, htype⟩ := hΓ name k hname
    refine (hreads depth hdepth name k.type htype s hs).imp_result ?_
    intro v s' ⟨hv, hs'⟩
    refine ⟨?_, hs', hΓ⟩
    have hfits := Known.fits_inexact.mpr hv
    rwa [← hexact] at hfits
  assign h := nomatch h
  skip := by
    intro active Γ Γ₀ Γ' e k vars vars₀ he h₀ _ h
    rw [he.view_eq fun _ _ => rfl]
    exact ⟨h.1, fun name k hname => agrees_merge hname (h₀.2 name)⟩
  merge := by
    intro Γ Γ' vars h
    exact ⟨h.1, fun name k hname => agrees_merge hname (h.2 name)⟩
  besides := by
    intro active Γ Γ₀ Γ' e k vars vars₀ he h₀ _ h
    obtain rfl : vars = ∅ := h.1
    have hΓ₀ : ∀ name t, Γ₀.types name = some t →
        ((Environment.ofRow host f row).scope ∅).variableType name = some t := by
      intro name t ht
      obtain ⟨k, hk, rfl⟩ := Option.map_eq_some_iff.mp ht
      exact columnType?_of_upTo (h₀.2 name k hk).2
    rw [Scope.typeOf_of_typed he hΓ₀]
  honest := hhonest _ _
  defined h := nomatch h
  project h := nomatch h

variable {host f row}

/-- An expression that passes the check over the first `i` columns evaluates to a value of its type
or stops in one of some ways, if this is so for reading those columns. -/
theorem meets_of_readsOr {stops : Stop → Prop}
    (hplain : ∀ stop : Stop, stop.IsResolved → stops stop)
    (hhonest : ∀ name g, f.registry.get? name = some g →
      g.IsHonest host fun e => stops (.failed e))
    (depths : Nat → Prop) {i : Nat}
    (hreads : ∀ depth, depths depth → f.ReadsOr host row stops i depth) {e : Expr}
    (he : e.IsSimple) {t : ValueType} (hcheck : (f.upTo i).scope.check e = .ok t) {depth : Nat}
    (hdepth : depths depth) {s : Store} (hs : s.vars = ∅) :
    Meets (e.evaluateWith (runDeep depth) (.ofRow host f row)) s
      (fun v s' => v.IsOf t ∧ s'.vars = ∅) fun stop _ => stops stop := by
  obtain ⟨k, Γ', htyped, rfl⟩ :=
    Scope.typed_of_check (Discipline.suits_simple rfl) he hcheck (View.types_ofTypes _)
  refine ((rowSetting host f row hplain hhonest depths i hreads).evaluates htyped hdepth
    ⟨hs, ?_⟩).imp_result ?_
  · intro name k hname
    obtain ⟨t, ht, rfl⟩ := Option.map_eq_some_iff.mp hname
    exact ⟨rfl, ht⟩
  · exact fun v s' ⟨hv, hs', _⟩ => ⟨Known.fits_inexact.mp hv.inexact, hs'⟩

/-- An expression that passes the check over the first `i` columns is type safe if these can be
read. -/
theorem meets_of_reads (hhonest : f.HasHonestFunctions host) {i : Nat}
    (hreads : ∀ depth, i ≤ depth → f.Reads host row i depth) {e : Expr} (he : e.IsSimple)
    {t : ValueType} (hcheck : (f.upTo i).scope.check e = .ok t) {depth : Nat} (hdepth : i ≤ depth)
    {s : Store} (hs : s.vars = ∅) :
    Meets (e.evaluateWith (runDeep depth) (.ofRow host f row)) s
      (fun v s' => v.IsOf t ∧ s'.vars = ∅) fun stop _ => stop.IsResolved :=
  meets_of_readsOr (fun _ => id) hhonest.resolved (i ≤ ·) hreads he hcheck hdepth hs

/-- A column can be read if those before it can. -/
theorem meets_readColumn (hf : f.Declared) (hsimple : f.HasSimpleColumns)
    (hhonest : f.HasHonestFunctions host) {j : Nat} {c : Column} (hplace : f.columns[j]? = some c)
    (hreads : ∀ depth, j ≤ depth → f.Reads host row j depth) {depth : Nat} (hdepth : j < depth)
    (s : Store) :
    Meets (f.readColumn (runDeep depth) host c row) s
      (fun v s' => v.IsOf c.type ∧ s'.vars = s.vars) fun stop _ => stop.IsResolved := by
  obtain ⟨name, content⟩ := c
  cases content with
  | stored cells => exact meets_pure ⟨Or.inr (type_get cells row), rfl⟩
  | computed source e t =>
      obtain ⟨_, hcheck, _⟩ := hf j name source e t hplace
      have he : e.IsSimple := hsimple _ (List.mem_of_getElem? hplace) source e t rfl
      obtain ⟨depth, rfl⟩ : ∃ d, depth = d + 1 := ⟨depth - 1, by omega⟩
      change Meets (isolated ∅ (runDeep (depth + 1) (.ofRow host f row) [e])) s _ _
      rw [runDeep_single]
      refine meets_isolated ((meets_of_reads hhonest hreads he hcheck
        (Nat.le_of_lt_succ hdepth) rfl).imp_result ?_)
      exact fun v s' ⟨hv, _⟩ => ⟨hv, rfl⟩

/-- Where there are no variables, to look a column's name up is to read the column. -/
theorem meets_lookUp_column {deeper : RunStatements} {name : String} {c : Column}
    (hc : f.column? name = some c) {s : Store} (hs : s.vars = ∅) {Q : Value → Store → Prop}
    {E : Stop → Store → Prop}
    (h : ∀ s' : Store, s'.vars = ∅ → Meets (f.readColumn deeper host c row) s' Q E) :
    Meets (lookUp deeper (.ofRow host f row) name) s Q E := by
  refine meets_bind (meets_get (Q := fun s₁ s' => s₁.vars = ∅ ∧ s'.vars = ∅) ⟨hs, hs⟩) ?_
  intro s₁ s' ⟨hs₁, hs'⟩
  rw [hs₁]
  simp only [Bindings.find?_empty, Environment.ofRow, hc]
  exact h s' hs'

/-- Every column can be read, and reads are nested no deeper than there are columns. -/
theorem reads_upTo (hf : f.Declared) (hsimple : f.HasSimpleColumns)
    (hhonest : f.HasHonestFunctions host) (i : Nat) :
    ∀ depth, i ≤ depth → f.Reads host row i depth := by
  induction i using Nat.strongRecOn with
  | ind i ih =>
      intro depth hdepth name t ht s hs
      obtain ⟨c, hc, rfl⟩ := Option.map_eq_some_iff.mp ht
      obtain ⟨hcolumn, j, hj, hplace⟩ := column?_of_upTo hc
      refine meets_lookUp_column hcolumn hs fun s' hs' => ?_
      exact (meets_readColumn hf hsimple hhonest hplace (ih j hj)
        (Nat.lt_of_lt_of_le hj hdepth) s').imp_result fun v s₂ ⟨hv, hs₂⟩ => ⟨hv, hs₂.trans hs'⟩

end Rows

/-- **Expressions over the rows of a frame are type safe.**  Let the computed columns of a frame
have expressions without assignments and projections, and let its functions be honest.  Then an
expression of that kind that passes the check evaluates, in every row, to a value of its type or to
`void`, or fails, but not about a name or a number of arguments.  In particular each cell of a
column, if it can be read, is of the column's type or `void`. -/
theorem reachable_type_safe {f : Frame} (hf : Reachable f) (hsimple : f.HasSimpleColumns)
    {host : Host} (hhonest : f.HasHonestFunctions host) {depth : Nat}
    (hdepth : f.columns.length ≤ depth) :
    (∀ e t, e.IsSimple → f.scope.check e = .ok t → ∀ row s,
      Meets (f.evaluateOnRow depth host e row) s
        (fun v _ => t = .void ∨ v.type = .void ∨ v.type = t) fun stop _ => stop.IsResolved) ∧
    ∀ c ∈ f.columns, c.type ≠ .void ∧ ∀ row s,
      Meets (f.get depth host c.name row) s
        (fun v _ => v.type = .void ∨ v.type = c.type) fun stop _ => stop.IsResolved := by
  have hreads : ∀ row depth, f.columns.length ≤ depth →
      f.Reads host row f.columns.length depth :=
    fun row => reads_upTo hf.declared hsimple hhonest f.columns.length
  refine ⟨?_, ?_⟩
  · intro e t he hcheck row s
    rw [← upTo_length f] at hcheck
    exact meets_isolated ((meets_of_reads hhonest (hreads row) he hcheck hdepth rfl).imp_result
      fun v s' ⟨hv, _⟩ => hv)
  · intro c hc
    have hne := hf.declared.type_ne_void hc
    refine ⟨hne, fun row s => ?_⟩
    unfold get readNamed
    rw [hf.wellFormed.column?_name hc]
    cases f.physicalRow? row with
    | none => exact meets_report ⟨_, rfl, rfl⟩
    | some physical =>
        obtain ⟨j, hj⟩ := List.mem_iff_getElem?.mp hc
        obtain ⟨hlt, _⟩ := List.getElem?_eq_some_iff.mp hj
        refine (meets_readColumn hf.declared hsimple hhonest hj
          (reads_upTo hf.declared hsimple hhonest j) (Nat.lt_of_lt_of_le hlt hdepth)
          s).imp_result ?_
        exact fun v s' ⟨hv, _⟩ => hv.resolve_left hne

/-- A column computed by a built-in function, and over it a branch of type long beside one of type
double. -/
theorem reachable_type_safe_widened : ∃ f host, Reachable f ∧ f.HasSimpleColumns ∧
    f.columns.map Column.type = [.long, .long] ∧ ∀ row,
      Meets (f.evaluateOnRow 2 host (.ifElse (.binary (.comparison .gt) (.var "half")
        (.literal (.long 1))) (.var "half") (some (.literal (.double (Double.ofInt 1))))) row) {}
        (fun v _ => v.type = .void ∨ v.type = .double) fun stop _ => stop.IsResolved := by
  let host : Host := fun key _ => .error (.unknownFunction key)
  let registry : Registry := Registry.add ∅ Builtin.abs.function
  let half : Expr := .binary (.arithmetic .divide) (.call "abs" [.var "price"]) (.literal (.long 2))
  let bare : Frame :=
    { name := "prices"
      columns := [{ name := "price", content := .stored (.empty .long) }]
      index := .places ["price"]
      registry }
  let f : Frame :=
    { name := "prices"
      columns := [{ name := "price", content := .stored ⟨.long, #[some 7]⟩ },
        { name := "half", content := .computed "abs(price) / 2" half .long }]
      index := .places ["price", "half"]
      rowCount := 1
      registry }
  have hempty : Reachable { name := "prices", registry } := .new _ _
  have hcolumn := hempty.of_run 0 host (.column "price" .long) (s := {}) rfl
  have hsource : Expr.ofSource "abs(price) / 2" = .ok half := by cbv
  have hcheck : bare.scope.check half = .ok .long :=
    Scope.check_eq_ok_iff.mpr ⟨_, _, .binary (by rintro _ ⟨⟩)
      (.callRegistered (.cons (.var rfl) .nil) rfl (Bindings.find?_insert_self _ _ _) rfl rfl
        fun h : false = true => absurd h Bool.false_ne_true) .literal (by decide), rfl⟩
  have hcomputed := hcolumn.of_run 0 host (.computed "half" "abs(price) / 2") (s := {}) (by
    change orReport (bare.withComputed "half" "abs(price) / 2") {} = _
    rw [withComputed_eq_ok.mpr ⟨half, .long, hsource, hcheck, by decide, rfl, rfl⟩]
    rfl)
  have hf : Reachable f := hcomputed.of_run 0 host (.row [.long 7]) (s := {}) rfl
  have hsimple : f.HasSimpleColumns := by
    intro c hc source e t hcontent
    rcases List.mem_pair.mp hc with rfl | rfl
    · cases hcontent
    · cases hcontent
      rfl
  have hhonest : f.HasHonestFunctions host := by
    intro name g hg
    change (Bindings.insert ∅ _ Builtin.abs.function).find? _ = some g at hg
    rw [Bindings.find?_insert] at hg
    split at hg
    · exact Or.inl ⟨_, (Option.some.inj hg).symm⟩
    · cases hg
  refine ⟨f, host, hf, hsimple, rfl, fun row => ?_⟩
  refine Meets.imp_result ((reachable_type_safe hf hsimple hhonest (Nat.le_refl 2)).1 _ .double ?_
    ?_ row {}) fun v _ hv => hv.resolve_left (by decide)
  · rfl
  · rfl

end Frame
end FrameLang
