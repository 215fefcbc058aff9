/-
Typed expressions evaluate to what is known of them.

The proof goes along the derivation, one case for each rule, and is the same wherever expressions
are evaluated.  What is not the same is how a name is looked up, what assignments do, and which
failures there can be.  A `Setting` collects what the proof has to know about those: `agrees` is
the invariant between what is known of the variables and the variables themselves, and `stops` are
the ways in which a run may end without a value.

The rows of a frame are one setting and the programs are another.
-/
import FrameLang.Proofs.Typing.Functions

namespace FrameLang

open Run FrameLang.Expr

/-- What names stand for in an environment, the variables apart. -/
def Environment.blank (env : Environment) : Scope := (env.scope ∅).blank

/-- An environment in which typed expressions evaluate to what is known of them. -/
structure Setting (D : Discipline) (env : Environment) where
  /-- How deep bodies and cells may still be nested. -/
  depths : Nat → Prop
  /-- Whether variables are in keeping with what is known of them. -/
  agrees : View → Bindings Value → Prop
  /-- In which ways a run may stop. -/
  stops : Stop → Prop
  plain {e : Error} (h : e.isUnresolved = false) : stops (.failed e)
  unprojected : env.projectedRow = none
  lookUp {depth : Nat} (hdepth : depths depth) {Γ : View} {s : Store} (hs : agrees Γ s.vars)
    {name : String} {k : Known} (hname : Γ name = some k) :
    Meets (FrameLang.lookUp (runDeep depth) env name) s
      (fun v s' => k.Fits v ∧ agrees Γ s'.vars) fun stop _ => stops stop
  assign {name : String} {e : Expr} (hallows : D.allows (.assign name e) = true) {Γ : View}
    {vars : Bindings Value} (h : agrees Γ vars) {k : Known} {v : Value} (hv : k.Fits v) :
    agrees (Γ.bind name k) (vars.insert name v)
  /-- Variables after a part that was skipped. -/
  skip {active : List String} {Γ Γ₀ Γ' : View} {e : Expr} {k : Known}
    {vars vars₀ : Bindings Value} (he : Typed D env.blank active Γ₀ e k Γ') (h₀ : agrees Γ₀ vars₀)
    (hskip : D.Skips Γ Γ') (h : agrees Γ vars) : agrees (Γ.merge Γ') vars
  /-- Variables after a part that might have been skipped. -/
  merge {Γ Γ' : View} {vars : Bindings Value} (h : agrees Γ' vars) : agrees (Γ.merge Γ') vars
  /-- A branch has the type that was found for it, as far as doubles go. -/
  besides {active : List String} {Γ Γ₀ Γ' : View} {e : Expr} {k : Known}
    {vars vars₀ : Bindings Value} (he : Typed D env.blank active Γ₀ e k Γ') (h₀ : agrees Γ₀ vars₀)
    (hbesides : D.Besides env.blank Γ e k.type) (h : agrees Γ vars) :
    (env.scope vars).typeOf e = .double ↔ k.type = .double
  honest {name : String} {f : Function} (hf : env.registry.get? name = some f) :
    f.IsHonest env.host fun e => stops (.failed e)
  /-- What a function that a program defines needs. -/
  defined {name : String} {f : FunctionDef} (hf : env.functions.find? name = some f) :
    env.forCall = env ∧ (∀ depth, depths depth) ∧ stops .outOfDepth ∧
      ∀ ks arguments, List.Forall₂ Known.Fits ks arguments →
        agrees (View.ofParameters f.parameters ks)
          (Bindings.ofList (f.parameters.zip arguments))
  project {elements : List Expr} {filter : Option Expr}
    (hallows : D.allows (.project elements filter) = true) :
    (Expr.project elements filter).every isNoAssignment = true ∧ ∀ stop, stops stop

/-! ### Results -/

theorem meets_orReport_of_yields {α : Type} {x : Except Error α} {P : α → Prop} {s : Store}
    {Q : α → Store → Prop} {E : Stop → Prop} (h : Yields x P)
    (hE : ∀ e, e.isUnresolved = false → E (.failed e)) (hQ : ∀ a, P a → Q a s) :
    Meets (orReport x) s Q fun stop _ => E stop := by
  refine meets_orReport ?_ ?_
  · rintro a rfl
    exact hQ a h
  · rintro e rfl
    exact hE e h

theorem ValueType.join_comm (a b : ValueType) : a.join b = b.join a := by
  cases a <;> cases b <;> rfl

/-- A branch that is no long has the type of the whole `if`. -/
theorem ValueType.join_eq_left {a b : ValueType} (ha : a ≠ .long)
    (hjoin : a.join b = .void → a = .void ∧ b = .void) : a.join b = a := by
  cases a <;> cases b <;> first | rfl | exact absurd rfl ha | exact absurd (hjoin rfl).1 nofun

theorem ValueType.eq_long_of_join {b : ValueType} (hb : b ≠ .double)
    (hjoin : ValueType.long.join b ≠ .void) : b = .long := by
  cases b <;> first | rfl | exact absurd rfl hb | exact absurd rfl hjoin

namespace Known

variable {j k : Known} {v : Value}

theorem Fits.weaken (h : k.Fits v) (exact : Bool) :
    Fits { type := k.type, exact := k.exact && exact } v := by
  rcases h with h | ⟨hexact, h⟩
  · exact Or.inl h
  · exact Or.inr ⟨by rw [hexact, Bool.false_and], h⟩

theorem fits_last {ks : List Known} {vs : List Value} (h : List.Forall₂ Fits ks vs) :
    (last ks).Fits (vs.getLastD .void) := by
  induction h with
  | nil => exact Or.inl rfl
  | @cons k v ks vs hk hks ih =>
      cases hks with
      | nil => exact hk
      | cons => exact ih

/-- A branch of an `if` that is widened to the other one has the type of the two together. -/
theorem meets_widen {env : Environment} {other : Expr} {s : Store} {P : Store → Prop}
    {E : Stop → Store → Prop} (hv : j.Fits v)
    (hjoin : j.type.join k.type = .void → j.type = .void ∧ k.type = .void)
    (hother : j.type = .long → ((env.scope s.vars).typeOf other = .double ↔ k.type = .double))
    (hs : P s) :
    Meets (widen env v other) s (fun r s' =>
      Fits { type := j.type.join k.type, exact := j.exact && k.exact } r ∧ P s') E := by
  by_cases hlong : j.type = .long
  · rw [hlong] at hjoin ⊢
    rcases hv.type_eq (by simp [hlong]) with htype | ⟨rfl, hexact⟩
    · rw [hlong] at htype
      cases v with
      | long n =>
          refine meets_bind (meets_get (Q := fun s₁ s' => s₁ = s ∧ s' = s) ⟨rfl, rfl⟩) ?_
          rintro _ _ ⟨rfl, rfl⟩
          by_cases hdouble : k.type = .double
          · rw [if_pos ((hother hlong).mpr hdouble), hdouble]
            exact meets_pure ⟨fits_of_type rfl, hs⟩
          · rw [if_neg fun h => hdouble ((hother hlong).mp h),
              ValueType.eq_long_of_join hdouble fun h => nomatch (hjoin h).1]
            exact meets_pure ⟨fits_of_type rfl, hs⟩
      | _ => cases htype
    · exact meets_pure ⟨fits_void (by rw [hexact, Bool.false_and]), hs⟩
  · rw [ValueType.join_eq_left hlong hjoin]
    have hfits := hv.weaken k.exact
    cases v with
    | long n =>
        -- a long of a type that is not known may be widened, and then still fits
        have hunknown : ∀ r, Fits { type := j.type, exact := j.exact && k.exact } r := by
          intro r
          rcases hv with htype | ⟨hexact, hvoid | hvoid⟩
          · exact absurd htype.symm hlong
          · exact Or.inr ⟨by simp [hexact], Or.inl hvoid⟩
          · cases hvoid
        refine meets_bind (meets_get (Q := fun s₁ s' => s' = s) rfl) ?_
        rintro _ _ rfl
        split
        · exact meets_pure ⟨hunknown _, hs⟩
        · exact meets_pure ⟨hunknown _, hs⟩
    | _ => exact meets_pure ⟨hfits, hs⟩

end Known

/-! ### Expressions -/

namespace Setting

variable {D : Discipline} {env : Environment}

/-- Where the variables agree with the first view, the expression either evaluates to a value that
is in keeping with what is known of it, and leaves variables that agree with the second view, or
stops in one of the ways that the setting allows. -/
def Evaluates (S : Setting D env) (Γ : View) (e : Expr) (k : Known) (Γ' : View) : Prop :=
  ∀ {depth : Nat}, S.depths depth → ∀ {s : Store}, S.agrees Γ s.vars →
    Meets (e.evaluateWith (runDeep depth) env) s
      (fun v s' => k.Fits v ∧ S.agrees Γ' s'.vars) fun stop _ => S.stops stop

/-- The same of expressions one after the other. -/
def EvaluatesAll (S : Setting D env) (Γ : View) (es : List Expr) (ks : List Known) (Γ' : View) :
    Prop :=
  ∀ {depth : Nat}, S.depths depth → ∀ {s : Store}, S.agrees Γ s.vars →
    Meets (evaluateAllWith (runDeep depth) env es) s
      (fun vs s' => List.Forall₂ Known.Fits ks vs ∧ S.agrees Γ' s'.vars) fun stop _ => S.stops stop

section Parts

variable {S : Setting D env} {active : List String} {Γ Γ₁ Γ₂ Γ₃ : View} {c t e l r : Expr}
  {i j k : Known} {ks : List Known}

theorem evaluates_unary {op : UnaryOp} (he : S.Evaluates Γ e k Γ₁)
    (hop : op.resultType k.type ≠ .void) : S.Evaluates Γ (.unary op e) (op.known k) Γ₁ := by
  intro depth hdepth s hs
  rw [evaluateWith]
  refine meets_bind (he hdepth hs) ?_
  rintro v s₁ ⟨hv, hs₁⟩
  exact meets_orReport_of_yields (Value.yields_unary hv hop) (fun _ => S.plain)
    fun _ hr => ⟨hr, hs₁⟩

theorem evaluates_binary {op : BinaryOp} (hconnective : ∀ c, op ≠ .connective c)
    (hl : S.Evaluates Γ l j Γ₁) (hr : S.Evaluates Γ₁ r k Γ₂)
    (hop : op.resultType j.type k.type ≠ .void) :
    S.Evaluates Γ (.binary op l r) (op.known j k) Γ₂ := by
  intro depth hdepth s hs
  have hoperands : ∀ f : Value → Value → Except Error Value,
      (∀ v w, j.Fits v → k.Fits w → Yields (f v w) (op.known j k).Fits) →
      Meets (do
        let left ← l.evaluateWith (runDeep depth) env
        let right ← r.evaluateWith (runDeep depth) env
        orReport (f left right)) s (fun v s' => (op.known j k).Fits v ∧ S.agrees Γ₂ s'.vars)
        fun stop _ => S.stops stop := by
    intro f hf
    refine meets_bind (hl hdepth hs) ?_
    rintro v s₁ ⟨hv, hs₁⟩
    refine meets_bind (hr hdepth hs₁) ?_
    rintro w s₂ ⟨hw, hs₂⟩
    exact meets_orReport_of_yields (hf v w hv hw) (fun _ => S.plain) fun _ hu => ⟨hu, hs₂⟩
  cases op with
  | connective c => exact absurd rfl (hconnective c)
  | arithmetic op =>
      rw [evaluateWith]
      exact hoperands _ fun _ _ hv hw => Value.yields_arithmetic hv hw hop
  | comparison op =>
      rw [evaluateWith]
      exact hoperands _ fun _ _ _ _ => Value.yields_comparison hop
  | membership op =>
      rw [evaluateWith]
      exact hoperands _ fun _ _ hv hw => Value.yields_membership hv hw hop

/-- The right operand may be skipped, and then the left one is the result. -/
theorem evaluates_connective {op : Connective} (hl : S.Evaluates Γ l j Γ₁)
    (htyped : Typed D env.blank active Γ₁ r k Γ₂) (hr : S.Evaluates Γ₁ r k Γ₂)
    (hop : BinaryOp.resultType (.connective op) j.type k.type ≠ .void) (hskip : D.Skips Γ₁ Γ₂) :
    S.Evaluates Γ (.binary (.connective op) l r) (BinaryOp.known (.connective op) j k)
      (Γ₁.merge Γ₂) := by
  intro depth hdepth s hs
  have hbooleans : j.type = .boolean ∧ k.type = .boolean := by_contra fun hn => hop (if_neg hn)
  have hknown : BinaryOp.known (.connective op) j k =
      { type := .boolean, exact := j.exact && k.exact } := by
    simp [BinaryOp.known, BinaryOp.resultType, hbooleans]
  rw [evaluateWith, hknown]
  refine meets_bind (hl hdepth hs) ?_
  rintro v s₁ ⟨hv, hs₁⟩
  refine meets_bind (meets_orReport_of_yields (Q := fun r s' => (∀ u, r = .inl u → u = v) ∧
    s' = s₁) (Value.yields_shortcut op v) (fun _ => S.plain) fun _ hr => ⟨hr, rfl⟩) ?_
  rintro (u | b) _ ⟨hsettled, rfl⟩
  · rw [hsettled u rfl]
    refine meets_pure ⟨?_, S.skip htyped hs₁ hskip hs₁⟩
    rw [← hbooleans.1]
    exact hv.weaken k.exact
  · refine meets_bind (hr hdepth hs₁) ?_
    rintro w s₂ ⟨hw, hs₂⟩
    refine meets_orReport_of_yields (Value.yields_connective hw hbooleans.2)
      (fun _ => S.plain) fun r hr => ⟨?_, S.merge hs₂⟩
    rw [Bool.and_comm]
    exact hr.weaken j.exact

/-- The body of a function sees its parameters and nothing else. -/
theorem evaluates_callDefined {name : String} {arguments : List Expr} {js : List Known}
    {f : FunctionDef} (harguments : S.EvaluatesAll Γ arguments ks Γ₁)
    (hcount : ks.length = arguments.length)
    (hf : env.functions.find? (normalizeName name) = some f)
    (hlength : f.parameters.length = arguments.length)
    (hbody : S.EvaluatesAll (View.ofParameters f.parameters ks) f.body js Γ₂) :
    S.Evaluates Γ (.call name arguments) (Known.last js) Γ₁ := by
  intro depth hdepth s hs
  obtain ⟨hcall, hdepths, hstop, hparameters⟩ := S.defined hf
  rw [evaluateWith]
  refine meets_bind (harguments hdepth hs) ?_
  rintro vs s₁ ⟨hvs, hs₁⟩
  unfold call FunctionDef.invoke
  rw [hf, hcall]
  simp only
  rw [if_pos (by rw [hlength, ← hcount, hvs.length_eq])]
  refine meets_isolated ?_
  cases depth with
  | zero => exact meets_throw hstop
  | succ depth =>
      rw [runDeep_succ]
      refine meets_bind (hbody (hdepths depth) (hparameters ks vs hvs)) ?_
      rintro us s₂ ⟨hus, _⟩
      exact meets_pure ⟨Known.fits_last hus, hs₁⟩

theorem evaluates_callRegistered {name : String} {arguments : List Expr} {f : Function}
    {type : ValueType} {exact : Bool} (harguments : S.EvaluatesAll Γ arguments ks Γ₁)
    (hdefined : env.functions.find? (normalizeName name) = none)
    (hf : env.registry.get? name = some f) (htakes : f.takes ks.length = true)
    (htype : f.resultType (ks.map Known.type) = some type)
    (hexact : exact = true →
      (∃ operation : Builtin, f = operation.function) ∧ ∀ k ∈ ks, k.exact = true) :
    S.Evaluates Γ (.call name arguments) { type, exact } Γ₁ := by
  intro depth hdepth s hs
  rw [evaluateWith]
  refine meets_bind (harguments hdepth hs) ?_
  rintro vs s₁ ⟨hvs, hs₁⟩
  unfold call
  rw [hdefined, hf]
  refine (Function.meets_invoke_of_isHonest (S.honest hf) (fun _ => S.plain) hvs htakes htype
    hexact s₁).imp ?_ ?_
  · rintro v s₂ ⟨hv, hvars⟩
    exact ⟨hv, hvars ▸ hs₁⟩
  · rintro _ _ ⟨e, rfl, he⟩
    exact he

theorem evaluates_ifThen (hc : S.Evaluates Γ c j Γ₁) (htyped : Typed D env.blank active Γ₁ t k Γ₂)
    (ht : S.Evaluates Γ₁ t k Γ₂) (hskip : D.Skips Γ₁ Γ₂) :
    S.Evaluates Γ (.ifElse c t none) { type := k.type } (Γ₁.merge Γ₂) := by
  intro depth hdepth s hs
  rw [evaluateWith]
  refine meets_bind (hc hdepth hs) ?_
  rintro v s₁ ⟨hv, hs₁⟩
  unfold choose
  split
  · refine (ht hdepth hs₁).imp_result ?_
    rintro r s₂ ⟨hr, hs₂⟩
    exact ⟨hr.inexact, S.merge hs₂⟩
  · exact meets_pure ⟨Known.fits_void rfl, S.skip htyped hs₁ hskip hs₁⟩
  · exact meets_report (S.plain rfl)

/-- The second branch is typed as if the first had been evaluated, and either may be skipped. -/
theorem evaluates_ifElse (hc : S.Evaluates Γ c i Γ₁)
    (htypedThen : Typed D env.blank active Γ₁ t j Γ₂) (ht : S.Evaluates Γ₁ t j Γ₂)
    (htypedElse : Typed D env.blank active (Γ₁.merge Γ₂) e k Γ₃)
    (he : S.Evaluates (Γ₁.merge Γ₂) e k Γ₃)
    (hjoin : j.type.join k.type = .void → j.type = .void ∧ k.type = .void)
    (hskipThen : D.Skips Γ₁ Γ₂) (hskipElse : D.Skips Γ₂ Γ₃)
    (hbesidesThen : j.type = .long → D.Besides env.blank Γ₂ e k.type)
    (hbesidesElse : k.type = .long → D.Besides env.blank Γ₃ t j.type) :
    S.Evaluates Γ (.ifElse c t (some e))
      { type := j.type.join k.type, exact := j.exact && k.exact } (Γ₂.merge Γ₃) := by
  intro depth hdepth s hs
  rw [evaluateWith]
  refine meets_bind (hc hdepth hs) ?_
  rintro v s₁ ⟨hv, hs₁⟩
  have hskipped := S.skip htypedThen hs₁ hskipThen hs₁
  unfold choose
  split
  · refine meets_bind (ht hdepth hs₁) ?_
    rintro v s₂ ⟨hv, hs₂⟩
    exact Known.meets_widen (P := fun s' => S.agrees (Γ₂.merge Γ₃) s'.vars) hv hjoin
      (fun hlong => S.besides htypedElse hskipped (hbesidesThen hlong) hs₂)
      (S.skip htypedElse hskipped hskipElse hs₂)
  · refine meets_bind (he hdepth hskipped) ?_
    rintro v s₃ ⟨hv, hs₃⟩
    rw [ValueType.join_comm, Bool.and_comm]
    refine Known.meets_widen (P := fun s' => S.agrees (Γ₂.merge Γ₃) s'.vars) hv ?_
      (fun hlong => S.besides htypedThen hs₁ (hbesidesElse hlong) hs₃) (S.merge hs₃)
    rw [ValueType.join_comm]
    exact fun h => (hjoin h).symm
  · exact meets_report (S.plain rfl)

theorem evaluates_assign {name : String} (hallows : D.allows (.assign name e) = true)
    (he : S.Evaluates Γ e k Γ₁) : S.Evaluates Γ (.assign name e) k (Γ₁.bind name k) := by
  intro depth hdepth s hs
  rw [evaluateWith]
  refine meets_bind (he hdepth hs) ?_
  rintro v s₁ ⟨hv, hs₁⟩
  refine meets_bind
    (meets_setVariable (Q := fun _ s' => s'.vars = s₁.vars.insert name v) rfl) ?_
  intro _ s₂ hs₂
  refine meets_pure ⟨hv, ?_⟩
  rw [hs₂]
  exact S.assign hallows hs₁ hv

theorem evaluates_index {v p : Expr} (hv : S.Evaluates Γ v j Γ₁) (hp : S.Evaluates Γ₁ p k Γ₂) :
    S.Evaluates Γ (.index v p) { type := .void } Γ₂ := by
  intro depth hdepth s hs
  rw [evaluateWith]
  refine meets_bind (hv hdepth hs) ?_
  rintro u s₁ ⟨_, hs₁⟩
  refine meets_bind (hp hdepth hs₁) ?_
  rintro w s₂ ⟨_, hs₂⟩
  exact meets_orReport_of_yields (yields_element u w) (fun _ => S.plain) fun _ hr => ⟨hr, hs₂⟩

/-- Without assignments a projection leaves the variables as they are. -/
theorem evaluates_project {elements : List Expr} {filter : Option Expr}
    (hallows : D.allows (.project elements filter) = true) :
    S.Evaluates Γ (.project elements filter) { type := .dataFrame, exact := true } Γ := by
  intro depth hdepth s hs
  obtain ⟨hnone, hstop⟩ := S.project hallows
  obtain ⟨helements, hfilter⟩ := every_project hnone
  have hassign : ∀ name e, isNoAssignment (.assign name e) = true →
      ∀ v vars, S.agrees Γ vars → S.agrees Γ (vars.insert name v) :=
    fun _ _ h => absurd h Bool.false_ne_true
  refine (meets_project (keeps_evaluateAllWith hassign _ elements helements)
    (fun e he => keeps_evaluateWith hassign _ e (hfilter e he)) (fun stop _ _ => hstop stop)
    hs).imp_result ?_
  rintro _ s₁ ⟨⟨_, _, _, _, _, _, rfl, _⟩, hs₁⟩
  exact ⟨Or.inl rfl, hs₁⟩

theorem evaluates_sequence {statements : List Expr} (h : S.EvaluatesAll Γ statements ks Γ₁) :
    S.Evaluates Γ (.sequence statements) (Known.last ks) Γ₁ := by
  intro depth hdepth s hs
  rw [evaluateWith, evaluateStatementsWith_eq]
  refine meets_bind (h hdepth hs) ?_
  rintro vs s₁ ⟨hvs, hs₁⟩
  exact meets_pure ⟨Known.fits_last hvs, hs₁⟩

theorem evaluatesAll_cons {es : List Expr} (he : S.Evaluates Γ e k Γ₁)
    (hes : S.EvaluatesAll Γ₁ es ks Γ₂) : S.EvaluatesAll Γ (e :: es) (k :: ks) Γ₂ := by
  intro depth hdepth s hs
  rw [evaluateAllWith]
  refine meets_bind (he hdepth hs) ?_
  rintro v s₁ ⟨hv, hs₁⟩
  refine meets_bind (hes hdepth hs₁) ?_
  rintro vs s₂ ⟨hvs, hs₂⟩
  exact meets_pure ⟨List.Forall₂.cons hv hvs, hs₂⟩

end Parts

/-- **Typed expressions evaluate to what is known of them.** -/
theorem evaluates (S : Setting D env) {active : List String} {Γ Γ' : View} {e : Expr} {k : Known}
    (h : Typed D env.blank active Γ e k Γ') : S.Evaluates Γ e k Γ' := by
  induction h using @Typed.rec D env.blank _
      (fun _ Γ es ks Γ' _ => S.EvaluatesAll Γ es ks Γ') with
  | @literal active Γ v => exact fun _ _ hs => meets_pure ⟨by cases v <;> exact Or.inl rfl, hs⟩
  | var hname =>
      intro depth hdepth s hs
      rw [evaluateWith]
      exact meets_reporting (S.lookUp hdepth hs hname) fun _ _ => id
  | unary _ hop ih => exact evaluates_unary ih hop
  | binary hconnective _ _ hop ihl ihr => exact evaluates_binary hconnective ihl ihr hop
  | connective _ hr hop hskip ihl ihr => exact evaluates_connective ihl hr ihr hop hskip
  | callDefined harguments hf hlength _ _ ih ihbody =>
      exact evaluates_callDefined ih harguments.length_eq hf hlength ihbody
  | callRegistered _ hdefined hf htakes htype hexact ih =>
      exact evaluates_callRegistered ih hdefined hf htakes htype hexact
  | ifThen _ _ ht hskip ihc iht => exact evaluates_ifThen ihc ht iht hskip
  | ifElse _ _ ht he hjoin hskipThen hskipElse hbesidesThen hbesidesElse ihc iht ihe =>
      exact evaluates_ifElse ihc ht iht he ihe hjoin hskipThen hskipElse hbesidesThen hbesidesElse
  | assign hallows _ ih => exact evaluates_assign hallows ih
  | named _ ih =>
      intro depth hdepth s hs
      rw [evaluateWith]
      exact ih hdepth hs
  | vector _ ih =>
      intro depth hdepth s hs
      rw [evaluateWith]
      refine meets_bind (ih hdepth hs) ?_
      rintro vs s₁ ⟨_, hs₁⟩
      exact meets_pure ⟨Or.inl rfl, hs₁⟩
  | index _ _ ihv ihp => exact evaluates_index ihv ihp
  | @path active Γ dataSet field t f hf _ =>
      intro depth hdepth s hs
      rw [evaluateWith]
      unfold readPath
      rw [show env.dataSets.find? dataSet = some f from hf, S.unprojected]
      exact meets_report (S.plain rfl)
  | project hallows => exact evaluates_project hallows
  | sequence _ ih => exact evaluates_sequence ih
  | nil => exact fun _ _ hs => meets_pure ⟨List.Forall₂.nil, hs⟩
  | cons _ _ ihe ihes => exact evaluatesAll_cons ihe ihes

end Setting

end FrameLang
