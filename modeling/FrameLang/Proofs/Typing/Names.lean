/-
Names that a checked program does not know.

The check finds every call of a function that is not there, and every variable that nothing assigns:
in both branches of an `if`, on both sides of a connective, and in the body of every function that
is called.  There are two things that it does not look at.

It keeps one table of types for all ways through a program.  A name that one branch of an `if`
assigns is in the table from there on, whichever branch is taken when the program is run.  So a
variable may be looked up that is assigned, but on another way; `needs` tells which these are.

And it gives every projection the type of frames without going into it.

`Program.Overlooks` says this of an error: what has failed is a look-up of such a variable, or a
projection, to which the run has come.  The main statement is that a checked program fails about a
name in these two ways only.
-/
import FrameLang.Proofs.Dependence
import FrameLang.Proofs.Descent
import FrameLang.Proofs.Typing.Programs
import Mathlib

namespace FrameLang

open Run FrameLang.Expr

/-! ### Errors about names -/

/-- Whether an error says that a name stands for nothing. -/
def Error.isUnknownName : Error → Bool
  | undefinedVariable _ | unknownFunction _ => true
  | _ => false

/-- A result, or an error that is not about a name. -/
def KnowsNames {α : Type} (x : Except Error α) : Prop :=
  ∀ e, x = .error e → e.isUnknownName = false

theorem knowsNames_ok {α : Type} (a : α) : KnowsNames (.ok a) := by
  rintro _ ⟨⟩

theorem knowsNames_error {α : Type} {e : Error} (h : e.isUnknownName = false) :
    KnowsNames (.error e : Except Error α) := by
  rintro _ ⟨⟩
  exact h

theorem Yields.knowsNames {α : Type} {x : Except Error α} {P : α → Prop} (h : Yields x P) :
    KnowsNames x := by
  rintro e rfl
  cases e <;> first | rfl | cases h

/-! ### Operators and built-in functions

Here nothing is known of the operands, not even that they are of the types that the check found.
-/

namespace Value

theorem knowsNames_unary (op : UnaryOp) (v : Value) : KnowsNames (v.unary op) := by
  cases op with
  | minus | not =>
      cases v with
      | void | boolean | long | double => first | exact knowsNames_ok _ | exact knowsNames_error rfl
      | _ => exact knowsNames_error rfl
  | isEmpty | isNotEmpty =>
      cases v with
      | void | string | vector => exact knowsNames_ok _
      | _ => exact knowsNames_error rfl

theorem knowsNames_arithmetic (op : Arithmetic) (v w : Value) :
    KnowsNames (v.arithmetic op w) := by
  unfold arithmetic
  split
  · exact knowsNames_ok _
  · exact knowsNames_ok _
  · rename_i m n
    cases op with
    | divide =>
        by_cases hn : n = 0
        · simp only [arithmeticOnLongs, if_pos hn]
          exact knowsNames_error rfl
        · simp only [arithmeticOnLongs, if_neg hn]
          exact knowsNames_ok _
    | _ => exact knowsNames_ok _
  · split
    · exact knowsNames_ok _
    · exact knowsNames_ok _
    · dsimp only
      split
      · exact knowsNames_error rfl
      · exact knowsNames_error rfl

theorem knowsNames_comparison (op : Comparison) (v w : Value) :
    KnowsNames ((v.comparison op w).map boolean) := by
  have hyields : Yields ((v.comparison op w).map boolean) fun _ => True :=
    (yields_comparison_bool op v w).bind fun _ _ => trivial
  exact hyields.knowsNames

theorem knowsNames_membership (op : Membership) (v container : Value) :
    KnowsNames (v.membership op container) := by
  unfold membership
  split
  · exact knowsNames_ok _
  · exact knowsNames_ok _
  · exact knowsNames_ok _
  · exact knowsNames_ok _
  · exact knowsNames_error rfl

theorem knowsNames_connective (op : Connective) (left : Bool) (v : Value) :
    KnowsNames (v.connective op left) := by
  cases v with
  | void | boolean => exact knowsNames_ok _
  | _ => exact knowsNames_error rfl

end Value

theorem Builtin.knowsNames_apply (operation : Builtin) (f : Function) (arguments : List Value) :
    KnowsNames (operation.apply f arguments) := by
  unfold apply
  split
  · exact knowsNames_ok _
  · exact knowsNames_ok _
  · exact (yields_stringTest _ _ _).knowsNames
  · exact (yields_stringTest _ _ _).knowsNames
  · exact (yields_mapString _ _).knowsNames
  · exact (yields_mapString _ _).knowsNames
  · exact (yields_slice _ _ _ _).knowsNames
  · exact (yields_slice _ _ _ _).knowsNames
  · exact (yields_absoluteValue _ _).knowsNames
  · exact knowsNames_ok _
  · exact (yields_dateOfText _ _).knowsNames
  · exact (yields_dateOfParts _ _ _ _).knowsNames
  · exact (yields_dateTimeOfText _ _).knowsNames
  · split
    · exact (yields_dateTimeOfParts _ _ _).knowsNames
    · exact knowsNames_error rfl
  · refine Yields.knowsNames (P := fun _ => True) ?_
    refine (yields_stringArgument _ _).bind fun text _ => ?_
    split
    · trivial
    · exact rfl
  · refine Yields.knowsNames (P := fun _ => True) ?_
    refine (yields_stringArgument _ _).bind fun text _ => ?_
    split
    · trivial
    · exact rfl
  · exact (yields_areWithin _ _ _).knowsNames
  · exact knowsNames_error rfl

/-- The host's functions, as far as they are registered, do not complain about names. -/
def Environment.HostKnowsNames (env : Environment) : Prop :=
  ∀ name f key arguments, env.registry.get? name = some f → f.body = .host key →
    KnowsNames (env.host key arguments).result

theorem Environment.HostKnowsNames.answer {env : Environment} (h : env.HostKnowsNames)
    {name : String} {f : Function} (hf : env.registry.get? name = some f)
    (arguments : List Value) : KnowsNames (f.answer env.host arguments) := by
  unfold Function.answer
  split
  · exact Builtin.knowsNames_apply _ f arguments
  · exact h name f _ arguments hf ‹_›

theorem hostKnowsNames_of_defaults {env : Environment} (h : env.registry = .defaults) :
    env.HostKnowsNames := by
  intro name f key arguments hf hbody
  rw [h] at hf
  obtain ⟨operation, rfl⟩ := Registry.get?_defaults hf
  cases operation <;> cases hbody

/-! ### Names that are overlooked -/

namespace Expr

/-- Whether some way through the statements may ask for the name before assigning it, though one of
them assigns it. -/
def IsPartlyAssigned (name : String) (statements : List Expr) : Prop :=
  needsIn name true statements = true ∧ everyIn (isNoAssignmentTo name) statements = false

mutual

/-- The projections in an expression, those inside of others apart. -/
def projections : Expr → List Expr
  | literal _ | var _ | path .. => []
  | unary _ e | assign _ e | named _ e => e.projections
  | binary _ l r | index l r => l.projections ++ r.projections
  | call _ es | vector es | sequence es => projectionsIn es
  | ifElse c t none => c.projections ++ t.projections
  | ifElse c t (some e) => c.projections ++ t.projections ++ e.projections
  | project elements filter => [project elements filter]

def projectionsIn : List Expr → List Expr
  | [] => []
  | e :: es => e.projections ++ projectionsIn es

end

end Expr

namespace Program

/-- Whether a projection stands in the statements of a program or in the body of a function. -/
def HasProjection (p : Program) (e : Expr) : Prop :=
  e ∈ projectionsIn p.statements ∨
    ∃ name f, p.functions.find? name = some f ∧ e ∈ projectionsIn f.body

/-- The statements of a program, about to be run. -/
def evaluation (p : Program) (env : Environment) (depth : Nat) (s : Store) : Evaluation :=
  ⟨depth, { env with functions := p.functions }, .sequence p.statements, s⟩

theorem run_evaluation (p : Program) (env : Environment) (depth : Nat) (s : Store) :
    (p.evaluation env depth s).run = env.runProgram depth p s := rfl

/-- Ways in which the run of a program that has passed the check may fail about a name all the same,
and leave a trace. -/
inductive Overlooks (p : Program) (start : Evaluation) : Error → Array Event → Prop
  /-- A projection has failed, and the program with it. -/
  | projection {x : Evaluation} {elements : List Expr} {filter : Option Expr} {e : Error}
      {s' : Store} (hcomes : start.ComesTo x) (hx : x.expr = .project elements filter)
      (hrun : x.run = (.error (.failed e), s')) : Overlooks p start e s'.trace
  /-- The statements have looked up a variable that they assign, but not on the way that was
  taken. -/
  | statement {x : Evaluation} {name : String} {s' : Store} (hwithin : start.Within x)
      (hx : x.expr = .var name) (hrun : x.run = (.error (.failed (.undefinedVariable name)), s'))
      (hname : ¬start.store.vars.Has name) (hassigned : IsPartlyAssigned name p.statements) :
      Overlooks p start (.undefinedVariable name) s'.trace
  /-- The body of a function has looked up a variable that it assigns, but not on the way that was
  taken. -/
  | body {x y z : Evaluation} {f : FunctionDef} {name : String} {s' : Store}
      (hcomes : start.ComesTo x) (hopens : Evaluation.Opens f x y) (hwithin : y.Within z)
      (hz : z.expr = .var name) (hrun : z.run = (.error (.failed (.undefinedVariable name)), s'))
      (hname : name ∉ f.parameters) (hassigned : IsPartlyAssigned name f.body) :
      Overlooks p start (.undefinedVariable name) s'.trace

/-- If a run has stopped about a name, then the name was overlooked. -/
def IsExcused (p : Program) (start : Evaluation) (stop : Stop) (s : Store) : Prop :=
  ∀ e, stop = .failed e → e.isUnknownName = true → p.Overlooks start e s.trace

/-- What was overlooked is what the run has failed with. -/
theorem Overlooks.failed {p : Program} {start : Evaluation} {e : Error} {trace : Array Event}
    (h : p.Overlooks start e trace) :
    ∃ s', start.run = (.error (.failed e), s') ∧ s'.trace = trace := by
  cases h with
  | projection hcomes _ hrun => exact hcomes.stop hrun
  | statement hwithin _ hrun => exact (Evaluation.ComesTo.within .refl hwithin).stop hrun
  | body hcomes hopens hwithin _ hrun => exact ((hcomes.opens hopens).within hwithin).stop hrun

end Program

/-! ### Parts of a run that is excused -/

section Excused

variable {p : Program} {start : Evaluation} {s : Store}

theorem isExcused_of_knows {e : Error} (h : e.isUnknownName = false) :
    p.IsExcused start (.failed e) s := by
  rintro _ ⟨⟩ he
  rw [h] at he
  cases he

theorem meets_orReport_of_knowsNames {α : Type} {x : Except Error α} (h : KnowsNames x)
    {P : Store → Prop} (hP : ∀ s', s'.vars = s.vars → P s') :
    Meets (orReport x) s (fun _ s' => P s') (p.IsExcused start) :=
  meets_orReport (fun _ _ => hP s rfl) fun e he => isExcused_of_knows (h e he)

/-- Widening does not fail. -/
theorem meets_widen_of_vars {env : Environment} (v : Value) (other : Expr) {P : Store → Prop}
    (hs : P s) {E : Stop → Store → Prop} : Meets (widen env v other) s (fun _ s' => P s') E := by
  unfold widen
  split
  · refine meets_bind (meets_get (Q := fun _ s' => s' = s) rfl) ?_
    rintro s₁ _ rfl
    split
    · exact meets_pure hs
    · exact meets_pure hs
  · exact meets_pure hs

/-- Looking up a name fails only because the variable is not there. -/
theorem meets_reporting_lookUp {env : Environment} (henv : env.IsPlain) (deeper : RunStatements)
    (name : String) :
    Meets (reporting (lookUp deeper env name)) s (fun _ s' => s'.vars = s.vars)
      fun stop _ => stop = .failed (.undefinedVariable name) ∧ ¬s.vars.Has name := by
  refine meets_reporting ?_ fun _ _ => id
  refine meets_bind (meets_get (Q := fun s₁ s' => s₁ = s ∧ s' = s) ⟨rfl, rfl⟩) ?_
  rintro _ _ ⟨rfl, rfl⟩
  split
  · exact meets_pure rfl
  · rename_i s₁ hnone
    rw [henv.row]
    refine meets_fail ⟨rfl, fun hhas => ?_⟩
    rw [Bindings.Has, hnone] at hhas
    cases hhas

theorem meets_invoke_of_knowsNames {env : Environment} (hhost : env.HostKnowsNames)
    {name : String} {f : Function} (hf : env.registry.get? name = some f)
    (arguments : List Value) :
    Meets (f.invoke env arguments) s (fun _ s' => s'.vars = s.vars) (p.IsExcused start) := by
  have hperform : ∀ arguments, Meets (f.perform env arguments) s (fun _ s' => s'.vars = s.vars)
      (p.IsExcused start) := by
    intro arguments
    refine (f.meets_perform env arguments s).imp (fun _ _ h => h.2) ?_
    rintro _ _ ⟨e, rfl, hanswer⟩
    exact isExcused_of_knows (hhost.answer hf arguments e hanswer)
  unfold Function.invoke
  split
  · exact hperform _
  · split
    · exact hperform _
    · exact meets_fail (isExcused_of_knows rfl)

end Excused

theorem Bindings.has_ofList {α : Type} {pairs : List (String × α)} {name : String} :
    (Bindings.ofList pairs).Has name ↔ name ∈ pairs.map Prod.fst := by
  have hfold : ∀ b : Bindings α, (pairs.foldl (fun b pair => b.insert pair.1 pair.2) b).Has name ↔
      name ∈ pairs.map Prod.fst ∨ b.Has name := by
    induction pairs with
    | nil => simp
    | cons pair pairs ih =>
        intro b
        rw [List.foldl_cons, ih, has_insert, List.map_cons, List.mem_cons]
        tauto
  refine (hfold ∅).trans (or_iff_left ?_)
  rintro ⟨⟩

/-! ### Expressions

`home` are the statements that an expression belongs to, those of the program or of the body of a
function, and `N` are the names that are not overlooked in them.
-/

/-- A name that is not in `N` is one that was overlooked, wherever it is looked up. -/
def Program.LeavesOut (p : Program) (start home : Evaluation) (N : String → Prop) : Prop :=
  ∀ x name s', ¬N name → home.Within x → x.expr = .var name →
    x.run = (.error (.failed (.undefinedVariable name)), s') →
      p.Overlooks start (.undefinedVariable name) s'.trace

namespace Expr

/-- The expression stops about a name only if that was overlooked.  The variables of `N` have to be
there that it needs, and then those that it assigns are there afterwards. -/
def StopsExcused (p : Program) (start home : Evaluation) (env : Environment) (N : String → Prop)
    (e : Expr) : Prop :=
  ∀ {depth : Nat} {s : Store}, home.Within ⟨depth, env, e, s⟩ →
    (∀ n, N n → e.needs n true = true → s.vars.Has n) →
      Meets (e.evaluateWith (runDeep depth) env) s
        (fun _ s' => ∀ n, e.assigns n = true ∨ s.vars.Has n → s'.vars.Has n) (p.IsExcused start)

/-- The same of expressions one after the other. -/
def AllStopExcused (p : Program) (start home : Evaluation) (env : Environment) (N : String → Prop)
    (es : List Expr) : Prop :=
  ∀ {depth : Nat} {s : Store}, (∀ x, Evaluation.EntersIn depth env es s x → home.Within x) →
    (∀ n, N n → needsIn n true es = true → s.vars.Has n) →
      Meets (evaluateAllWith (runDeep depth) env es) s
        (fun _ s' => ∀ n, assignsIn n es = true ∨ s.vars.Has n → s'.vars.Has n)
        (p.IsExcused start)

section Parts

variable {p : Program} {start home : Evaluation} {env : Environment} {N : String → Prop}

theorem stopsExcused_var (henv : env.IsPlain) (hN : p.LeavesOut start home N) (name : String) :
    StopsExcused p start home env N (.var name) := by
  intro depth s hwithin hs
  rw [evaluateWith]
  have hlookUp := meets_reporting_lookUp (s := s) henv (runDeep depth) name
  refine meets_iff.mpr ⟨fun v s' hrun n hn => ?_, fun stop s' hrun => ?_⟩
  · rw [hlookUp.result hrun]
    exact hn.resolve_left Bool.false_ne_true
  · obtain ⟨rfl, hmissing⟩ := hlookUp.stop hrun
    rintro _ ⟨⟩ _
    exact hN _ name s' (fun hname => hmissing (hs name hname (by simp [needs]))) hwithin rfl hrun

theorem stopsExcused_unary {op : UnaryOp} {e : Expr} (h : StopsExcused p start home env N e) :
    StopsExcused p start home env N (.unary op e) := by
  intro depth s hwithin hs
  rw [evaluateWith]
  refine meets_bind (h (hwithin.enter .operand) hs) fun v s₁ hs₁ => ?_
  exact meets_orReport_of_knowsNames (Value.knowsNames_unary op v) fun s₂ hs₂ n hn =>
    hs₂ ▸ hs₁ n hn

theorem stopsExcused_binary {op : BinaryOp} {l r : Expr} (hop : ∀ c, op ≠ .connective c)
    (hl : StopsExcused p start home env N l) (hr : StopsExcused p start home env N r) :
    StopsExcused p start home env N (.binary op l r) := by
  intro depth s hwithin hs
  have hoperands : ∀ f : Value → Value → Except Error Value, (∀ v w, KnowsNames (f v w)) →
      Meets (do
        let left ← l.evaluateWith (runDeep depth) env
        let right ← r.evaluateWith (runDeep depth) env
        orReport (f left right)) s
        (fun _ s' => ∀ n, (l.assigns n || r.assigns n) = true ∨ s.vars.Has n → s'.vars.Has n)
        (p.IsExcused start) := by
    intro f hf
    refine meets_bind_of_result (hl (hwithin.enter .left) (ready_first hs))
      fun v s₁ hleft hs₁ => ?_
    have hright := hwithin.enter (.right hleft fun c hc => absurd hc (hop c))
    refine meets_bind (hr hright (ready_last hs hs₁)) fun w s₂ hs₂ => ?_
    exact meets_orReport_of_knowsNames (hf v w) fun s₃ hs₃ n hn => hs₃ ▸ has_both hs₁ hs₂ n hn
  cases op with
  | connective c => exact absurd rfl (hop c)
  | arithmetic op =>
      rw [evaluateWith]
      exact hoperands _ (Value.knowsNames_arithmetic op)
  | comparison op =>
      rw [evaluateWith]
      exact hoperands _ (Value.knowsNames_comparison op)
  | membership op =>
      rw [evaluateWith]
      exact hoperands _ (Value.knowsNames_membership op)

theorem stopsExcused_connective {op : Connective} {l r : Expr}
    (hl : StopsExcused p start home env N l) (hr : StopsExcused p start home env N r) :
    StopsExcused p start home env N (.binary (.connective op) l r) := by
  intro depth s hwithin hs
  rw [evaluateWith]
  refine meets_bind_of_result (hl (hwithin.enter .left) (ready_first hs)) fun v s₁ hleft hs₁ => ?_
  have hshortcut : Meets (orReport (v.shortcut op)) s₁
      (fun settled s' => v.shortcut op = .ok settled ∧ s' = s₁) (p.IsExcused start) :=
    meets_orReport (fun _ h => ⟨h, rfl⟩) fun e he =>
      isExcused_of_knows ((Value.yields_shortcut op v).knowsNames e he)
  refine meets_bind hshortcut ?_
  rintro settled _ ⟨hsettled, rfl⟩
  cases settled with
  | inl settled => exact meets_pure hs₁
  | inr b =>
      have hop : BinaryOp.GoesOn (.connective op) v := by
        rintro _ ⟨⟩
        exact ⟨b, hsettled⟩
      refine meets_bind (hr (hwithin.enter (.right hleft hop)) (ready_last hs hs₁))
        fun w s₂ hs₂ => ?_
      exact meets_orReport_of_knowsNames (Value.knowsNames_connective op b w)
        fun s₃ hs₃ n hn => hs₃ ▸ hs₂ n (Or.inr (hs₁ n hn))

/-- In the body of a function other names are overlooked than where it is called. -/
theorem stopsExcused_callDefined (henv : env.IsPlain) {name : String} {arguments : List Expr}
    {f : FunctionDef} (hhome : start.ComesTo home)
    (hf : env.functions.find? (normalizeName name) = some f)
    (hbody : ∀ inner, p.LeavesOut start inner
        (fun n => n ∈ f.parameters ∨ ¬IsPartlyAssigned n f.body) → start.ComesTo inner →
      AllStopExcused p start inner env
        (fun n => n ∈ f.parameters ∨ ¬IsPartlyAssigned n f.body) f.body)
    (hneeds : ∀ n, n ∉ f.parameters → needsIn n true f.body = true → IsPartlyAssigned n f.body)
    (h : AllStopExcused p start home env N arguments) :
    StopsExcused p start home env N (.call name arguments) := by
  intro depth s hwithin hs
  rw [evaluateWith]
  refine meets_bind_of_result (h (fun x hx => hwithin.enter (.argument hx)) hs)
    fun vs s₁ harguments hs₁ => ?_
  unfold FrameLang.call FunctionDef.invoke
  rw [hf, henv.forCall_eq]
  simp only
  split
  · rename_i hlength
    refine meets_isolated ?_
    cases depth with
    | zero =>
        refine meets_throw ?_
        rintro _ ⟨⟩
    | succ depth =>
        have hopens := Evaluation.Opens.body harguments hf hlength
        rw [henv.forCall_eq] at hopens
        have hinner := (hhome.within hwithin).opens hopens
        rw [runDeep_succ]
        refine meets_bind (hbody _ ?_ hinner
          (fun x hx => Relation.ReflTransGen.single (.statement hx)) ?_) fun us s₂ _ =>
            meets_pure hs₁
        · intro x n s' hn hx hvar hrun
          rw [not_or, not_not] at hn
          exact .body (hhome.within hwithin) hopens hx hvar hrun hn.1 hn.2
        · intro n hn hneeded
          have hparameter : n ∈ f.parameters :=
            hn.elim id fun hforeseen => by_contra fun hname => hforeseen (hneeds n hname hneeded)
          rw [Bindings.has_ofList, List.map_fst_zip (Nat.le_of_eq hlength)]
          exact hparameter
  · exact meets_report (isExcused_of_knows rfl)

theorem stopsExcused_callRegistered (hhost : env.HostKnowsNames) {name : String}
    {arguments : List Expr} {f : Function}
    (hdefined : env.functions.find? (normalizeName name) = none)
    (hf : env.registry.get? name = some f) (h : AllStopExcused p start home env N arguments) :
    StopsExcused p start home env N (.call name arguments) := by
  intro depth s hwithin hs
  rw [evaluateWith]
  refine meets_bind (h (fun x hx => hwithin.enter (.argument hx)) hs) fun vs s₁ hs₁ => ?_
  unfold FrameLang.call
  rw [hdefined, hf]
  exact (meets_invoke_of_knowsNames hhost hf vs).imp_result fun _ s₂ hs₂ n hn => hs₂ ▸ hs₁ n hn

theorem stopsExcused_ifThen {c t : Expr} (hc : StopsExcused p start home env N c)
    (ht : StopsExcused p start home env N t) :
    StopsExcused p start home env N (.ifElse c t none) := by
  intro depth s hwithin hs
  rw [evaluateWith]
  refine meets_bind_of_result (hc (hwithin.enter .condition) (ready_first hs))
    fun v s₁ hcondition hs₁ => ?_
  unfold choose
  split
  · refine (ht (hwithin.enter (.whenTrue hcondition)) (ready_last hs hs₁)).imp_result ?_
    exact fun _ s₂ hs₂ n hn => hs₂ n (Or.inr (hs₁ n hn))
  · exact meets_pure hs₁
  · exact meets_report (isExcused_of_knows rfl)

theorem stopsExcused_ifElse {c t e : Expr} (hc : StopsExcused p start home env N c)
    (ht : StopsExcused p start home env N t) (he : StopsExcused p start home env N e) :
    StopsExcused p start home env N (.ifElse c t (some e)) := by
  intro depth s hwithin hs
  rw [evaluateWith]
  refine meets_bind_of_result (hc (hwithin.enter .condition) (ready_first hs))
    fun v s₁ hcondition hs₁ => ?_
  have hbranches := ready_last hs hs₁
  have hassigns : ∀ n, (ifElse c t (some e)).assigns n = true ∨ s.vars.Has n →
      t.assigns n = true ∧ e.assigns n = true ∨ s₁.vars.Has n := has_branches hs₁
  unfold choose
  split
  · refine meets_bind (ht (hwithin.enter (.whenTrue hcondition)) fun n hn hneeds =>
      hbranches n hn (by simp [hneeds])) fun v s₂ hs₂ => ?_
    exact meets_widen_of_vars v e (P := fun s' => ∀ n, _ → s'.vars.Has n) fun n hn =>
      hs₂ n ((hassigns n hn).imp_left And.left)
  · refine meets_bind (he (hwithin.enter (.whenFalse hcondition)) fun n hn hneeds =>
      hbranches n hn (by simp [hneeds])) fun v s₂ hs₂ => ?_
    exact meets_widen_of_vars v t (P := fun s' => ∀ n, _ → s'.vars.Has n) fun n hn =>
      hs₂ n ((hassigns n hn).imp_left And.right)
  · exact meets_report (isExcused_of_knows rfl)

theorem stopsExcused_assign {name : String} {e : Expr} (h : StopsExcused p start home env N e) :
    StopsExcused p start home env N (.assign name e) := by
  intro depth s hwithin hs
  rw [evaluateWith]
  refine meets_bind (h (hwithin.enter .assigned) hs) fun v s₁ hs₁ => ?_
  refine meets_bind (meets_setVariable
    (Q := fun _ s' => s'.vars = s₁.vars.insert name v) rfl) fun _ s₂ hs₂ => meets_pure ?_
  intro n hn
  rw [hs₂, Bindings.has_insert]
  rw [assigns, Bool.or_eq_true, beq_iff_eq, or_assoc] at hn
  exact hn.imp Eq.symm (hs₁ n)

theorem stopsExcused_named {name : String} {e : Expr} (h : StopsExcused p start home env N e) :
    StopsExcused p start home env N (.named name e) := by
  intro depth s hwithin hs
  rw [evaluateWith]
  exact h (hwithin.enter .named) hs

theorem stopsExcused_vector {elements : List Expr}
    (h : AllStopExcused p start home env N elements) :
    StopsExcused p start home env N (.vector elements) := by
  intro depth s hwithin hs
  rw [evaluateWith]
  exact meets_bind (h (fun x hx => hwithin.enter (.element hx)) hs) fun _ _ hs₁ => meets_pure hs₁

theorem stopsExcused_index {v i : Expr} (hv : StopsExcused p start home env N v)
    (hi : StopsExcused p start home env N i) :
    StopsExcused p start home env N (.index v i) := by
  intro depth s hwithin hs
  rw [evaluateWith]
  refine meets_bind_of_result (hv (hwithin.enter .indexed) (ready_first hs))
    fun vector s₁ hvector hs₁ => ?_
  refine meets_bind (hi (hwithin.enter (.position hvector)) (ready_last hs hs₁))
    fun position s₂ hs₂ => ?_
  exact meets_orReport_of_knowsNames (yields_element vector position).knowsNames fun s₃ hs₃ n hn =>
    hs₃ ▸ has_both hs₁ hs₂ n hn

theorem stopsExcused_path (henv : env.IsPlain) (dataSet : String) (field : List String) :
    StopsExcused p start home env N (.path dataSet field) := by
  intro depth s hwithin hs
  rw [evaluateWith]
  unfold readPath
  split
  · exact meets_report (isExcused_of_knows rfl)
  · rw [henv.projectedRow]
    exact meets_report (isExcused_of_knows rfl)

/-- Whatever a projection fails with is overlooked. -/
theorem stopsExcused_project (hhome : start.ComesTo home) (elements : List Expr)
    (filter : Option Expr) : StopsExcused p start home env N (.project elements filter) := by
  intro depth s hwithin hs
  have hkeeps := keeps_evaluateWith (I := fun vars => ∀ n, s.vars.Has n → vars.Has n)
    (p := fun _ => true) (fun _ _ _ _ _ h n hn => Bindings.has_insert.mpr (Or.inr (h n hn)))
    (runDeep depth) (.project elements filter) (every_of_forall (fun _ => rfl) _) env s fun _ => id
  refine meets_iff.mpr ⟨fun _ _ hrun n hn => hkeeps.result hrun n ?_, ?_⟩
  · exact hn.resolve_left Bool.false_ne_true
  · rintro _ s' hrun e rfl _
    exact .projection (hhome.within hwithin) rfl hrun

theorem stopsExcused_sequence {statements : List Expr}
    (h : AllStopExcused p start home env N statements) :
    StopsExcused p start home env N (.sequence statements) := by
  intro depth s hwithin hs
  rw [evaluateWith, evaluateStatementsWith_eq]
  exact meets_bind (h (fun x hx => hwithin.enter (.statement hx)) hs) fun _ _ hs₁ => meets_pure hs₁

theorem allStopExcused_cons {e : Expr} {es : List Expr} (he : StopsExcused p start home env N e)
    (hes : AllStopExcused p start home env N es) :
    AllStopExcused p start home env N (e :: es) := by
  intro depth s hwithin hs
  rw [evaluateAllWith]
  refine meets_bind_of_result (he (hwithin _ .head) (ready_first hs)) fun v s₁ hhead hs₁ => ?_
  refine meets_bind (hes (fun x hx => hwithin x (.tail hhead hx)) (ready_last hs hs₁))
    fun vs s₂ hs₂ => ?_
  exact meets_pure (has_both hs₁ hs₂)

end Parts

end Expr

/-! ### Checked expressions -/

theorem View.ofParameters_eq_none {parameters : List String} {name : String}
    (h : name ∉ parameters) (ks : List Known) : ofParameters parameters ks name = none := by
  by_contra hsome
  have hhas : (Bindings.ofList (parameters.zip ks)).Has name := Option.isSome_iff_ne_none.mpr hsome
  obtain ⟨pair, hpair, rfl⟩ := List.mem_map.mp (Bindings.has_ofList.mp hhas)
  exact h (List.of_mem_zip hpair).1

/-- What checked statements may ask for before assigning it is known before, or is assigned on
another way. -/
theorem TypedAll.isPartlyAssigned {D : Discipline} {scope : Scope} {active : List String}
    {Γ Γ' : View} {statements : List Expr} {ks : List Known}
    (h : TypedAll D scope active Γ statements ks Γ') {name : String} (hname : Γ name = none)
    (hneeds : needsIn name true statements = true) : IsPartlyAssigned name statements := by
  refine ⟨hneeds, Bool.eq_false_iff.mpr fun hfree => ?_⟩
  have hevery : (sequence statements).every (isNoAssignmentTo name) = true := by
    simp [every, hfree, isNoAssignmentTo]
  have hunneeded := ((Typed.sequence h).needs_eq_false hevery hname).1
  rw [needs, hneeds] at hunneeded
  cases hunneeded

/-- **A checked expression stops about a name only if that was overlooked.** -/
theorem Typed.stopsExcused {D : Discipline} {p : Program} {start : Evaluation} {env : Environment}
    (henv : env.IsPlain) (hhost : env.HostKnowsNames) {base : Scope}
    (hfunctions : base.functions = env.functions) (hregistry : base.registry = env.registry)
    {active : List String} {Γ Γ' : View} {e : Expr} {k : Known} (h : Typed D base active Γ e k Γ')
    {home : Evaluation} {N : String → Prop} (hN : p.LeavesOut start home N)
    (hhome : start.ComesTo home) : e.StopsExcused p start home env N := by
  induction h using @Typed.rec D base _ (fun _ _ es _ _ _ => ∀ {home : Evaluation}
    {N : String → Prop}, p.LeavesOut start home N → start.ComesTo home →
      AllStopExcused p start home env N es) generalizing home N with
  | literal => exact fun _ _ => meets_pure fun n hn => hn.resolve_left Bool.false_ne_true
  | @var active Γ name k _ => exact stopsExcused_var henv hN name
  | unary _ _ ih => exact stopsExcused_unary (ih hN hhome)
  | binary hop _ _ _ ihl ihr => exact stopsExcused_binary hop (ihl hN hhome) (ihr hN hhome)
  | connective _ _ _ _ ihl ihr => exact stopsExcused_connective (ihl hN hhome) (ihr hN hhome)
  | @callDefined active Γ Γ₁ Γ₂ name arguments ks js f _ hf _ _ hbody ih ihbody =>
      refine stopsExcused_callDefined henv hhome (hfunctions ▸ hf) (fun inner => ihbody)
        (fun n hname hneeds => ?_) (ih hN hhome)
      exact hbody.isPartlyAssigned (View.ofParameters_eq_none hname ks) hneeds
  | callRegistered _ hdefined hf _ _ _ ih =>
      exact stopsExcused_callRegistered hhost (hfunctions ▸ hdefined) (hregistry ▸ hf)
        (ih hN hhome)
  | ifThen _ _ _ _ ihc iht => exact stopsExcused_ifThen (ihc hN hhome) (iht hN hhome)
  | ifElse _ _ _ _ _ _ _ _ _ ihc iht ihe =>
      exact stopsExcused_ifElse (ihc hN hhome) (iht hN hhome) (ihe hN hhome)
  | assign _ _ ih => exact stopsExcused_assign (ih hN hhome)
  | named _ ih => exact stopsExcused_named (ih hN hhome)
  | vector _ ih => exact stopsExcused_vector (ih hN hhome)
  | index _ _ ihv ihi => exact stopsExcused_index (ihv hN hhome) (ihi hN hhome)
  | @path active Γ dataSet field t f _ _ => exact stopsExcused_path henv dataSet field
  | @project active Γ elements filter _ => exact stopsExcused_project hhome elements filter
  | sequence _ ih => exact stopsExcused_sequence (ih hN hhome)
  | nil => exact fun _ _ => meets_pure fun n hn => hn.resolve_left Bool.false_ne_true
  | cons _ _ ihe ihes =>
      rename_i hN hhome
      exact allStopExcused_cons (ihe hN hhome) (ihes hN hhome)

/-! ### Checked programs -/

namespace Program

/-- What is evaluated has the functions of the program and stands in its text, as far as projections
go. -/
structure Stands (p : Program) (x : Evaluation) : Prop where
  functions : x.env.functions = p.functions
  projections : ∀ e ∈ x.expr.projections, p.HasProjection e

section Stands

variable {p : Program} {x y : Evaluation}

theorem stands_of_entersIn {depth : Nat} {env : Environment} {es : List Expr} {s : Store}
    (h : Evaluation.EntersIn depth env es s x) (hfunctions : env.functions = p.functions)
    (hes : ∀ e ∈ projectionsIn es, p.HasProjection e) : p.Stands x := by
  induction h with
  | head =>
      rw [projectionsIn, List.forall_mem_append] at hes
      exact ⟨hfunctions, hes.1⟩
  | tail _ _ ih =>
      rw [projectionsIn, List.forall_mem_append] at hes
      exact ih hes.2

theorem Stands.enters (h : p.Stands x) (henters : x.Enters y) : p.Stands y := by
  obtain ⟨hfunctions, hprojections⟩ := h
  cases henters with
  | operand | assigned | named => exact ⟨hfunctions, hprojections⟩
  | argument henters | element henters | statement henters =>
      exact stands_of_entersIn henters hfunctions hprojections
  | left | indexed =>
      exact ⟨hfunctions, fun e he => hprojections e (List.mem_append_left _ he)⟩
  | right | position =>
      exact ⟨hfunctions, fun e he => hprojections e (List.mem_append_right _ he)⟩
  | @condition _ _ c t e _ =>
      refine ⟨hfunctions, fun q (hq : q ∈ c.projections) => hprojections q ?_⟩
      cases e <;> simp [Expr.projections, hq]
  | @whenTrue _ _ c t e _ _ _ =>
      refine ⟨hfunctions, fun q (hq : q ∈ t.projections) => hprojections q ?_⟩
      cases e <;> simp [Expr.projections, hq]
  | whenFalse =>
      exact ⟨hfunctions, fun e he => hprojections e (List.mem_append_right _ he)⟩

theorem Stands.opens (h : p.Stands x) {f : FunctionDef} (hopens : Evaluation.Opens f x y) :
    p.Stands y ∧ ∃ key, p.functions.find? key = some f := by
  cases hopens with
  | body _ hf _ =>
      have hfunctions := h.functions
      rw [← hfunctions]
      exact ⟨⟨hfunctions, fun e he => Or.inr ⟨_, f, hfunctions ▸ hf, he⟩⟩, _, hf⟩

theorem Stands.comesTo (h : p.Stands x) (hcomes : x.ComesTo y) : p.Stands y := by
  induction hcomes with
  | refl => exact h
  | tail _ hstep ih => exact hstep.elim ih.enters fun ⟨_, hopens⟩ => (ih.opens hopens).1

end Stands

theorem stands_evaluation (p : Program) (env : Environment) (depth : Nat) (s : Store) :
    p.Stands (p.evaluation env depth s) := ⟨rfl, fun _ => Or.inl⟩

/-- A program without projections that assigns before it looks up knows its names. -/
theorem not_overlooks {p : Program} {env : Environment} {depth : Nat} {s : Store}
    (hprojections : ∀ e, ¬p.HasProjection e)
    (hstatements : ∀ name, ¬s.vars.Has name → ¬IsPartlyAssigned name p.statements)
    (hbodies : ∀ key f, p.functions.find? key = some f → ∀ name, name ∉ f.parameters →
      ¬IsPartlyAssigned name f.body) (e : Error) (trace : Array Event) :
    ¬p.Overlooks (p.evaluation env depth s) e trace := by
  have hstands := stands_evaluation p env depth s
  intro h
  cases h with
  | @projection x elements filter _ _ hcomes hx _ =>
      have hmem : Expr.project elements filter ∈ x.expr.projections := by
        rw [hx]
        exact List.mem_singleton_self _
      exact hprojections _ ((hstands.comesTo hcomes).projections _ hmem)
  | statement _ _ _ hname hassigned => exact hstatements _ hname hassigned
  | body hcomes hopens _ _ _ hname hassigned =>
      obtain ⟨_, _, hf⟩ := (hstands.comesTo hcomes).opens hopens
      exact hbodies _ _ hf _ hname hassigned

/-- **A checked program knows its names, apart from those that the check overlooks.**  Whatever the
program does and whatever it starts with, if it passes the check and then fails about a name, it is
for one of two reasons.  It has come to one of its projections, and this has failed.  Or it has come
to the look-up of a variable that some way through the same statements, of the program or of the
body of a function, looks up before it is assigned, and another one assigns.  In particular it does
not call a function that is not there, unless in a projection. -/
theorem isExcused_runProgram {p : Program} {env : Environment} (henv : env.IsPlain)
    (hhost : env.HostKnowsNames) {s : Store} {t : ValueType}
    (hcheck : (env.scope s.vars).checkProgram p = .ok t) (depth : Nat) :
    Meets (env.runProgram depth p) s (fun _ _ => True)
      (p.IsExcused (p.evaluation env depth s)) := by
  obtain ⟨ks, Γ', htyped, _⟩ := Scope.typed_of_checkProgram (Discipline.suits_lax _)
    (everyIn_of_forall (fun _ => rfl) _) hcheck (View.types_ofTypes _)
  have hplain : { env with functions := p.functions }.IsPlain := ⟨henv.row, henv.projectedRow⟩
  -- what is not there from the start is known if no way through the statements misses it
  have hleaves : p.LeavesOut (p.evaluation env depth s) (p.evaluation env depth s)
      fun n => s.vars.Has n ∨ ¬IsPartlyAssigned n p.statements := by
    intro x n s' hn hwithin hx hrun
    rw [not_or, not_not] at hn
    exact .statement hwithin hx hrun hn.1 hn.2
  refine Meets.imp_result ((Typed.sequence htyped).stopsExcused hplain hhost rfl rfl hleaves .refl
    .refl ?_) fun _ _ _ => trivial
  intro n hn hneeds
  refine by_contra fun hmissing => hn.elim hmissing fun hforeseen => ?_
  have hunknown : s.vars.find? n = none := by simpa [Bindings.Has] using hmissing
  refine hforeseen (htyped.isPartlyAssigned ?_ hneeds)
  rw [henv.scope_eq]
  simp [View.ofTypes, Bindings.types, hunknown]

def bigger : FunctionDef where
  name := "bigger"
  parameters := ["a", "b"]
  body := [.ifElse (.binary (.comparison .gt) (.var "a") (.var "b")) (.assign "c" (.var "a"))
    (some (.assign "c" (.var "b"))), .var "c"]

/-- A variable is assigned in either branch, and looked up after them. -/
def assignedEitherWay : Program :=
  ({ statements := [.assign "x" (.call "bigger" [.literal (.long 1), .literal (.long 2)]),
    .call "abs" [.var "x"]] } : Program).define bigger

/-- A program of which nothing is overlooked. -/
theorem isExcused_runProgram_either : ∃ t,
    (({ registry := .defaults } : Environment).scope ∅).checkProgram assignedEitherWay = .ok t ∧
    ∀ depth, Meets (({ registry := .defaults } : Environment).runProgram depth assignedEitherWay) {}
      (fun _ _ => True) fun stop _ => ∀ e, stop = .failed e → e.isUnknownName = false := by
  have hcheck : (({ registry := .defaults } : Environment).scope ∅).checkProgram
      assignedEitherWay = .ok .long := eq_ok_of_toOption (by decide +kernel)
  have hdefined : ∀ key f, assignedEitherWay.functions.find? key = some f → f = bigger := by
    intro key f hf
    change (Bindings.insert ∅ _ bigger).find? key = some f at hf
    rw [Bindings.find?_insert] at hf
    split at hf
    · exact (Option.some.inj hf).symm
    · cases hf
  have hprojections : ∀ e, ¬assignedEitherWay.HasProjection e := by
    rintro e (he | ⟨key, f, hf, he⟩)
    · cases he
    · cases hdefined key f hf
      cases he
  have hstatements : ∀ name, ¬IsPartlyAssigned name assignedEitherWay.statements := by
    rintro name ⟨hneeds, _⟩
    simp [assignedEitherWay, define, needs, needsIn, assigns, assignsIn] at hneeds
  have hbodies : ∀ key f, assignedEitherWay.functions.find? key = some f →
      ∀ name, name ∉ f.parameters → ¬IsPartlyAssigned name f.body := by
    rintro key f hf name hname ⟨hneeds, _⟩
    cases hdefined key f hf
    simp only [bigger, List.mem_cons, List.not_mem_nil, or_false, not_or] at hname
    simp [bigger, needs, needsIn, assigns, Ne.symm hname.1, Ne.symm hname.2] at hneeds
  refine ⟨.long, hcheck, fun depth => ?_⟩
  have hplain : ({ registry := .defaults } : Environment).IsPlain := ⟨rfl, rfl⟩
  have hexcused := isExcused_runProgram hplain (hostKnowsNames_of_defaults rfl) (s := {}) hcheck
    depth
  refine hexcused.imp (fun _ _ => id) fun stop s' hstop e he => Bool.eq_false_iff.mpr ?_
  intro hunknown
  exact not_overlooks hprojections (fun name _ => hstatements name) hbodies e s'.trace
    (hstop e he hunknown)

/-! ### What the check overlooks -/

/-- A variable that the branch that is not taken assigns, and a function that only a projection
calls. -/
theorem overlooked_names : ∃ env : Environment, env.IsPlain ∧ env.HostKnowsNames ∧
    (∃ p t s', Program.ofSource "if false then x = 1 endif\nx" = .ok p ∧
      (env.scope ∅).checkProgram p = .ok t ∧
      env.runProgram 0 p {} = (.error (.failed (.undefinedVariable "x")), s')) ∧
    ∃ p t s', Program.ofSource "project \x7b D.a, twice(D.a) \x7d" = .ok p ∧
      (env.scope ∅).checkProgram p = .ok t ∧
      env.runProgram 0 p {} = (.error (.failed (.unknownFunction "twice")), s') := by
  let column : Column := { name := "a", content := .stored ⟨.long, #[some 7]⟩ }
  let f : Frame :=
    { name := "D", columns := [column], index := .ofList [("a", 0)], rowCount := 1, registry := ∅ }
  let skipping : Program := { statements := [.ifElse (.literal (.boolean false))
    (.sequence [.assign "x" (.literal (.long 1))]) none, .var "x"] }
  let projecting : Program := { statements :=
    [.project [.path "D" ["a"], .call "twice" [.path "D" ["a"]]] none] }
  have hskipping : Program.ofSource "if false then x = 1 endif\nx" = .ok skipping := by cbv
  have hprojecting : Program.ofSource "project \x7b D.a, twice(D.a) \x7d" = .ok projecting := by cbv
  exact ⟨{ registry := ∅, dataSets := Bindings.ofList [("D", f)] }, ⟨rfl, rfl⟩,
    (by rintro _ _ _ _ ⟨⟩), ⟨_, _, _, hskipping, rfl, rfl⟩, ⟨_, _, _, hprojecting, rfl, rfl⟩⟩

end Program

end FrameLang
