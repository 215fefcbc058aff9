/-
Checked programs do not recurse.

The check walks through the body of every function that is called, and notes a recursion where it
would enter a body that it is in already.  A run takes one branch of an `if` and skips operands, and
the values it meets have nothing to do with those of the check.  But every call that it makes stands
in an expression that the check has walked through, with the same bodies open around it.  So a run
enters no body that is open either, and it never has more bodies open than there are functions.

The evaluator is told what statements to run, and not whose body they are.  To speak of open
functions the bodies are marked with the names of their functions, and `runGuarded` is the evaluator
that reads the marks and refuses to enter a function that is open.  A checked program runs under
this guard as it runs without, and in particular to its end.
-/
import FrameLang.Proofs.Typing.Programs

namespace FrameLang

open Run

/-! ### Marked bodies -/

namespace Bindings

variable {α β : Type}

def map (f : α → β) (b : Bindings α) : Bindings β :=
  ⟨b.entries.map fun entry => (entry.1, f entry.2)⟩

theorem find?_map (f : α → β) (b : Bindings α) (name : String) :
    (b.map f).find? name = (b.find? name).map f := by
  obtain ⟨entries⟩ := b
  change (entries.map fun entry => (entry.1, f entry.2)).lookup name = (entries.lookup name).map f
  induction entries with
  | nil => rfl
  | cons entry rest ih =>
      obtain ⟨key, a⟩ := entry
      rw [List.map_cons, lookup_cons, lookup_cons, ih]
      split
      · rfl
      · rfl

theorem size_map (f : α → β) (b : Bindings α) : (b.map f).size = b.size := List.length_map _

end Bindings

/-- The function with its body under the function's name.  A name and a sequence make no difference
to the value. -/
def FunctionDef.marked (f : FunctionDef) : FunctionDef :=
  { f with body := [.named (normalizeName f.name) (.sequence f.body)] }

def Scope.marked (scope : Scope) : Scope :=
  { scope with functions := scope.functions.map FunctionDef.marked }

def Environment.marked (env : Environment) : Environment :=
  { env with functions := env.functions.map FunctionDef.marked }

namespace Expr

section Inference

variable {scope : Scope} {enter enter' : EnterFunction}

mutual

/-- Marks make no difference to types. -/
theorem inferWith_marked (henter : ∀ f types, enter' f.marked types = enter f types) (e : Expr) :
    e.inferWith scope.marked enter' = e.inferWith scope enter := by
  cases e with
  | literal | var | path | project => rfl
  | unary op e => rw [inferWith, inferWith, inferWith_marked henter e]
  | binary op l r =>
      rw [inferWith, inferWith, inferWith_marked henter l, inferWith_marked henter r]
  | call name arguments =>
      have hfind : scope.marked.functions.find? (normalizeName name) =
          (scope.functions.find? (normalizeName name)).map FunctionDef.marked :=
        Bindings.find?_map _ _ _
      rw [inferWith, inferWith, inferAllWith_marked henter arguments, hfind]
      cases scope.functions.find? (normalizeName name) with
      | none => rfl
      | some f => simp only [Option.map_some, henter]; rfl
  | ifElse c t e =>
      cases e with
      | none => rw [inferWith, inferWith, inferWith_marked henter c, inferWith_marked henter t]
      | some e =>
          rw [inferWith, inferWith, inferWith_marked henter c, inferWith_marked henter t,
            inferWith_marked henter e]
  | assign name e => rw [inferWith, inferWith, inferWith_marked henter e]
  | named name e => rw [inferWith, inferWith, inferWith_marked henter e]
  | vector elements => rw [inferWith, inferWith, inferAllWith_marked henter elements]
  | index v i => rw [inferWith, inferWith, inferWith_marked henter v, inferWith_marked henter i]
  | sequence statements => rw [inferWith, inferWith, inferAllWith_marked henter statements]
termination_by structural e

theorem inferAllWith_marked (henter : ∀ f types, enter' f.marked types = enter f types)
    (es : List Expr) : inferAllWith scope.marked enter' es = inferAllWith scope enter es := by
  cases es with
  | nil => rfl
  | cons e es =>
      rw [inferAllWith, inferAllWith, inferWith_marked henter e, inferAllWith_marked henter es]
termination_by structural es

end

end Inference

theorem enter_marked (scope : Scope) (free : Nat) (active : List String) (f : FunctionDef)
    (types : List ValueType) :
    enter scope.marked free active f.marked types = enter scope free active f types := by
  induction free generalizing active f types with
  | zero => rfl
  | succ free ih =>
      have hbody : inferAllWith scope.blank.marked
          (enter scope.marked free (normalizeName f.name :: active)) f.body =
            inferAllWith scope.blank (enter scope free (normalizeName f.name :: active)) f.body :=
        inferAllWith_marked (ih _) f.body
      rw [enter, enter]
      change (if active.contains (normalizeName f.name) then _ else _) = _
      split
      · rfl
      · congr 1
        change (inferAllWith scope.blank.marked
          (enter scope.marked free (normalizeName f.name :: active))
          [.named _ (.sequence f.body)] >>= _) = inferAllWith scope.blank _ f.body >>= _
        rw [← hbody]
        simp [inferAllWith, inferWith]

end Expr

theorem Scope.typeOf_marked (scope : Scope) (e : Expr) :
    scope.marked.typeOf e = scope.typeOf e := by
  have hinfer : scope.marked.infer e = scope.infer e := by
    unfold infer
    rw [show scope.marked.functions.size = scope.functions.size from Bindings.size_map _ _]
    exact Expr.inferWith_marked (Expr.enter_marked scope _ []) e
  unfold typeOf
  rw [hinfer]

/-! ### The guard -/

namespace Expr

/-- Runs marked bodies with at most `free` of them open inside each other, and none of a function
that is open. -/
def runGuarded : Nat → List String → RunStatements
  | 0, _ => fun _ _ => throw .outOfDepth
  | free + 1, active => fun env statements =>
    match statements with
    | [named name body] =>
      if name ∈ active then throw .outOfDepth
      else body.evaluateWith (runGuarded free (name :: active)) env
    | _ => throw .outOfDepth

end Expr

/-- Runs a program under the guard, at first with no function open. -/
def Environment.runGuarded (env : Environment) (p : Program) : Run Value :=
  Expr.evaluateStatementsWith (Expr.runGuarded p.functions.size [])
    { env with functions := p.functions }.marked .void p.statements

/-! ### Runs that do not run out of depth -/

namespace Run

variable {α β : Type}

/-- Two runs are the same, and they do not run out of depth. -/
structure Shallow (run run' : Run α) : Prop where
  eq : run = run'
  meets : ∀ s, Meets run s (fun _ _ => True) fun stop _ => stop ≠ .outOfDepth

theorem shallow_pure (a : α) : Shallow (pure a) (pure a) := ⟨rfl, fun _ => trivial⟩

theorem Shallow.bind {x x' : Run α} {f f' : α → Run β} (hx : Shallow x x')
    (hf : ∀ a, Shallow (f a) (f' a)) : Shallow (x >>= f) (x' >>= f') :=
  ⟨by rw [hx.eq, funext fun a => (hf a).eq],
    fun s => meets_bind (hx.meets s) fun a s' _ => (hf a).meets s'⟩

theorem shallow_get : Shallow (get : Run Store) get := ⟨rfl, fun _ => trivial⟩

theorem shallow_fail (e : Error) : Shallow (fail e : Run α) (fail e) := ⟨rfl, fun _ => nofun⟩

theorem shallow_report (e : Error) : Shallow (report e : Run α) (report e) :=
  ⟨rfl, fun _ => nofun⟩

theorem shallow_orReport (x : Except Error α) : Shallow (orReport x) (orReport x) := by
  cases x with
  | ok a => exact shallow_pure a
  | error e => exact shallow_report e

theorem shallow_setVariable (name : String) (v : Value) :
    Shallow (setVariable name v) (setVariable name v) :=
  ⟨rfl, fun _ => trivial⟩

theorem Shallow.isolated {x x' : Run α} (h : Shallow x x') (vars : Bindings Value) :
    Shallow (isolated vars x) (isolated vars x') :=
  ⟨by rw [h.eq], fun s => meets_isolated (h.meets _)⟩

theorem Shallow.reporting {x x' : Run α} (h : Shallow x x') :
    Shallow (reporting x) (reporting x') :=
  ⟨by rw [h.eq], fun s => meets_reporting (h.meets s) fun _ _ _ => nofun⟩

theorem Shallow.choose {t t' u u' : Run Value} (ht : Shallow t t') (hu : Shallow u u')
    (condition : Value) : Shallow (choose condition t u) (choose condition t' u') := by
  unfold FrameLang.choose
  split
  · exact ht
  · exact hu
  · exact shallow_report _

end Run

/-! ### Checked expressions -/

/-- Whether a node is no projection. -/
def Expr.isNoProjection : Expr → Bool
  | project .. => false
  | _ => true

/-- Assignments, but no projections. -/
def Discipline.unprojected : Discipline where
  allows := Expr.isNoProjection
  Skips _ _ := True
  Besides _ _ _ _ := True

section Parts

variable {deeper deeper' : RunStatements} {env : Environment}

theorem shallow_lookUp (henv : env.IsPlain) (name : String) :
    Shallow (lookUp deeper env name) (lookUp deeper' env.marked name) := by
  refine shallow_get.bind fun s => ?_
  split
  · exact shallow_pure _
  · rw [show env.marked.row = none from henv.row, henv.row]
    exact shallow_fail _

theorem shallow_readPath (henv : env.IsPlain) (dataSet : String) (field : List String) :
    Shallow (readPath deeper env dataSet field) (readPath deeper' env.marked dataSet field) := by
  unfold readPath
  rw [show env.marked.dataSets = env.dataSets from rfl,
    show env.marked.projectedRow = none from henv.projectedRow, henv.projectedRow]
  cases env.dataSets.find? dataSet with
  | none => exact shallow_report _
  | some f => exact shallow_report _

theorem shallow_widen (v : Value) (other : Expr) :
    Shallow (widen env v other) (widen env.marked v other) := by
  unfold widen
  split
  · refine shallow_get.bind fun s => ?_
    rw [show env.marked.scope s.vars = (env.scope s.vars).marked from rfl, Scope.typeOf_marked]
    split
    · exact shallow_pure _
    · exact shallow_pure _
  · exact shallow_pure _

theorem shallow_invoke (f : Function) (arguments : List Value) :
    Shallow (f.invoke env arguments) (f.invoke env.marked arguments) := by
  have hperform : ∀ arguments, Shallow (f.perform env arguments) (f.perform env.marked arguments) :=
    fun arguments => ⟨rfl, fun s => (f.meets_perform env arguments s).imp (fun _ _ _ => trivial)
      (by rintro _ _ ⟨e, rfl, _⟩; exact nofun)⟩
  unfold Function.invoke
  split
  · exact hperform _
  · split
    · exact hperform _
    · exact shallow_fail _

end Parts

namespace Expr

/-- A call of a function that is not open opens one more body, for which there is room. -/
theorem shallow_callDefined {env : Environment} (henv : env.IsPlain) {name : String}
    {f : FunctionDef} (hf : env.functions.find? (normalizeName name) = some f)
    {active : List String} (hactive : normalizeName f.name ∉ active) {free depth : Nat}
    (hbody : Shallow (evaluateAllWith (runDeep depth) env f.body)
      (evaluateAllWith (runGuarded free (normalizeName f.name :: active)) env.marked f.body))
    (vs : List Value) :
    Shallow (FrameLang.call (runDeep (depth + 1)) env name vs)
      (FrameLang.call (runGuarded (free + 1) active) env.marked name vs) := by
  unfold FrameLang.call
  rw [hf, show env.marked.functions.find? (normalizeName name) = some f.marked by
    rw [← Option.map_some, ← hf]; exact Bindings.find?_map _ _ _]
  change Shallow (if f.parameters.length = vs.length then _ else _)
    (if f.parameters.length = vs.length then _ else _)
  split
  · refine Shallow.isolated ?_ _
    have hguard : runGuarded (free + 1) active env.marked.forCall f.marked.body =
        evaluateStatementsWith (runGuarded free (normalizeName f.name :: active)) env.marked
          .void f.body := by
      rw [show env.marked.forCall = env.forCall.marked from rfl, henv.forCall_eq]
      exact if_neg hactive
    rw [henv.forCall_eq, hguard, runDeep_succ, evaluateStatementsWith_eq]
    exact hbody.bind fun _ => shallow_pure _
  · exact shallow_report _

theorem shallow_callRegistered {env : Environment} {name : String}
    (hdefined : env.functions.find? (normalizeName name) = none) (deeper guarded : RunStatements)
    (vs : List Value) :
    Shallow (FrameLang.call deeper env name vs) (FrameLang.call guarded env.marked name vs) := by
  unfold FrameLang.call
  rw [hdefined, show env.marked.functions.find? (normalizeName name) = none by
    rw [← Option.map_none, ← hdefined]; exact Bindings.find?_map _ _ _]
  dsimp only
  rw [show env.marked.registry = env.registry from rfl]
  split
  · exact shallow_invoke _ _
  · exact shallow_report _

/-- **A checked expression enters no function that is open.**  It evaluates under the guard as it
does without, and does not run out of depth if there is room for the functions that are not open. -/
theorem shallow_evaluateWith {base : Scope} {env : Environment} (henv : env.IsPlain)
    (hbase : base.functions = env.functions) {active : List String} {Γ Γ' : View} {e : Expr}
    {k : Known} (h : Typed .unprojected base active Γ e k Γ') {free : Nat}
    (hroom : env.functions.Room free active) {depth : Nat} (hdepth : free ≤ depth) :
    Shallow (e.evaluateWith (runDeep depth) env)
      (e.evaluateWith (runGuarded free active) env.marked) := by
  induction h using @Typed.rec .unprojected base _ (fun active Γ es ks Γ' _ => ∀ {free : Nat},
    env.functions.Room free active → ∀ {depth : Nat}, free ≤ depth →
      Shallow (evaluateAllWith (runDeep depth) env es)
        (evaluateAllWith (runGuarded free active) env.marked es)) generalizing free depth with
  | literal => exact shallow_pure _
  | @var active Γ name k hname =>
      rw [evaluateWith, evaluateWith]
      exact (shallow_lookUp henv name).reporting
  | unary _ _ ih =>
      rw [evaluateWith, evaluateWith]
      exact (ih hroom hdepth).bind fun _ => shallow_orReport _
  | @binary active Γ Γ₁ Γ₂ op l r j k hconnective _ _ _ ihl ihr =>
      have hl := ihl hroom hdepth
      have hr := ihr hroom hdepth
      cases op with
      | connective c => exact absurd rfl (hconnective c)
      | _ =>
          rw [evaluateWith, evaluateWith]
          exact hl.bind fun _ => hr.bind fun _ => shallow_orReport _
  | connective _ _ _ _ ihl ihr =>
      rw [evaluateWith, evaluateWith]
      refine (ihl hroom hdepth).bind fun left => (shallow_orReport _).bind fun settled => ?_
      split
      · exact shallow_pure _
      · exact (ihr hroom hdepth).bind fun _ => shallow_orReport _
  | callDefined _ hf _ hactive _ ih ihbody =>
      rw [hbase] at hf
      obtain ⟨rest, rfl, hrest⟩ := hroom.enter hf hactive
      obtain ⟨depth, rfl⟩ : ∃ d, depth = d + 1 := ⟨depth - 1, by omega⟩
      rw [evaluateWith, evaluateWith]
      have hbody := ihbody hrest (Nat.le_of_succ_le_succ hdepth)
      exact (ih hroom hdepth).bind fun vs => shallow_callDefined henv hf hactive hbody vs
  | callRegistered _ hdefined _ _ _ _ ih =>
      rw [hbase] at hdefined
      rw [evaluateWith, evaluateWith]
      exact (ih hroom hdepth).bind fun vs => shallow_callRegistered hdefined _ _ vs
  | ifThen _ _ _ _ ihc iht =>
      rw [evaluateWith, evaluateWith]
      exact (ihc hroom hdepth).bind ((iht hroom hdepth).choose (shallow_pure _))
  | @ifElse active Γ Γ₁ Γ₂ Γ₃ c t e i j k _ _ _ _ _ _ _ _ _ ihc iht ihe =>
      rw [evaluateWith, evaluateWith]
      refine (ihc hroom hdepth).bind (Shallow.choose ?_ ?_)
      · exact (iht hroom hdepth).bind fun v => shallow_widen v e
      · exact (ihe hroom hdepth).bind fun v => shallow_widen v t
  | @assign active Γ Γ₁ name e k _ _ ih =>
      rw [evaluateWith, evaluateWith]
      refine (ih hroom hdepth).bind fun v => ?_
      exact (shallow_setVariable name v).bind fun _ => shallow_pure v
  | named _ ih =>
      rw [evaluateWith, evaluateWith]
      exact ih hroom hdepth
  | vector _ ih =>
      rw [evaluateWith, evaluateWith]
      exact (ih hroom hdepth).bind fun _ => shallow_pure _
  | index _ _ ihv ihi =>
      rw [evaluateWith, evaluateWith]
      exact (ihv hroom hdepth).bind fun _ => (ihi hroom hdepth).bind fun _ => shallow_orReport _
  | path =>
      rw [evaluateWith, evaluateWith]
      exact shallow_readPath henv _ _
  | project hallows => cases hallows
  | sequence _ ih =>
      rw [evaluateWith, evaluateWith, evaluateStatementsWith_eq, evaluateStatementsWith_eq]
      exact (ih hroom hdepth).bind fun _ => shallow_pure _
  | nil => exact shallow_pure _
  | cons _ _ ihe ihes =>
      rename_i hroom _ hdepth
      rw [evaluateAllWith, evaluateAllWith]
      exact (ihe hroom hdepth).bind fun _ => (ihes hroom hdepth).bind fun _ => shallow_pure _

end Expr

/-! ### Checked programs -/

namespace Program

/-- A program without projections, in its functions neither. -/
structure IsUnprojected (p : Program) : Prop where
  statements : Expr.everyIn Expr.isNoProjection p.statements = true
  bodies : ∀ name f, p.functions.find? name = some f →
    Expr.everyIn Expr.isNoProjection f.body = true

/-- **A checked program without projections ends, and enters no function that is open.**  If as many
bodies may be open as there are functions, then it does not run out of depth; and it runs as under
the guard, which would stop it if it entered a function a second time before leaving it. -/
theorem IsUnprojected.ends {p : Program} (hp : p.IsUnprojected) {env : Environment}
    (henv : env.IsPlain) {s : Store} {t : ValueType}
    (hcheck : (env.scope s.vars).checkProgram p = .ok t) {depth : Nat}
    (hdepth : p.functions.size ≤ depth) :
    env.runProgram depth p s = env.runGuarded p s ∧
      ∀ s', env.runProgram depth p s ≠ (.error .outOfDepth, s') := by
  have hsuits : Discipline.unprojected.Suits p.functions :=
    ⟨fun _ _ => trivial, fun _ _ _ _ => trivial, hp.bodies⟩
  obtain ⟨ks, Γ', htyped, _⟩ := Scope.typed_of_checkProgram hsuits hp.statements hcheck
    (View.types_ofTypes _)
  have hplain : { env with functions := p.functions }.IsPlain := ⟨henv.row, henv.projectedRow⟩
  have hshallow := Expr.shallow_evaluateWith hplain rfl (Typed.sequence htyped)
    (FunctionDefs.room_nil _) hdepth
  exact ⟨congrFun hshallow.eq s, fun s' hrun => (hshallow.meets s).stop hrun rfl⟩

def half : FunctionDef where
  name := "half"
  parameters := ["n"]
  body := [.ifElse (.binary (.comparison .gt) (.var "n") (.literal (.long 1))) (.var "n")
    (some (.literal (.double (Double.ofInt 2))))]

def twiceHalf : FunctionDef where
  name := "twiceHalf"
  parameters := ["n"]
  body := [.binary (.arithmetic .add) (.call "half" [.var "n"]) (.call "half" [.var "n"])]

/-- A function that calls another one, twice; a call of it stands in the branch that is not taken,
and another one follows. -/
def nestedCalls : Program :=
  (({ statements := [.assign "x" (.literal (.long 2)),
    .ifElse (.literal (.boolean true)) (.var "x") (some (.call "twiceHalf" [.var "x"])),
    .call "twiceHalf" [.var "x"]] } : Program).define half).define twiceHalf

theorem IsUnprojected.ends_nested : nestedCalls.functions.size = 2 ∧
    ∀ depth, 2 ≤ depth → ({ registry := ∅ } : Environment).runProgram depth nestedCalls {} =
        ({ registry := ∅ } : Environment).runGuarded nestedCalls {} ∧
      ∀ s', ({ registry := ∅ } : Environment).runProgram depth nestedCalls {} ≠
        (.error .outOfDepth, s') := by
  have hsize : nestedCalls.functions.size = 2 := by decide +kernel
  have hp : nestedCalls.IsUnprojected := by
    refine ⟨rfl, fun name f hf => ?_⟩
    change (Bindings.insert (Bindings.insert ∅ _ half) _ twiceHalf).find? name = some f at hf
    rw [Bindings.find?_insert, Bindings.find?_insert] at hf
    split at hf
    · cases hf
      rfl
    · split at hf
      · cases hf
        rfl
      · cases hf
  have hcheck : (({ registry := ∅ } : Environment).scope ∅).checkProgram nestedCalls =
      .ok .double := eq_ok_of_toOption (by decide +kernel)
  have hplain : ({ registry := ∅ } : Environment).IsPlain := ⟨rfl, rfl⟩
  exact ⟨hsize, fun depth hdepth => hp.ends hplain (s := {}) hcheck (hsize ▸ hdepth)⟩

end Program

end FrameLang
