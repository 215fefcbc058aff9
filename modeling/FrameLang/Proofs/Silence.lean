/-
Success is quiet and failure is not.

Whatever is done with a script or a frame, nothing is reported if it succeeds (`quiet_of_success`).
Several errors are given up on, by a membership test or by an `if` that asks for the type of its
other branch, and none of these has been reported before it is given up on.

The converse has one exception.  A call of a registered function with a wrong number of arguments
fails without a report.  Where the check has walked through a call it has counted the arguments, so
the exception does not concern expressions over the rows of a frame, nor checked scripts without
projections; the check does not walk through a projection.
-/
import FrameLang.Proofs.Frame.Runs
import FrameLang.Proofs.Reporting
import FrameLang.Proofs.Typing.Nesting
import FrameLang.Script

namespace FrameLang

open Run

/-- A call of so many arguments goes to a function in `mayEnter`, or else to a registered function,
if there is one, which takes so many or makes an error that is excused. -/
structure Scope.MayCall (scope : Scope) (excuse : Error → Prop) (mayEnter : FunctionDef → Prop)
    (name : String) (count : Nat) : Prop where
  defined : ∀ f, scope.functions.find? (normalizeName name) = some f → mayEnter f
  registered : ∀ f, scope.functions.find? (normalizeName name) = none →
    scope.registry.get? name = some f → f.takes count = false →
      excuse (.argumentCount f.name f.usageText)

/-! ### The evaluator -/

section Evaluator

variable {excuse : Error → Prop} {mayEnter : FunctionDef → Prop} {mayCall : String → Nat → Prop}
  {deeper : RunStatements} {depth : Nat} {env : Environment} {inside : Bool}

theorem Frame.tells_readColumn {f : Frame} {host : Host} {column : Column} {row : Nat}
    (h : ∀ source e type, column.content = .computed source e type →
      Run.Tells excuse (deeper (.ofRow host f row) [e])) :
    Run.Tells excuse (f.readColumn deeper host column row) :=
  composes_tells.readColumn fun source e type hcontent => (h source e type hcontent).isolated ∅

/-- What an environment has for expressions are the columns of its data sets and the bodies of its
functions. -/
theorem Environment.tells_of_parts (hdeeper : ∀ env es, Run.Tells (fun _ => True) (deeper env es))
    (hdata : ∀ name f, env.dataSets.find? name = some f → ∀ column ∈ f.columns, ∀ row,
      Run.Tells excuse (f.readColumn deeper env.host column row))
    (hbodies : ∀ f, mayEnter f → Run.Tells excuse (deeper env.forCall f.body)) :
    env.Tells excuse deeper (env.blank.MayCall excuse mayEnter) where
  column _ _ _ _ := Frame.tells_readColumn fun _ _ _ _ => hdeeper _ _
  path _ dataSet field := by
    refine composes_tells.readPath ?_ field
    exact hdata dataSet
  call name arguments h :=
    composes_tells.call (fun f hf => (hbodies f (h.defined f hf)).isolated _)
      fun f hnone hf hcount => tells_fail (h.registered f hnone hf hcount)

namespace Expr

theorem tells_statements (henv : env.Tells excuse (runDeep depth) mayCall)
    (hinside : inside = true ∨ env.dataSets = ∅) {es : List Expr}
    (hes : ∀ name arguments, call name arguments ∈ nodesIn inside es →
      mayCall name arguments.length) :
    Tells excuse (runDeep (depth + 1) env es) := by
  rw [runDeep_succ]
  exact (henv.evaluateAllWith hinside hes).bind fun _ => tells_pure _

/-- With an excuse for every error nothing is asked of the statements. -/
theorem tells_runDeep (depth : Nat) (env : Environment) (es : List Expr) :
    Tells (fun _ => True) (runDeep depth env es) := by
  induction depth generalizing env es with
  | zero => exact tells_outOfDepth
  | succ depth ih =>
      have henv : env.Tells (fun _ => True) (runDeep depth)
          (env.blank.MayCall (fun _ => True) fun _ => True) := by
        refine Environment.tells_of_parts ih ?_ fun f _ => ih _ _
        exact fun _ _ _ _ _ _ => Frame.tells_readColumn fun _ _ _ _ => ih _ _
      refine tells_statements henv (Or.inl rfl) ?_
      exact fun _ _ _ => ⟨fun _ _ => trivial, fun _ _ _ _ => trivial⟩

end Expr

theorem Environment.tells_evaluate (depth : Nat) (env : Environment) (e : Expr) :
    Run.Tells (fun _ => True) (env.evaluate depth e) := by
  have h := Expr.tells_runDeep (depth + 1) env [e]
  rwa [Expr.runDeep_single] at h

end Evaluator

/-! ### Scripts -/

section Scripts

variable {α β : Type} {excuse : Error → Prop}

theorem tells_readSource_bind {read : String → Except SyntaxError α} {source : String}
    {rest : α → Run β} (h : ∀ a, read source = .ok a → Run.Tells excuse (rest a)) :
    Run.Tells excuse (readSource read source >>= rest) := by
  refine composes_tells.orReport_bind fun a ha => h a ?_
  cases hread : read source with
  | error e =>
      rw [hread] at ha
      cases ha
  | ok b =>
      rw [hread] at ha
      cases ha
      rfl

theorem tells_checkProgram_bind {env : Environment} {p : Program} {rest : Run β}
    (h : ∀ vars t, (env.scope vars).checkProgram p = .ok t → Run.Tells excuse rest) :
    Run.Tells excuse (env.checkProgram p >>= fun _ => rest) := by
  unfold Environment.checkProgram
  rw [bind_assoc]
  refine tells_get.bind fun s => ?_
  rw [Functor.discard, map_const, Function.comp_apply, bind_map_left]
  exact composes_tells.orReport_bind fun t ht => h s.vars t ht

end Scripts

/-! ### Success -/

/-- **Success is quiet.**  If a script ends with a value, checked or not, or an expression does,
then nothing has been written to the error printer meanwhile; and if anything that can be done with
a frame succeeds, then neither. -/
theorem quiet_of_success (depth : Nat) :
    (∀ (env : Environment) (source : String), IsQuiet (env.runScript depth source) ∧
      IsQuiet (env.runUnchecked depth source) ∧ IsQuiet (env.evaluateSource depth source)) ∧
    (∀ (env : Environment) (p : Program), IsQuiet (env.runProgram depth p)) ∧
    (∀ (env : Environment) (e : Expr), IsQuiet (env.evaluate depth e)) ∧
    ∀ (f : Frame) (host : Host), f.EveryRun IsQuiet depth host := by
  have hprogram : ∀ (env : Environment) (p : Program),
      Tells (fun _ => True) (env.runProgram depth p) := by
    intro env p
    exact Expr.tells_runDeep (depth + 1) _ p.statements
  refine ⟨fun env source => ⟨?_, ?_, ?_⟩, fun env p => (hprogram env p).isQuiet,
    fun env e => (env.tells_evaluate depth e).isQuiet, fun f host => ?_⟩
  · exact (tells_readSource_bind fun p _ => tells_checkProgram_bind fun _ _ _ =>
      hprogram env p).isQuiet
  · exact (tells_readSource_bind fun p _ => hprogram env p).isQuiet
  · exact (tells_readSource_bind fun e _ => env.tells_evaluate depth e).isQuiet
  · have hf : f.HasParts (Run.Tells fun _ => True) depth host := by
      refine ⟨fun _ _ _ => Frame.tells_readColumn fun _ _ _ _ => Expr.tells_runDeep _ _ _, ?_⟩
      intro e _ _ row
      exact (Environment.tells_evaluate depth _ e).isolated ∅
    exact (hf.everyRun composes_tells).imp fun _ => Run.Tells.isQuiet

/-- A number among texts. -/
def mixedMembership : Program where
  statements := [.binary (.membership .isIn) (.literal (.long 1))
    (.vector [.literal (.string "a"), .literal (.long 1)])]

/-- Comparing the number with a text fails, and the membership test goes on without a word. -/
theorem quiet_of_success_membership : (Value.comparison .eq (.long 1) (.string "a")).isOk = false ∧
    ∃ s', ({ registry := ∅ } : Environment).runProgram 0 mixedMembership {} =
      (.ok (.boolean true), s') ∧ s'.reports = ({} : Store).reports := by
  have hrun : ({ registry := ∅ } : Environment).runProgram 0 mixedMembership {} =
      (.ok (.boolean true), {}) := rfl
  exact ⟨rfl, _, hrun, (quiet_of_success 0).2.1 _ _ _ _ _ hrun⟩

/-! ### Counted calls -/

/-- The check has been through the body of the function. -/
def FunctionDef.IsTyped (D : Discipline) (scope : Scope) (f : FunctionDef) : Prop :=
  ∃ active Γ ks Γ', TypedAll D scope active Γ f.body ks Γ'

namespace Expr

section Typed

variable {D : Discipline} {scope : Scope} {excuse : Error → Prop} {inside : Bool}

/-- **What passes the check has its calls counted.**  If projections pass the check, then this does
not go for the calls inside of them. -/
theorem mayCall_of_typed
    (hD : inside = true → ∀ elements filter, D.allows (.project elements filter) = false)
    {active : List String} {Γ Γ' : View} {e : Expr} {k : Known}
    (h : Typed D scope active Γ e k Γ') {name : String} {arguments : List Expr}
    (hcall : call name arguments ∈ e.nodes inside) :
    scope.MayCall excuse (FunctionDef.IsTyped D scope) name arguments.length := by
  induction h using @Typed.rec D scope _ (fun _ _ es _ _ _ =>
    call name arguments ∈ nodesIn inside es →
      scope.MayCall excuse (FunctionDef.IsTyped D scope) name arguments.length) with
  | literal | var | path => simp [nodes] at hcall
  | unary _ _ ih | assign _ _ ih | named _ ih | vector _ ih | sequence _ ih =>
      exact ih (by simpa [nodes] using hcall)
  | binary _ _ _ _ ihl ihr | connective _ _ _ _ ihl ihr | index _ _ ihl ihr =>
      simp only [nodes, List.mem_cons, List.mem_append, reduceCtorEq, false_or] at hcall
      exact hcall.elim ihl ihr
  | ifThen _ _ _ _ ihc iht =>
      simp only [nodes, List.mem_cons, List.mem_append, reduceCtorEq, false_or] at hcall
      exact hcall.elim ihc iht
  | ifElse _ _ _ _ _ _ _ _ _ ihc iht ihe =>
      simp only [nodes, List.mem_cons, List.mem_append, reduceCtorEq, false_or] at hcall
      exact hcall.elim ihc fun hbranch => hbranch.elim iht ihe
  | @callDefined active Γ Γ₁ Γ₂ name' arguments' ks js f harguments hf hlength hactive hbody ih _ =>
      rcases List.mem_cons.mp hcall with heq | hcall
      · cases heq
        refine ⟨fun g hg => ?_, fun g hg => ?_⟩
        · rw [hf] at hg
          cases hg
          exact ⟨_, _, _, _, hbody⟩
        · rw [hf] at hg
          cases hg
      · exact ih hcall
  | @callRegistered active Γ Γ₁ name' arguments' ks t exact f harguments hdefined hf htakes _ _
      ih =>
      rcases List.mem_cons.mp hcall with heq | hcall
      · cases heq
        refine ⟨fun g hg => ?_, fun g _ hg hcount => ?_⟩
        · rw [hdefined] at hg
          cases hg
        · rw [hf] at hg
          cases hg
          rw [harguments.length_eq, hcount] at htakes
          cases htakes
      · exact ih hcall
  | @project active Γ elements filter hallows =>
      -- either projections do not pass, or nothing inside of one counts
      cases inside with
      | true =>
          rw [hD rfl] at hallows
          cases hallows
      | false => cases filter <;> simp [nodes] at hcall
  | nil =>
      rename_i hcall
      cases hcall
  | cons _ _ ihe ihes =>
      rename_i hcall
      exact (List.mem_append.mp hcall).elim ihe ihes

theorem mayCall_of_typedAll
    (hD : inside = true → ∀ elements filter, D.allows (.project elements filter) = false)
    {active : List String} {Γ Γ' : View} {es : List Expr} {ks : List Known}
    (h : TypedAll D scope active Γ es ks Γ') {name : String} {arguments : List Expr}
    (hcall : call name arguments ∈ nodesIn inside es) :
    scope.MayCall excuse (FunctionDef.IsTyped D scope) name arguments.length :=
  mayCall_of_typed hD (Typed.sequence h) (List.mem_cons_of_mem _ hcall)

end Typed

end Expr

/-! ### Frames that fail -/

namespace Frame

variable {excuse : Error → Prop}

/-- Over the rows of a frame there are no functions that could be entered. -/
theorem tells_ofRow (excuse : Error → Prop) (depth : Nat) (host : Host) (f : Frame) (row : Nat) :
    (Environment.ofRow host f row).Tells excuse (Expr.runDeep depth)
      ((Environment.ofRow host f row).blank.MayCall excuse fun _ => False) := by
  refine Environment.tells_of_parts (Expr.tells_runDeep depth) ?_ ?_
  · intro name g hg
    cases hg
  · intro g hg
    cases hg

theorem mayCall_of_check {f : Frame} {e : Expr} {t : ValueType} (hcheck : f.scope.check e = .ok t)
    (host : Host) (row : Nat) (name : String) (arguments : List Expr)
    (hcall : .call name arguments ∈ e.nodes false) :
    (Environment.ofRow host f row).blank.MayCall excuse (fun _ => False) name
      arguments.length := by
  obtain ⟨k, Γ', htyped, _⟩ := Scope.check_eq_ok_iff.mp hcheck
  have hinside : false = true → ∀ elements filter,
      Discipline.lax.allows (.project elements filter) = false := nofun
  have h : f.scope.blank.MayCall excuse _ name arguments.length :=
    Expr.mayCall_of_typed hinside htyped hcall
  refine ⟨?_, h.registered⟩
  intro g hg
  cases hg

theorem Declared.tells {f : Frame} (hf : f.Declared) (depth : Nat) (host : Host) :
    f.HasParts (Run.Tells excuse) depth host where
  column column hcolumn row := by
    refine tells_readColumn fun source e t hcontent => ?_
    obtain ⟨i, hi⟩ := List.mem_iff_getElem?.mp hcolumn
    obtain ⟨name, content⟩ := column
    cases hcontent
    obtain ⟨_, hcheck, _⟩ := hf i name source e t hi
    cases depth with
    | zero => exact tells_outOfDepth
    | succ depth =>
        have hcalls : ∀ n arguments, .call n arguments ∈ Expr.nodesIn false [e] →
            (Environment.ofRow host f row).blank.MayCall excuse (fun _ => False) n
              arguments.length := by
          intro n arguments hcall
          rw [Expr.nodesIn, Expr.nodesIn, List.append_nil] at hcall
          exact mayCall_of_check hcheck host row n arguments hcall
        exact Expr.tells_statements (tells_ofRow excuse depth host f row) (Or.inr rfl) hcalls
  checked e t hcheck row := by
    refine Run.Tells.isolated ?_ ∅
    exact (tells_ofRow excuse depth host f row).evaluateWith (Or.inr rfl)
      (mayCall_of_check hcheck host row)

end Frame

/-! ### Scripts that fail -/

namespace Program

/-- A node of the statements or of the body of a function. -/
def HasNode (p : Program) (node : Expr) : Prop :=
  node ∈ Expr.nodesIn true p.statements ∨
    ∃ name f, p.functions.find? name = some f ∧ node ∈ Expr.nodesIn true f.body

/-- A registered function is called with a number of arguments that it does not take, and this is
the error that says so. -/
def Miscalls (p : Program) (registry : Registry) (e : Error) : Prop :=
  ∃ name arguments f, p.HasNode (.call name arguments) ∧
    p.functions.find? (normalizeName name) = none ∧ registry.get? name = some f ∧
    f.takes arguments.length = false ∧ e = .argumentCount f.name f.usageText

variable {env : Environment} {p : Program} {excuse : Error → Prop}

/-- A program tells of its failures if its calls are counted, and those in the functions that they
go to. -/
theorem tells_runProgram (hdata : ∀ name f, env.dataSets.find? name = some f → f.Declared)
    {mayEnter : FunctionDef → Prop}
    (hstatements : ∀ name arguments, .call name arguments ∈ Expr.nodesIn true p.statements →
      { env with functions := p.functions }.blank.MayCall excuse mayEnter name arguments.length)
    (hbodies : ∀ f, mayEnter f → ∀ name arguments,
      .call name arguments ∈ Expr.nodesIn true f.body →
        { env with functions := p.functions }.blank.MayCall excuse mayEnter name arguments.length)
    (depth : Nat) : Tells excuse (env.runProgram depth p) := by
  have hbody : ∀ depth f, mayEnter f → Tells excuse
      (Expr.runDeep depth { env with functions := p.functions }.forCall f.body) := by
    intro depth
    induction depth with
    | zero => exact fun _ _ => tells_outOfDepth
    | succ depth ih =>
        intro f hf
        have henv : ({ env with functions := p.functions } : Environment).forCall.Tells excuse
            (Expr.runDeep depth)
            ({ env with functions := p.functions }.blank.MayCall excuse mayEnter) :=
          Environment.tells_of_parts (Expr.tells_runDeep depth)
            (fun name g hg => ((hdata name g hg).tells depth _).column) ih
        exact Expr.tells_statements henv (Or.inl rfl) (hbodies f hf)
  refine Expr.tells_statements (Environment.tells_of_parts (Expr.tells_runDeep depth) ?_
    (hbody depth)) (Or.inl rfl) hstatements
  exact fun name g hg => ((hdata name g hg).tells depth _).column

theorem tells_runProgram_miscalls
    (hdata : ∀ name f, env.dataSets.find? name = some f → f.Declared) (p : Program)
    (depth : Nat) : Tells (p.Miscalls env.registry) (env.runProgram depth p) := by
  have hcounted : ∀ name arguments, p.HasNode (.call name arguments) →
      { env with functions := p.functions }.blank.MayCall (p.Miscalls env.registry)
        (fun f => ∃ name, p.functions.find? name = some f) name arguments.length := by
    intro name arguments hcall
    refine ⟨fun f hf => ⟨_, hf⟩, ?_⟩
    intro f hdefined hf hcount
    exact ⟨name, arguments, f, hcall, hdefined, hf, hcount, rfl⟩
  refine tells_runProgram hdata (fun name arguments hcall => hcounted _ _ (Or.inl hcall)) ?_ depth
  intro f ⟨key, hf⟩ name arguments hcall
  exact hcounted _ _ (Or.inr ⟨key, f, hf, hcall⟩)

/-- A checked program without projections has all its calls counted that are ever made. -/
theorem IsUnprojected.tells_runProgram (hp : p.IsUnprojected)
    (hdata : ∀ name f, env.dataSets.find? name = some f → f.Declared) {vars : Bindings Value}
    {t : ValueType} (hcheck : (env.scope vars).checkProgram p = .ok t) (depth : Nat) :
    Tells (fun _ => False) (env.runProgram depth p) := by
  have hsuits : Discipline.unprojected.Suits p.functions :=
    ⟨fun _ _ => trivial, fun _ _ _ _ => trivial, hp.bodies⟩
  obtain ⟨ks, Γ', htyped, _⟩ := Scope.typed_of_checkProgram hsuits hp.statements hcheck
    (View.types_ofTypes _)
  have hprojections : ∀ elements filter,
      Discipline.unprojected.allows (.project elements filter) = false := fun _ _ => rfl
  refine Program.tells_runProgram hdata
    (fun name arguments => Expr.mayCall_of_typedAll (fun _ => hprojections) htyped) ?_ depth
  intro f ⟨active, Γ, js, Γ₁, hbody⟩ name arguments
  exact Expr.mayCall_of_typedAll (fun _ => hprojections) hbody

end Program

/-! ### Failure -/

/-- **Failure is not silent, with one exception.**  A script that fails has reported the error,
unless it calls a registered function with a number of arguments that the function does not take,
and fails for that reason; a script that was checked has projections then.  With what is done to
frames there is no exception. -/
theorem reported_of_failure {env : Environment}
    (hdata : ∀ name f, env.dataSets.find? name = some f → f.Reachable) (depth : Nat)
    (source : String) :
    FailsAloud (fun e => ∃ p, Program.ofSource source = .ok p ∧ p.Miscalls env.registry e)
      (env.runUnchecked depth source) ∧
    FailsAloud (fun e => ∃ p, Program.ofSource source = .ok p ∧ ¬ p.IsUnprojected ∧
      p.Miscalls env.registry e) (env.runScript depth source) ∧
    ∀ f : Frame, f.Reachable → ∀ host, f.EveryRun (FailsAloud fun _ => False) depth host := by
  have hdeclared : ∀ name f, env.dataSets.find? name = some f → f.Declared :=
    fun name f hf => (hdata name f hf).declared
  refine ⟨?_, ?_, fun f hf host => ?_⟩
  · refine (tells_readSource_bind fun p hp => ?_).failsAloud
    refine (Program.tells_runProgram_miscalls hdeclared p depth).imp ?_
    exact fun e he => ⟨p, hp, he⟩
  · refine (tells_readSource_bind fun p hp => tells_checkProgram_bind ?_).failsAloud
    intro vars t hcheck
    by_cases hunprojected : p.IsUnprojected
    · exact (hunprojected.tells_runProgram hdeclared hcheck depth).imp fun _ he => he.elim
    · refine (Program.tells_runProgram_miscalls hdeclared p depth).imp ?_
      exact fun e he => ⟨p, hp, hunprojected, he⟩
  · have hparts : f.HasParts (Run.Tells fun _ => False) depth host := hf.declared.tells depth host
    exact (hparts.everyRun composes_tells).imp fun _ => Run.Tells.failsAloud

/-- A call with an argument too many. -/
def miscall : Program where
  statements := [.call "abs" [.literal (.long 1), .literal (.long 2)]]

def besideTable : Environment where
  registry := .defaults
  dataSets := Bindings.ofList [("t", { name := "t", registry := .defaults })]

/-- The exception is there: the script fails and nothing is reported. -/
theorem reported_of_failure_miscall : ∃ e s',
    FailsAloud (fun e => ∃ p, Program.ofSource "abs(1, 2)" = .ok p ∧
      p.Miscalls besideTable.registry e) (besideTable.runUnchecked 0 "abs(1, 2)") ∧
    besideTable.runUnchecked 0 "abs(1, 2)" {} = (.error (.failed e), s') ∧
    s'.reports = ({} : Store).reports := by
  have hdata : ∀ name f, besideTable.dataSets.find? name = some f → f.Reachable := by
    intro name f hf
    change (Bindings.insert ∅ _ _).find? name = some f at hf
    rw [Bindings.find?_insert] at hf
    split at hf
    · cases hf
      exact Frame.Reachable.new "t" .defaults
    · cases hf
  have hsource : Program.ofSource "abs(1, 2)" = .ok miscall := by cbv
  have hrun : besideTable.runUnchecked 0 "abs(1, 2)" {} =
      (.error (.failed (.argumentCount "abs" Builtin.abs.function.usageText)), {}) := by
    unfold Environment.runUnchecked readSource
    rw [hsource]
    rfl
  exact ⟨_, _, (reported_of_failure hdata 0 "abs(1, 2)").1, hrun, rfl⟩

/-- It is there for checked scripts too, since the check does not see what a projection calls. -/
theorem unreported_in_projection : ∃ (env : Environment) (p : Program) (e : Error) (s' : Store),
    (env.scope ∅).checkProgram p = .ok .dataFrame ∧
      env.runProgram 0 p {} = (.error (.failed e), s') ∧ s'.reports = ({} : Store).reports :=
  let column : Column := { name := "a", content := .stored ⟨.long, #[some 7]⟩ }
  let f : Frame :=
    { name := "d"
      columns := [column]
      index := .ofList [("a", 0)]
      rowCount := 1
      registry := .defaults }
  ⟨{ registry := .defaults, dataSets := Bindings.ofList [("d", f)] },
    { statements := [.project [.call "abs" [.path "d" ["a"], .literal (.long 1)]] none] },
    .argumentCount "abs" Builtin.abs.function.usageText, _, rfl, rfl, rfl⟩

end FrameLang
