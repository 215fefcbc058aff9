/-
What runs report.

An error is reported by writing its line.  Most errors are reported where they arise, some by the
part of the evaluator that the failing part belongs to, and an error that passes through variables
that stand for computed columns is reported once more at each of them.  `Run.Tells excuse` is what
all of these come to: a run that ends with a result has reported nothing, and a run that fails has
reported the error that it fails with, unless the error is one that `excuse` allows.

This property composes, so an expression tells of its failures as far as its calls do
(`Environment.Tells.evaluateWith`).  With an excuse for every error nothing is asked of the calls,
and what is left is that whoever succeeds has been quiet.
-/
import FrameLang.Proofs.Composition

namespace FrameLang

/-! ### Reported errors -/

def Event.error? : Event → Option Error
  | printed .. => none
  | reported e => some e

namespace Store

/-- The errors reported so far, the first one first. -/
def errors (s : Store) : List Error := s.trace.toList.filterMap Event.error?

/-- What is reported is the lines of the errors. -/
theorem reports_eq (s : Store) : s.reports = String.join (s.errors.map Error.reportLine) := by
  unfold reports errors
  rw [List.map_filterMap]
  congr 2
  funext event
  cases event with
  | printed => rfl
  | reported => rfl

@[simp] theorem errors_push_printed (s : Store) (sink : Sink) (text : String) :
    ({ s with trace := s.trace.push (.printed sink text) } : Store).errors = s.errors := by
  simp [errors, Event.error?]

@[simp] theorem errors_push_reported (s : Store) (e : Error) :
    ({ s with trace := s.trace.push (.reported e) } : Store).errors = s.errors ++ [e] := by
  simp [errors, Event.error?]

end Store

namespace Run

variable {α β : Type} {excuse excuse' : Error → Prop} {s : Store}

/-- A run from `s` has stopped in `s'`, and if by failing, then with an error that was reported on
the way or is excused. -/
def IsTold (excuse : Error → Prop) (s : Store) (stop : Stop) (s' : Store) : Prop :=
  ∀ e, stop = .failed e → ∃ errors, s'.errors = s.errors ++ errors ∧ (excuse e ∨ e ∈ errors)

/-- The run reports nothing if it succeeds.  If it fails, it reports the error that it fails with,
except for an error that is excused. -/
def Tells (excuse : Error → Prop) (run : Run α) : Prop :=
  ∀ s, Meets run s (fun _ s' => s'.errors = s.errors) (IsTold excuse s)

theorem isTold_reported (excuse : Error → Prop) (s : Store) (e : Error) :
    IsTold excuse s (.failed e) { s with trace := s.trace.push (.reported e) } := by
  intro e' he'
  cases he'
  exact ⟨[e], s.errors_push_reported e, Or.inr (by simp)⟩

/-- What was quiet before makes no difference. -/
theorem IsTold.after {s₁ s' : Store} {stop : Stop} (h : IsTold excuse s₁ stop s')
    (hs₁ : s₁.errors = s.errors) : IsTold excuse s stop s' := by
  intro e he
  rw [← hs₁]
  exact h e he

theorem Tells.imp {run : Run α} (h : Tells excuse run) (hexcuse : ∀ e, excuse e → excuse' e) :
    Tells excuse' run := by
  intro s
  refine (h s).imp (fun _ _ => id) ?_
  intro stop s' hstop e he
  obtain ⟨errors, herrors, htold⟩ := hstop e he
  exact ⟨errors, herrors, htold.imp_left (hexcuse e)⟩

/-! ### Ways of building a run -/

theorem tells_pure (a : α) : Tells excuse (pure a : Run α) := fun _ => meets_pure rfl

theorem tells_get : Tells excuse (get : Run Store) := fun _ => meets_get rfl

theorem tells_setVariable (name : String) (v : Value) : Tells excuse (setVariable name v) :=
  fun _ => meets_setVariable rfl

theorem tells_outOfDepth : Tells excuse (throw .outOfDepth : Run α) := by
  intro s
  refine meets_throw ?_
  intro e he
  cases he

theorem tells_fail {e : Error} (h : excuse e) : Tells excuse (fail e : Run α) := by
  intro s
  refine meets_fail ?_
  intro e' he'
  cases he'
  exact ⟨[], by simp, Or.inl h⟩

theorem tells_report (e : Error) : Tells excuse (report e : Run α) :=
  fun s => meets_report (isTold_reported excuse s e)

theorem composes_tells : Composes (Tells excuse) where
  pure := tells_pure
  report := tells_report
  print sink text := fun s => meets_emit (s.errors_push_printed sink text)
  newFrame _ := fun _ => meets_newFrame rfl
  bind hx hf := by
    intro s
    refine meets_bind_of_result (hx s) fun a s₁ hrun hs₁ => ?_
    refine (hf a s s₁ hrun s₁).imp ?_ ?_
    · intro _ s₂ hs₂
      exact hs₂.trans hs₁
    · intro stop s₂ hstop
      exact hstop.after hs₁

theorem Tells.bind {x : Run α} {f : α → Run β} (hx : Tells excuse x)
    (hf : ∀ a, Tells excuse (f a)) : Tells excuse (x >>= f) :=
  composes_tells.bind hx fun a _ _ _ => hf a

theorem asks_tells {question : Store → β} : Asks (Tells excuse) question :=
  fun _ hgoOn _ => tells_get.bind hgoOn

/-- A run whose error is reported afterwards needs no excuse. -/
theorem Tells.reporting {run : Run α} (h : Tells excuse run) : Tells excuse' (reporting run) := by
  intro s
  refine meets_reporting_imp (h s) ?_ ?_
  · intro e s' hstop e' he'
    cases he'
    obtain ⟨errors, herrors, -⟩ := hstop e rfl
    refine ⟨errors ++ [e], ?_, Or.inr (by simp)⟩
    rw [Store.errors_push_reported, herrors, List.append_assoc]
  · intro s' _ e he
    cases he

theorem Tells.isolated {run : Run α} (h : Tells excuse run) (vars : Bindings Value) :
    Tells excuse (isolated vars run) :=
  fun s => meets_isolated (h { s with vars })

/-! ### What is read off -/

/-- Whenever the run succeeds, nothing was written to the error printer. -/
def IsQuiet (run : Run α) : Prop :=
  ∀ s a s', run s = (.ok a, s') → s'.reports = s.reports

/-- Whenever the run fails, what was written to the error printer are the lines of some errors, and
the error that it fails with is one of them, unless it is excused. -/
def FailsAloud (excuse : Error → Prop) (run : Run α) : Prop :=
  ∀ s e s', run s = (.error (.failed e), s') → excuse e ∨
    ∃ errors : List Error, e ∈ errors ∧
      s'.reports = s.reports ++ String.join (errors.map Error.reportLine)

theorem Tells.isQuiet {run : Run α} (h : Tells excuse run) : IsQuiet run := by
  intro s a s' hrun
  rw [Store.reports_eq, Store.reports_eq, (h s).result hrun]

theorem Tells.failsAloud {run : Run α} (h : Tells excuse run) : FailsAloud excuse run := by
  intro s e s' hrun
  obtain ⟨errors, herrors, htold⟩ := (h s).stop hrun e rfl
  refine htold.imp_right ?_
  intro he
  refine ⟨errors, he, ?_⟩
  rw [Store.reports_eq, Store.reports_eq, herrors, List.map_append, String.join_append]

end Run

open Run

/-! ### Expressions -/

variable {excuse : Error → Prop} {deeper : RunStatements}

/-- What an expression takes from its environment to tell of its failures.  A column may fail
without a report, since a variable reports it. -/
structure Environment.Tells (env : Environment) (excuse : Error → Prop) (deeper : RunStatements)
    (mayCall : String → Nat → Prop) : Prop where
  column : ∀ (f : Frame) (row : Nat), ∀ column ∈ f.columns,
    Run.Tells (fun _ => True) (f.readColumn deeper env.host column row)
  path : ∀ row dataSet field,
    Run.Tells excuse (readPath deeper { env with projectedRow := row } dataSet field)
  call : ∀ name arguments, mayCall name arguments.length →
    Run.Tells excuse (FrameLang.call deeper env name arguments)

namespace Environment.Tells

variable {env : Environment} {mayCall : String → Nat → Prop} {inside : Bool}

theorem hasPart (h : env.Tells excuse deeper mayCall) {node : Expr}
    (hnode : ∀ name arguments, node = .call name arguments → mayCall name arguments.length)
    (row : Option Nat) :
    node.HasPart (Run.Tells excuse) deeper { env with projectedRow := row } := by
  cases node with
  | var name =>
      have hlookUp : Run.Tells (fun _ => True)
          (lookUp deeper { env with projectedRow := row } name) :=
        composes_tells.lookUp asks_tells (tells_fail trivial) h.column
      exact hlookUp.reporting
  | path dataSet field => exact h.path row dataSet field
  | call name arguments =>
      intro vs hlength
      refine h.call name vs ?_
      rw [hlength]
      exact hnode name arguments rfl
  | assign name e => exact tells_setVariable name
  | ifElse c t e =>
      cases e with
      | none => trivial
      | some e => exact ⟨asks_tells, asks_tells⟩
  | project elements filter => exact asks_tells
  | _ => trivial

/-- **An expression tells of its failures as far as its calls do.** -/
theorem evaluateWith (h : env.Tells excuse deeper mayCall)
    (hinside : inside = true ∨ env.dataSets = ∅) {e : Expr}
    (he : ∀ name arguments, .call name arguments ∈ e.nodes inside →
      mayCall name arguments.length) :
    Run.Tells excuse (e.evaluateWith deeper env) := by
  refine Expr.evaluateWith_of_parts composes_tells hinside e (fun node hnode row => ?_)
    env.projectedRow
  refine h.hasPart (fun name arguments hcall => he name arguments ?_) row
  rwa [← hcall]

theorem evaluateAllWith (h : env.Tells excuse deeper mayCall)
    (hinside : inside = true ∨ env.dataSets = ∅) {es : List Expr}
    (hes : ∀ name arguments, .call name arguments ∈ Expr.nodesIn inside es →
      mayCall name arguments.length) :
    Run.Tells excuse (Expr.evaluateAllWith deeper env es) := by
  refine Expr.evaluateAllWith_of_parts composes_tells hinside es (fun node hnode row => ?_)
    env.projectedRow
  refine h.hasPart (fun name arguments hcall => hes name arguments ?_) row
  rwa [← hcall]

end Environment.Tells

end FrameLang
