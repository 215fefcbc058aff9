/-
One run simulates another.

Two runs may take place in different environments and start from different stores.  They are related
if they end with the same result or stop for the same reason, whenever the stores they start with
are related, and if the stores they leave are related again.  One simulates the other if this is so
for stores with related variables.  What was written on the way and how many frames were made is
left out of account then.

There is one rule for each way of building a run, and one for each part of the evaluator that looks
at more than the variables: calls look at the functions and the host, and widening looks at the
type of the branch that was not taken.
-/
import FrameLang.Eval
import FrameLang.Proofs.Meets

namespace FrameLang

namespace Run

variable {α β : Type}

/-! ### Related stores -/

section Relates

variable {R : Store → Store → Prop}

/-- From related stores, two runs end with the same result or stop for the same reason, and leave
related stores. -/
def Relates (R : Store → Store → Prop) (run run' : Run α) : Prop :=
  ∀ s s' : Store, R s s' →
    (run s : Except Stop α × Store).1 = (run' s').1 ∧ R (run s).2 (run' s').2

theorem relates_pure (a : α) : Relates R (pure a) (pure a) := fun _ _ hs => ⟨rfl, hs⟩

theorem relates_throw (stop : Stop) : Relates R (throw stop : Run α) (throw stop) :=
  fun _ _ hs => ⟨rfl, hs⟩

/-- Two runs end with one result, or stop for one reason. -/
theorem Relates.run_eq {run run' : Run α} (h : Relates R run run') {s s' : Store} (hs : R s s') :
    ∃ (result : Except Stop α) (s₁ s₁' : Store),
      run s = (result, s₁) ∧ run' s' = (result, s₁') ∧ R s₁ s₁' := by
  obtain ⟨hresult, hs₁⟩ := h s s' hs
  exact ⟨(run s).1, (run s).2, (run' s').2, rfl, by rw [hresult]; rfl, hs₁⟩

/-- What follows on the first parts of two runs has to be related for their results only. -/
theorem Relates.bind_of_result {x x' : Run α} {f f' : α → Run β} (hx : Relates R x x')
    (hf : ∀ a s s₁, x s = (.ok a, s₁) → Relates R (f a) (f' a)) :
    Relates R (x >>= f) (x' >>= f') := by
  intro s s' hs
  obtain ⟨result, s₁, s₁', hrun, hrun', hs₁⟩ := hx.run_eq hs
  rw [run_bind, run_bind, hrun, hrun']
  cases result with
  | error stop => exact ⟨rfl, hs₁⟩
  | ok a => exact hf a s s₁ hrun s₁ s₁' hs₁

theorem Relates.bind {x x' : Run α} {f f' : α → Run β} (hx : Relates R x x')
    (hf : ∀ a, Relates R (f a) (f' a)) : Relates R (x >>= f) (x' >>= f') :=
  hx.bind_of_result fun a _ _ _ => hf a

/-- Runs that look at the store are related if they are so for related stores. -/
theorem relates_get_bind {f f' : Store → Run α} (h : ∀ s s', R s s' → Relates R (f s) (f' s')) :
    Relates R (get >>= f) (get >>= f') :=
  fun s s' hs => h s s' hs s s' hs

end Relates

/-! ### Related variables -/

variable {r : Bindings Value → Bindings Value → Prop}

/-- From stores with related variables, two runs end with the same result or stop for the same
reason, and leave related variables. -/
def Simulates (r : Bindings Value → Bindings Value → Prop) (run run' : Run α) : Prop :=
  ∀ s s' : Store, r s.vars s'.vars →
    (run s : Except Stop α × Store).1 = (run' s').1 ∧ r (run s).2.vars (run' s').2.vars

theorem simulates_pure (a : α) : Simulates r (pure a) (pure a) := relates_pure a

theorem Simulates.bind {x x' : Run α} {f f' : α → Run β} (hx : Simulates r x x')
    (hf : ∀ a, Simulates r (f a) (f' a)) : Simulates r (x >>= f) (x' >>= f') :=
  Relates.bind hx hf

theorem simulates_get_bind {f f' : Store → Run α}
    (h : ∀ s s' : Store, r s.vars s'.vars → Simulates r (f s) (f' s')) :
    Simulates r (get >>= f) (get >>= f') :=
  relates_get_bind h

theorem simulates_get_left {f : Store → Run α} {run' : Run α}
    (h : ∀ s s' : Store, r s.vars s'.vars → Simulates r (f s) run') :
    Simulates r (get >>= f) run' :=
  fun s s' hvars => h s s' hvars s s' hvars

theorem simulates_emit (event event' : Event) : Simulates r (emit event) (emit event') :=
  fun _ _ hvars => ⟨rfl, hvars⟩

theorem simulates_fail (e : Error) : Simulates r (fail e : Run α) (fail e) :=
  fun _ _ hvars => ⟨rfl, hvars⟩

theorem simulates_report (e : Error) : Simulates r (report e : Run α) (report e) :=
  (simulates_emit _ _).bind fun _ => simulates_fail e

theorem simulates_orReport (x : Except Error α) : Simulates r (orReport x) (orReport x) := by
  cases x with
  | ok a => exact simulates_pure a
  | error e => exact simulates_report e

/-- To report how a run ended changes neither its end nor the variables. -/
theorem reporting_eq (run : Run α) (s : Store) :
    (reporting run s : Except Stop α × Store).1 = (run s).1 ∧
      (reporting run s).2.vars = (run s).2.vars := by
  unfold Run.reporting
  rw [run_tryCatch]
  rcases run s with ⟨stop | a, s'⟩
  · cases stop with
    | failed e => exact ⟨rfl, rfl⟩
    | outOfDepth => exact ⟨rfl, rfl⟩
  · exact ⟨rfl, rfl⟩

theorem Simulates.reporting_left {run run' : Run α} (h : Simulates r run run') :
    Simulates r (reporting run) run' := by
  intro s s' hvars
  rw [(reporting_eq run s).1, (reporting_eq run s).2]
  exact h s s' hvars

theorem Simulates.reporting {run run' : Run α} (h : Simulates r run run') :
    Simulates r (reporting run) (reporting run') := by
  refine Simulates.reporting_left fun s s' hvars => ?_
  rw [(reporting_eq run' s').1, (reporting_eq run' s').2]
  exact h s s' hvars

end Run

open Run

/-! ### Parts of the evaluator -/

section Evaluator

variable {r : Bindings Value → Bindings Value → Prop} {env env' : Environment}
  {deeper deeper' : RunStatements}

theorem Run.Simulates.choose {t t' u u' : Run Value} (ht : Simulates r t t')
    (hu : Simulates r u u') (condition : Value) :
    Simulates r (choose condition t u) (choose condition t' u') := by
  unfold FrameLang.choose
  split
  · exact ht
  · exact hu
  · exact simulates_report _

theorem simulates_perform (hhost : env.host = env'.host) (function : Function)
    (arguments : List Value) :
    Simulates r (function.perform env arguments) (function.perform env' arguments) := by
  unfold Function.perform
  rw [hhost]
  split
  · exact (simulates_emit _ _).bind fun _ => simulates_pure _
  · exact (simulates_emit _ _).bind fun _ => simulates_pure _
  · exact simulates_orReport _
  · exact (simulates_emit _ _).bind fun _ => simulates_orReport _

/-- Calls of registered functions depend on the registry and the host only. -/
theorem simulates_call (hhost : env.host = env'.host) (hregistry : env.registry = env'.registry)
    {name : String} (hdefined : env.functions.find? (normalizeName name) = none)
    (hdefined' : env'.functions.find? (normalizeName name) = none) (arguments : List Value) :
    Simulates r (call deeper env name arguments) (call deeper' env' name arguments) := by
  unfold call
  rw [hdefined, hdefined', hregistry]
  dsimp only
  split
  · unfold Function.invoke
    split
    · exact simulates_perform hhost _ _
    · split
      · exact simulates_perform hhost _ _
      · exact simulates_fail _
  · exact simulates_report _

/-- Widening depends on the type of the other branch only. -/
theorem simulates_widen {other other' : Expr} (htype : ∀ vars vars', r vars vars' →
      (env.scope vars).typeOf other = (env'.scope vars').typeOf other') (v : Value) :
    Simulates r (widen env v other) (widen env' v other') := by
  unfold widen
  split
  · refine simulates_get_bind fun s s' hvars => ?_
    rw [htype _ _ hvars]
    split
    · exact simulates_pure _
    · exact simulates_pure _
  · exact simulates_pure _

end Evaluator

end FrameLang
