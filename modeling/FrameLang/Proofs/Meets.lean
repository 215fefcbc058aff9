/-
What a run is sure to do.

A run takes a store and ends with a result or stops, and either way leaves a store behind.
`Meets run s Q E` says so much about it: a result and the store then satisfy `Q`, a reason to stop
and the store then satisfy `E`.  There is one rule below for each way of building a run, so that a
proof about a run follows the `do` block it is about and never opens the monad.

`E` counts as much as `Q` does.  A run whose `E` is never true does end with a result, and one
whose `E` leaves out an error is sure not to fail with it.
-/
import FrameLang.Run
import Mathlib.Data.List.Forall2

namespace FrameLang.Run

variable {α β : Type}

/-- From the store `s`, the run ends with a result and a store that satisfy `Q`, or stops for a
reason and with a store that satisfy `E`. -/
def Meets (run : Run α) (s : Store) (Q : α → Store → Prop) (E : Stop → Store → Prop) : Prop :=
  match (run s : Except Stop α × Store) with
  | (.ok a, s') => Q a s'
  | (.error stop, s') => E stop s'

variable {Q Q' : α → Store → Prop} {E E' : Stop → Store → Prop} {s : Store}

theorem meets_iff {run : Run α} :
    Meets run s Q E ↔ (∀ a s', run s = (.ok a, s') → Q a s') ∧
      (∀ stop s', run s = (.error stop, s') → E stop s') := by
  unfold Meets
  rcases hrun : run s with ⟨stop | a, s'⟩
  · constructor
    · intro h
      exact ⟨fun _ _ heq => (nomatch heq), fun _ _ heq => by cases heq; exact h⟩
    · intro h
      exact h.2 stop s' rfl
  · constructor
    · intro h
      exact ⟨fun _ _ heq => by cases heq; exact h, fun _ _ heq => (nomatch heq)⟩
    · intro h
      exact h.1 a s' rfl

theorem Meets.result {run : Run α} (h : Meets run s Q E) {a : α} {s' : Store}
    (hrun : run s = (.ok a, s')) : Q a s' :=
  (meets_iff.mp h).1 a s' hrun

theorem Meets.stop {run : Run α} (h : Meets run s Q E) {stop : Stop} {s' : Store}
    (hrun : run s = (.error stop, s')) : E stop s' :=
  (meets_iff.mp h).2 stop s' hrun

theorem Meets.imp {run : Run α} (h : Meets run s Q E) (hQ : ∀ a s', Q a s' → Q' a s')
    (hE : ∀ stop s', E stop s' → E' stop s') : Meets run s Q' E' :=
  meets_iff.mpr ⟨fun _ _ hrun => hQ _ _ (h.result hrun), fun _ _ hrun => hE _ _ (h.stop hrun)⟩

theorem Meets.imp_result {run : Run α} (h : Meets run s Q E) (hQ : ∀ a s', Q a s' → Q' a s') :
    Meets run s Q' E :=
  h.imp hQ fun _ _ => id

/-- A result is as two promises say if each of them is kept. -/
theorem Meets.and {run : Run α} (h : Meets run s Q E) (h' : Meets run s Q' E') :
    Meets run s (fun a s' => Q a s' ∧ Q' a s') E :=
  meets_iff.mpr ⟨fun _ _ hrun => ⟨h.result hrun, h'.result hrun⟩, fun _ _ hrun => h.stop hrun⟩

theorem meets_true (run : Run α) (s : Store) : Meets run s (fun _ _ => True) fun _ _ => True :=
  meets_iff.mpr ⟨fun _ _ _ => trivial, fun _ _ _ => trivial⟩

/-- A run that ends with whatever there is of a kind, where there is one of that kind at most. -/
theorem Meets.eq_ok_iff {run : Run α} {P : α → Prop}
    (h : Meets run s (fun a _ => P a) fun _ _ => ¬∃ a, P a) (hunique : ∀ a b, P a → P b → a = b)
    {a : α} : (run s : Except Stop α × Store).1 = .ok a ↔ P a := by
  rcases hrun : run s with ⟨stop | b, s'⟩
  · have hnone := h.stop hrun
    exact ⟨nofun, fun ha => absurd ⟨a, ha⟩ hnone⟩
  · have hb := h.result hrun
    exact ⟨fun hab => Except.ok.inj hab ▸ hb, fun ha => congrArg Except.ok (hunique b a hb ha)⟩

/-! ### Sequences -/

theorem meets_pure {a : α} (h : Q a s) : Meets (pure a : Run α) s Q E := h

/-- What the second of two computations starts from is left by the first, whatever the state is. -/
theorem run_bind {σ : Type} (x : ExceptT Stop (StateM σ) α) (f : α → ExceptT Stop (StateM σ) β)
    (s : σ) :
    (x >>= f : ExceptT Stop (StateM σ) β) s = match (x s : Except Stop α × σ) with
      | (.ok a, s') => f a s'
      | (.error stop, s') => (.error stop, s') := by
  change (ExceptT.bind x f : ExceptT Stop (StateM σ) β) s = _
  unfold ExceptT.bind ExceptT.mk
  change (StateT.bind x (ExceptT.bindCont f)) s = _
  unfold StateT.bind
  rcases hx : x s with ⟨_ | a, s'⟩
  · rfl
  · rfl

theorem run_bind_of_result {x : Run α} {f : α → Run β} {a : α} {s' : Store}
    (h : x s = (.ok a, s')) : (x >>= f) s = f a s' := by
  rw [run_bind, h]

theorem run_bind_of_stop {x : Run α} {f : α → Run β} {stop : Stop} {s' : Store}
    (h : x s = (.error stop, s')) : (x >>= f) s = (.error stop, s') := by
  rw [run_bind, h]

/-- Two runs in a row succeed if the first one does and then the second one. -/
theorem fst_run_bind_eq_ok_iff {x : Run α} {f : α → Run β} {b : β} :
    ((x >>= f) s : Except Stop β × Store).1 = .ok b ↔
      ∃ a s', x s = (.ok a, s') ∧ (f a s' : Except Stop β × Store).1 = .ok b := by
  rw [run_bind]
  rcases x s with ⟨stop | a, s'⟩
  · exact ⟨nofun, fun ⟨_, _, h, _⟩ => nomatch h⟩
  · constructor
    · exact fun h => ⟨a, s', rfl, h⟩
    · rintro ⟨_, _, ⟨⟩, h⟩
      exact h

/-- What a run that ends with a result has done before its last part. -/
theorem exists_of_run_bind {x : Run α} {f : α → Run β} {s₂ : Store} {b : β}
    (h : (x >>= f) s = (.ok b, s₂)) : ∃ a s₁, x s = (.ok a, s₁) ∧ f a s₁ = (.ok b, s₂) := by
  rw [run_bind] at h
  rcases hfirst : x s with ⟨stop | a, s₁⟩
  · rw [hfirst] at h
    cases h
  · rw [hfirst] at h
    exact ⟨a, s₁, rfl, h⟩

/-- The second of two runs has to be considered for the results of the first only. -/
theorem meets_bind_of_result {x : Run α} {f : α → Run β} {R : β → Store → Prop}
    (hx : Meets x s Q E)
    (hf : ∀ a s', x s = (.ok a, s') → Q a s' → Meets (f a) s' R E) : Meets (x >>= f) s R E := by
  unfold Meets at hx ⊢
  rw [run_bind]
  rcases hrun : x s with ⟨stop | a, s'⟩
  · rw [hrun] at hx
    exact hx
  · rw [hrun] at hx
    exact hf a s' hrun hx

theorem meets_bind {x : Run α} {f : α → Run β} {R : β → Store → Prop} (hx : Meets x s Q E)
    (hf : ∀ a s', Q a s' → Meets (f a) s' R E) : Meets (x >>= f) s R E :=
  meets_bind_of_result hx fun a s' _ => hf a s'

/-! ### The store -/

theorem meets_get {Q : Store → Store → Prop} (h : Q s s) : Meets (get : Run Store) s Q E := h

theorem meets_emit {event : Event} {Q : Unit → Store → Prop}
    (h : Q () { s with trace := s.trace.push event }) : Meets (emit event) s Q E := h

theorem meets_setVariable {name : String} {v : Value} {Q : Unit → Store → Prop}
    (h : Q () { s with vars := s.vars.insert name v }) : Meets (setVariable name v) s Q E := h

theorem meets_newFrame {f : Frame} {Q : Value → Store → Prop}
    (h : Q (.frame s.nextIdentity f) { s with nextIdentity := s.nextIdentity + 1 }) :
    Meets (newFrame f) s Q E := h

theorem meets_isolated {vars : Bindings Value} {run : Run α}
    (h : Meets run { s with vars } (fun a s' => Q a { s' with vars := s.vars })
      fun stop s' => E stop { s' with vars := s.vars }) : Meets (isolated vars run) s Q E := by
  unfold Meets isolated at *
  rcases hrun : run { s with vars } with ⟨_ | a, s'⟩
  · rw [hrun] at h
    exact h
  · rw [hrun] at h
    exact h

/-! ### Failures -/

theorem meets_throw {stop : Stop} (h : E stop s) : Meets (throw stop : Run α) s Q E := h

theorem meets_fail {e : Error} (h : E (.failed e) s) : Meets (fail e : Run α) s Q E := h

theorem meets_report {e : Error}
    (h : E (.failed e) { s with trace := s.trace.push (.reported e) }) :
    Meets (report e : Run α) s Q E := h

theorem meets_orReport {x : Except Error α} (hok : ∀ a, x = .ok a → Q a s)
    (herror : ∀ e, x = .error e → E (.failed e) { s with trace := s.trace.push (.reported e) }) :
    Meets (orReport x) s Q E := by
  cases x with
  | ok a => exact meets_pure (hok a rfl)
  | error e => exact meets_report (herror e rfl)

theorem eq_ok_of_run_orReport {x : Except Error α} {a : α} {s' : Store}
    (h : orReport x s = (.ok a, s')) : x = .ok a ∧ s' = s := by
  cases x with
  | ok b =>
      cases h
      exact ⟨rfl, rfl⟩
  | error e => cases h

theorem run_tryCatch (x : Run α) (handle : Stop → Run α) (s : Store) :
    (tryCatch x handle : Run α) s = match (x s : Except Stop α × Store) with
      | (.ok a, s') => (.ok a, s')
      | (.error stop, s') => handle stop s' := by
  unfold tryCatch instMonadExceptOfMonadExceptOf tryCatchThe
  simp only [MonadExceptOf.tryCatch, ExceptT.tryCatch, ExceptT.mk, bind, StateT.bind]
  rcases hx : x s with ⟨_ | a, s'⟩
  · rfl
  · rfl

/-- What has been reported once more may satisfy another condition. -/
theorem meets_reporting_imp {run : Run α} (h : Meets run s Q E)
    (hE : ∀ e s', E (.failed e) s' →
      E' (.failed e) { s' with trace := s'.trace.push (.reported e) })
    (hdepth : ∀ s', E .outOfDepth s' → E' .outOfDepth s') :
    Meets (reporting run) s Q E' := by
  unfold Meets at h ⊢
  unfold reporting
  rw [run_tryCatch]
  rcases hrun : run s with ⟨stop | a, s'⟩
  · rw [hrun] at h
    cases stop with
    | failed e => exact hE e s' h
    | outOfDepth => exact hdepth s' h
  · rw [hrun] at h
    exact h

theorem meets_reporting {run : Run α} (h : Meets run s Q E)
    (hE : ∀ e s', E (.failed e) s' →
      E (.failed e) { s' with trace := s'.trace.push (.reported e) }) :
    Meets (reporting run) s Q E :=
  meets_reporting_imp h hE fun _ => id

/-! ### Loops

`I` is what every turn of the loop keeps true of the store.
-/

section Loops

variable {I : Store → Prop}

theorem meets_mapM {l : List α} {f : α → Run β} {R : α → β → Prop}
    (hf : ∀ a ∈ l, ∀ s, I s → Meets (f a) s (fun b s' => R a b ∧ I s') E) (hs : I s) :
    Meets (l.mapM f) s (fun bs s' => List.Forall₂ R l bs ∧ I s') E := by
  induction l generalizing s with
  | nil => exact meets_pure ⟨List.Forall₂.nil, hs⟩
  | cons a l ih =>
      rw [List.mapM_cons]
      refine meets_bind (hf a (by simp) s hs) ?_
      intro b s₁ ⟨hb, hs₁⟩
      refine meets_bind (ih (fun a ha => hf a (by simp [ha])) hs₁) ?_
      intro bs s₂ ⟨hbs, hs₂⟩
      exact meets_pure ⟨List.Forall₂.cons hb hbs, hs₂⟩

/-- Each turn of the loop may give a result or none, and the loop has those there are. -/
theorem meets_filterMapM_forall₂ {l : List α} {f : α → Run (Option β)} {R : α → Option β → Prop}
    (hf : ∀ a ∈ l, ∀ s, I s → Meets (f a) s (fun b s' => R a b ∧ I s') E) (hs : I s) :
    Meets (l.filterMapM f) s
      (fun bs s' => (∃ results, List.Forall₂ R l results ∧ bs = results.filterMap id) ∧ I s')
      E := by
  induction l generalizing s with
  | nil => exact meets_pure ⟨⟨[], List.Forall₂.nil, rfl⟩, hs⟩
  | cons a l ih =>
      rw [List.filterMapM_cons]
      refine meets_bind (hf a (by simp) s hs) ?_
      intro b s₁ ⟨hb, hs₁⟩
      have hrest := ih (fun a ha => hf a (by simp [ha])) hs₁
      cases b with
      | none =>
          refine hrest.imp_result ?_
          rintro bs s₂ ⟨⟨results, hresults, rfl⟩, hs₂⟩
          exact ⟨⟨none :: results, List.Forall₂.cons hb hresults, rfl⟩, hs₂⟩
      | some b =>
          refine meets_bind hrest ?_
          rintro bs s₂ ⟨⟨results, hresults, rfl⟩, hs₂⟩
          exact meets_pure ⟨⟨some b :: results, List.Forall₂.cons hb hresults, rfl⟩, hs₂⟩

end Loops

end FrameLang.Run
