/-
What evaluation leaves alone.

Evaluating an expression changes the variables of the store at the assignments of the expression
and nowhere else: a call runs with variables of its own, and so does a computed cell.  `Keeps I`
says of a run that it keeps a property `I` of the variables whether it succeeds or stops, and the
main statement is that an expression keeps every `I` that its assignments keep.

Beside it stands what a projection does to the variables and what it ends with, one new frame.
-/
import FrameLang.Proofs.Composition

namespace FrameLang

/-! ### Keeping a property of the variables -/

namespace Run

variable {α β : Type} {I : Bindings Value → Prop}

/-- Whether the run succeeds or stops, a property of the variables stays true. -/
def Keeps (I : Bindings Value → Prop) (run : Run α) : Prop :=
  ∀ s, I s.vars → Meets run s (fun _ s' => I s'.vars) fun _ s' => I s'.vars

theorem keeps_pure (a : α) : Keeps I (pure a : Run α) := fun _ hs => hs

theorem Keeps.bind {x : Run α} {f : α → Run β} (hx : Keeps I x) (hf : ∀ a, Keeps I (f a)) :
    Keeps I (x >>= f) :=
  fun s hs => meets_bind (hx s hs) fun a s' hs' => hf a s' hs'

theorem keeps_get : Keeps I (get : Run Store) := fun _ hs => hs

theorem keeps_emit (event : Event) : Keeps I (emit event) := fun _ hs => hs

theorem keeps_fail (e : Error) : Keeps I (fail e : Run α) := fun _ hs => hs

theorem keeps_report (e : Error) : Keeps I (report e : Run α) := fun _ hs => hs

theorem keeps_setVariable {name : String} {v : Value}
    (h : ∀ vars, I vars → I (vars.insert name v)) : Keeps I (setVariable name v) :=
  fun _ hs => h _ hs

/-- A run with variables of its own keeps everything, whatever it does. -/
theorem keeps_isolated (vars : Bindings Value) (run : Run α) : Keeps I (isolated vars run) :=
  fun _ hs => meets_isolated ((meets_true run _).imp (fun _ _ _ => hs) fun _ _ _ => hs)

theorem Keeps.reporting {run : Run α} (h : Keeps I run) : Keeps I (reporting run) :=
  fun s hs => meets_reporting (h s hs) fun _ _ => id

theorem composes_keeps : Composes (Keeps I) where
  pure := keeps_pure
  report := keeps_report
  print sink text := keeps_emit (.printed sink text)
  newFrame _ := fun _ hs => hs
  bind hx hf s hs := meets_bind_of_result (hx s hs) fun a s₁ hrun hs₁ => hf a s s₁ hrun s₁ hs₁

/-- What a run keeps true of the variables is true in the end. -/
theorem Keeps.vars {run : Run α} (h : Keeps I run) {s : Store} (hs : I s.vars) :
    I ((run s : Except Stop α × Store).2).vars := by
  have hmeets := h s hs
  unfold Meets at hmeets
  rcases hrun : run s with ⟨stop | a, s'⟩
  · rw [hrun] at hmeets
    exact hmeets
  · rw [hrun] at hmeets
    exact hmeets

/-- A property of the variables may be kept whatever is asked of the store. -/
theorem asks_keeps {question : Store → β} : Asks (Keeps I) question :=
  fun _ hgoOn _ => keeps_get.bind hgoOn

end Run

open Run

/-! ### The parts of the evaluator -/

/-- Expressions over a row cannot call user functions. -/
@[simp] theorem Environment.find?_functions_ofRow (host : Host) (f : Frame) (row : Nat)
    (name : String) : (ofRow host f row).functions.find? name = none := rfl

theorem keeps_readColumn {I : Bindings Value → Prop} (deeper : RunStatements) (host : Host)
    (f : Frame) (c : Column) (row : Nat) : Keeps I (f.readColumn deeper host c row) :=
  composes_keeps.readColumn fun _ _ _ _ => keeps_isolated _ _

namespace Expr

/-- A projection makes a new frame; `I` is what its filter and its elements keep. -/
theorem meets_project {I : Bindings Value → Prop} {E : Stop → Store → Prop}
    {deeper : RunStatements} {env : Environment} {elements : List Expr} {filter : Option Expr}
    (helements : ∀ env, Keeps I (evaluateAllWith deeper env elements))
    (hfilter : ∀ e ∈ filter, ∀ env, Keeps I (e.evaluateWith deeper env))
    (hE : ∀ stop s', I s'.vars → E stop s') {s : Store} (hs : I s.vars) :
    Meets ((project elements filter).evaluateWith deeper env) s
      (fun v s' => (∃ identity registry name types rows g, v = .frame identity g ∧
        projectedFrame registry name elements types rows = .ok g) ∧ I s'.vars) E := by
  have hkept : ∀ {α : Type} {run : Run α} {s : Store}, Keeps I run → I s.vars →
      Meets run s (fun _ s' => I s'.vars) E :=
    fun hrun hs => (hrun _ hs).imp (fun _ _ => id) hE
  rw [evaluateWith]
  split
  · split
    · refine meets_bind (hkept keeps_get hs) ?_
      intro s₁ s₁' hs₁
      refine meets_bind (hkept (composes_keeps.filterMapM ?_) hs₁) ?_
      · intro row
        cases filter with
        | none => exact (helements _).bind fun _ => keeps_pure _
        | some filter =>
            refine (hfilter filter rfl _).bind fun v => ?_
            split
            · exact (helements _).bind fun _ => keeps_pure _
            · exact keeps_pure _
      · intro rows s₂ hs₂
        refine meets_bind (meets_orReport (Q := fun g s' =>
          projectedFrame _ _ elements _ rows = .ok g ∧ I s'.vars) (fun g hg => ⟨hg, hs₂⟩)
          fun e _ => hE _ _ hs₂) ?_
        rintro g s₃ ⟨hg, hs₃⟩
        exact meets_newFrame ⟨⟨_, _, _, _, _, _, rfl, hg⟩, hs₃⟩
    · exact meets_report (hE _ _ hs)
  · exact meets_report (hE _ _ hs)

/-- What a projection ends with is a frame made of its rows. -/
theorem projectedFrame_of_evaluateWith {deeper : RunStatements} {env : Environment}
    {elements : List Expr} {filter : Option Expr} {v : Value} {s s' : Store}
    (h : (project elements filter).evaluateWith deeper env s = (.ok v, s')) :
    ∃ identity registry name types rows g, v = .frame identity g ∧
      projectedFrame registry name elements types rows = .ok g := by
  have hmeets : Meets ((project elements filter).evaluateWith deeper env) s _ fun _ _ => True :=
    meets_project (I := fun _ => True) (fun _ _ _ => meets_true _ _)
      (fun _ _ _ _ _ => meets_true _ _) (fun _ _ _ => trivial) trivial
  exact (hmeets.result h).1

section Keeps

variable {I : Bindings Value → Prop} {p : Expr → Bool}

theorem hasPart_keeps
    (hassign : ∀ name e, p (assign name e) = true → ∀ v vars, I vars → I (vars.insert name v))
    (deeper : RunStatements) (env : Environment) {node : Expr} (hnode : p node = true) :
    node.HasPart (Keeps I) deeper env := by
  cases node with
  | var name =>
      have hlookUp : Keeps I (lookUp deeper env name) :=
        composes_keeps.lookUp asks_keeps (keeps_fail _) fun _ _ _ _ => keeps_readColumn _ _ _ _ _
      exact hlookUp.reporting
  | path dataSet field =>
      exact composes_keeps.readPath (fun _ _ _ _ _ => keeps_readColumn _ _ _ _ _) field
  | call name arguments =>
      intro vs _
      exact composes_keeps.call (fun _ _ => keeps_isolated _ _) fun _ _ _ _ => keeps_fail _
  | assign name e => exact fun v => keeps_setVariable (hassign name e hnode v)
  | ifElse c t e =>
      cases e with
      | none => trivial
      | some e => exact ⟨asks_keeps, asks_keeps⟩
  | project elements filter => exact asks_keeps
  | _ => trivial

/-- **Evaluation changes variables at assignments only.**  What every assignment of an expression
keeps true of the variables, evaluating the expression keeps true, however it ends. -/
theorem keeps_evaluateWith
    (hassign : ∀ name e, p (assign name e) = true → ∀ v vars, I vars → I (vars.insert name v))
    (deeper : RunStatements) (e : Expr) (he : e.every p = true) (env : Environment) :
    Keeps I (e.evaluateWith deeper env) :=
  evaluateWith_of_parts composes_keeps (Or.inl rfl) e
    (fun node hnode _ => hasPart_keeps hassign deeper _ ((every_iff e).mp he node hnode))
    env.projectedRow

theorem keeps_evaluateAllWith
    (hassign : ∀ name e, p (assign name e) = true → ∀ v vars, I vars → I (vars.insert name v))
    (deeper : RunStatements) (es : List Expr) (hes : everyIn p es = true) (env : Environment) :
    Keeps I (evaluateAllWith deeper env es) :=
  evaluateAllWith_of_parts composes_keeps (Or.inl rfl) es
    (fun node hnode _ => hasPart_keeps hassign deeper _ ((everyIn_iff es).mp hes node hnode))
    env.projectedRow

end Keeps

end Expr

end FrameLang
