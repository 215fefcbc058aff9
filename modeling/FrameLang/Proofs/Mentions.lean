/-
Programs depend on and change the variables that they mention.

A program mentions a variable where its statements read it or assign it.  What stands in the body of
a function does not count: a body runs with variables of its own, and the variables of the caller
are neither there to be read nor there to be changed.

That the others are not changed is the general statement about assignments in
`Proofs/Evaluation.lean`.  That they are not read is shown by two runs side by side, which start
from stores that agree on the mentioned variables only.  `Run.ReadsOnly N` says that a run cannot
tell such stores apart, which composes.  The one place where the evaluator looks at all variables at
once is the inference of types in the midst of a run, and a type depends on the variables of the
expression only.
-/
import FrameLang.Proofs.Dependence
import FrameLang.Proofs.Evaluation
import FrameLang.Proofs.Simulation
import FrameLang.Script

namespace FrameLang

/-! ### Stores that agree -/

/-- Two stores differ at most in their variables, and have the same values under some names. -/
structure Store.Agree (N : String → Prop) (s s' : Store) : Prop where
  vars : ∀ name, N name → s.vars.find? name = s'.vars.find? name
  trace : s.trace = s'.trace
  nextIdentity : s.nextIdentity = s'.nextIdentity

namespace Run

variable {α β : Type} {N : String → Prop}

/-- From stores that agree on some names, the run ends in the same way, having written the same, and
leaves stores that agree on them. -/
def ReadsOnly (N : String → Prop) (run : Run α) : Prop := Relates (Store.Agree N) run run

theorem readsOnly_pure (a : α) : ReadsOnly N (pure a : Run α) := relates_pure a

theorem readsOnly_throw (stop : Stop) : ReadsOnly N (throw stop : Run α) := relates_throw stop

theorem readsOnly_fail (e : Error) : ReadsOnly N (fail e : Run α) := readsOnly_throw _

theorem ReadsOnly.bind {x : Run α} {f : α → Run β} (hx : ReadsOnly N x)
    (hf : ∀ a, ReadsOnly N (f a)) : ReadsOnly N (x >>= f) :=
  Relates.bind hx hf

theorem readsOnly_emit (event : Event) : ReadsOnly N (emit event) := by
  intro s s' hs
  exact ⟨rfl, hs.vars, congrArg (Array.push · event) hs.trace, hs.nextIdentity⟩

theorem readsOnly_report (e : Error) : ReadsOnly N (report e : Run α) :=
  (readsOnly_emit _).bind fun _ => readsOnly_fail e

theorem readsOnly_setVariable (name : String) (v : Value) : ReadsOnly N (setVariable name v) := by
  intro s s' hs
  refine ⟨rfl, fun other hother => ?_, hs.trace, hs.nextIdentity⟩
  change (s.vars.insert name v).find? other = (s'.vars.insert name v).find? other
  rw [Bindings.find?_insert, Bindings.find?_insert, hs.vars other hother]

theorem readsOnly_newFrame (f : Frame) : ReadsOnly N (newFrame f) := by
  intro s s' hs
  refine ⟨?_, hs.vars, hs.trace, congrArg (· + 1) hs.nextIdentity⟩
  change Except.ok (Value.frame s.nextIdentity f) = Except.ok (Value.frame s'.nextIdentity f)
  rw [hs.nextIdentity]

theorem composes_readsOnly : Composes (ReadsOnly N) where
  pure := readsOnly_pure
  report := readsOnly_report
  print sink text := readsOnly_emit (.printed sink text)
  newFrame := readsOnly_newFrame
  bind := Relates.bind_of_result

/-- A run may ask what has the same answer for stores that agree. -/
theorem asks_readsOnly {question : Store → β}
    (h : ∀ s s' : Store, (∀ name, N name → s.vars.find? name = s'.vars.find? name) →
      question s = question s') : Asks (ReadsOnly N) question := by
  intro goOn hgoOn hquestion
  refine relates_get_bind fun s s' hs => ?_
  rw [hquestion s s' (h s s' hs.vars)]
  exact hgoOn s'

/-- A run with variables of its own may read all of them. -/
theorem ReadsOnly.isolated {run : Run α} (h : ReadsOnly (fun _ => True) run)
    (vars : Bindings Value) : ReadsOnly N (isolated vars run) := by
  intro s s' hs
  have hinner : Store.Agree (fun _ => True) { s with vars } { s' with vars } :=
    ⟨fun _ _ => rfl, hs.trace, hs.nextIdentity⟩
  obtain ⟨hresult, hs₁⟩ := h _ _ hinner
  exact ⟨hresult, hs.vars, hs₁.trace, hs₁.nextIdentity⟩

theorem ReadsOnly.reporting {run : Run α} (h : ReadsOnly N run) : ReadsOnly N (reporting run) := by
  intro s s' hs
  obtain ⟨result, s₁, s₁', hrun, hrun', hs₁⟩ := Relates.run_eq h hs
  unfold Run.reporting
  rw [run_tryCatch, run_tryCatch, hrun, hrun']
  cases result with
  | ok a => exact ⟨rfl, hs₁⟩
  | error stop =>
      cases stop with
      | failed e => exact readsOnly_report e s₁ s₁' hs₁
      | outOfDepth => exact ⟨rfl, hs₁⟩

end Run

open Run

/-! ### Types in the midst of a run -/

namespace Expr

mutual

/-- Names are needed where they are variables. -/
theorem needs_eq_false {name : String} {looks inside : Bool} (e : Expr)
    (he : var name ∉ e.nodes inside) : e.needs name looks = false := by
  cases e with
  | literal | path | project => rfl
  | var other =>
      simp only [nodes, List.mem_singleton, var.injEq] at he
      simp [needs, Ne.symm he]
  | unary op e | assign other e | named other e =>
      simp only [nodes, List.mem_cons, reduceCtorEq, false_or] at he
      exact needs_eq_false e he
  | binary op l r | index l r =>
      simp only [nodes, List.mem_cons, List.mem_append, reduceCtorEq, false_or, not_or] at he
      simp [needs, needs_eq_false l he.1, needs_eq_false r he.2]
  | call other es | vector es | sequence es =>
      simp only [nodes, List.mem_cons, reduceCtorEq, false_or] at he
      exact needsIn_eq_false es he
  | ifElse c t e =>
      cases e with
      | none =>
          simp only [nodes, List.mem_cons, List.mem_append, reduceCtorEq, false_or, not_or] at he
          simp [needs, needs_eq_false c he.1, needs_eq_false t he.2]
      | some e =>
          simp only [nodes, List.mem_cons, List.mem_append, reduceCtorEq, false_or, not_or] at he
          simp [needs, needs_eq_false c he.1, needs_eq_false t he.2.1, needs_eq_false e he.2.2]
termination_by structural e

theorem needsIn_eq_false {name : String} {looks inside : Bool} (es : List Expr)
    (hes : var name ∉ nodesIn inside es) : needsIn name looks es = false := by
  cases es with
  | nil => rfl
  | cons e es =>
      simp only [nodesIn, List.mem_append, not_or] at hes
      simp [needsIn, needs_eq_false e hes.1, needsIn_eq_false es hes.2]
termination_by structural es

end

end Expr

/-- Variables that agree make for types that agree. -/
theorem Environment.alike_scope {N : String → Prop} (env : Environment)
    {vars vars' : Bindings Value}
    (h : ∀ name, N name → vars.find? name = vars'.find? name) :
    (env.scope vars).Alike (fun name => ¬N name) (env.scope vars') := by
  refine ⟨rfl, fun name hname => ?_⟩
  change ((vars.find? name).map Value.type).or _ = ((vars'.find? name).map Value.type).or _
  rw [h name (not_not.mp hname)]

/-! ### Expressions -/

/-- Statements that run deeper have variables of their own, and may read all of them. -/
def RunStatements.ReadsAll (deeper : RunStatements) : Prop :=
  ∀ env es, ReadsOnly (fun _ => True) (deeper env es)

namespace Expr

section Evaluation

variable {N : String → Prop} {deeper : RunStatements}

theorem asks_typeOf (env : Environment) {e : Expr} (he : ∀ name, var name ∈ e.nodes true → N name) :
    Asks (ReadsOnly N) fun s => (env.scope s.vars).typeOf e := by
  refine asks_readsOnly fun s s' hs => ?_
  refine (env.alike_scope hs).typeOf_eq fun name hname => ?_
  exact needs_eq_false e fun hmem => hname (he name hmem)

theorem asks_inferAll (env : Environment) {es : List Expr}
    (hes : ∀ name, var name ∈ nodesIn true es → N name) :
    Asks (ReadsOnly N) fun s => (((env.scope s.vars).inferAll es).run {}).1 := by
  refine asks_readsOnly fun s s' hs => ?_
  refine (env.alike_scope hs).inferAll_eq fun name hname => ?_
  exact needsIn_eq_false es fun hmem => hname (hes name hmem)

theorem hasPart_readsOnly (hdeeper : deeper.ReadsAll) (env : Environment) {node : Expr}
    (hnode : ∀ name, var name ∈ node.nodes true → N name) :
    node.HasPart (ReadsOnly N) deeper env := by
  have hcolumn : ∀ (host : Host) (f : Frame) (column : Column) (row : Nat),
      ReadsOnly N (f.readColumn deeper host column row) := fun _ _ _ _ =>
    composes_readsOnly.readColumn fun _ _ _ _ => (hdeeper _ _).isolated ∅
  cases node with
  | var name =>
      have hlookUp : ReadsOnly N (lookUp deeper env name) := by
        refine composes_readsOnly.lookUp (asks_readsOnly fun s s' hs => ?_) (readsOnly_fail _)
          fun _ _ _ _ => hcolumn _ _ _ _
        exact hs name (hnode name (by simp [nodes]))
      exact hlookUp.reporting
  | path dataSet field =>
      exact composes_readsOnly.readPath (fun _ _ _ _ _ => hcolumn _ _ _ _) field
  | call name arguments =>
      intro vs _
      exact composes_readsOnly.call (fun _ _ => (hdeeper _ _).isolated _)
        fun _ _ _ _ => readsOnly_fail _
  | assign name e => exact readsOnly_setVariable name
  | ifElse c t e =>
      cases e with
      | none => trivial
      | some e =>
          -- the branch that is not taken is mentioned too, and its type is asked for
          have ht : ∀ name, var name ∈ t.nodes true → N name :=
            fun name hname => hnode name (by simp [nodes, hname])
          have he : ∀ name, var name ∈ e.nodes true → N name :=
            fun name hname => hnode name (by simp [nodes, hname])
          exact ⟨asks_typeOf env ht, asks_typeOf env he⟩
  | project elements filter =>
      refine asks_inferAll env fun name hname => hnode name ?_
      cases filter with
      | none => simp [nodes, hname]
      | some filter => simp [nodes, hname]
  | _ => trivial

/-- **Expressions read only the variables that occur in them.** -/
theorem readsOnly_evaluateAllWith (hdeeper : deeper.ReadsAll) {es : List Expr}
    (hes : ∀ name, var name ∈ nodesIn true es → N name) (env : Environment) :
    ReadsOnly N (evaluateAllWith deeper env es) := by
  refine evaluateAllWith_of_parts composes_readsOnly (Or.inl rfl) es (fun node hnode row => ?_)
    env.projectedRow
  exact hasPart_readsOnly hdeeper _ fun name hname => hes name (nodesIn_subset es hnode hname)

theorem readsOnly_runDeep_succ {depth : Nat} (hdeeper : RunStatements.ReadsAll (runDeep depth))
    (env : Environment) {es : List Expr} (hes : ∀ name, var name ∈ nodesIn true es → N name) :
    ReadsOnly N (runDeep (depth + 1) env es) := by
  rw [runDeep_succ]
  exact (readsOnly_evaluateAllWith hdeeper hes env).bind fun _ => readsOnly_pure _

theorem readsAll_runDeep (depth : Nat) : RunStatements.ReadsAll (runDeep depth) := by
  induction depth with
  | zero => exact fun _ _ => readsOnly_throw _
  | succ depth ih => exact fun env _ => readsOnly_runDeep_succ ih env fun _ _ => trivial

end Evaluation

end Expr

/-! ### Programs -/

namespace Program

/-- Some assignment to the name occurs, other than in the body of a function. -/
def Assigns (p : Program) (name : String) : Prop :=
  ∃ e, .assign name e ∈ Expr.nodesIn true p.statements

/-- The name is read or assigned, other than in the body of a function. -/
def Mentions (p : Program) (name : String) : Prop :=
  .var name ∈ Expr.nodesIn true p.statements ∨ p.Assigns name

variable {p : Program} {env : Environment} {depth : Nat} {s s' : Store}

/-- **A program depends on the variables that it mentions.**  With other variables that agree on
these, it has the same value or fails with the same error, writes the same, and leaves variables
that agree on them; so a name that stands in the bodies of functions only is never read from
outside. -/
theorem agree_of_mentioned {vars : Bindings Value}
    (hvars : ∀ name, p.Mentions name → s.vars.find? name = vars.find? name) :
    ∃ result t t', env.runProgram depth p s = (result, t) ∧
      env.runProgram depth p { s with vars } = (result, t') ∧ t.trace = t'.trace ∧
      t.nextIdentity = t'.nextIdentity ∧
      ∀ name, p.Mentions name → t.vars.find? name = t'.vars.find? name := by
  have hreads : ReadsOnly p.Mentions (env.runProgram depth p) :=
    Expr.readsOnly_runDeep_succ (Expr.readsAll_runDeep depth) _ fun _ hname => Or.inl hname
  have hs : s.Agree p.Mentions { s with vars } := ⟨hvars, rfl, rfl⟩
  obtain ⟨result, t, t', hrun, hrun', ht⟩ := Relates.run_eq hreads hs
  exact ⟨result, t, t', hrun, hrun', ht.trace, ht.nextIdentity, ht.vars⟩

/-- `b = next(a)`, where the function goes by way of a variable `x`. -/
def throughLocal : Program :=
  ({ statements := [.assign "b" (.call "next" [.var "a"])] } : Program).define
    { name := "next", parameters := ["n"], body :=
      [.assign "x" (.binary (.arithmetic .add) (.var "n") (.literal (.long 1))), .var "x"] }

/-- A caller that has a variable of that name itself. -/
def caller : Store where
  vars := Bindings.ofList [("a", .long 1), ("x", .string "mine")]

theorem mentions_throughLocal {name : String} (h : throughLocal.Mentions name) :
    name = "a" ∨ name = "b" := by
  simpa [Mentions, Assigns, throughLocal, define, Expr.nodesIn, Expr.nodes] using h

/-- The variable of the caller makes no difference. -/
theorem agree_of_mentioned_local : ∃ t t',
    ({ registry := ∅ } : Environment).runProgram 1 throughLocal caller = (.ok (.long 2), t) ∧
    ({ registry := ∅ } : Environment).runProgram 1 throughLocal
      { caller with vars := Bindings.ofList [("a", .long 1)] } = (.ok (.long 2), t') ∧
    t.trace = t'.trace ∧ t.nextIdentity = t'.nextIdentity ∧
    ∀ name, throughLocal.Mentions name → t.vars.find? name = t'.vars.find? name := by
  have hvars : ∀ name, throughLocal.Mentions name →
      caller.vars.find? name = (Bindings.ofList [("a", .long 1)]).find? name := by
    intro name hname
    rcases mentions_throughLocal hname with rfl | rfl
    · rfl
    · rfl
  obtain ⟨result, t, t', hrun, hrun', h⟩ := agree_of_mentioned hvars
  obtain rfl : result = .ok (.long 2) := by
    have hresult : (({ registry := ∅ } : Environment).runProgram 1 throughLocal caller).1 =
        .ok (.long 2) := rfl
    rw [hrun] at hresult
    exact hresult
  exact ⟨t, t', hrun, hrun', h⟩

theorem keeps_runProgram {I : Bindings Value → Prop} {test : Expr → Bool}
    (hassign : ∀ name e, test (.assign name e) = true → ∀ v vars, I vars → I (vars.insert name v))
    (hp : Expr.everyIn test p.statements = true) : Keeps I (env.runProgram depth p) := by
  unfold Environment.runProgram Environment.runStatements
  rw [Expr.evaluateStatementsWith_eq]
  exact (Expr.keeps_evaluateAllWith hassign _ p.statements hp _).bind fun _ => keeps_pure _

/-- **A program changes the variables that it assigns.**  However it ends, no other variable is
changed or made, and none is removed; so neither the parameters of functions nor what their bodies
assign is to be found outside. -/
theorem vars_of_runProgram {result : Except Stop Value}
    (hrun : env.runProgram depth p s = (result, s')) :
    (∀ name, ¬p.Assigns name → s'.vars.find? name = s.vars.find? name) ∧
      ∀ name, s.vars.Has name → s'.vars.Has name := by
  have hstore : (env.runProgram depth p s : Except Stop Value × Store).2 = s' := by rw [hrun]
  rw [← hstore]
  constructor
  · intro name hname
    have hp : Expr.everyIn (Expr.isNoAssignmentTo name) p.statements = true := by
      rw [Expr.everyIn_iff]
      intro node hnode
      cases node with
      | assign other e =>
          refine bne_iff_ne.mpr ?_
          intro hother
          rw [hother] at hnode
          exact hname ⟨e, hnode⟩
      | _ => rfl
    have hkeeps : Keeps (fun vars => vars.find? name = s.vars.find? name)
        (env.runProgram depth p) := by
      refine keeps_runProgram ?_ hp
      intro other e hother v vars hvars
      rw [Bindings.find?_insert_of_ne _ _ (Ne.symm (bne_iff_ne.mp hother))]
      exact hvars
    exact hkeeps.vars rfl
  · intro name hname
    have hp : Expr.everyIn (fun _ => true) p.statements = true :=
      Expr.everyIn_of_forall (fun _ => rfl) p.statements
    have hkeeps : Keeps (fun vars => vars.Has name) (env.runProgram depth p) := by
      refine keeps_runProgram ?_ hp
      intro other e _ v vars hvars
      exact Bindings.has_insert.mpr (Or.inr hvars)
    exact hkeeps.vars hname

/-- The function has assigned its own `x`, and the caller's is as it was. -/
theorem vars_of_runProgram_local : ∃ s',
    ({ registry := ∅ } : Environment).runProgram 1 throughLocal caller = (.ok (.long 2), s') ∧
      s'.vars.find? "x" = some (.string "mine") ∧ s'.vars.find? "n" = none ∧ s'.vars.Has "a" := by
  have hrun : ({ registry := ∅ } : Environment).runProgram 1 throughLocal caller =
      (.ok (.long 2), (({ registry := ∅ } : Environment).runProgram 1 throughLocal caller).2) := rfl
  obtain ⟨hkept, hhas⟩ := vars_of_runProgram hrun
  have hassigns : ∀ name, name ≠ "a" → name ≠ "b" → ¬throughLocal.Assigns name := by
    intro name ha hb hname
    exact (mentions_throughLocal (Or.inr hname)).elim ha hb
  refine ⟨_, hrun, ?_, ?_, hhas "a" rfl⟩
  · exact hkept "x" (hassigns "x" (by decide) (by decide))
  · exact hkept "n" (hassigns "n" (by decide) (by decide))

end Program

end FrameLang
