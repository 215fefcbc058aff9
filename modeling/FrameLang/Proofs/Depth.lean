/-
The bound on depth is a bound and nothing else.

Function bodies and computed cells may be open inside each other up to some depth, and a run that
needs more stops.  It may stop for other reasons or end with a result, and then it never came to the
bound.  So with a greater bound it does the same.

`Run.Deepens run run'` says that the second run does what the first one does, unless the first runs
out of depth.  Every way of building a run keeps this, since nothing in the evaluator catches that
stop.  So the evaluator keeps it, given two ways to go deeper that are so related
(`Expr.deepens_evaluateWith`), and by induction on the bound so do two bounds, one of which is at
most the other (`Expr.deepens_runDeep`).  Programs follow, and the sorting of frames.
-/
import FrameLang.Frame.Sorting
import FrameLang.Proofs.Composition
import FrameLang.Script

namespace FrameLang

/-! ### Runs that go deeper -/

namespace Run

variable {α β : Type}

/-- The second run does what the first one does, unless the first runs out of depth. -/
def Deepens (run run' : Run α) : Prop :=
  ∀ s, (∃ s', run s = (.error .outOfDepth, s')) ∨ run' s = run s

theorem deepens_self (run : Run α) : Deepens run run := fun _ => Or.inr rfl

theorem deepens_outOfDepth (run : Run α) : Deepens (throw .outOfDepth) run :=
  fun s => Or.inl ⟨s, rfl⟩

theorem Deepens.run_eq {run run' : Run α} (h : Deepens run run') {s : Store}
    (hrun : ∀ s', run s ≠ (.error .outOfDepth, s')) : run' s = run s :=
  (h s).resolve_left fun ⟨s', hs'⟩ => hrun s' hs'

theorem Deepens.bind {x x' : Run α} {f f' : α → Run β} (hx : Deepens x x')
    (hf : ∀ a, Deepens (f a) (f' a)) : Deepens (x >>= f) (x' >>= f') := by
  intro s
  rw [run_bind, run_bind]
  rcases hx s with ⟨s', hrun⟩ | heq
  · exact Or.inl ⟨s', by rw [hrun]⟩
  · rw [heq]
    rcases x s with ⟨stop | a, s'⟩
    · exact Or.inr rfl
    · exact hf a s'

theorem Deepens.reporting {run run' : Run α} (h : Deepens run run') :
    Deepens (reporting run) (reporting run') := by
  intro s
  unfold Run.reporting
  rw [run_tryCatch, run_tryCatch]
  rcases h s with ⟨s', hrun⟩ | heq
  · exact Or.inl ⟨s', by rw [hrun]; rfl⟩
  · exact Or.inr (by rw [heq])

theorem Deepens.isolated {run run' : Run α} (h : Deepens run run') (vars : Bindings Value) :
    Deepens (isolated vars run) (isolated vars run') := by
  intro s
  unfold Run.isolated
  rcases h { s with vars } with ⟨s', hrun⟩ | heq
  · exact Or.inl ⟨{ s' with vars := s.vars }, by rw [hrun]⟩
  · exact Or.inr (by rw [heq])

theorem deepens_mapM {l : List α} {f f' : α → Run β} (hf : ∀ a, Deepens (f a) (f' a)) :
    Deepens (l.mapM f) (l.mapM f') := by
  induction l with
  | nil => exact deepens_self _
  | cons a l ih =>
      rw [List.mapM_cons, List.mapM_cons]
      exact (hf a).bind fun _ => ih.bind fun _ => deepens_self _

theorem deepens_filterMapM {l : List α} {f f' : α → Run (Option β)}
    (hf : ∀ a, Deepens (f a) (f' a)) : Deepens (l.filterMapM f) (l.filterMapM f') := by
  induction l with
  | nil => exact deepens_self _
  | cons a l ih =>
      rw [List.filterMapM_cons, List.filterMapM_cons]
      refine (hf a).bind fun b => ?_
      cases b with
      | none => exact ih
      | some b => exact ih.bind fun _ => deepens_self _

theorem Deepens.choose {t t' u u' : Run Value} (ht : Deepens t t') (hu : Deepens u u')
    (condition : Value) : Deepens (choose condition t u) (choose condition t' u') := by
  unfold FrameLang.choose
  split
  · exact ht
  · exact hu
  · exact deepens_self _

end Run

open Run

/-! ### The evaluator -/

section Evaluator

variable {deeper deeper' : RunStatements}

theorem deepens_readColumn (h : ∀ env es, Deepens (deeper env es) (deeper' env es)) (host : Host)
    (f : Frame) (c : Column) (row : Nat) :
    Deepens (f.readColumn deeper host c row) (f.readColumn deeper' host c row) := by
  unfold Frame.readColumn
  split
  · exact deepens_self _
  · exact (h _ _).isolated ∅

theorem deepens_readNamed (h : ∀ env es, Deepens (deeper env es) (deeper' env es)) (host : Host)
    (f : Frame) (name : String) (row : Nat) :
    Deepens (f.readNamed deeper host name row) (f.readNamed deeper' host name row) := by
  unfold Frame.readNamed
  split
  · exact deepens_self _
  · split
    · exact deepens_self _
    · exact deepens_readColumn h host f _ _

theorem deepens_lookUp (h : ∀ env es, Deepens (deeper env es) (deeper' env es))
    (env : Environment) (name : String) :
    Deepens (lookUp deeper env name) (lookUp deeper' env name) := by
  refine (deepens_self _).bind fun s => ?_
  split
  · exact deepens_self _
  · split
    · exact deepens_self _
    · split
      · exact deepens_self _
      · exact deepens_readColumn h _ _ _ _

theorem deepens_readPath (h : ∀ env es, Deepens (deeper env es) (deeper' env es))
    (env : Environment) (dataSet : String) (field : List String) :
    Deepens (readPath deeper env dataSet field) (readPath deeper' env dataSet field) := by
  unfold readPath
  split
  · exact deepens_self _
  · split
    · exact deepens_self _
    · exact deepens_readNamed h _ _ _ _

theorem deepens_call (h : ∀ env es, Deepens (deeper env es) (deeper' env es))
    (env : Environment) (name : String) (arguments : List Value) :
    Deepens (call deeper env name arguments) (call deeper' env name arguments) := by
  unfold call
  split
  · unfold FunctionDef.invoke
    split
    · exact (h _ _).isolated _
    · exact deepens_self _
  · exact deepens_self _

namespace Expr

mutual

/-- **Evaluation goes as deep as it is let to.** -/
theorem deepens_evaluateWith (h : ∀ env es, Deepens (deeper env es) (deeper' env es))
    (env : Environment) (e : Expr) :
    Deepens (e.evaluateWith deeper env) (e.evaluateWith deeper' env) := by
  cases e with
  | literal v => exact deepens_self _
  | var name =>
      rw [evaluateWith, evaluateWith]
      exact (deepens_lookUp h env name).reporting
  | unary op e =>
      rw [evaluateWith, evaluateWith]
      exact (deepens_evaluateWith h env e).bind fun _ => deepens_self _
  | binary op l r =>
      have hl := deepens_evaluateWith h env l
      have hr := deepens_evaluateWith h env r
      cases op with
      | connective op =>
          rw [evaluateWith, evaluateWith]
          refine hl.bind fun left => (deepens_self _).bind fun settled => ?_
          split
          · exact deepens_self _
          · exact hr.bind fun _ => deepens_self _
      | _ =>
          rw [evaluateWith, evaluateWith]
          exact hl.bind fun _ => hr.bind fun _ => deepens_self _
  | call name arguments =>
      rw [evaluateWith, evaluateWith]
      exact (deepens_evaluateAllWith h env arguments).bind fun _ => deepens_call h env name _
  | ifElse c t e =>
      have hc := deepens_evaluateWith h env c
      have ht := deepens_evaluateWith h env t
      cases e with
      | none =>
          rw [evaluateWith, evaluateWith]
          exact hc.bind (ht.choose (deepens_self _))
      | some e =>
          have he := deepens_evaluateWith h env e
          rw [evaluateWith, evaluateWith]
          exact hc.bind ((ht.bind fun _ => deepens_self _).choose
            (he.bind fun _ => deepens_self _))
  | assign name e =>
      rw [evaluateWith, evaluateWith]
      exact (deepens_evaluateWith h env e).bind fun _ => deepens_self _
  | named name e =>
      rw [evaluateWith, evaluateWith]
      exact deepens_evaluateWith h env e
  | vector elements =>
      rw [evaluateWith, evaluateWith]
      exact (deepens_evaluateAllWith h env elements).bind fun _ => deepens_self _
  | index v i =>
      rw [evaluateWith, evaluateWith]
      exact (deepens_evaluateWith h env v).bind fun _ =>
        (deepens_evaluateWith h env i).bind fun _ => deepens_self _
  | path dataSet field =>
      rw [evaluateWith, evaluateWith]
      exact deepens_readPath h env dataSet field
  | project elements filter =>
      rw [evaluateWith, evaluateWith]
      split
      · split
        · refine (deepens_self _).bind fun s => ?_
          refine Deepens.bind (deepens_filterMapM fun row => ?_) fun _ => deepens_self _
          have hrow := (deepens_evaluateAllWith h { env with projectedRow := some row }
            elements).bind fun vs => deepens_self (pure (some vs))
          cases filter with
          | none => exact hrow
          | some filter =>
              refine (deepens_evaluateWith h _ filter).bind fun v => ?_
              split
              · exact hrow
              · exact deepens_self _
        · exact deepens_self _
      · exact deepens_self _
  | sequence statements =>
      rw [evaluateWith, evaluateWith, evaluateStatementsWith_eq, evaluateStatementsWith_eq]
      exact (deepens_evaluateAllWith h env statements).bind fun _ => deepens_self _
termination_by structural e

theorem deepens_evaluateAllWith (h : ∀ env es, Deepens (deeper env es) (deeper' env es))
    (env : Environment) (es : List Expr) :
    Deepens (evaluateAllWith deeper env es) (evaluateAllWith deeper' env es) := by
  cases es with
  | nil => exact deepens_self _
  | cons e es =>
      rw [evaluateAllWith, evaluateAllWith]
      exact (deepens_evaluateWith h env e).bind fun _ =>
        (deepens_evaluateAllWith h env es).bind fun _ => deepens_self _
termination_by structural es

end

/-- **A run that is within one bound on depth is the same within a greater one.** -/
theorem deepens_runDeep {depth depth' : Nat} (hdepth : depth ≤ depth') (env : Environment)
    (es : List Expr) : Deepens (runDeep depth env es) (runDeep depth' env es) := by
  induction depth generalizing depth' env es with
  | zero => exact deepens_outOfDepth _
  | succ depth ih =>
      obtain ⟨depth', rfl⟩ : ∃ d, depth' = d + 1 := ⟨depth' - 1, by omega⟩
      rw [runDeep_succ, runDeep_succ]
      exact (deepens_evaluateAllWith (ih (Nat.le_of_succ_le_succ hdepth)) env es).bind
        fun _ => deepens_self _

end Expr

end Evaluator

/-! ### Programs and frames -/

variable {depth depth' : Nat}

theorem Environment.deepens_runProgram (hdepth : depth ≤ depth') (env : Environment)
    (p : Program) : Deepens (env.runProgram depth p) (env.runProgram depth' p) := by
  unfold Environment.runProgram Environment.runStatements
  rw [Expr.evaluateStatementsWith_eq, Expr.evaluateStatementsWith_eq]
  exact (Expr.deepens_evaluateAllWith (Expr.deepens_runDeep hdepth) _ _).bind
    fun _ => deepens_self _

namespace Frame

theorem deepens_evaluateOnRow (hdepth : depth ≤ depth') (host : Host) (f : Frame) (e : Expr)
    (row : Nat) :
    Deepens (f.evaluateOnRow depth host e row) (f.evaluateOnRow depth' host e row) :=
  (Expr.deepens_evaluateWith (Expr.deepens_runDeep hdepth) _ e).isolated ∅

theorem deepens_sortWith {sort : RowSort} {f : Frame} {key key' : Nat → Run (List Value)}
    (h : ∀ row, Deepens (key row) (key' row)) :
    Deepens (f.sortWith sort key) (f.sortWith sort key') := by
  unfold sortWith
  refine Deepens.bind (deepens_mapM fun row => ?_) fun _ => deepens_self _
  exact (h row).bind fun _ => deepens_self _

theorem deepens_sortBy (hdepth : depth ≤ depth') (host : Host) (f : Frame) (names : List String) :
    Deepens (f.sortBy depth host names) (f.sortBy depth' host names) := by
  refine (deepens_self _).bind fun columns => deepens_sortWith fun row => deepens_mapM fun c => ?_
  exact deepens_readColumn (Expr.deepens_runDeep hdepth) host f c row

theorem deepens_sortByExpression (hdepth : depth ≤ depth') (host : Host) (f : Frame)
    (text : String) :
    Deepens (f.sortByExpression depth host text) (f.sortByExpression depth' host text) := by
  refine (deepens_self _).bind fun e => deepens_sortWith fun row => ?_
  exact (deepens_evaluateOnRow hdepth host f e row).bind fun _ => deepens_self _

end Frame

end FrameLang
