/-
From the parts of the evaluator to the whole.

Many things that can be said of a run are true of it if they are true of its parts: that it changes
no other variables, that it reports its failures, that it reads no other variables.  A property of
this kind is said to compose.  What evaluation does is put together from a few parts, and there is
one lemma below for each of them.

`Expr.evaluateWith_of_parts` goes on to expressions.  To show that evaluating an expression has a
property that composes, it is enough to look at the nodes that do something of their own: variables,
paths, calls and assignments, and those that ask for types in the midst of a run.
-/
import FrameLang.Eval
import FrameLang.Proofs.Meets
import FrameLang.Proofs.Nodes

namespace FrameLang

open Run

/-! ### Statements -/

namespace Expr

/-- The value of some statements is the last of their values. -/
theorem evaluateStatementsWith_eq (deeper : RunStatements) (env : Environment) (before : Value)
    (es : List Expr) : evaluateStatementsWith deeper env before es = do
      return (← evaluateAllWith deeper env es).getLastD before := by
  induction es generalizing before with
  | nil => simp [evaluateStatementsWith, evaluateAllWith]
  | cons e es ih => simp [evaluateStatementsWith, evaluateAllWith, ih, List.getLast?_cons]

theorem runDeep_succ (depth : Nat) (env : Environment) (es : List Expr) :
    runDeep (depth + 1) env es = do
      return (← evaluateAllWith (runDeep depth) env es).getLastD .void :=
  evaluateStatementsWith_eq (runDeep depth) env .void es

theorem runDeep_single (depth : Nat) (env : Environment) (e : Expr) :
    runDeep (depth + 1) env [e] = e.evaluateWith (runDeep depth) env := by
  rw [runDeep_succ]
  simp [evaluateAllWith]

theorem length_of_evaluateAllWith {deeper : RunStatements} {env : Environment} {es : List Expr}
    {vs : List Value} {s s' : Store} (h : evaluateAllWith deeper env es s = (.ok vs, s')) :
    vs.length = es.length := by
  have hmeets : Meets (evaluateAllWith deeper env es) s (fun vs _ => vs.length = es.length)
      fun _ _ => True := by
    clear h
    induction es generalizing s with
    | nil => exact meets_pure rfl
    | cons e es ih =>
        rw [evaluateAllWith]
        refine meets_bind (Q := fun _ _ => True) (meets_true _ _) ?_
        intro v s₁ _
        refine meets_bind ih ?_
        intro vs s₂ hvs
        exact meets_pure (by simp [hvs])
  exact hmeets.result h

end Expr

/-! ### Properties that compose -/

namespace Run

/-- A property of runs that a run has if its parts have it.  Of what follows on a first part this is
asked for the results of that part only. -/
structure Composes (P : ∀ {α : Type}, Run α → Prop) : Prop where
  pure : ∀ {α : Type} (a : α), P (pure a : Run α)
  report : ∀ {α : Type} (e : Error), P (report e : Run α)
  print : ∀ sink text, P (print sink text)
  newFrame : ∀ f, P (newFrame f)
  bind : ∀ {α β : Type} {x : Run α} {f : α → Run β}, P x →
    (∀ a s s', x s = (.ok a, s') → P (f a)) → P (x >>= f)

/-- Runs with the property may look at the store to answer a question. -/
def Asks (P : ∀ {α : Type}, Run α → Prop) {β : Type} (question : Store → β) : Prop :=
  ∀ goOn : Store → Run Value, (∀ s, P (goOn s)) →
    (∀ s s', question s = question s' → goOn s = goOn s') → P (get >>= goOn)

namespace Composes

variable {P : ∀ {α : Type}, Run α → Prop} {α β : Type}

theorem orReport (h : Composes P) (x : Except Error α) : P (orReport x) := by
  cases x with
  | ok a => exact h.pure a
  | error e => exact h.report e

/-- What follows a computation that may fail is asked for its result. -/
theorem orReport_bind (h : Composes P) {x : Except Error α} {f : α → Run β}
    (hf : ∀ a, x = .ok a → P (f a)) : P (Run.orReport x >>= f) := by
  cases x with
  | ok a => exact hf a rfl
  | error e => exact h.bind (h.report e) fun _ _ _ hrun => nomatch hrun

theorem mapM (h : Composes P) {l : List α} {f : α → Run β} (hf : ∀ a ∈ l, P (f a)) :
    P (l.mapM f) := by
  induction l with
  | nil => exact h.pure _
  | cons a l ih =>
      rw [List.mapM_cons]
      have hrest := ih fun b hb => hf b (by simp [hb])
      exact h.bind (hf a (by simp)) fun _ _ _ _ => h.bind hrest fun _ _ _ _ => h.pure _

theorem filterMapM (h : Composes P) {l : List α} {f : α → Run (Option β)} (hf : ∀ a, P (f a)) :
    P (l.filterMapM f) := by
  induction l with
  | nil => exact h.pure _
  | cons a l ih =>
      rw [List.filterMapM_cons]
      refine h.bind (hf a) fun b _ _ _ => ?_
      cases b with
      | none => exact ih
      | some b => exact h.bind ih fun _ _ _ _ => h.pure _

theorem choose (h : Composes P) {whenTrue whenFalse : Run Value} (ht : P whenTrue)
    (hf : P whenFalse) (condition : Value) : P (choose condition whenTrue whenFalse) := by
  unfold FrameLang.choose
  split
  · exact ht
  · exact hf
  · exact h.report _

section Parts

variable {deeper : RunStatements} {env : Environment}

theorem widen (h : Composes P) {other : Expr}
    (hask : Asks P fun s => (env.scope s.vars).typeOf other) (v : Value) :
    P (widen env v other) := by
  unfold FrameLang.widen
  split
  · refine hask _ (fun s => ?_) fun s s' htype => ?_
    · split
      · exact h.pure _
      · exact h.pure _
    · dsimp only at htype
      rw [htype]
  · exact h.pure _

/-- A column is read by reading its cells or by evaluating its expression. -/
theorem readColumn (h : Composes P) {host : Host} {f : Frame} {column : Column} {row : Nat}
    (hcomputed : ∀ source e type, column.content = .computed source e type →
      P (isolated ∅ (deeper (.ofRow host f row) [e]))) :
    P (f.readColumn deeper host column row) := by
  unfold Frame.readColumn
  split
  · exact h.pure _
  · rename_i source e type hcontent
    exact hcomputed source e type hcontent

theorem readNamed (h : Composes P) {host : Host} {f : Frame}
    (hcolumn : ∀ column ∈ f.columns, ∀ row, P (f.readColumn deeper host column row))
    (name : String) (row : Nat) : P (f.readNamed deeper host name row) := by
  unfold Frame.readNamed
  split
  · exact h.report _
  · rename_i column hfind
    split
    · exact h.report _
    · exact hcolumn column (Frame.mem_of_column? hfind) _

theorem readPath (h : Composes P) {dataSet : String}
    (hcolumn : ∀ f, env.dataSets.find? dataSet = some f → ∀ column ∈ f.columns, ∀ row,
      P (f.readColumn deeper env.host column row))
    (field : List String) : P (readPath deeper env dataSet field) := by
  unfold FrameLang.readPath
  split
  · exact h.report _
  · rename_i f hf
    split
    · exact h.report _
    · exact h.readNamed (hcolumn f hf) _ _

/-- Looking up a name fails without a report. -/
theorem lookUp (h : Composes P) {name : String} (hask : Asks P fun s => s.vars.find? name)
    (hfail : P (fail (.undefinedVariable name) : Run Value))
    (hcolumn : ∀ (f : Frame) (row : Nat), ∀ column ∈ f.columns,
      P (f.readColumn deeper env.host column row)) :
    P (lookUp deeper env name) := by
  refine hask _ (fun s => ?_) fun s s' hname => ?_
  · split
    · exact h.pure _
    · split
      · exact hfail
      · split
        · exact hfail
        · rename_i column hfind
          exact hcolumn _ _ column (Frame.mem_of_column? hfind)
  · dsimp only at hname
    rw [hname]

theorem perform (h : Composes P) (f : Function) (env : Environment) (arguments : List Value) :
    P (f.perform env arguments) := by
  unfold Function.perform
  split
  · exact h.bind (h.print _ _) fun _ _ _ _ => h.pure _
  · exact h.bind (h.print _ _) fun _ _ _ _ => h.pure _
  · exact h.orReport _
  · exact h.bind (h.print _ _) fun _ _ _ _ => h.orReport _

/-- A registered function fails without a report if the number of arguments is wrong. -/
theorem invoke (h : Composes P) {f : Function} {arguments : List Value}
    (hfail : f.takes arguments.length = false →
      P (fail (.argumentCount f.name f.usageText) : Run Value)) :
    P (f.invoke env arguments) := by
  unfold Function.invoke
  split
  · exact h.perform f env arguments
  · rename_i parameters hparameters
    split
    · exact h.perform f env _
    · rename_i hlength
      exact hfail (by simp [Function.takes, hparameters, hlength])

theorem call (h : Composes P) {name : String} {arguments : List Value}
    (hdefined : ∀ f, env.functions.find? (normalizeName name) = some f →
      P (isolated (Bindings.ofList (f.parameters.zip arguments)) (deeper env.forCall f.body)))
    (hfail : ∀ f, env.functions.find? (normalizeName name) = none →
      env.registry.get? name = some f → f.takes arguments.length = false →
        P (fail (.argumentCount f.name f.usageText) : Run Value)) :
    P (call deeper env name arguments) := by
  unfold FrameLang.call
  split
  · rename_i f hf
    unfold FunctionDef.invoke
    split
    · exact hdefined f hf
    · exact h.report _
  · rename_i hnone
    split
    · rename_i f hf
      exact h.invoke (hfail f hnone hf)
    · exact h.report _

end Parts

end Composes

end Run

/-! ### Expressions -/

namespace Expr

/-- The evaluator has the property where it does the work of a node itself. -/
def HasPart (P : ∀ {α : Type}, Run α → Prop) (deeper : RunStatements) (env : Environment) :
    Expr → Prop
  | var name => P (reporting (lookUp deeper env name))
  | path dataSet field => P (readPath deeper env dataSet field)
  | call name arguments => ∀ vs : List Value, vs.length = arguments.length →
    P (FrameLang.call deeper env name vs)
  | assign name _ => ∀ v, P (setVariable name v)
  | ifElse _ t (some e) => Asks P (fun s => (env.scope s.vars).typeOf t) ∧
    Asks P fun s => (env.scope s.vars).typeOf e
  | project elements _ => Asks P fun s => (((env.scope s.vars).inferAll elements).run {}).1
  | _ => True

section Parts

variable {P : ∀ {α : Type}, Run α → Prop} {deeper : RunStatements} {env : Environment}
  {inside : Bool}

/-- Over its rows a projection evaluates its filter and its elements. -/
theorem project_of_parts (h : Composes P) {elements : List Expr} {filter : Option Expr}
    (hask : Asks P fun s => (((env.scope s.vars).inferAll elements).run {}).1)
    (hinside : inside = true ∨ env.dataSets = ∅)
    (helements : inside = true → ∀ row,
      P (evaluateAllWith deeper { env with projectedRow := row } elements))
    (hfilter : inside = true → ∀ e ∈ filter, ∀ row,
      P (e.evaluateWith deeper { env with projectedRow := row })) :
    P ((project elements filter).evaluateWith deeper env) := by
  rw [evaluateWith]
  split
  · rename_i name _
    split
    · rename_i f hf
      -- there is a data set, so the nodes inside of the projection are among those asked for
      have hin : inside = true := by
        refine hinside.resolve_right ?_
        intro hempty
        rw [hempty] at hf
        cases hf
      refine hask _ (fun s => ?_) fun s s' htypes => ?_
      · refine h.bind (h.filterMapM fun row => ?_) fun rows _ _ _ =>
          h.bind (h.orReport _) fun g _ _ _ => h.newFrame g
        have hrow := h.bind (helements hin (some row)) fun vs _ _ _ => h.pure (some vs)
        cases filter with
        | none => exact hrow
        | some filter =>
            refine h.bind (hfilter hin filter rfl _) fun v _ _ _ => ?_
            split
            · exact hrow
            · exact h.pure _
      · dsimp only at htypes
        rw [htypes]
    · exact h.report _
  · exact h.report _

mutual

/-- **Evaluation has a property that composes if the parts have it that do the work of the nodes.**
The nodes inside of projections do not matter if there are no data sets. -/
theorem evaluateWith_of_parts (h : Composes P) (hinside : inside = true ∨ env.dataSets = ∅)
    (e : Expr) (he : ∀ node ∈ e.nodes inside, ∀ row,
      node.HasPart P deeper { env with projectedRow := row }) (row : Option Nat) :
    P (e.evaluateWith deeper { env with projectedRow := row }) := by
  cases e with
  | literal v => exact h.pure _
  | var name =>
      rw [evaluateWith]
      exact he (var name) (by simp [nodes]) row
  | unary op e =>
      rw [evaluateWith]
      have ih := evaluateWith_of_parts h hinside e (fun n hn => he n (by simp [nodes, hn])) row
      exact h.bind ih fun _ _ _ _ => h.orReport _
  | binary op l r =>
      have hl := evaluateWith_of_parts h hinside l (fun n hn => he n (by simp [nodes, hn])) row
      have hr := evaluateWith_of_parts h hinside r (fun n hn => he n (by simp [nodes, hn])) row
      cases op with
      | connective op =>
          rw [evaluateWith]
          refine h.bind hl fun left _ _ _ => h.bind (h.orReport _) fun settled _ _ _ => ?_
          split
          · exact h.pure _
          · exact h.bind hr fun _ _ _ _ => h.orReport _
      | _ =>
          rw [evaluateWith]
          exact h.bind hl fun _ _ _ _ => h.bind hr fun _ _ _ _ => h.orReport _
  | call name arguments =>
      rw [evaluateWith]
      have ih := evaluateAllWith_of_parts h hinside arguments
        (fun n hn => he n (by simp [nodes, hn])) row
      refine h.bind ih fun vs s s' hrun => ?_
      exact he (call name arguments) (by simp [nodes]) row vs (length_of_evaluateAllWith hrun)
  | ifElse c t e =>
      cases e with
      | none =>
          have hc := evaluateWith_of_parts h hinside c (fun n hn => he n (by simp [nodes, hn])) row
          have ht := evaluateWith_of_parts h hinside t (fun n hn => he n (by simp [nodes, hn])) row
          rw [evaluateWith]
          exact h.bind hc fun v _ _ _ => h.choose ht (h.pure _) v
      | some e =>
          have hc := evaluateWith_of_parts h hinside c (fun n hn => he n (by simp [nodes, hn])) row
          have ht := evaluateWith_of_parts h hinside t (fun n hn => he n (by simp [nodes, hn])) row
          have helse := evaluateWith_of_parts h hinside e
            (fun n hn => he n (by simp [nodes, hn])) row
          obtain ⟨haskThen, haskElse⟩ := he (ifElse c t (some e)) (by simp [nodes]) row
          rw [evaluateWith]
          refine h.bind hc fun v _ _ _ => h.choose ?_ ?_ v
          · exact h.bind ht fun v _ _ _ => h.widen haskElse v
          · exact h.bind helse fun v _ _ _ => h.widen haskThen v
  | assign name e =>
      rw [evaluateWith]
      have ih := evaluateWith_of_parts h hinside e (fun n hn => he n (by simp [nodes, hn])) row
      have hassign := he (assign name e) (by simp [nodes]) row
      exact h.bind ih fun v _ _ _ => h.bind (hassign v) fun _ _ _ _ => h.pure _
  | named name e =>
      rw [evaluateWith]
      exact evaluateWith_of_parts h hinside e (fun n hn => he n (by simp [nodes, hn])) row
  | vector elements =>
      rw [evaluateWith]
      have ih := evaluateAllWith_of_parts h hinside elements
        (fun n hn => he n (by simp [nodes, hn])) row
      exact h.bind ih fun _ _ _ _ => h.pure _
  | index v i =>
      have hv := evaluateWith_of_parts h hinside v (fun n hn => he n (by simp [nodes, hn])) row
      have hi := evaluateWith_of_parts h hinside i (fun n hn => he n (by simp [nodes, hn])) row
      rw [evaluateWith]
      exact h.bind hv fun _ _ _ _ => h.bind hi fun _ _ _ _ => h.orReport _
  | path dataSet field =>
      rw [evaluateWith]
      exact he (path dataSet field) (by simp [nodes]) row
  | project elements filter =>
      have hself : (project elements filter) ∈ (project elements filter).nodes inside := by
        cases filter with
        | none => simp [nodes]
        | some filter => simp [nodes]
      refine project_of_parts h (he _ hself row) hinside ?_ ?_
      · intro hin row'
        refine evaluateAllWith_of_parts h hinside elements (fun n hn => he n ?_) row'
        rw [hin] at hn ⊢
        cases filter with
        | none => simp [nodes, hn]
        | some filter => simp [nodes, hn]
      · intro hin
        cases filter with
        | none => exact nofun
        | some filter =>
            intro e he' row'
            cases he'
            refine evaluateWith_of_parts h hinside filter (fun n hn => he n ?_) row'
            rw [hin] at hn ⊢
            simp [nodes, hn]
  | sequence statements =>
      rw [evaluateWith, evaluateStatementsWith_eq]
      have ih := evaluateAllWith_of_parts h hinside statements
        (fun n hn => he n (by simp [nodes, hn])) row
      exact h.bind ih fun _ _ _ _ => h.pure _
termination_by structural e

theorem evaluateAllWith_of_parts (h : Composes P) (hinside : inside = true ∨ env.dataSets = ∅)
    (es : List Expr) (hes : ∀ node ∈ nodesIn inside es, ∀ row,
      node.HasPart P deeper { env with projectedRow := row }) (row : Option Nat) :
    P (evaluateAllWith deeper { env with projectedRow := row } es) := by
  cases es with
  | nil => exact h.pure _
  | cons e es =>
      rw [evaluateAllWith]
      have hfirst := evaluateWith_of_parts h hinside e
        (fun n hn => hes n (by simp [nodesIn, hn])) row
      have hrest := evaluateAllWith_of_parts h hinside es
        (fun n hn => hes n (by simp [nodesIn, hn])) row
      exact h.bind hfirst fun _ _ _ _ => h.bind hrest fun _ _ _ _ => h.pure _
termination_by structural es

end

end Parts

end Expr

end FrameLang
