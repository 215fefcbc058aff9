/-
Rows that show the same.

Two environments are alike if they differ in one data set only, and in that one only by the order of
its rows.  Evaluation cannot tell them apart as long as it does not learn where in the data set a
row stands.  What it is handed are rows that show the same in both: a variable or a field then has
the same value, a computed column does too, and so do all operators and functions that are given
values that are alike.

It does learn where a row stands in a projection that goes over the data set and hands something
from row to row by an assignment, or that reads a field of it in a row of another data set, or the
other way round.  `isRowwise` leaves these out.  Whether a projection is among the nodes that
evaluation comes to is a matter of the functions that it may call as well (`ComesTo`).
-/
import FrameLang.Proofs.Frame.Undoing
import FrameLang.Proofs.Pairing
import FrameLang.Proofs.Typing.Congruence
import FrameLang.Proofs.Typing.Nesting

namespace FrameLang

open Run

/-! ### Projections that take one row at a time -/

namespace Expr

/-- The data set of a field. -/
def dataSetOf? : Expr → Option String
  | path dataSet _ => some dataSet
  | _ => none

/-- The data sets that the rows of a projection are about: the one that it goes over, and those of
its fields but for the fields of projections inside of it. -/
def concerned (elements : List Expr) (filter : Option Expr) : List String :=
  (project elements filter).firstDataSet?.toList ++
    (nodesIn false (elements ++ filter.toList)).filterMap dataSetOf?

/-- Whether a projection takes the rows of a data set one at a time, if it is about them at all.
Then it goes over them, all its fields are theirs, and nothing is assigned that could be handed from
row to row.  Other nodes pass. -/
def isRowwise (dataSet : String) : Expr → Bool
  | project elements filter =>
    (concerned elements filter).all (· != dataSet) ||
      (concerned elements filter).all (· == dataSet) &&
        (nodesIn true (elements ++ filter.toList)).all isNoAssignment
  | _ => true

theorem isRowwise_project {dataSet : String} {elements : List Expr} {filter : Option Expr} :
    (project elements filter).isRowwise dataSet = true ↔
      (∀ name ∈ concerned elements filter, name ≠ dataSet) ∨
        (∀ name ∈ concerned elements filter, name = dataSet) ∧
          ∀ node ∈ nodesIn true (elements ++ filter.toList), node.isNoAssignment = true := by
  simp [isRowwise]

theorem mem_concerned_of_firstDataSet? {elements : List Expr} {filter : Option Expr} {name : String}
    (h : (project elements filter).firstDataSet? = some name) : name ∈ concerned elements filter :=
  List.mem_append_left _ (by rw [h]; exact List.mem_singleton_self name)

theorem mem_concerned_of_path {elements : List Expr} {filter : Option Expr} {name : String}
    {field : List String} (h : path name field ∈ nodesIn false (elements ++ filter.toList)) :
    name ∈ concerned elements filter :=
  List.mem_append_right _ (List.mem_filterMap.mpr ⟨_, h, rfl⟩)

end Expr

/-- A node of some expressions, or of the body of a function that evaluating them may call. -/
inductive FunctionDefs.ComesTo (functions : FunctionDefs) (es : List Expr) : Expr → Prop
  | here {node : Expr} (h : node ∈ Expr.nodesIn true es) : ComesTo functions es node
  | body {name : String} {arguments : List Expr} {f : FunctionDef} {node : Expr}
      (hcall : ComesTo functions es (.call name arguments))
      (hf : functions.find? (normalizeName name) = some f)
      (h : node ∈ Expr.nodesIn true f.body) : ComesTo functions es node

theorem FunctionDefs.ComesTo.mono {functions : FunctionDefs} {es es' : List Expr} {node : Expr}
    (h : functions.ComesTo es node) (hsubset : Expr.nodesIn true es ⊆ Expr.nodesIn true es') :
    functions.ComesTo es' node := by
  induction h with
  | here h => exact .here (hsubset h)
  | body _ hf h ih => exact .body ih hf h

/-- A test that the expressions pass and the bodies of all functions is passed by what evaluation
comes to. -/
theorem FunctionDefs.ComesTo.of_everyIn {functions : FunctionDefs} {es : List Expr} {node : Expr}
    {p : Expr → Bool} (h : functions.ComesTo es node) (hes : Expr.everyIn p es = true)
    (hbodies : ∀ name f, functions.find? name = some f → Expr.everyIn p f.body = true) :
    p node = true := by
  cases h with
  | here h => exact (Expr.everyIn_iff es).mp hes node h
  | body _ hf h => exact (Expr.everyIn_iff _).mp (hbodies _ _ hf) node h

/-- A projection cannot take a double into the column that it has made of one of its elements. -/
def Stop.IsMisfitOf (elements : List Expr) (stop : Stop) : Prop :=
  ∃ d, ∃ e ∈ elements, stop =
    .failed (.configuration (.misfit (Value.double d).literalText e.columnName .long))

/-! ### Environments -/

/-- A host that looks at no more of a frame than its columns and its rows, whatever their order. -/
def Host.IgnoresOrder (host : Host) : Prop :=
  ∀ R : Pairing, Relator.BiUnique R → ∀ key arguments arguments',
    List.Forall₂ (Value.Like R) arguments arguments' → ∀ v, (host key arguments).result = .ok v →
      ∃ w, (host key arguments').result = .ok w ∧ v.Like R w

namespace Environment

/-- Two environments are the same up to the order of the rows of a data set.  If they show a row, it
is the same row. -/
structure SameRows (dataSet : String) (env env' : Environment) : Prop where
  registry : env.registry = env'.registry
  host : env.host = env'.host
  functions : env.functions = env'.functions
  reordered : Option.Rel Frame.SameRows (env.dataSets.find? dataSet) (env'.dataSets.find? dataSet)
  others : ∀ name ≠ dataSet, env.dataSets.find? name = env'.dataSets.find? name
  row : Option.Rel (fun p q => p.1.ShowsAs p.2 q.1 q.2) env.row env'.row

/-- The projections of two environments have come to rows of a data set that show the same. -/
def ShowsThere (env env' : Environment) (dataSet : String) : Prop :=
  ∀ row, env.projectedRow = some row → ∃ row', env'.projectedRow = some row' ∧
    ∀ f g, env.dataSets.find? dataSet = some f → env'.dataSets.find? dataSet = some g →
      f.ShowsThere g row row'

theorem showsThere_of_none {env env' : Environment} (h : env.projectedRow = none)
    (dataSet : String) : env.ShowsThere env' dataSet := by
  intro row hrow
  rw [h] at hrow
  cases hrow

/-- Evaluation in the environment does not depend on the order of the rows of a data set, as far as
it comes to nodes of a certain kind: projections take one row at a time, and the bodies of functions
are of that kind again.  What may go wrong is among `E`. -/
structure IgnoresOrder (dataSet : String) (kind : Expr → Prop) (E : Stop → Prop)
    (env : Environment) : Prop where
  host : env.host.IgnoresOrder
  rowwise : ∀ node, kind node → node.isRowwise dataSet = true
  misfits : ∀ elements filter, kind (.project elements filter) →
    dataSet ∈ Expr.concerned elements filter → ∀ stop : Stop, stop.IsMisfitOf elements → E stop
  bodies : ∀ name arguments f, kind (.call name arguments) →
    env.functions.find? (normalizeName name) = some f → ∀ node ∈ Expr.nodesIn true f.body, kind node

variable {dataSet : String} {kind : Expr → Prop} {E : Stop → Prop} {R : Pairing}
  {env env' : Environment}

theorem SameRows.dataSets (h : env.SameRows dataSet env') (name : String) :
    Option.Rel Frame.SameRows (env.dataSets.find? name) (env'.dataSets.find? name) := by
  by_cases hname : name = dataSet
  · exact hname ▸ h.reordered
  · rw [← h.others name hname]
    cases env.dataSets.find? name with
    | none => exact .none
    | some f => exact .some (.refl f)

theorem SameRows.forCall (h : env.SameRows dataSet env') :
    env.forCall.SameRows dataSet env'.forCall :=
  ⟨h.registry, h.host, h.functions, h.reordered, h.others, .none⟩

theorem SameRows.atRow (h : env.SameRows dataSet env') (row row' : Nat) :
    SameRows dataSet { env with projectedRow := some row }
      { env' with projectedRow := some row' } :=
  ⟨h.registry, h.host, h.functions, h.reordered, h.others, h.row⟩

theorem sameRows_ofRow (host : Host) {f g : Frame} {row row' : Nat} (h : f.ShowsAs row g row') :
    SameRows dataSet (Environment.ofRow host f row) (Environment.ofRow host g row') :=
  ⟨h.registry, rfl, rfl, .none, fun _ _ => rfl, .some h⟩

theorem IgnoresOrder.forCall (h : env.IgnoresOrder dataSet kind E) :
    env.forCall.IgnoresOrder dataSet kind E :=
  ⟨h.host, h.rowwise, h.misfits, h.bodies⟩

theorem IgnoresOrder.atRow (h : env.IgnoresOrder dataSet kind E) (row : Nat) :
    IgnoresOrder dataSet kind E { env with projectedRow := some row } :=
  ⟨h.host, h.rowwise, h.misfits, h.bodies⟩

/-- Over a row of a frame no function has a body. -/
theorem IgnoresOrder.ofRow (h : env.IgnoresOrder dataSet kind E) (f : Frame) (row : Nat) :
    IgnoresOrder dataSet kind E (.ofRow env.host f row) :=
  ⟨h.host, h.rowwise, h.misfits, nofun⟩

/-- Names have the same types. -/
theorem SameRows.agrees (h : env.SameRows dataSet env') {vars vars' : Bindings Value}
    (hvars : VarsLike R vars vars') : (env.scope vars).Agrees (env'.scope vars') where
  registry := h.registry
  functions := h.functions
  columnType dataSet := by
    have hdataSet := h.dataSets dataSet
    change (env.dataSets.find? dataSet).map _ = (env'.dataSets.find? dataSet).map _
    generalize env.dataSets.find? dataSet = f at hdataSet ⊢
    generalize env'.dataSets.find? dataSet = g at hdataSet ⊢
    cases hdataSet with
    | none => rfl
    | some hfg => exact congrArg some hfg.columnType?_eq
  variableType := by
    funext name
    have htype : (vars.find? name).map Value.type = (vars'.find? name).map Value.type := by
      have hname := hvars name
      generalize vars.find? name = v at hname ⊢
      generalize vars'.find? name = w at hname ⊢
      cases hname with
      | none => rfl
      | some hvw => exact congrArg some hvw.type_eq
    have hrow : (env.row.bind fun p => p.1.columnType? name) =
        env'.row.bind fun p => p.1.columnType? name := by
      have hshows := h.row
      generalize env.row = p at hshows ⊢
      generalize env'.row = q at hshows ⊢
      cases hshows with
      | none => rfl
      | some hpq =>
          have hscope := hpq.scope_eq env.host ∅
          exact congrFun (congrArg Scope.variableType hscope) name
    change ((vars.find? name).map Value.type).or _ = ((vars'.find? name).map Value.type).or _
    rw [htype, hrow]

end Environment

/-- A node does the same in two environments, if they are alike: a field is one of a row that shows
the same, and where there are projections and functions with a body, they are of a certain kind. -/
def Expr.StandsIn (kind : Expr → Prop) (env env' : Environment) : Expr → Prop
  | path dataSet _ => env.ShowsThere env' dataSet
  | call name arguments => env.functions = ∅ ∨ kind (call name arguments)
  | project elements filter => env.dataSets = ∅ ∨
    ∀ node ∈ (project elements filter).nodes true, kind node
  | _ => True

/-- Statements that run deeper do not depend on the order of the rows of a data set. -/
def RunStatements.IgnoreOrder (dataSet : String) (kind : Expr → Prop) (E : Stop → Prop)
    (deeper : RunStatements) : Prop :=
  ∀ env env' es, env.SameRows dataSet env' → env.IgnoresOrder dataSet kind E →
    (∀ node ∈ Expr.nodesIn false es, node.StandsIn kind env env') → ∀ R,
      Follows E Value.Like R (deeper env es) (deeper env' es)

/-! ### The parts of the evaluator -/

section Parts

variable {dataSet : String} {kind : Expr → Prop} {E : Stop → Prop} {R : Pairing}
  {deeper : RunStatements} {env env' : Environment}

theorem follows_value {v w : Value} (h : v.Like R w) : Follows E Value.Like R (pure v) (pure w) :=
  follows_pure fun _ hRS => h.mono hRS

theorem follows_plain {x x' : Except Error Value}
    (h : ∀ S, R ≤ S → Relator.BiUnique S → Value.Follows x x') :
    Follows E Value.Like R (orReport x) (orReport x') := by
  refine follows_orReport fun S hRS hS v hv => ?_
  obtain ⟨hplain, hv'⟩ := h S hRS hS v hv
  exact ⟨v, hv', .plain hplain⟩

theorem follows_readColumn (hdeeper : deeper.IgnoreOrder dataSet kind E)
    (hfair : env.IgnoresOrder dataSet kind E) {f g : Frame} {row row' : Nat}
    (h : f.ShowsAs row g row') {c d : Column} (hcd : c.ShowsAs row row' d) :
    Follows E Value.Like R (f.readColumn deeper env.host c row)
      (g.readColumn deeper env.host d row') := by
  cases hcd with
  | @stored name cells cells' _ hget =>
      change Follows E Value.Like R (pure (cells.get row)) (pure (cells'.get row'))
      rw [hget]
      exact follows_value (.plain (Value.isPlain_toValue _ _))
  | @computed name source e type =>
      have hrow : (Environment.ofRow env.host f row).SameRows dataSet (.ofRow env.host g row') :=
        Environment.sameRows_ofRow env.host h
      refine (hdeeper _ _ [e] hrow (hfair.ofRow f row) (fun node _ => ?_) R).isolated fun _ => .none
      cases node with
      | path name field => exact Environment.showsThere_of_none rfl name
      | call name arguments => exact Or.inl rfl
      | project elements filter => exact Or.inl rfl
      | _ => trivial

theorem follows_lookUp (hdeeper : deeper.IgnoreOrder dataSet kind E)
    (henv : env.SameRows dataSet env') (hfair : env.IgnoresOrder dataSet kind E) (name : String) :
    Follows E Value.Like R (lookUp deeper env name) (lookUp deeper env' name) := by
  refine follows_get_bind fun S _ s s' hs => ?_
  have hname := hs.vars name
  generalize s.vars.find? name = v at hname ⊢
  generalize s'.vars.find? name = w at hname ⊢
  cases hname with
  | some hvw => exact follows_value hvw
  | none =>
      have hrow := henv.row
      rw [← henv.host]
      generalize env.row = p at hrow ⊢
      generalize env'.row = q at hrow ⊢
      cases hrow with
      | none => exact follows_fail _ _
      | @some p q hpq =>
          have hcolumn := hpq.column?_rel name
          obtain ⟨f, row⟩ := p
          obtain ⟨g, row'⟩ := q
          dsimp only at hpq hcolumn ⊢
          generalize f.column? name = c at hcolumn ⊢
          generalize g.column? name = d at hcolumn ⊢
          cases hcolumn with
          | none => exact follows_fail _ _
          | some hcd => exact follows_readColumn hdeeper hfair hpq hcd

theorem follows_readPath (hdeeper : deeper.IgnoreOrder dataSet kind E)
    (henv : env.SameRows dataSet env') (hfair : env.IgnoresOrder dataSet kind E) {name : String}
    (hshows : env.ShowsThere env' name) (field : List String) :
    Follows E Value.Like R (readPath deeper env name field) (readPath deeper env' name field) := by
  unfold readPath
  have hdataSet := henv.dataSets name
  cases hf : env.dataSets.find? name with
  | none => exact follows_report _ _
  | some f =>
      cases hrow : env.projectedRow with
      | none => exact follows_report _ _
      | some row =>
          obtain ⟨row', hrow', hthere⟩ := hshows row hrow
          cases hg : env'.dataSets.find? name with
          | none =>
              rw [hf, hg] at hdataSet
              cases hdataSet
          | some g =>
              rw [hrow', ← henv.host]
              have hfg := hthere f g hf hg
              unfold Frame.ShowsThere at hfg
              dsimp only
              unfold Frame.readNamed
              generalize f.physicalRow? row = physical at hfg ⊢
              generalize g.physicalRow? row' = physical' at hfg ⊢
              cases hfg with
              | none =>
                  split
                  · exact follows_report _ _
                  · exact follows_report _ _
              | some hfg =>
                  have hcolumn := hfg.column?_rel (Expr.fieldName field)
                  generalize f.column? (Expr.fieldName field) = c at hcolumn ⊢
                  generalize g.column? (Expr.fieldName field) = d at hcolumn ⊢
                  cases hcolumn with
                  | none => exact follows_report _ _
                  | some hcd => exact follows_readColumn hdeeper hfair hfg hcd

theorem follows_choose {t t' u u' : Run Value} (ht : Follows E Value.Like R t t')
    (hu : Follows E Value.Like R u u') {v w : Value} (h : v.Like R w) :
    Follows E Value.Like R (choose v t u) (choose w t' u') := by
  cases h with
  | plain =>
      unfold choose
      split
      · exact ht
      · exact hu
      · exact follows_report _ _
  | vector | frame => exact follows_report _ _

theorem follows_widen (henv : env.SameRows dataSet env') (other : Expr) {v w : Value}
    (h : v.Like R w) :
    Follows E Value.Like R (widen env v other) (widen env' w other) := by
  cases h with
  | plain h =>
      unfold widen
      split
      · refine follows_get_bind fun S _ s s' hs => ?_
        rw [(henv.agrees hs.vars).typeOf_eq]
        split
        · exact follows_value (.plain (Value.isPlain_double _))
        · exact follows_value (.plain (Value.isPlain_long _))
      · exact follows_value (.plain h)
  | vector h => exact follows_value (.vector h)
  | frame hij hfg => exact follows_value (.frame hij hfg)

theorem forall₂_boundArguments (parameters : List String) {arguments arguments' : List Value}
    (h : List.Forall₂ (Value.Like R) arguments arguments') :
    List.Forall₂ (Value.Like R) (boundArguments parameters arguments)
      (boundArguments parameters arguments') := by
  have hbound := Bindings.find?_ofList_zip_rel h parameters
  unfold boundArguments
  dsimp only
  generalize Bindings.ofList (parameters.zip arguments) = b at hbound ⊢
  generalize Bindings.ofList (parameters.zip arguments') = b' at hbound ⊢
  clear h
  induction parameters with
  | nil => exact .nil
  | cons name parameters ih =>
      have hname := hbound name
      rw [List.filterMap_cons, List.filterMap_cons]
      generalize b.find? name = v at hname ⊢
      generalize b'.find? name = w at hname ⊢
      cases hname with
      | none => exact ih
      | some hvw => exact .cons hvw ih

theorem follows_perform (hhost : env.host.IgnoresOrder) (heq : env.host = env'.host)
    (f : Function) {arguments arguments' : List Value}
    (h : List.Forall₂ (Value.Like R) arguments arguments') :
    Follows E Value.Like R (f.perform env arguments) (f.perform env' arguments') := by
  unfold Function.perform
  split
  · exact (follows_print _ _ _ _).bind fun _ _ _ _ _ =>
      follows_pure fun _ _ => .plain Value.isPlain_void
  · exact (follows_print _ _ _ _).bind fun _ _ _ _ _ =>
      follows_pure fun _ _ => .plain Value.isPlain_void
  · refine follows_plain fun _ _ _ v hv => ?_
    rw [← Builtin.apply_eq h]
    exact ⟨Builtin.isPlain_of_apply hv, hv⟩
  · rename_i key _
    rw [← heq]
    refine (follows_print _ _ _ _).bind fun S hRS _ _ _ =>
      follows_orReport fun S' hS hunique v hv => ?_
    exact hhost S' hunique key _ _ (Value.Like.forall₂_mono (le_trans hRS hS) h) v hv

theorem follows_call (hdeeper : deeper.IgnoreOrder dataSet kind E)
    (henv : env.SameRows dataSet env') (hfair : env.IgnoresOrder dataSet kind E) (name : String)
    {es : List Expr} (hkind : env.functions = ∅ ∨ kind (.call name es))
    {arguments arguments' : List Value}
    (h : List.Forall₂ (Value.Like R) arguments arguments') :
    Follows E Value.Like R (call deeper env name arguments) (call deeper env' name arguments') := by
  unfold call
  rw [← henv.functions, ← henv.registry]
  split
  · rename_i d hd
    have hbody : ∀ node ∈ Expr.nodesIn true d.body, kind node := by
      rcases hkind with hnone | hkind
      · rw [hnone] at hd
        cases hd
      · exact hfair.bodies name es d hkind hd
    unfold FunctionDef.invoke
    rw [← h.length_eq]
    split
    · refine Follows.isolated (hdeeper _ _ _ henv.forCall hfair.forCall ?_ R)
        (Bindings.find?_ofList_zip_rel h d.parameters)
      intro node hnode
      have hinside := Expr.nodesIn_false_subset _ hnode
      cases node with
      | path name field => exact Environment.showsThere_of_none rfl name
      | call name es => exact Or.inr (hbody _ hinside)
      | project elements filter =>
          exact Or.inr fun n hn => hbody n (Expr.nodesIn_subset _ hinside hn)
      | _ => trivial
    · exact follows_report _ _
  · split
    · rename_i f _
      unfold Function.invoke
      split
      · exact follows_perform hfair.host henv.host f h
      · rename_i parameters _
        rw [← h.length_eq]
        split
        · exact follows_perform hfair.host henv.host f (forall₂_boundArguments parameters h)
        · exact follows_fail _ _
    · exact follows_report _ _

end Parts

end FrameLang
