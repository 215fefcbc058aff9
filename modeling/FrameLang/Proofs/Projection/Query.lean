/-
One question put to a frame in two ways.

A query is a list of expressions over the columns of a frame and perhaps a condition on its rows.
It can be put to the frame itself: each expression becomes a computed column, and the rows are
selected by the condition.  Or it can be put to the data set that the frame is registered as: then
the expressions are the elements of a projection and the condition is its filter.

Both come down to the same question about each row, whether the condition has a value there, whether
it is true, and which values the expressions have (`IsDecided`, `takes` and `HasValues`).  Here is
what the second way does: it succeeds if all these values are there and fit into columns of their
types, and makes a table of them (`Query.IsReady.meets_projection`).  The first way is in
`Proofs/Projection/Agreement.lean`.
-/
import FrameLang.Proofs.Frame.Table
import FrameLang.Proofs.Projection.Rows

namespace FrameLang

open Run FrameLang.Expr

/-! ### Queries -/

/-- An expression over columns, as a computed column with its source text and as an element of a
projection under a label. -/
structure Item where
  column : String
  source : String
  expression : Expr
  label : String

/-- The item as an element of a projection. -/
def Item.element (dataSet : String) (item : Item) : Expr :=
  .named item.label (item.expression.onto dataSet)

/-- A condition as text and as an expression. -/
structure Condition where
  text : String
  expression : Expr

/-- The items are the columns of the answer, and the condition chooses its rows. -/
structure Query where
  items : List Item
  condition : Option Condition := none

namespace Query

/-- The frame with a computed column for each item. -/
def extend (q : Query) (f : Frame) : Except Error Frame :=
  q.items.foldlM (fun g item => g.withComputed item.column item.source) f

/-- The rows of a frame that the condition selects, which are all if there is none. -/
def select (q : Query) (depth : Nat) (host : Host) (g : Frame) : Run Frame :=
  match q.condition with
  | none => pure g
  | some condition => g.select depth host condition.text

/-- The query as a projection of a data set. -/
def projection (q : Query) (dataSet : String) : Expr :=
  .project (q.items.map (Item.element dataSet))
    (q.condition.map fun condition => condition.expression.onto dataSet)

/-- The query is about the columns of a frame, and its items can be added to it as computed columns
of scalar types. -/
structure IsOver (q : Query) (f g : Frame) : Prop where
  sources : ∀ item ∈ q.items, Expr.ofSource item.source = .ok item.expression
  items : ∀ item ∈ q.items, item.expression.IsOver f
  extended : q.extend f = .ok g
  scalar : ∀ item ∈ q.items, ∃ t : ScalarType, g.columnType? item.column = some t.toValueType
  labels : (q.items.map Item.label).Nodup
  condition : ∀ condition ∈ q.condition, Expr.ofSource condition.text = .ok condition.expression ∧
    condition.expression.IsOver f ∧ g.scope.check condition.expression = .ok .boolean

end Query

/-! ### The extended frame -/

/-- The type of the column that an item has become. -/
def Item.type (g : Frame) (item : Item) : ScalarType :=
  ((g.columnType? item.column).bind ScalarType.ofValueType?).getD .string

/-- The column that a projection makes of an item. -/
def Item.heading (g : Frame) (item : Item) : Heading := (item.label, item.type g)

namespace Frame

/-- What is known of a frame whose computed columns have no assignments and projections. -/
structure IsPlain (f : Frame) : Prop where
  wellFormed : f.WellFormed
  declared : f.Declared
  simple : f.HasSimpleColumns

theorem IsPlain.withComputed {f g : Frame} (hf : f.IsPlain) {name source : String} {e : Expr}
    (hsource : Expr.ofSource source = .ok e) (he : e.IsSimple)
    (hg : f.withComputed name source = .ok g) : g.IsPlain where
  wellFormed := hf.wellFormed.step (.computed hg)
  declared := hf.declared.step (.computed hg)
  simple := by
    obtain ⟨d, t, hd, _, _, _, rfl⟩ := withComputed_eq_ok.mp hg
    cases hsource.symm.trans hd
    intro c hc other e' t' hcontent
    rcases List.mem_append.mp hc with hold | hnew
    · exact hf.simple c hold other e' t' hcontent
    · rw [List.mem_singleton.mp hnew] at hcontent
      cases hcontent
      exact he

/-- Items become computed columns, each accepted over a frame that extends the first one. -/
theorem IsPlain.foldlM_withComputed {items : List Item} {f g : Frame} (hf : f.IsPlain)
    (hitems : ∀ item ∈ items,
      Expr.ofSource item.source = .ok item.expression ∧ item.expression.IsSimple)
    (h : items.foldlM (fun g item => g.withComputed item.column item.source) f = .ok g) :
    g.IsPlain ∧ g.Extends f ∧ ∀ item ∈ items, ∃ t, ∃ f' : Frame,
      ⟨item.column, .computed item.source item.expression t⟩ ∈ g.columns ∧
        f'.Extends f ∧ f'.scope.check item.expression = .ok t := by
  induction items generalizing f with
  | nil =>
      cases h
      exact ⟨hf, Extends.refl g, fun _ h => absurd h List.not_mem_nil⟩
  | cons item items ih =>
      rw [List.foldlM_cons] at h
      obtain ⟨⟨hsource, hsimple⟩, hitems⟩ := List.forall_mem_cons.mp hitems
      cases hnext : f.withComputed item.column item.source with
      | error e =>
          rw [hnext] at h
          cases h
      | ok next =>
          rw [hnext] at h
          have hstep := extends_withComputed hf.wellFormed hf.declared hf.simple hnext
          have hplain := hf.withComputed hsource hsimple hnext
          obtain ⟨hg, hextends, hall⟩ := ih hplain hitems h
          refine ⟨hg, hextends.trans hstep hf.wellFormed, List.forall_mem_cons.mpr ⟨?_, ?_⟩⟩
          · obtain ⟨e, t, he, hcheck, _, _, rfl⟩ := withComputed_eq_ok.mp hnext
            cases hsource.symm.trans he
            exact ⟨t, f, hextends.mem_columns hplain.wellFormed (by simp), Extends.refl f, hcheck⟩
          · intro item hitem
            obtain ⟨t, f', hcolumn, hf', hcheck⟩ := hall item hitem
            exact ⟨t, f', hcolumn, hf'.trans hstep hf.wellFormed, hcheck⟩

end Frame

/-- The same scope with the frame's columns as variables. -/
theorem Frame.Extends.mirrors {f' f : Frame} (h : f'.Extends f) {env : Environment}
    {dataSet : String} (hdata : env.dataSets.find? dataSet = some f)
    (hregistry : env.registry = f.registry) (hfunctions : env.functions = ∅)
    (vars : Bindings Value) :
    f'.scope.Mirrors f.columnNames dataSet (env.scope vars) where
  functions _ := rfl
  functions' name := by
    change env.functions.find? name = none
    rw [hfunctions]
    rfl
  registry := h.registry.trans hregistry.symm
  fields := by
    refine ⟨f, hdata, fun name hname => ?_⟩
    change f'.columnType? name = f.columnType? name
    unfold Frame.columnType?
    rw [h.column? name hname]

theorem Expr.IsOver.isSimple {f : Frame} {e : Expr} (h : e.IsOver f) : e.IsSimple := by
  refine every_imp (fun node hnode => ?_) e h
  cases node with
  | assign | project => cases hnode
  | _ => rfl

/-- Over a frame that extends another, an expression that passes the check has no fields. -/
theorem Expr.IsOver.every_isOverOnly {f f' : Frame} {e : Expr} (h : e.IsOver f) {t : ValueType}
    (hcheck : f'.scope.check e = .ok t) : e.every (isOverOnly f.columnNames) = true := by
  obtain ⟨k, Γ', htyped, _⟩ := Scope.check_eq_ok_iff.mp hcheck
  exact FrameLang.Expr.every_isOverOnly htyped (fun _ => rfl) h

theorem Scope.typeOf_of_check {scope : Scope} {e : Expr} {t : ValueType}
    (h : scope.check e = .ok t) : scope.typeOf e = t := by
  obtain ⟨k, Γ', htyped, rfl⟩ := Scope.check_eq_ok_iff.mp h
  exact Scope.typeOf_of_typed htyped fun _ _ ht => by simpa using ht

namespace Query

/-- What follows for a query over a frame. -/
structure IsReady (q : Query) (f g : Frame) : Prop where
  plain : g.IsPlain
  extended : g.Extends f
  column? : ∀ item ∈ q.items, g.column? item.column =
    some ⟨item.column, .computed item.source item.expression (item.type g).toValueType⟩
  items : ∀ item ∈ q.items, item.expression.every (isOverOnly f.columnNames) = true ∧
    ∃ f' : Frame, f'.Extends f ∧ f'.scope.check item.expression = .ok (item.type g).toValueType
  labels : (q.items.map Item.label).Nodup
  condition : ∀ condition ∈ q.condition,
    condition.expression.every (isOverOnly f.columnNames) = true ∧
      g.condition condition.text = .ok condition.expression

theorem IsOver.isReady {q : Query} {f g : Frame} (h : q.IsOver f g) (hf : f.IsPlain) :
    q.IsReady f g := by
  obtain ⟨hplain, hextends, hall⟩ := hf.foldlM_withComputed
    (fun item hitem => ⟨h.sources item hitem, (h.items item hitem).isSimple⟩) h.extended
  have htype : ∀ item ∈ q.items, ∀ t,
      ⟨item.column, .computed item.source item.expression t⟩ ∈ g.columns →
        t = (item.type g).toValueType := by
    intro item hitem t hmem
    obtain ⟨s, hs⟩ := h.scalar item hitem
    have hcolumn := hplain.wellFormed.column?_name hmem
    have ht : g.columnType? item.column = some t := by
      unfold Frame.columnType?
      rw [hcolumn]
      rfl
    cases ht.symm.trans hs
    rw [Item.type, hs, Option.bind_some, s.ofValueType?_toValueType, Option.getD_some]
  refine ⟨hplain, hextends, ?_, ?_, h.labels, ?_⟩
  · intro item hitem
    obtain ⟨t, _, hmem, _⟩ := hall item hitem
    have hcolumn := hplain.wellFormed.column?_name hmem
    rwa [htype item hitem t hmem] at hcolumn
  · intro item hitem
    obtain ⟨t, f', hmem, hf', hcheck⟩ := hall item hitem
    refine ⟨(h.items item hitem).every_isOverOnly hcheck, f', hf', ?_⟩
    rwa [htype item hitem t hmem] at hcheck
  · intro condition hcondition
    obtain ⟨hsource, hover, hcheck⟩ := h.condition condition hcondition
    exact ⟨hover.every_isOverOnly hcheck, Frame.condition_eq_ok.mpr ⟨hsource, hcheck⟩⟩

/-! ### The question about a row -/

/-- What a projection does in the row that it has come to. -/
def projectRow (deeper : RunStatements) (env : Environment) (elements : List Expr)
    (filter : Option Expr) : Run (Option (List Value)) :=
  match filter with
  | none => do
    return some (← evaluateAllWith deeper env elements)
  | some filter => do
    match ← filter.evaluateWith deeper env with
    | .boolean true => return some (← evaluateAllWith deeper env elements)
    | _ => return none

section Rows

variable (q : Query) (g : Frame) (depth : Nat) (host : Host)

/-- The condition has a value in a physical row. -/
def IsDecided (row : Nat) : Prop :=
  ∀ condition ∈ q.condition, ∃ v, g.HasValue depth host condition.expression row v

/-- The condition is true of a physical row, or there is none. -/
def takes (row : Nat) : Bool :=
  match q.condition with
  | none => true
  | some condition => g.isTrueOf depth host condition.expression row

/-- The items have certain values in a physical row. -/
def HasValues (row : Nat) (vs : List Value) : Prop :=
  List.Forall₂ (fun item v => g.HasValue depth host item.expression row v) q.items vs

/-- Every item has a value in a physical row. -/
def IsComputed (row : Nat) : Prop :=
  ∀ item ∈ q.items, ∃ v, g.HasValue depth host item.expression row v

/-- The logical rows of which the condition is true. -/
def chosen (f : Frame) : List Nat :=
  (List.range f.rowCount).filter fun row => q.takes g depth host (f.place row)

/-- The condition has a value in every row, and where it is true, every item has a value that fits
into a column of its type. -/
structure IsAnswered (f : Frame) : Prop where
  decided : ∀ row < f.rowCount, q.IsDecided g depth host (f.place row)
  fits : ∀ row ∈ q.chosen g depth host f, ∀ item ∈ q.items,
    ∃ v, g.HasValue depth host item.expression (f.place row) v ∧ (item.type g).Fits v

/-- What a projection makes of a physical row: the values of the items, or nothing. -/
def Outcome (row : Nat) (result : Option (List Value)) : Prop :=
  q.IsDecided g depth host row ∧
    match result with
    | some vs => q.takes g depth host row = true ∧ q.HasValues g depth host row vs
    | none => q.takes g depth host row = false

end Rows

section Values

variable {q : Query} {f g : Frame} {depth : Nat} {host : Host}

/-- The values of some items fit if and only if each item has a value that fits. -/
theorem fitsInto_iff {items : List Item} {row : Nat} {vs : List Value}
    (h : List.Forall₂ (fun item v => g.HasValue depth host item.expression row v) items vs) :
    Frame.FitsInto (items.map (Item.heading g)) vs ↔ ∀ item ∈ items,
      ∃ v, g.HasValue depth host item.expression row v ∧ (item.type g).Fits v := by
  induction h with
  | nil => simp [Frame.FitsInto]
  | @cons item v items vs hv _ ih =>
      rw [List.forall_mem_cons, ← ih, List.map_cons, Frame.FitsInto, List.forall₂_cons]
      refine and_congr_left fun _ => ⟨fun hfits => ⟨v, hv, hfits⟩, ?_⟩
      rintro ⟨v', hv', hfits⟩
      rwa [Frame.HasValue.unique hv hv']

/-- Rows with an outcome are decided, and what is left are the values in those that are taken. -/
theorem forall₂_chosen {rows : List Nat} {results : List (Option (List Value))}
    (h : List.Forall₂ (fun row => q.Outcome g depth host (f.place row)) rows results) :
    (∀ row ∈ rows, q.IsDecided g depth host (f.place row)) ∧
      List.Forall₂ (fun row vs => q.HasValues g depth host (f.place row) vs)
        (rows.filter fun row => q.takes g depth host (f.place row)) (results.filterMap id) := by
  induction h with
  | nil => exact ⟨fun _ h => absurd h List.not_mem_nil, List.Forall₂.nil⟩
  | @cons row result rows results hresult _ ih =>
      refine ⟨List.forall_mem_cons.mpr ⟨hresult.1, ih.1⟩, ?_⟩
      cases result with
      | none =>
          have hleft : q.takes g depth host (f.place row) = false := hresult.2
          rw [List.filter_cons, if_neg (by simp [hleft])]
          exact ih.2
      | some vs =>
          rw [List.filter_cons, if_pos hresult.2.1]
          exact List.Forall₂.cons hresult.2.2 ih.2

theorem isAnswered_iff {rows : List (List Value)}
    (hdecided : ∀ row < f.rowCount, q.IsDecided g depth host (f.place row))
    (h : List.Forall₂ (fun row vs => q.HasValues g depth host (f.place row) vs)
      (q.chosen g depth host f) rows) :
    q.IsAnswered g depth host f ↔
      ∀ vs ∈ rows, Frame.FitsInto (q.items.map (Item.heading g)) vs := by
  have hfits : (∀ row ∈ q.chosen g depth host f, ∀ item ∈ q.items,
      ∃ v, g.HasValue depth host item.expression (f.place row) v ∧ (item.type g).Fits v) ↔
      ∀ vs ∈ rows, Frame.FitsInto (q.items.map (Item.heading g)) vs := by
    generalize q.chosen g depth host f = chosen at h
    induction h with
    | nil => simp
    | cons hvs _ ih => rw [List.forall_mem_cons, List.forall_mem_cons, ih, fitsInto_iff hvs]
  exact ⟨fun h => hfits.mp h.fits, fun h => ⟨hdecided, hfits.mpr h⟩⟩

end Values

namespace IsReady

variable {q : Query} {f g : Frame} {env : Environment} {dataSet : String} {depth : Nat}

/-- A projection that has come to a row is in the place of an expression over the row. -/
theorem isAt (h : q.IsReady f g) (hf : f.WellFormed)
    (hdata : env.dataSets.find? dataSet = some f) (hregistry : env.registry = f.registry)
    (hfunctions : env.functions = ∅) {row : Nat} (hrow : row < f.rowCount) :
    ({ env with projectedRow := some row } : Environment).IsAt (runDeep depth) dataSet f g
      (f.place row) where
  wellFormed := hf
  functions name := by
    change env.functions.find? name = none
    rw [hfunctions]
    rfl
  registry := h.extended.registry.trans hregistry.symm
  data := hdata
  row := ⟨row, rfl, hf.physicalRow?_eq hrow⟩
  column? := h.extended.column?
  read c hc := h.extended.read c hc depth env.host _

theorem meets_elements {items : List Item} {physical : Nat}
    (hat : env.IsAt (runDeep depth) dataSet f g physical)
    (hitems : ∀ item ∈ items, item.expression.every (isOverOnly f.columnNames) = true)
    (s : Store) :
    Meets (evaluateAllWith (runDeep depth) env (items.map (Item.element dataSet))) s
      (fun vs _ =>
        List.Forall₂ (fun item v => g.HasValue depth env.host item.expression physical v) items vs)
      fun _ _ => ¬∀ item ∈ items, ∃ v, g.HasValue depth env.host item.expression physical v := by
  induction items generalizing s with
  | nil => exact meets_pure List.Forall₂.nil
  | cons item items ih =>
      rw [List.map_cons, evaluateAllWith, Item.element, evaluateWith]
      obtain ⟨hitem, hitems⟩ := List.forall_mem_cons.mp hitems
      refine meets_bind ((hat.meets_onto hitem s).imp (fun _ _ => id) ?_) fun v s₁ hv => ?_
      · exact fun _ _ hnone hall => hnone (hall item (by simp))
      · refine meets_bind ((ih hitems s₁).imp (fun _ _ => id) ?_) fun vs s₂ hvs => ?_
        · exact fun _ _ hnone hall => hnone fun item hitem => hall item (by simp [hitem])
        · exact meets_pure (List.Forall₂.cons hv hvs)

theorem meets_projectRow (h : q.IsReady f g) {physical : Nat}
    (hat : env.IsAt (runDeep depth) dataSet f g physical) (s : Store) :
    Meets (projectRow (runDeep depth) env (q.items.map (Item.element dataSet))
        (q.condition.map fun condition => condition.expression.onto dataSet)) s
      (fun result _ => q.Outcome g depth env.host physical result)
      fun _ _ => ¬(q.IsDecided g depth env.host physical ∧
        (q.takes g depth env.host physical = true → q.IsComputed g depth env.host physical)) := by
  have helements : ∀ s, q.IsDecided g depth env.host physical →
      q.takes g depth env.host physical = true →
      Meets (do
        return some (← evaluateAllWith (runDeep depth) env
          (q.items.map (Item.element dataSet)))) s
      (fun result _ => q.Outcome g depth env.host physical result)
      fun _ _ => ¬(q.IsDecided g depth env.host physical ∧
        (q.takes g depth env.host physical = true →
          q.IsComputed g depth env.host physical)) := by
    intro s hdecided htakes
    refine meets_bind ((meets_elements hat (fun item hitem => (h.items item hitem).1) s).imp
      (fun _ _ => id) ?_) fun vs s' hvs => ?_
    · exact fun _ _ hnone hall => hnone (hall.2 htakes)
    · exact meets_pure ⟨hdecided, htakes, hvs⟩
  cases hcondition : q.condition with
  | none =>
      refine helements s ?_ (by simp [takes, hcondition])
      intro condition hmem
      rw [hcondition] at hmem
      cases hmem
  | some condition =>
      refine meets_bind ((hat.meets_onto (h.condition condition hcondition).1 s).imp
        (fun _ _ => id) ?_) fun v s₁ hv => ?_
      · exact fun _ _ hnone hall => hnone (hall.1 condition hcondition)
      · have hdecided : q.IsDecided g depth env.host physical := by
          intro other hother
          rw [hcondition] at hother
          cases hother
          exact ⟨v, hv⟩
        have htakes : q.takes g depth env.host physical = true ↔ v = .boolean true := by
          unfold takes
          rw [hcondition]
          exact hv.isTrueOf_iff
        split
        · exact helements s₁ hdecided (htakes.mpr rfl)
        · rename_i hne
          exact meets_pure ⟨hdecided, Bool.eq_false_iff.mpr fun h => hne (htakes.mp h)⟩

/-- The elements of the projection have the types of the computed columns. -/
theorem inferAll_elements (h : q.IsReady f g) (hdata : env.dataSets.find? dataSet = some f)
    (hregistry : env.registry = f.registry) (hfunctions : env.functions = ∅)
    (vars : Bindings Value) :
    (((env.scope vars).inferAll (q.items.map (Item.element dataSet))).run {}).1 =
      (q.items.map (Item.heading g)).map fun heading => heading.2.toValueType := by
  have hall : ∀ (items : List Item), (∀ item ∈ items, item ∈ q.items) →
      ∀ (enter : EnterFunction) (s : Findings), ((inferAllWith (env.scope vars) enter
        (items.map (Item.element dataSet))).run s).1 =
          (items.map (Item.heading g)).map fun heading => heading.2.toValueType := by
    intro items hitems enter s
    induction items generalizing s with
    | nil => rfl
    | cons item items ih =>
        obtain ⟨hitem, hitems⟩ := List.forall_mem_cons.mp hitems
        obtain ⟨hover, f', hf', hcheck⟩ := h.items item hitem
        have hmirrors := hf'.mirrors hdata hregistry hfunctions vars
        have htype : ((Expr.inferWith (env.scope vars) enter
            (.named item.label (item.expression.onto dataSet))).run s).1 =
              (item.type g).toValueType := by
          rw [inferWith, ← (hmirrors.matches_inferWith item.expression hover {} s rfl).1]
          exact Scope.typeOf_of_check hcheck
        rw [List.map_cons, List.map_cons, List.map_cons, inferAllWith]
        exact congrArg₂ List.cons htype (ih hitems _)
  exact hall q.items (fun _ => id) _ _

theorem projectedFrame_eq_ok (h : q.IsReady f g) {registry : Registry} {name : String}
    {rows : List (List Value)} {p : Frame} :
    projectedFrame registry name (q.items.map (Item.element dataSet))
        ((q.items.map (Item.heading g)).map fun heading => heading.2.toValueType) rows = .ok p ↔
      (∀ vs ∈ rows, Frame.FitsInto (q.items.map (Item.heading g)) vs) ∧
        p = Frame.table registry name (q.items.map (Item.heading g)) rows := by
  refine Frame.projectedFrame_eq_ok ?_ ?_
  · rw [List.map_map, List.map_map]
    rfl
  · rw [List.map_map]
    exact h.labels

/-- If the projection is about any data set, it is about the one. -/
theorem firstDataSet?_projection (h : q.IsReady f g)
    (hpath : (q.projection dataSet).firstDataSet? ≠ none) :
    (q.projection dataSet).firstDataSet? = some dataSet := by
  have helements : ∀ (items : List Item), (∀ item ∈ items, item ∈ q.items) →
      firstDataSetIn? (items.map (Item.element dataSet)) = none ∨
        firstDataSetIn? (items.map (Item.element dataSet)) = some dataSet := by
    intro items hitems
    induction items with
    | nil => exact Or.inl rfl
    | cons item items ih =>
        obtain ⟨hitem, hitems⟩ := List.forall_mem_cons.mp hitems
        exact or_eq_or (firstDataSet?_onto dataSet item.expression (h.items item hitem).1)
          (ih hitems)
  refine Or.resolve_left ?_ hpath
  unfold projection
  cases hcondition : q.condition with
  | none => exact helements q.items fun _ => id
  | some condition =>
      exact or_eq_or (helements q.items fun _ => id)
        (firstDataSet?_onto dataSet condition.expression (h.condition condition hcondition).1)

/-- **A projection succeeds if and only if the query is answered**, and makes a table of the
answers. -/
theorem meets_projection (h : q.IsReady f g) (hf : f.WellFormed)
    (hdata : env.dataSets.find? dataSet = some f) (hregistry : env.registry = f.registry)
    (hfunctions : env.functions = ∅) (hpath : (q.projection dataSet).firstDataSet? ≠ none)
    (s : Store) :
    Meets (env.evaluate depth (q.projection dataSet)) s
      (fun v _ => q.IsAnswered g depth env.host f ∧ ∃ identity rows,
        v = .frame identity
          (Frame.table env.registry dataSet (q.items.map (Item.heading g)) rows) ∧
        List.Forall₂ (fun row vs => q.HasValues g depth env.host (f.place row) vs)
          (q.chosen g depth env.host f) rows)
      fun _ _ => ¬q.IsAnswered g depth env.host f := by
  have hfirst := h.firstDataSet?_projection hpath
  unfold Environment.evaluate
  unfold projection at hfirst ⊢
  rw [evaluateWith, hfirst]
  dsimp only
  rw [hdata]
  dsimp only
  refine meets_bind (meets_get (Q := fun s₁ _ => s₁ = s) rfl) ?_
  rintro _ s₁ rfl
  -- The types are inferred before any row is read, so they are those of the computed columns.
  rw [h.inferAll_elements hdata hregistry hfunctions]
  refine meets_bind (meets_filterMapM_forall₂
    (R := fun row => q.Outcome g depth env.host (f.place row)) (I := fun _ => True) ?_ trivial) ?_
  · intro row hrow s _
    have hlt := List.mem_range.mp hrow
    refine (h.meets_projectRow (h.isAt hf hdata hregistry hfunctions hlt) s).imp
      (fun _ _ hresult => ⟨hresult, trivial⟩) fun _ _ hnone hanswered => hnone ?_
    -- A row that is not taken may hold items without a value.
    refine ⟨hanswered.decided row hlt, fun htakes item hitem => ?_⟩
    obtain ⟨v, hv, _⟩ := hanswered.fits row (List.mem_filter.mpr ⟨hrow, htakes⟩) item hitem
    exact ⟨v, hv⟩
  · rintro _ s₂ ⟨⟨results, hresults, rfl⟩, _⟩
    obtain ⟨hdecided, hvalues⟩ := forall₂_chosen hresults
    have hanswered :=
      isAnswered_iff (fun row hrow => hdecided row (List.mem_range.mpr hrow)) hvalues
    -- All values are there, and what can still fail is to store them.
    refine meets_bind (meets_orReport (Q := fun p _ =>
      (∀ vs ∈ results.filterMap id, Frame.FitsInto (q.items.map (Item.heading g)) vs) ∧
        p = Frame.table env.registry dataSet (q.items.map (Item.heading g)) (results.filterMap id))
      (fun p hp => h.projectedFrame_eq_ok.mp hp) ?_) ?_
    · intro e he hall
      rw [h.projectedFrame_eq_ok.mpr ⟨hanswered.mp hall, rfl⟩] at he
      cases he
    · rintro _ s₃ ⟨hfits, rfl⟩
      exact meets_newFrame ⟨hanswered.mpr hfits, _, _, rfl, hvalues⟩

end IsReady

end Query
end FrameLang
