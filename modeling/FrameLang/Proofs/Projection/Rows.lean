/-
An expression has the same value over a row as over the fields of a data set.

In a row of a frame a variable is looked up among the columns.  In a projection that has come to
that row a field is read from the data set.  Both read a column of a frame at the same physical
place, but not of the same frame: computed columns may have been added to the one that the
expression is evaluated over.  Columns that were there before are read alike in both
(`Frame.Extends`), since no expression in question assigns a variable that could be taken for one of
the later columns.

So `e` over a row of the extended frame is simulated by `e.onto dataSet` in the projection
(`simulates_onto`).  The only thing to see besides the reads is widening, where the evaluator infers
the type of the other branch: by `Proofs/Projection/Substitution.lean` that is the same too.
-/
import FrameLang.Proofs.Frame.ColumnOrder
import FrameLang.Proofs.Frame.Partition
import FrameLang.Proofs.Frame.TypeSafety
import FrameLang.Proofs.Projection.Substitution

namespace FrameLang

open Run FrameLang.Expr

/-! ### Further columns -/

namespace Frame

/-- The second frame has the rows and columns of the first, which are read alike, and perhaps
further columns. -/
structure Extends (g f : Frame) : Prop where
  registry : g.registry = f.registry
  rowCount : g.rowCount = f.rowCount
  order : g.order = f.order
  column? : ∀ name ∈ f.columnNames, g.column? name = f.column? name
  read : ∀ c ∈ f.columns, ∀ depth host row,
    EndAlike (g.readColumn (runDeep depth) host c row) (f.readColumn (runDeep depth) host c row)

namespace Extends

variable {f g h : Frame}

theorem refl (f : Frame) : f.Extends f where
  registry := rfl
  rowCount := rfl
  order := rfl
  column? _ _ := rfl
  read c _ depth host row :=
    (ShowsAs.refl f row).readsAs host depth c c (Column.ShowsAs.refl row c)

theorem mem_columns (hg : g.Extends f) (hf : f.WellFormed) {c : Column} (hc : c ∈ f.columns) :
    c ∈ g.columns := by
  have hcolumn := hg.column? c.name (List.mem_map_of_mem hc)
  rw [hf.column?_name hc] at hcolumn
  exact mem_of_column? hcolumn

theorem trans (hh : h.Extends g) (hg : g.Extends f) (hf : f.WellFormed) : h.Extends f where
  registry := hh.registry.trans hg.registry
  rowCount := hh.rowCount.trans hg.rowCount
  order := hh.order.trans hg.order
  column? name hname := by
    obtain ⟨c, hc, rfl⟩ := List.mem_map.mp hname
    rw [hh.column? _ (List.mem_map_of_mem (hg.mem_columns hf hc)), hg.column? _ hname]
  read c hc depth host row s s' :=
    (hh.read c (hg.mem_columns hf hc) depth host row s s').trans
      (hg.read c hc depth host row s' s')

theorem physicalRow? (hg : g.Extends f) (row : Nat) : g.physicalRow? row = f.physicalRow? row := by
  unfold Frame.physicalRow? rows
  rw [hg.rowCount, hg.order]

end Extends

/-- Expressions without assignments assign no name. -/
theorem HasSimpleColumns.isUnassigned {f : Frame} (hf : f.HasSimpleColumns) (name : String) :
    f.IsUnassigned name := by
  intro c hc source e t hcontent
  refine every_imp (fun node hnode => ?_) e (hf c hc source e t hcontent)
  cases node with
  | assign => cases hnode
  | _ => rfl

/-- A computed column extends a frame whose expressions assign nothing. -/
theorem extends_withComputed {f g : Frame} (hwf : f.WellFormed) (hf : f.Declared)
    (hsimple : f.HasSimpleColumns) {name source : String}
    (hg : f.withComputed name source = .ok g) : g.Extends f := by
  obtain ⟨e, t, _, _, _, hname, rfl⟩ := withComputed_eq_ok.mp hg
  refine ⟨rfl, rfl, rfl, ?_, ?_⟩
  · intro other hother
    refine ((hwf.alike_extend hname).column? other ?_).symm
    rintro rfl
    rw [hwf.mem_columnNames, hname] at hother
    cases hother
  · intro c hc depth host row s s'
    have hfree : f.IsFreeOf name true :=
      hf.isFreeOf (column?_eq_none hname) (hsimple.isUnassigned name)
    have hsame := same_readColumn_extend (d := { name, content := .computed source e t }) hwf hname
      hfree host row depth hc s
    -- The reads could differ only where an expression looks the new name up, and none does.
    rcases hsame.eq_or_lost with heq | ⟨_, _, _, hlooks, _⟩
    · rw [← heq]
      exact (Extends.refl f).read c hc depth host row s s'
    · cases hlooks

end Frame

/-! ### The row that a projection has come to -/

/-- An environment has come to a physical row of a data set, whose columns another frame has too and
reads alike there. -/
structure Environment.IsAt (env : Environment) (deeper : RunStatements) (dataSet : String)
    (f g : Frame) (physical : Nat) : Prop where
  wellFormed : f.WellFormed
  functions : ∀ name, env.functions.find? name = none
  registry : g.registry = env.registry
  data : env.dataSets.find? dataSet = some f
  row : ∃ row, env.projectedRow = some row ∧ f.physicalRow? row = some physical
  column? : ∀ name ∈ f.columnNames, g.column? name = f.column? name
  read : ∀ c ∈ f.columns, EndAlike (g.readColumn deeper env.host c physical)
    (f.readColumn deeper env.host c physical)

/-- There are no variables on the left hand side, and on the right hand side they do not matter. -/
def NoVariables (vars _vars' : Bindings Value) : Prop := vars = ∅

namespace Environment.IsAt

variable {env : Environment} {deeper : RunStatements} {dataSet : String} {f g : Frame}
  {physical : Nat}

theorem mirrors (h : env.IsAt deeper dataSet f g physical) {vars vars' : Bindings Value}
    (hvars : NoVariables vars vars') :
    ((Environment.ofRow env.host g physical).scope vars).Mirrors f.columnNames dataSet
      (env.scope vars') where
  functions _ := rfl
  functions' := h.functions
  registry := h.registry
  fields := by
    refine ⟨f, h.data, fun name hname => ?_⟩
    obtain rfl : vars = ∅ := hvars
    change g.columnType? name = f.columnType? name
    unfold Frame.columnType?
    rw [h.column? name hname]

theorem simulates_var (h : env.IsAt deeper dataSet f g physical) {name : String}
    (hname : name ∈ f.columnNames) :
    Simulates NoVariables ((Expr.var name).evaluateWith deeper (.ofRow env.host g physical))
      ((Expr.path dataSet [name]).evaluateWith deeper env) := by
  obtain ⟨row, hrow, hphysical⟩ := h.row
  obtain ⟨c, hc⟩ : ∃ c, f.column? name = some c := by
    obtain ⟨c, hc, rfl⟩ := List.mem_map.mp hname
    exact ⟨c, h.wellFormed.column?_name hc⟩
  have hmem : c ∈ f.columns := Frame.mem_of_column? hc
  rw [evaluateWith, evaluateWith]
  -- A variable looks at the store first, where a row has none of its own.
  refine (simulates_get_left fun s s' hvars => ?_).reporting_left
  rw [show s.vars = ∅ from hvars]
  unfold readPath Frame.readNamed
  simp only [Bindings.find?_empty, ofRow, h.data, hrow, fieldName_single, h.column? name hname, hc,
    hphysical]
  exact (h.read c hmem).simulates (fun _ => keeps_readColumn deeper env.host g c physical)
    fun _ => keeps_readColumn deeper env.host f c physical

theorem simulates_widen (h : env.IsAt deeper dataSet f g physical) (v : Value) {other : Expr}
    (hother : other.every (isOverOnly f.columnNames) = true) :
    Simulates NoVariables (widen (.ofRow env.host g physical) v other)
      (widen env v (other.onto dataSet)) :=
  FrameLang.simulates_widen (fun _ _ hvars => (h.mirrors hvars).typeOf_onto hother) v

mutual

/-- **An expression over a row is simulated by the expression over fields.** -/
theorem simulates_onto (h : env.IsAt deeper dataSet f g physical) (e : Expr)
    (he : e.every (isOverOnly f.columnNames) = true) :
    Simulates NoVariables (e.evaluateWith deeper (.ofRow env.host g physical))
      ((e.onto dataSet).evaluateWith deeper env) := by
  cases e with
  | literal v => exact simulates_pure _
  | var name => exact h.simulates_var (List.contains_iff_mem.mp he)
  | unary op e =>
      simp only [every, Bool.and_eq_true] at he
      rw [onto, evaluateWith, evaluateWith]
      exact (simulates_onto h e he.2).bind fun _ => simulates_orReport _
  | binary op l r =>
      simp only [every, Bool.and_eq_true] at he
      have hl := simulates_onto h l he.1.2
      have hr := simulates_onto h r he.2
      cases op with
      | connective op =>
          rw [onto, evaluateWith, evaluateWith]
          refine hl.bind fun left => (simulates_orReport _).bind fun settled => ?_
          split
          · exact simulates_pure _
          · exact hr.bind fun _ => simulates_orReport _
      | _ =>
          rw [onto, evaluateWith, evaluateWith]
          exact hl.bind fun _ => hr.bind fun _ => simulates_orReport _
  | call name es =>
      simp only [every, Bool.and_eq_true] at he
      rw [onto, evaluateWith, evaluateWith]
      refine (simulates_ontoAll h es he.2).bind fun arguments => ?_
      refine simulates_call ?_ h.registry ?_ (h.functions _) arguments
      · rfl
      · rfl
  | ifElse c t e =>
      cases e with
      | none =>
          simp only [every, Bool.and_eq_true] at he
          rw [onto, evaluateWith, evaluateWith]
          exact (simulates_onto h c he.1.2).bind fun v =>
            (simulates_onto h t he.2).choose (simulates_pure _) v
      | some e =>
          simp only [every, Bool.and_eq_true] at he
          have ht := simulates_onto h t he.1.2
          have he' := simulates_onto h e he.2
          rw [onto, evaluateWith, evaluateWith]
          refine (simulates_onto h c he.1.1.2).bind fun v => Simulates.choose ?_ ?_ v
          · exact ht.bind fun v => h.simulates_widen v he.2
          · exact he'.bind fun v => h.simulates_widen v he.1.2
  | assign name e | path other field => cases he
  | project es filter => exact absurd he (every_project_ne_true rfl)
  | named name e =>
      simp only [every, Bool.and_eq_true] at he
      rw [onto, evaluateWith, evaluateWith]
      exact simulates_onto h e he.2
  | vector es =>
      simp only [every, Bool.and_eq_true] at he
      rw [onto, evaluateWith, evaluateWith]
      exact (simulates_ontoAll h es he.2).bind fun _ => simulates_pure _
  | index v i =>
      simp only [every, Bool.and_eq_true] at he
      rw [onto, evaluateWith, evaluateWith]
      refine (simulates_onto h v he.1.2).bind fun _ => ?_
      exact (simulates_onto h i he.2).bind fun _ => simulates_orReport _
  | sequence es =>
      simp only [every, Bool.and_eq_true] at he
      rw [onto, evaluateWith, evaluateWith, evaluateStatementsWith_eq, evaluateStatementsWith_eq]
      exact (simulates_ontoAll h es he.2).bind fun _ => simulates_pure _
termination_by structural e

theorem simulates_ontoAll (h : env.IsAt deeper dataSet f g physical) (es : List Expr)
    (hes : everyIn (isOverOnly f.columnNames) es = true) :
    Simulates NoVariables (evaluateAllWith deeper (.ofRow env.host g physical) es)
      (evaluateAllWith deeper env (ontoAll dataSet es)) := by
  cases es with
  | nil => exact simulates_pure _
  | cons e es =>
      simp only [everyIn, Bool.and_eq_true] at hes
      rw [ontoAll, evaluateAllWith, evaluateAllWith]
      refine (simulates_onto h e hes.1).bind fun _ => ?_
      exact (simulates_ontoAll h es hes.2).bind fun _ => simulates_pure _
termination_by structural es

end

/-- The expression over fields ends with the value that the expression has in the row, and stops
only if there is none. -/
theorem meets_onto {depth : Nat} (h : env.IsAt (runDeep depth) dataSet f g physical) {e : Expr}
    (he : e.every (isOverOnly f.columnNames) = true) (s : Store) :
    Meets ((e.onto dataSet).evaluateWith (runDeep depth) env) s
      (fun v _ => g.HasValue depth env.host e physical v)
      fun _ _ => ¬∃ v, g.HasValue depth env.host e physical v := by
  have hresult : ∀ s₁, (g.evaluateOnRow depth env.host e physical s₁ :
      Except Stop Value × Store).1 = ((e.onto dataSet).evaluateWith (runDeep depth) env s).1 :=
    fun s₁ => (h.simulates_onto e he { s₁ with vars := ∅ } s rfl).1
  refine meets_iff.mpr ⟨fun v _ hrun s₁ => ?_, fun stop _ hrun => ?_⟩
  · rw [hresult, hrun]
  · rintro ⟨v, hv⟩
    have hvalue := (hresult s).symm.trans (hv s)
    rw [hrun] at hvalue
    cases hvalue

end Environment.IsAt

end FrameLang
