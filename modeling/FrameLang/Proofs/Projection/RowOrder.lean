/-
Projections of a data set in another order of its rows.

Sorting a data set changes the order of its rows and nothing else, so a projection should make of a
sorted copy the table that it makes of the data set, with the rows in another order.  It does so if
it takes the rows one at a time, with one exception, which is where a column gets its type from: if
no type is known of an element, the first value decides, and a long that comes first makes a column
that takes no doubles (`Narrows`).

The proof goes through the evaluator once, with two runs side by side (`ignoresOrder`), and up
through the bodies of functions (`ignoreOrder_runDeep`).  What a projection adds is that its rows
come in another order.  Its variables stay what they were through all rows, so each row gives the
values that it gave in the other order; the values of a row that fits into columns hold no frames,
so they are not only alike but the same; and the rest is `projectedFrame_perm`.
-/
import FrameLang.Proofs.Projection.Query
import FrameLang.Proofs.Projection.Reordering
import FrameLang.Proofs.Projection.Rowwise

namespace FrameLang

open Run

/-! ### Projections -/

section Projections

variable {dataSet : String} {E : Stop → Prop} {R : Pairing} {deeper : RunStatements}
  {env env' : Environment} {elements : List Expr} {filter : Option Expr}

theorem evaluateWith_project {name : String} {f : Frame}
    (hname : (Expr.project elements filter).firstDataSet? = some name)
    (hf : env.dataSets.find? name = some f) :
    (Expr.project elements filter).evaluateWith deeper env = (do
      let types := (((env.scope (← get).vars).inferAll elements).run {}).1
      let rows ← (List.range f.rowCount).filterMapM fun row =>
        Query.projectRow deeper { env with projectedRow := some row } elements filter
      newFrame (← orReport (projectedFrame env.registry name elements types rows))) := by
  rw [Expr.evaluateWith, hname]
  dsimp only
  rw [hf]
  rfl

/-- What a projection has done that ends with a result. -/
theorem exists_of_project_eq_ok {v : Value} {s s₁ : Store}
    (h : (Expr.project elements filter).evaluateWith deeper env s = (.ok v, s₁)) :
    ∃ name f rows s₂ g, (Expr.project elements filter).firstDataSet? = some name ∧
      env.dataSets.find? name = some f ∧
      ((List.range f.rowCount).filterMapM fun row =>
        Query.projectRow deeper { env with projectedRow := some row } elements filter) s =
          (.ok rows, s₂) ∧
      projectedFrame env.registry name elements
        (((env.scope s.vars).inferAll elements).run {}).1 rows = .ok g ∧
      v = .frame s₂.nextIdentity g ∧ s₁ = { s₂ with nextIdentity := s₂.nextIdentity + 1 } := by
  cases hname : (Expr.project elements filter).firstDataSet? with
  | none =>
      rw [Expr.evaluateWith, hname] at h
      cases h
  | some name =>
  cases hf : env.dataSets.find? name with
  | none =>
      rw [Expr.evaluateWith, hname] at h
      dsimp only at h
      rw [hf] at h
      cases h
  | some f =>
  rw [evaluateWith_project hname hf] at h
  obtain ⟨_, _, ⟨⟩, h⟩ := exists_of_run_bind h
  obtain ⟨rows, s₂, hloop, h⟩ := exists_of_run_bind h
  obtain ⟨g, s₃, hframe, ⟨⟩⟩ := exists_of_run_bind h
  obtain ⟨hg, rfl⟩ := eq_ok_of_run_orReport hframe
  exact ⟨name, f, rows, s₃, g, rfl, hf, hloop, hg, rfl, rfl⟩

theorem follows_projectRow
    (helements : ∀ S, R ≤ S → Follows E (fun S => List.Forall₂ (Value.Like S)) S
      (Expr.evaluateAllWith deeper env elements) (Expr.evaluateAllWith deeper env' elements))
    (hfilter : ∀ e ∈ filter, Follows E Value.Like R (e.evaluateWith deeper env)
      (e.evaluateWith deeper env')) :
    Follows E (fun S => Option.Rel (List.Forall₂ (Value.Like S))) R
      (Query.projectRow deeper env elements filter)
      (Query.projectRow deeper env' elements filter) := by
  have htaken : ∀ S, R ≤ S → Follows E (fun S => Option.Rel (List.Forall₂ (Value.Like S))) S
      (do return some (← Expr.evaluateAllWith deeper env elements))
      (do return some (← Expr.evaluateAllWith deeper env' elements)) := fun S hRS =>
    (helements S hRS).bind fun _ _ _ _ hvs =>
      follows_pure fun _ hST => .some (Value.Like.forall₂_mono hST hvs)
  unfold Query.projectRow
  cases filter with
  | none => exact htaken R (le_refl R)
  | some filter =>
      refine (hfilter filter rfl).bind fun S hRS v w hvw => ?_
      cases hvw with
      | plain =>
          split
          · exact htaken S hRS
          · exact follows_pure fun _ _ => .none
      | vector | frame => exact follows_pure fun _ _ => .none

theorem Run.Composes.projectRow {P : ∀ {α : Type}, Run α → Prop} (h : Composes P)
    (helements : P (Expr.evaluateAllWith deeper env elements))
    (hfilter : ∀ e ∈ filter, P (e.evaluateWith deeper env)) :
    P (Query.projectRow deeper env elements filter) := by
  have htaken : P (do return some (← Expr.evaluateAllWith deeper env elements)) :=
    h.bind helements fun _ _ _ _ => h.pure _
  unfold Query.projectRow
  cases filter with
  | none => exact htaken
  | some filter =>
      refine h.bind (hfilter filter rfl) fun v _ _ _ => ?_
      split
      · exact htaken
      · exact h.pure none

/-- Where nothing is assigned, a row leaves the variables as they were. -/
theorem leaves_projectRow (hdeeper : ∀ env es, CountsUp (deeper env es))
    (hassign : ∀ node ∈ Expr.nodesIn true (elements ++ filter.toList), node.isNoAssignment = true)
    (env : Environment) : Leaves (Query.projectRow deeper env elements filter) := by
  rw [Expr.nodesIn_parts] at hassign
  have helements : Expr.everyIn Expr.isNoAssignment elements = true :=
    (Expr.everyIn_iff elements).mpr fun node hnode => hassign node (List.mem_append_left _ hnode)
  have hfilter : ∀ e ∈ filter, e.every Expr.isNoAssignment = true := by
    rintro e rfl
    exact (Expr.every_iff e).mpr fun node hnode => hassign node (List.mem_append_right _ hnode)
  refine CountsUp.leaves ?_ fun vars => ?_
  · exact composes_countsUp.projectRow (Expr.countsUp_evaluateAllWith hdeeper env elements)
      fun e _ => Expr.countsUp_evaluateWith hdeeper env e
  · exact composes_keeps.projectRow
      (Expr.keeps_evaluateAllWith (fun _ _ => nofun) deeper elements helements env)
      fun e he => Expr.keeps_evaluateWith (fun _ _ => nofun) deeper e (hfilter e he) env

/-- The projection cannot take a double into a column that has doubles in `g`, because no type is
known of its element and a long comes first. -/
def Narrows (elements : List Expr) (types : List ValueType) (g : Frame) (stop : Stop) : Prop :=
  ∃ d e, (e, ValueType.void) ∈ elements.zip types ∧
    (e.columnName, ValueType.double) ∈ g.columns.map (fun c => (c.name, c.type)) ∧
    stop = .failed (.configuration (.misfit (Value.double d).literalText e.columnName .long))

theorem Narrows.isMisfitOf {types : List ValueType} {g : Frame} {stop : Stop}
    (h : Narrows elements types g stop) : stop.IsMisfitOf elements := by
  obtain ⟨d, e, he, -, rfl⟩ := h
  exact ⟨d, e, (List.of_mem_zip he).1, rfl⟩

theorem isPlain_of_fits {type : ScalarType} {v : Value} (h : type.Fits v) : v.IsPlain := by
  rcases ScalarType.fits_iff.mp h with rfl | htype | ⟨htype, _⟩
  · exact Value.isPlain_void
  · exact Value.isPlain_of_type htype (by cases type <;> nofun) (by cases type <;> nofun)
  · exact Value.isPlain_of_type htype nofun nofun

/-- What a projection can make a column of is neither a vector nor a frame. -/
theorem isPlain_of_projectedFrame {registry : Registry} {name : String} {types : List ValueType}
    {rows : List (List Value)} {g : Frame}
    (h : projectedFrame registry name elements types rows = .ok g) :
    ∀ vs ∈ rows, ∀ v ∈ vs, v.IsPlain := by
  obtain ⟨headings, _, _, hfits, _⟩ := Frame.exists_headings_of_projectedFrame h
  intro vs hvs v hv
  obtain ⟨i, hi⟩ := List.mem_iff_getElem?.mp hv
  obtain ⟨hlt, rfl⟩ := List.getElem?_eq_some_iff.mp hi
  have hrow := hfits vs hvs
  exact isPlain_of_fits (hrow.get (hrow.length_eq ▸ hlt) hlt)

/-- **A projection over rows in another order** makes a frame of the same rows, or fails because
evaluating a row does or because one of its columns is narrow now. -/
theorem meets_project_reordered (henv : env.SameRows dataSet env')
    (hname : (Expr.project elements filter).firstDataSet? = some dataSet)
    (hleaves : ∀ env, Leaves (Query.projectRow deeper env elements filter))
    (hrows : ∀ row row', Environment.ShowsThere { env with projectedRow := some row }
        { env' with projectedRow := some row' } dataSet →
      Follows E (fun S => Option.Rel (List.Forall₂ (Value.Like S))) R
        (Query.projectRow deeper { env with projectedRow := some row } elements filter)
        (Query.projectRow deeper { env' with projectedRow := some row' } elements filter))
    {s s' s₁ : Store} (hs : Paired R s s') {i : Nat} {g : Frame}
    (hrun : (Expr.project elements filter).evaluateWith deeper env s = (.ok (.frame i g), s₁)) :
    Meets ((Expr.project elements filter).evaluateWith deeper env') s'
      (fun w s₁' => ∃ S, R ≤ S ∧ (Value.frame i g).Like S w ∧ Paired S s₁ s₁')
      fun stop _ => E stop ∨
        Narrows elements (((env.scope s.vars).inferAll elements).run {}).1 g stop := by
  obtain ⟨name, f, rows, s₂, p, hfirst, hf, hloop, hp, ⟨⟩, rfl⟩ := exists_of_project_eq_ok hrun
  cases hname.symm.trans hfirst
  obtain ⟨g, hg, hfg⟩ := exists_of_rel_some henv.reordered hf
  obtain ⟨places, hplaces, hshows⟩ := hfg.places
  rw [evaluateWith_project hname hg]
  have hthere : ∀ a b, f.ShowsThere g a b →
      Environment.ShowsThere { env with projectedRow := some a }
        { env' with projectedRow := some b } dataSet := by
    rintro a b hab _ ⟨⟩
    refine ⟨b, rfl, fun f' g' hf' hg' => ?_⟩
    cases hf.symm.trans hf'
    cases hg.symm.trans hg'
    exact hab
  obtain ⟨rows', hperm, hmeets⟩ := meets_filterMapM_perm (fun _ => hleaves _) (fun _ => hleaves _)
    hplaces hshows (fun a b hab => hrows a b (hthere a b hab)) hs hloop
    (isPlain_of_projectedFrame hp)
  refine meets_bind (meets_get (Q := fun t t' => t = s' ∧ t' = s') ⟨rfl, rfl⟩) ?_
  rintro _ _ ⟨rfl, rfl⟩
  refine meets_bind (hmeets.imp (fun _ _ => id) fun _ _ => Or.inl) ?_
  rintro _ s₂' ⟨rfl, hs₂⟩
  rw [← (henv.agrees hs.vars).inferAll_eq, ← henv.registry]
  rcases Frame.projectedFrame_perm hp hperm with ⟨p', hp', hsame⟩ | ⟨d, e, he, hdouble, hp'⟩
  · rw [hp']
    refine meets_bind (meets_pure (Q := fun q t => q = p' ∧ t = s₂') ⟨rfl, rfl⟩) ?_
    rintro _ _ ⟨rfl, rfl⟩
    exact meets_newFrame ⟨_, fun _ _ => Or.inl, .frame (Or.inr ⟨rfl, rfl⟩) hsame, hs₂.newFrame⟩
  · rw [hp']
    exact meets_report (Or.inr ⟨d, e, he, hdouble, rfl⟩)

/-- A projection that has nothing to do with the reordered data set goes over the same rows. -/
theorem follows_project (henv : env.SameRows dataSet env')
    (hother : ∀ name ∈ Expr.concerned elements filter, name ≠ dataSet)
    (hrows : ∀ row S, R ≤ S → Follows E (fun S => Option.Rel (List.Forall₂ (Value.Like S))) S
      (Query.projectRow deeper { env with projectedRow := some row } elements filter)
      (Query.projectRow deeper { env' with projectedRow := some row } elements filter)) :
    Follows E Value.Like R ((Expr.project elements filter).evaluateWith deeper env)
      ((Expr.project elements filter).evaluateWith deeper env') := by
  intro S hRS s s' hs v s₁ hrun
  obtain ⟨name, f, _, _, _, hname, hf, _⟩ := exists_of_project_eq_ok hrun
  have hg := henv.others name (hother name (Expr.mem_concerned_of_firstDataSet? hname)) ▸ hf
  have hfollows : Follows E Value.Like R ((Expr.project elements filter).evaluateWith deeper env)
      ((Expr.project elements filter).evaluateWith deeper env') := by
    rw [evaluateWith_project hname hf, evaluateWith_project hname hg]
    refine follows_get_bind fun S hRS s s' hs => ?_
    refine (follows_filterMapM fun row T hST => hrows row T (hRS.trans hST)).bind ?_
    intro T _ rows rows' hrows
    rw [← (henv.agrees hs.vars).inferAll_eq, ← henv.registry]
    refine (follows_orReport (Q := fun _ p p' => p' = p) fun U _ _ p hp => ?_).bind ?_
    · exact ⟨p, (eq_of_forall₂_forall₂_like hrows (isPlain_of_projectedFrame hp)).symm ▸ hp, rfl⟩
    · rintro U _ _ p rfl
      exact follows_newFrame (.refl p)
  exact hfollows S hRS s s' hs v s₁ hrun

end Projections

/-! ### Expressions -/

namespace Expr

section Evaluation

variable {dataSet : String} {kind : Expr → Prop} {E : Stop → Prop} {deeper : RunStatements}

/-- The expression has alike values in environments that are the same up to the order of the rows of
a data set, or fails in the second one for a reason among `E`. -/
def IgnoresOrder (dataSet : String) (kind : Expr → Prop) (E : Stop → Prop) (deeper : RunStatements)
    (e : Expr) : Prop :=
  ∀ env env' : Environment, env.SameRows dataSet env' → env.IgnoresOrder dataSet kind E →
    (∀ node ∈ e.nodes false, node.StandsIn kind env env') → ∀ R,
      Follows E Value.Like R (e.evaluateWith deeper env) (e.evaluateWith deeper env')

/-- The same of expressions that are evaluated one after another. -/
def AllIgnoreOrder (dataSet : String) (kind : Expr → Prop) (E : Stop → Prop)
    (deeper : RunStatements) (es : List Expr) : Prop :=
  ∀ env env' : Environment, env.SameRows dataSet env' → env.IgnoresOrder dataSet kind E →
    (∀ node ∈ nodesIn false es, node.StandsIn kind env env') → ∀ R,
      Follows E (fun S => List.Forall₂ (Value.Like S)) R (evaluateAllWith deeper env es)
        (evaluateAllWith deeper env' es)

section Rows

variable {env env' : Environment} {elements : List Expr} {filter : Option Expr}

/-- In the rows that a projection has come to, its elements and its filter do the same. -/
theorem standsIn_of_kind {row row' : Nat}
    (hkind : ∀ node ∈ nodesIn true (elements ++ filter.toList), kind node)
    (hthere : ∀ name ∈ concerned elements filter,
      Environment.ShowsThere { env with projectedRow := some row }
        { env' with projectedRow := some row' } name) :
    ∀ node ∈ nodesIn false (elements ++ filter.toList),
      node.StandsIn kind { env with projectedRow := some row }
        { env' with projectedRow := some row' } := by
  intro node hnode
  have hinside := nodesIn_false_subset _ hnode
  cases node with
  | path name field => exact hthere name (mem_concerned_of_path hnode)
  | call name arguments => exact Or.inr (hkind _ hinside)
  | project es inner => exact Or.inr fun n hn => hkind n (nodesIn_subset _ hinside hn)
  | _ => trivial

/-- Rows that show the same give the same values, provided that elements and filter do. -/
theorem follows_rows (henv : env.SameRows dataSet env') (hfair : env.IgnoresOrder dataSet kind E)
    (hkind : ∀ node ∈ nodesIn true (elements ++ filter.toList), kind node)
    (helements : AllIgnoreOrder dataSet kind E deeper elements)
    (hfilter : ∀ e ∈ filter, e.IgnoresOrder dataSet kind E deeper) (R : Pairing) {row row' : Nat}
    (hthere : ∀ name ∈ concerned elements filter,
      Environment.ShowsThere { env with projectedRow := some row }
        { env' with projectedRow := some row' } name) :
    Follows E (fun S => Option.Rel (List.Forall₂ (Value.Like S))) R
      (Query.projectRow deeper { env with projectedRow := some row } elements filter)
      (Query.projectRow deeper { env' with projectedRow := some row' } elements filter) := by
  have hstands := standsIn_of_kind hkind hthere
  rw [nodesIn_parts] at hstands
  refine follows_projectRow (fun S _ => ?_) fun e he => ?_
  · exact helements _ _ (henv.atRow row row') (hfair.atRow row)
      (fun n hn => hstands n (List.mem_append_left _ hn)) S
  · refine hfilter e he _ _ (henv.atRow row row') (hfair.atRow row)
      (fun n hn => hstands n (List.mem_append_right _ ?_)) R
    rw [he]
    exact hn

/-- **A projection makes the same table up to the order of rows**, provided that its elements and
its filter do the same, or it fails because they do or because a column is narrow now. -/
theorem meets_project_rowwise (henv : env.SameRows dataSet env')
    (hfair : env.IgnoresOrder dataSet kind E)
    (hrowwise : (project elements filter).isRowwise dataSet = true)
    (hkind : ∀ node ∈ nodesIn true (elements ++ filter.toList), kind node)
    (hcounts : ∀ env es, CountsUp (deeper env es))
    (helements : AllIgnoreOrder dataSet kind E deeper elements)
    (hfilter : ∀ e ∈ filter, e.IgnoresOrder dataSet kind E deeper) {R : Pairing}
    {s s' s₁ : Store} (hs : Paired R s s') {i : Nat} {g : Frame}
    (hrun : (project elements filter).evaluateWith deeper env s = (.ok (.frame i g), s₁)) :
    Meets ((project elements filter).evaluateWith deeper env') s'
      (fun w s₁' => ∃ S, R ≤ S ∧ (Value.frame i g).Like S w ∧ Paired S s₁ s₁')
      fun stop _ => E stop ∨ dataSet ∈ concerned elements filter ∧
        Narrows elements (((env.scope s.vars).inferAll elements).run {}).1 g stop := by
  rcases isRowwise_project.mp hrowwise with hother | ⟨hself, hassign⟩
  · refine (follows_project henv hother (fun row S _ => ?_) R (le_refl R) s s' hs _ s₁ hrun).imp
      (fun _ _ => id) fun _ _ => Or.inl
    refine follows_rows henv hfair hkind helements hfilter S fun name hname => ?_
    rintro _ ⟨⟩
    refine ⟨row, rfl, fun f g hf hg => ?_⟩
    cases hf.symm.trans ((henv.others name (hother name hname)).trans hg)
    exact f.showsThere_refl row
  · obtain ⟨name, _, _, _, _, hfirst, _⟩ := exists_of_project_eq_ok hrun
    have hmem := mem_concerned_of_firstDataSet? hfirst
    cases hself name hmem
    refine (meets_project_reordered henv hfirst (leaves_projectRow hcounts hassign)
      (fun row row' hthere => ?_) hs hrun).imp (fun _ _ => id)
      fun _ _ => Or.imp_right fun hnarrows => ⟨hmem, hnarrows⟩
    exact follows_rows henv hfair hkind helements hfilter R fun name hname =>
      (hself name hname).symm ▸ hthere

end Rows

/-! ### The parts of an expression -/

section Parts

variable {c t e l r : Expr} {es : List Expr}

theorem ignoresOrder_unary {op : UnaryOp} (h : e.IgnoresOrder dataSet kind E deeper) :
    (unary op e).IgnoresOrder dataSet kind E deeper := by
  intro env env' henv hfair he R
  rw [evaluateWith, evaluateWith]
  refine (h _ _ henv hfair (fun n hn => he n (by simp [nodes, hn])) R).bind fun S _ v w hvw => ?_
  exact follows_plain fun _ hST _ => (hvw.mono hST).unary op

theorem ignoresOrder_binary {op : BinaryOp} (hop : ∀ c, op ≠ .connective c)
    (hl : l.IgnoresOrder dataSet kind E deeper) (hr : r.IgnoresOrder dataSet kind E deeper) :
    (binary op l r).IgnoresOrder dataSet kind E deeper := by
  intro env env' henv hfair he R
  have hoperands : ∀ f : Value → Value → Except Error Value,
      (∀ S, Relator.BiUnique S → ∀ v v' w w', v.Like S v' → w.Like S w' →
        Value.Follows (f v w) (f v' w')) →
      Follows E Value.Like R
        (do
          let left ← l.evaluateWith deeper env
          let right ← r.evaluateWith deeper env
          orReport (f left right))
        (do
          let left ← l.evaluateWith deeper env'
          let right ← r.evaluateWith deeper env'
          orReport (f left right)) := by
    intro f hf
    refine (hl _ _ henv hfair (fun n hn => he n (by simp [nodes, hn])) R).bind
      fun S _ v v' hv => ?_
    refine (hr _ _ henv hfair (fun n hn => he n (by simp [nodes, hn])) S).bind
      fun T hST w w' hw => ?_
    exact follows_plain fun U hTU hU => hf U hU _ _ _ _ (hv.mono (hST.trans hTU)) (hw.mono hTU)
  cases op with
  | connective c => exact absurd rfl (hop c)
  | arithmetic op =>
      rw [evaluateWith, evaluateWith]
      exact hoperands _ fun _ _ _ _ _ _ hv hw => hv.arithmetic hw op
  | comparison op =>
      rw [evaluateWith, evaluateWith]
      exact hoperands _ fun _ hS _ _ _ _ hv hw => Value.Like.comparison hS hv hw op
  | membership op =>
      rw [evaluateWith, evaluateWith]
      exact hoperands _ fun _ hS _ _ _ _ hv hw => Value.Like.membership hS hv hw op

/-- Both runs skip the right operand, or neither does. -/
theorem ignoresOrder_connective {op : Connective} (hl : l.IgnoresOrder dataSet kind E deeper)
    (hr : r.IgnoresOrder dataSet kind E deeper) :
    (binary (.connective op) l r).IgnoresOrder dataSet kind E deeper := by
  intro env env' henv hfair he R
  rw [evaluateWith, evaluateWith]
  refine (hl _ _ henv hfair (fun n hn => he n (by simp [nodes, hn])) R).bind fun S _ v v' hv => ?_
  refine (follows_orReport (Q := fun _ settled settled' => settled' = settled ∧
    ∀ u, settled = .inl u → u.IsPlain) fun T hST _ settled hsettled => ?_).bind ?_
  · obtain ⟨hplain, hsettled'⟩ := hv.shortcut op hsettled
    exact ⟨settled, hsettled', rfl, hplain⟩
  · rintro T _ _ settled ⟨rfl, hplain⟩
    cases settled with
    | inl u => exact follows_value (.plain (hplain u rfl))
    | inr b =>
        refine (hr _ _ henv hfair (fun n hn => he n (by simp [nodes, hn])) T).bind
          fun U _ w w' hw => ?_
        exact follows_plain fun _ hUV _ => (hw.mono hUV).connective op b

theorem ignoresOrder_call {name : String} (hdeeper : deeper.IgnoreOrder dataSet kind E)
    (h : AllIgnoreOrder dataSet kind E deeper es) :
    (call name es).IgnoresOrder dataSet kind E deeper := by
  intro env env' henv hfair he R
  rw [evaluateWith, evaluateWith]
  refine (h _ _ henv hfair (fun n hn => he n (by simp [nodes, hn])) R).bind
    fun S _ vs ws hvs => ?_
  exact follows_call hdeeper henv hfair name (he (call name es) (by simp [nodes])) hvs

theorem ignoresOrder_ifThen (hc : c.IgnoresOrder dataSet kind E deeper)
    (ht : t.IgnoresOrder dataSet kind E deeper) :
    (ifElse c t none).IgnoresOrder dataSet kind E deeper := by
  intro env env' henv hfair he R
  rw [evaluateWith, evaluateWith]
  refine (hc _ _ henv hfair (fun n hn => he n (by simp [nodes, hn])) R).bind fun S _ v w hvw => ?_
  exact follows_choose (ht _ _ henv hfair (fun n hn => he n (by simp [nodes, hn])) S)
    (follows_value (.plain Value.isPlain_void)) hvw

theorem ignoresOrder_ifElse (hc : c.IgnoresOrder dataSet kind E deeper)
    (ht : t.IgnoresOrder dataSet kind E deeper) (he : e.IgnoresOrder dataSet kind E deeper) :
    (ifElse c t (some e)).IgnoresOrder dataSet kind E deeper := by
  intro env env' henv hfair hnodes R
  rw [evaluateWith, evaluateWith]
  refine (hc _ _ henv hfair (fun n hn => hnodes n (by simp [nodes, hn])) R).bind
    fun S _ v w hvw => ?_
  refine follows_choose ?_ ?_ hvw
  · exact (ht _ _ henv hfair (fun n hn => hnodes n (by simp [nodes, hn])) S).bind
      fun _ _ _ _ h => follows_widen henv e h
  · exact (he _ _ henv hfair (fun n hn => hnodes n (by simp [nodes, hn])) S).bind
      fun _ _ _ _ h => follows_widen henv t h

theorem ignoresOrder_assign {name : String} (h : e.IgnoresOrder dataSet kind E deeper) :
    (assign name e).IgnoresOrder dataSet kind E deeper := by
  intro env env' henv hfair he R
  rw [evaluateWith, evaluateWith]
  refine (h _ _ henv hfair (fun n hn => he n (by simp [nodes, hn])) R).bind fun S _ v w hvw => ?_
  exact (follows_setVariable name hvw).bind fun T hST _ _ _ => follows_value (hvw.mono hST)

theorem ignoresOrder_index {v p : Expr} (hv : v.IgnoresOrder dataSet kind E deeper)
    (hp : p.IgnoresOrder dataSet kind E deeper) :
    (index v p).IgnoresOrder dataSet kind E deeper := by
  intro env env' henv hfair he R
  rw [evaluateWith, evaluateWith]
  refine (hv _ _ henv hfair (fun n hn => he n (by simp [nodes, hn])) R).bind fun S _ v v' hv => ?_
  refine (hp _ _ henv hfair (fun n hn => he n (by simp [nodes, hn])) S).bind
    fun T hST w w' hw => ?_
  exact follows_orReport fun U hTU _ u hu => (hv.mono (hST.trans hTU)).element (hw.mono hTU) hu

theorem ignoresOrder_project {filter : Option Expr} (hcounts : ∀ env es, CountsUp (deeper env es))
    (helements : AllIgnoreOrder dataSet kind E deeper es)
    (hfilter : ∀ e ∈ filter, e.IgnoresOrder dataSet kind E deeper) :
    (project es filter).IgnoresOrder dataSet kind E deeper := by
  intro env env' henv hfair he R S hRS s s' hs v s₁ hrun
  obtain ⟨name, _, _, _, g, _, hname, _, _, rfl, _⟩ := exists_of_project_eq_ok hrun
  rcases he (project es filter) (by cases filter <;> simp [nodes]) with hempty | hnodes
  · rw [hempty] at hname
    cases hname
  · rw [nodes_project, List.forall_mem_cons] at hnodes
    obtain ⟨hself, hparts⟩ := hnodes
    refine (meets_project_rowwise henv hfair (hfair.rowwise _ hself) hparts hcounts helements
      hfilter hs hrun).imp ?_ ?_
    · rintro w s₁' ⟨T, hST, hlike, hpaired⟩
      exact ⟨T, hST, hlike, hpaired⟩
    · rintro stop _ (hstop | ⟨hmem, hnarrows⟩)
      · exact hstop
      · exact hfair.misfits _ _ hself hmem stop hnarrows.isMisfitOf

theorem allIgnoreOrder_cons (he : e.IgnoresOrder dataSet kind E deeper)
    (hes : AllIgnoreOrder dataSet kind E deeper es) :
    AllIgnoreOrder dataSet kind E deeper (e :: es) := by
  intro env env' henv hfair hnodes R
  rw [evaluateAllWith, evaluateAllWith]
  refine (he _ _ henv hfair (fun n hn => hnodes n (by simp [nodesIn, hn])) R).bind
    fun S _ v w hvw => ?_
  refine (hes _ _ henv hfair (fun n hn => hnodes n (by simp [nodesIn, hn])) S).bind
    fun T hST vs ws hvs => ?_
  exact follows_pure fun U hTU => .cons (hvw.mono (hST.trans hTU)) (Value.Like.forall₂_mono hTU hvs)

end Parts

mutual

/-- **Evaluation does not depend on the order of rows.** -/
theorem ignoresOrder (hcounts : ∀ env es, CountsUp (deeper env es))
    (hdeeper : deeper.IgnoreOrder dataSet kind E) (e : Expr) :
    e.IgnoresOrder dataSet kind E deeper := by
  cases e with
  | literal v =>
      intro env env' _ _ _ R
      rw [evaluateWith, evaluateWith]
      exact follows_value (.plain (by cases v <;> exact ⟨nofun, nofun⟩))
  | var name =>
      intro env env' henv hfair _ R
      rw [evaluateWith, evaluateWith]
      exact (follows_lookUp hdeeper henv hfair name).reporting
  | unary op e => exact ignoresOrder_unary (ignoresOrder hcounts hdeeper e)
  | binary op l r =>
      have hl := ignoresOrder hcounts hdeeper l
      have hr := ignoresOrder hcounts hdeeper r
      by_cases hop : ∃ c, op = .connective c
      · obtain ⟨c, rfl⟩ := hop
        exact ignoresOrder_connective hl hr
      · exact ignoresOrder_binary (fun c hc => hop ⟨c, hc⟩) hl hr
  | call name arguments =>
      exact ignoresOrder_call hdeeper (allIgnoreOrder hcounts hdeeper arguments)
  | ifElse c t e =>
      have hc := ignoresOrder hcounts hdeeper c
      have ht := ignoresOrder hcounts hdeeper t
      cases e with
      | none => exact ignoresOrder_ifThen hc ht
      | some e => exact ignoresOrder_ifElse hc ht (ignoresOrder hcounts hdeeper e)
  | assign name e => exact ignoresOrder_assign (ignoresOrder hcounts hdeeper e)
  | named name e =>
      intro env env' henv hfair he R
      rw [evaluateWith, evaluateWith]
      exact ignoresOrder hcounts hdeeper e _ _ henv hfair
        (fun n hn => he n (by simp [nodes, hn])) R
  | vector elements =>
      intro env env' henv hfair he R
      rw [evaluateWith, evaluateWith]
      refine (allIgnoreOrder hcounts hdeeper elements _ _ henv hfair
        (fun n hn => he n (by simp [nodes, hn])) R).bind fun S _ vs ws hvs => ?_
      exact follows_value (.vector hvs)
  | index v i =>
      exact ignoresOrder_index (ignoresOrder hcounts hdeeper v) (ignoresOrder hcounts hdeeper i)
  | path name field =>
      intro env env' henv hfair he R
      rw [evaluateWith, evaluateWith]
      exact follows_readPath hdeeper henv hfair (he (path name field) (by simp [nodes])) field
  | project elements filter =>
      refine ignoresOrder_project hcounts (allIgnoreOrder hcounts hdeeper elements) ?_
      cases filter with
      | none => exact nofun
      | some filter =>
          rintro _ ⟨⟩
          exact ignoresOrder hcounts hdeeper filter
  | sequence statements =>
      intro env env' henv hfair he R
      rw [evaluateWith, evaluateWith, evaluateStatementsWith_eq, evaluateStatementsWith_eq]
      refine (allIgnoreOrder hcounts hdeeper statements _ _ henv hfair
        (fun n hn => he n (by simp [nodes, hn])) R).bind fun S _ vs ws hvs => ?_
      exact follows_value (.getLastD hvs)
termination_by structural e

theorem allIgnoreOrder (hcounts : ∀ env es, CountsUp (deeper env es))
    (hdeeper : deeper.IgnoreOrder dataSet kind E) (es : List Expr) :
    AllIgnoreOrder dataSet kind E deeper es := by
  cases es with
  | nil => exact fun _ _ _ _ _ _ => follows_pure fun _ _ => .nil
  | cons e es =>
      exact allIgnoreOrder_cons (ignoresOrder hcounts hdeeper e)
        (allIgnoreOrder hcounts hdeeper es)
termination_by structural es

end

theorem ignoreOrder_runDeep (dataSet : String) (kind : Expr → Prop) (E : Stop → Prop)
    (depth : Nat) : RunStatements.IgnoreOrder dataSet kind E (runDeep depth) := by
  induction depth with
  | zero =>
      rintro env env' es henv hfair hes R S hRS s s' hs v s₁ ⟨⟩
  | succ depth ih =>
      intro env env' es henv hfair hes R
      rw [runDeep_succ, runDeep_succ]
      refine (allIgnoreOrder (countsUp_runDeep depth) ih es _ _ henv hfair hes R).bind ?_
      exact fun S _ vs ws hvs => follows_value (.getLastD hvs)

end Evaluation

end Expr

/-! ### Sorted data sets -/

/-- A double does not fit into a column of longs in a projection of a data set that evaluating some
expressions comes to. -/
def FunctionDefs.MisfitsWithin (functions : FunctionDefs) (dataSet : String) (es : List Expr)
    (stop : Stop) : Prop :=
  ∃ elements filter, functions.ComesTo es (.project elements filter) ∧
    dataSet ∈ Expr.concerned elements filter ∧ stop.IsMisfitOf elements

/-- The environment with a frame registered as a data set. -/
def Environment.withDataSet (env : Environment) (name : String) (f : Frame) : Environment :=
  { env with dataSets := env.dataSets.insert name f }

theorem Environment.sameRows_withDataSet (env : Environment) (dataSet : String) {f g : Frame}
    (h : f.SameRows g) :
    (env.withDataSet dataSet f).SameRows dataSet (env.withDataSet dataSet g) where
  registry := rfl
  host := rfl
  functions := rfl
  reordered := by
    unfold withDataSet
    rw [Bindings.find?_insert, Bindings.find?_insert, if_pos rfl, if_pos rfl]
    exact .some h
  others name hname := by
    unfold withDataSet
    rw [Bindings.find?_insert, Bindings.find?_insert, if_neg hname, if_neg hname]
  row := rel_refl (fun p => .refl p.1 p.2) env.row

/-- What a projection makes does not depend on the order of the rows of a data set. -/
theorem meets_project_sameRows {env env' : Environment} {dataSet : String}
    (henv : env.SameRows dataSet env') (hhost : env.host.IgnoresOrder) {elements : List Expr}
    {filter : Option Expr} (hrowwise : ∀ node,
      env.functions.ComesTo [.project elements filter] node → node.isRowwise dataSet = true)
    {depth : Nat} {s s₁ : Store} (hmade : s.HasMade) {v : Value}
    (hrun : env.evaluate depth (.project elements filter) s = (.ok v, s₁)) :
    ∃ i g, v = .frame i g ∧ Meets (env'.evaluate depth (.project elements filter)) s
      (fun w _ => ∃ j g', w = .frame j g' ∧ g.SameRows g')
      fun stop _ => Narrows elements (((env.scope s.vars).inferAll elements).run {}).1 g stop ∨
        env.functions.MisfitsWithin dataSet (elements ++ filter.toList) stop := by
  let es := elements ++ filter.toList
  let E := env.functions.MisfitsWithin dataSet es
  have hnodes : Expr.nodesIn true [.project elements filter] =
      .project elements filter :: Expr.nodesIn true es := by
    rw [Expr.nodesIn, Expr.nodesIn, List.append_nil, Expr.nodes_project]
  have hcounts := Expr.countsUp_runDeep depth
  have hdeeper := Expr.ignoreOrder_runDeep dataSet (env.functions.ComesTo es) E depth
  have hfair : env.IgnoresOrder dataSet (env.functions.ComesTo es) E := by
    refine ⟨hhost, fun node hnode => hrowwise node (hnode.mono ?_), ?_, ?_⟩
    · rw [hnodes]
      exact List.subset_cons_self _ _
    · exact fun elements filter hnode hmem stop hstop => ⟨elements, filter, hnode, hmem, hstop⟩
    · exact fun name arguments f hnode hf node h => .body hnode hf h
  have hself : (Expr.project elements filter).isRowwise dataSet = true := by
    refine hrowwise _ (.here ?_)
    rw [hnodes]
    exact List.mem_cons_self
  obtain ⟨_, _, _, s₂, g, _, _, _, _, rfl, _⟩ := exists_of_project_eq_ok hrun
  refine ⟨s₂.nextIdentity, g, rfl, ?_⟩
  refine (Expr.meets_project_rowwise henv hfair hself (fun node h => .here h) hcounts
    (Expr.allIgnoreOrder hcounts hdeeper elements)
    (fun e _ => Expr.ignoresOrder hcounts hdeeper e) hmade.paired hrun).imp ?_ ?_
  · rintro w _ ⟨S, _, hlike, _⟩
    cases hlike with
    | plain h => exact absurd rfl h.2
    | @frame _ j _ g' _ hsame => exact ⟨j, g', rfl, hsame⟩
  · rintro stop _ (hstop | ⟨_, hnarrows⟩)
    · exact Or.inr hstop
    · exact Or.inl hnarrows

/-- **A projection makes of a sorted data set the same table**, with its rows in another order, or
else a double meets a column that has become one of longs because a long comes first. -/
theorem reachable_project_sorted {f f' : Frame} (hf : Frame.Reachable f) {sortDepth : Nat}
    {sortHost : Host} {names : List String} {s₀ s₀' : Store}
    (hsort : f.sortBy sortDepth sortHost names s₀ = (.ok f', s₀')) {env : Environment}
    (hhost : env.host.IgnoresOrder) {dataSet : String} {elements : List Expr}
    {filter : Option Expr} (hrowwise : ∀ node,
      env.functions.ComesTo [.project elements filter] node → node.isRowwise dataSet = true)
    {depth : Nat} {s s₁ : Store} (hmade : s.HasMade) {v : Value}
    (hrun : (env.withDataSet dataSet f).evaluate depth (.project elements filter) s =
      (.ok v, s₁)) :
    ∃ i g, v = .frame i g ∧
      Meets ((env.withDataSet dataSet f').evaluate depth (.project elements filter)) s
        (fun w _ => ∃ j g', w = .frame j g' ∧ g.SameRows g')
        fun stop _ => Narrows elements
            ((((env.withDataSet dataSet f).scope s.vars).inferAll elements).run {}).1 g stop ∨
          env.functions.MisfitsWithin dataSet (elements ++ filter.toList) stop := by
  have hf' : Frame.Reachable f' := hf.of_run sortDepth sortHost (.sortBy names) hsort
  have hunsort : f'.unsort = f.unsort :=
    (Frame.meets_ordering (r := .sortBy names) rfl sortDepth sortHost f s₀).result hsort
  have hsame : f.SameRows f' := hf.wellFormed.sameRows hf'.wellFormed hunsort
  exact meets_project_sameRows (env.sameRows_withDataSet dataSet hsame) hhost hrowwise hmade hrun

/-- Two numbers in descending order. -/
def descending : Frame where
  name := "N"
  columns := [{ name := "i", content := .stored ⟨.long, #[some 1, some 0]⟩ }]
  index := .places ["i"]
  rowCount := 2
  registry := ∅

/-- The same numbers sorted. -/
def ascending : Frame := { descending with order := some [1, 0] }

theorem reachable_descending : Frame.Reachable descending := by
  let host : Host := fun key _ => .error (.unknownFunction key)
  have hempty : Frame.Reachable { name := "N", registry := ∅ } := .new _ _
  have hcolumn := hempty.of_run 0 host (.column "i" .long) (s := {}) rfl
  have hone := hcolumn.of_run 0 host (.row [.long 1]) (s := {}) rfl
  exact hone.of_run 0 host (.row [.long 0]) (s := {}) rfl

theorem reachable_project_sorted_descending : ∃ (env : Environment) (e : Expr) (g g' : Frame),
    Frame.Reachable descending ∧ descending.sortBy 0 env.host ["i"] {} = (.ok ascending, {}) ∧
    (∃ i s, (env.withDataSet "N" descending).evaluate 1 e {} = (.ok (.frame i g), s)) ∧
    (∃ i s, (env.withDataSet "N" ascending).evaluate 1 e {} = (.ok (.frame i g'), s)) ∧
    g.SameRows g' := by
  let host : Host := fun _ arguments => .ok (.vector arguments)
  let twice : FunctionDef := { name := "twice", parameters := ["x"],
                               body := [.binary (.arithmetic .add) (.var "x") (.var "x")] }
  let env : Environment := { registry := ∅, host, functions := Bindings.ofList [("twice", twice)] }
  let elements : List Expr :=
    [.path "N" ["i"], .named "twice" (.call "twice" [.path "N" ["i"]])]
  have hhost : env.host.IgnoresOrder := by
    rintro R _ _ arguments arguments' h _ ⟨⟩
    exact ⟨_, rfl, .vector h⟩
  have hrowwise : ∀ node, env.functions.ComesTo [.project elements none] node →
      node.isRowwise "N" = true := by
    intro node hnode
    refine hnode.of_everyIn (p := Expr.isRowwise "N") rfl fun name f hf => ?_
    change (Bindings.insert ∅ _ _).find? name = some f at hf
    rw [Bindings.find?_insert] at hf
    split at hf
    · cases hf
      rfl
    · cases hf
  have hmade : ({} : Store).HasMade := nofun
  have hsort : descending.sortBy 0 host ["i"] {} = (.ok ascending, {}) := rfl
  obtain ⟨i, g, s, hrun⟩ : ∃ i g s, (env.withDataSet "N" descending).evaluate 1
      (.project elements none) {} = (.ok (.frame i g), s) := ⟨_, _, _, rfl⟩
  obtain ⟨j, g', s', hrun'⟩ : ∃ j g' s', (env.withDataSet "N" ascending).evaluate 1
      (.project elements none) {} = (.ok (.frame j g'), s') := ⟨_, _, _, rfl⟩
  obtain ⟨_, _, ⟨⟩, hmeets⟩ :=
    reachable_project_sorted reachable_descending hsort hhost hrowwise hmade hrun
  obtain ⟨_, _, ⟨⟩, hsame⟩ := hmeets.result hrun'
  exact ⟨env, _, g, g', reachable_descending, hsort, ⟨i, s, hrun⟩, ⟨j, s', hrun'⟩, hsame⟩

/-- A projection makes a table of certain rows. -/
def Environment.Makes (env : Environment) (elements : List Expr) (rows : List (List Value)) :
    Prop :=
  ∃ i g s, env.evaluate 1 (.project elements none) {} = (.ok (.frame i g), s) ∧
    g.rows.map g.storedValues = rows

/-- A projection without assignments makes other rows when the numbers are sorted. -/
def Environment.Differs (env : Environment) (elements : List Expr) : Prop :=
  ∃ rows rows', Expr.everyIn Expr.isNoAssignment elements = true ∧
    (env.withDataSet "N" descending).Makes elements rows ∧
    (env.withDataSet "N" ascending).Makes elements rows' ∧ ¬rows'.Perm rows

/-- The number of the last row, as a function sees it on its way through all rows. -/
def lastSeen : FunctionDef where
  name := "lastSeen"
  parameters := []
  body := [.project [.named "seen" (.ifElse (.literal (.boolean true))
    (.sequence [.assign "n" (.path "N" ["i"])]) none)] none, .var "n"]

/-- The first value of a table, as a host gives it. -/
def firstOf : Function where
  name := "first"
  parameters := none
  body := .host "first"

/-- A sorted data set may make a projection fail.  It may also make it come to other rows, by
itself through fields of another data set, through a function that hands something from row to row,
and through a host that looks at which row comes first. -/
theorem project_sorted_differs : ∃ host : Host, Frame.Reachable descending ∧
    descending.sortBy 0 host ["i"] {} = (.ok ascending, {}) ∧
    (∃ (env : Environment) (elements : List Expr) (rows : List (List Value)) (d : Double)
      (s : Store), Expr.everyIn Expr.isNoAssignment elements = true ∧
        (env.withDataSet "N" descending).Makes elements rows ∧
        (env.withDataSet "N" ascending).evaluate 1 (.project elements none) {} = (.error (.failed
          (.configuration (.misfit (Value.double d).literalText "n" .long))), s)) ∧
    (∃ (env : Environment) (elements : List Expr),
      env.functions = ∅ ∧ env.registry = ∅ ∧ env.Differs elements) ∧
    (∃ (env : Environment) (elements : List Expr),
      env.dataSets = ∅ ∧ env.registry = ∅ ∧ env.Differs elements) ∧
    ∃ (env : Environment) (elements : List Expr),
      env.dataSets = ∅ ∧ env.functions = ∅ ∧ env.host = host ∧ env.Differs elements := by
  let first (v : Value) : Except Error Value := do
    let g ← v.asFrame
    return ((g.rows.map g.storedValues).headD []).headD .void
  let host : Host := fun _ arguments => { result := first (arguments.headD .void) }
  let i : Expr := .path "N" ["i"]
  have hother : ∀ {row' : List Value} {rows rows' : List (List Value)}, row' ∉ rows →
      ¬(row' :: rows').Perm rows := fun hrow h => hrow (h.mem_iff.mp List.mem_cons_self)
  refine ⟨host, reachable_descending, rfl, ?_, ?_, ?_, ?_⟩
  · let numbers : Expr := .vector [.literal (.long 1), .literal (.double (.ofParts false 0))]
    exact ⟨{ registry := ∅ }, [.named "n" (.index numbers i)], _, .ofParts false 0, _, rfl,
      ⟨_, _, _, rfl, rfl⟩, rfl⟩
  · exact ⟨{ registry := ∅, dataSets := Bindings.ofList [("M", descending)] },
      [i, .path "M" ["i"]], rfl, rfl, [[.long 1, .long 1], [.long 0, .long 0]],
      [[.long 0, .long 1], [.long 1, .long 0]], rfl, ⟨_, _, _, rfl, rfl⟩, ⟨_, _, _, rfl, rfl⟩,
      hother (by simp)⟩
  · exact ⟨{ registry := ∅, functions := Bindings.ofList [("lastseen", lastSeen)] },
      [i, .named "last" (.call "lastSeen" [])], rfl, rfl, [[.long 1, .long 0], [.long 0, .long 0]],
      [[.long 0, .long 1], [.long 1, .long 1]], rfl, ⟨_, _, _, rfl, rfl⟩, ⟨_, _, _, rfl, rfl⟩,
      hother (by simp)⟩
  · exact ⟨{ registry := Registry.add ∅ firstOf, host },
      [i, .named "first" (.call "first" [.project [i] none])], rfl, rfl, rfl,
      [[.long 1, .long 1], [.long 0, .long 1]], [[.long 0, .long 0], [.long 1, .long 0]], rfl,
      ⟨_, _, _, rfl, rfl⟩, ⟨_, _, _, rfl, rfl⟩, hother (by simp)⟩

end FrameLang
