/-
A row reads the same wherever it stands.

What a column shows in a row depends on the cells of that row and on the columns, and on nothing
else: not on the other rows, not on the order in which they are shown, and not on what was written
or evaluated before.  So a row may be copied into another frame with the same columns, and it reads
there as it did.

`Run.Alike` compares two runs from different stores.  Started with the same variables they end
alike, while the traces and the counters of the two stores are none of its business.  An expression
over a row runs alike over every row that shows the same (`alike_evaluateWith`), and then so does a
computed column, however deep it reads (`ShowsAs.readsAs`).  A row that is compared with
itself gives the special case that a read does not depend on the store (`Frame.endAlike_get`).
-/
import FrameLang.Frame.Access
import FrameLang.Proofs.Evaluation
import FrameLang.Proofs.Simulation

namespace FrameLang

/-! ### Two runs from different stores -/

namespace Run

variable {α β : Type}

/-- From stores with the same variables, two runs end with the same result or stop for the same
reason, and leave the same variables. -/
def Alike (run run' : Run α) : Prop :=
  ∀ s s' : Store, s.vars = s'.vars →
    (run s : Except Stop α × Store).1 = (run' s').1 ∧ (run s).2.vars = (run' s').2.vars

/-- From any two stores, two runs end with the same result or stop for the same reason. -/
def EndAlike (run run' : Run α) : Prop :=
  ∀ s s' : Store, (run s : Except Stop α × Store).1 = (run' s').1

/-- Being alike is simulation with the same variables. -/
theorem alike_iff {run run' : Run α} : Alike run run' ↔ Simulates Eq run run' := Iff.rfl

theorem alike_pure (a : α) : Alike (pure a) (pure a) := simulates_pure a

theorem Alike.bind {x x' : Run α} {f f' : α → Run β} (hx : Alike x x')
    (hf : ∀ a, Alike (f a) (f' a)) : Alike (x >>= f) (x' >>= f') :=
  Simulates.bind hx hf

/-- Runs that look at the store are alike if they are so for the same variables. -/
theorem alike_get_bind {f f' : Store → Run α}
    (h : ∀ s s' : Store, s.vars = s'.vars → Alike (f s) (f' s')) :
    Alike (get >>= f) (get >>= f') :=
  simulates_get_bind h

theorem alike_fail (e : Error) : Alike (fail e : Run α) (fail e) := simulates_fail e

theorem alike_report (e : Error) : Alike (report e : Run α) (report e) := simulates_report e

theorem alike_orReport (x : Except Error α) : Alike (orReport x) (orReport x) :=
  simulates_orReport x

theorem alike_setVariable (name : String) (v : Value) :
    Alike (setVariable name v) (setVariable name v) := by
  intro s s' hvars
  refine ⟨rfl, ?_⟩
  change s.vars.insert name v = s'.vars.insert name v
  rw [hvars]

/-- Runs that keep the variables simulate each other if they end alike. -/
theorem EndAlike.simulates {run run' : Run α} (h : EndAlike run run')
    (hkeeps : ∀ vars, Keeps (· = vars) run) (hkeeps' : ∀ vars, Keeps (· = vars) run')
    {r : Bindings Value → Bindings Value → Prop} : Simulates r run run' := by
  intro s s' hvars
  have hs : (run s : Except Stop α × Store).2.vars = s.vars := (hkeeps s.vars).vars rfl
  have hs' : (run' s' : Except Stop α × Store).2.vars = s'.vars := (hkeeps' s'.vars).vars rfl
  exact ⟨h s s', by rwa [hs, hs']⟩

theorem EndAlike.alike {run run' : Run α} (h : EndAlike run run')
    (hkeeps : ∀ vars, Keeps (· = vars) run) (hkeeps' : ∀ vars, Keeps (· = vars) run') :
    Alike run run' :=
  h.simulates hkeeps hkeeps'

theorem endAlike_pure (a : α) : EndAlike (pure a) (pure a) := fun _ _ => rfl

theorem endAlike_report (e : Error) : EndAlike (report e : Run α) (report e) := fun _ _ => rfl

/-- Runs that are alike end alike if they have variables of their own. -/
theorem Alike.isolated {run run' : Run α} (h : Alike run run') (vars : Bindings Value) :
    EndAlike (isolated vars run) (isolated vars run') :=
  fun s s' => (h { s with vars } { s' with vars } rfl).1

theorem Alike.reporting {run run' : Run α} (h : Alike run run') :
    Alike (reporting run) (reporting run') :=
  Simulates.reporting h

/-- A run that ends alike from any two stores ends from all of them as it does from one. -/
theorem EndAlike.meets {run : Run α} (h : EndAlike run run) (s : Store) :
    Meets run s (fun a _ => ∀ s', (run s' : Except Stop α × Store).1 = .ok a)
      fun stop _ => ∀ s', (run s' : Except Stop α × Store).1 = .error stop := by
  refine meets_iff.mpr ⟨fun a _ hrun s' => ?_, fun stop _ hrun s' => ?_⟩
  · rw [h s' s, hrun]
  · rw [h s' s, hrun]

end Run

open Run

theorem Run.Alike.choose {t t' u u' : Run Value} (ht : Alike t t') (hu : Alike u u')
    (condition : Value) : Alike (choose condition t u) (choose condition t' u') :=
  Simulates.choose ht hu condition

/-! ### Rows that show the same -/

/-- A column shows in one row what another column shows in another row: it is a stored column of
the same type with the same value there, or the same computed column. -/
inductive Column.ShowsAs (row row' : Nat) : Column → Column → Prop
  | stored {name : String} {cells cells' : Cells} (htype : cells.type = cells'.type)
      (hget : cells.get row = cells'.get row') :
      ShowsAs row row' { name, content := .stored cells } { name, content := .stored cells' }
  | computed {name source : String} {e : Expr} {type : ValueType} :
      ShowsAs row row' { name, content := .computed source e type }
        { name, content := .computed source e type }

/-- A row of one frame shows what a row of another frame shows. -/
structure Frame.ShowsAs (f : Frame) (row : Nat) (g : Frame) (row' : Nat) : Prop where
  registry : f.registry = g.registry
  index : f.index = g.index
  columns : List.Forall₂ (Column.ShowsAs row row') f.columns g.columns

namespace Column.ShowsAs

variable {row row' : Nat} {c d : Column}

theorem name_eq (h : ShowsAs row row' c d) : c.name = d.name := by
  cases h with
  | stored => rfl
  | computed => rfl

theorem type_eq (h : ShowsAs row row' c d) : c.type = d.type := by
  cases h with
  | stored htype => exact congrArg ScalarType.toValueType htype
  | computed => rfl

theorem refl (row : Nat) (c : Column) : ShowsAs row row c c := by
  obtain ⟨name, content⟩ := c
  cases content with
  | stored cells => exact .stored rfl rfl
  | computed => exact .computed

theorem symm (h : ShowsAs row row' c d) : ShowsAs row' row d c := by
  cases h with
  | stored htype hget => exact .stored htype.symm hget.symm
  | computed => exact .computed

theorem trans {row'' : Nat} {e : Column} (h : ShowsAs row row' c d) (h' : ShowsAs row' row'' d e) :
    ShowsAs row row'' c e := by
  cases h with
  | stored htype hget =>
      cases h' with
      | stored htype' hget' => exact .stored (htype.trans htype') (hget.trans hget')
  | computed =>
      cases h' with
      | computed => exact .computed

end Column.ShowsAs

/-- Columns that show the same in two rows are read alike there. -/
def Frame.ReadsAs (f : Frame) (deeper : RunStatements) (host : Host) (row : Nat) (g : Frame)
    (row' : Nat) : Prop :=
  ∀ c d, Column.ShowsAs row row' c d →
    EndAlike (f.readColumn deeper host c row) (g.readColumn deeper host d row')

namespace Frame.ShowsAs

variable {f g : Frame} {row row' : Nat}

theorem refl (f : Frame) (row : Nat) : f.ShowsAs row f row :=
  ⟨rfl, rfl, List.forall₂_same.mpr fun c _ => Column.ShowsAs.refl row c⟩

/-- Columns at one position show the same, or there are none in either frame. -/
theorem getElem?_rel (h : f.ShowsAs row g row') (i : Nat) :
    Option.Rel (Column.ShowsAs row row') f.columns[i]? g.columns[i]? := by
  have hcolumns := h.columns
  generalize f.columns = columns at hcolumns ⊢
  generalize g.columns = columns' at hcolumns ⊢
  induction hcolumns generalizing i with
  | nil => exact Option.Rel.none
  | cons hc _ ih =>
      cases i with
      | zero => exact Option.Rel.some hc
      | succ i => exact ih i

/-- A name finds columns that show the same, or none in either frame. -/
theorem column?_rel (h : f.ShowsAs row g row') (name : String) :
    Option.Rel (Column.ShowsAs row row') (f.column? name) (g.column? name) := by
  unfold column? columnIndex?
  rw [h.index]
  cases g.index.find? name with
  | none => exact Option.Rel.none
  | some i => exact h.getElem?_rel i

/-- Expressions over the two rows see the same types. -/
theorem scope_eq (h : f.ShowsAs row g row') (host : Host) (vars : Bindings Value) :
    (Environment.ofRow host f row).scope vars = (Environment.ofRow host g row').scope vars := by
  have htype : f.columnType? = g.columnType? := by
    funext name
    have hcolumn := h.column?_rel name
    unfold columnType?
    generalize f.column? name = c at hcolumn ⊢
    generalize g.column? name = d at hcolumn ⊢
    cases hcolumn with
    | none => rfl
    | some hc => exact congrArg some hc.type_eq
  simp only [Environment.scope, Environment.ofRow, Option.bind_some, htype, h.registry]

/-! ### Expressions over them -/

section Evaluation

variable {deeper : RunStatements} {host : Host}

theorem alike_lookUp (h : f.ShowsAs row g row')
    (hread : f.ReadsAs deeper host row g row') (name : String) :
    Alike (lookUp deeper (.ofRow host f row) name) (lookUp deeper (.ofRow host g row') name) := by
  refine alike_get_bind fun s s' hvars => ?_
  rw [hvars]
  split
  · exact alike_pure _
  · dsimp only [Environment.ofRow]
    have hcolumn := h.column?_rel name
    generalize f.column? name = c at hcolumn ⊢
    generalize g.column? name = d at hcolumn ⊢
    cases hcolumn with
    | none => exact alike_fail _
    | some hc =>
        exact (hread _ _ hc).alike (fun _ => keeps_readColumn deeper host f _ _)
          fun _ => keeps_readColumn deeper host g _ _

theorem alike_call (h : f.ShowsAs row g row') (name : String) (arguments : List Value) :
    Alike (call deeper (.ofRow host f row) name arguments)
      (call deeper (.ofRow host g row') name arguments) := by
  refine alike_iff.mpr (simulates_call ?_ h.registry ?_ ?_ arguments)
  · rfl
  · rfl
  · rfl

theorem alike_widen (h : f.ShowsAs row g row') (v : Value) (other : Expr) :
    Alike (widen (.ofRow host f row) v other) (widen (.ofRow host g row') v other) := by
  refine alike_iff.mpr (simulates_widen (fun vars vars' hvars => ?_) v)
  rw [hvars, h.scope_eq]

mutual

/-- **An expression cannot tell rows apart that show the same.** -/
theorem alike_evaluateWith (h : f.ShowsAs row g row')
    (hread : f.ReadsAs deeper host row g row') (e : Expr) :
    Alike (e.evaluateWith deeper (.ofRow host f row))
      (e.evaluateWith deeper (.ofRow host g row')) := by
  cases e with
  | literal v => exact alike_pure _
  | var name =>
      rw [Expr.evaluateWith, Expr.evaluateWith]
      exact (h.alike_lookUp hread name).reporting
  | unary op e =>
      rw [Expr.evaluateWith, Expr.evaluateWith]
      exact (alike_evaluateWith h hread e).bind fun _ => alike_orReport _
  | binary op l r =>
      have hl := alike_evaluateWith h hread l
      have hr := alike_evaluateWith h hread r
      cases op with
      | connective op =>
          rw [Expr.evaluateWith, Expr.evaluateWith]
          refine hl.bind fun left => (alike_orReport _).bind fun settled => ?_
          split
          · exact alike_pure _
          · exact hr.bind fun _ => alike_orReport _
      | _ =>
          rw [Expr.evaluateWith, Expr.evaluateWith]
          exact hl.bind fun _ => hr.bind fun _ => alike_orReport _
  | call name arguments =>
      rw [Expr.evaluateWith, Expr.evaluateWith]
      exact (alike_evaluateAllWith h hread arguments).bind fun _ => h.alike_call name _
  | ifElse c t e =>
      cases e with
      | none =>
          rw [Expr.evaluateWith, Expr.evaluateWith]
          exact (alike_evaluateWith h hread c).bind
            ((alike_evaluateWith h hread t).choose (alike_pure _))
      | some e =>
          have ht := alike_evaluateWith h hread t
          have he := alike_evaluateWith h hread e
          rw [Expr.evaluateWith, Expr.evaluateWith]
          exact (alike_evaluateWith h hread c).bind
            ((ht.bind fun v => h.alike_widen v e).choose (he.bind fun v => h.alike_widen v t))
  | assign name e =>
      rw [Expr.evaluateWith, Expr.evaluateWith]
      refine (alike_evaluateWith h hread e).bind fun v => ?_
      exact (alike_setVariable name v).bind fun _ => alike_pure v
  | named name e =>
      rw [Expr.evaluateWith, Expr.evaluateWith]
      exact alike_evaluateWith h hread e
  | vector elements =>
      rw [Expr.evaluateWith, Expr.evaluateWith]
      exact (alike_evaluateAllWith h hread elements).bind fun _ => alike_pure _
  | index v i =>
      rw [Expr.evaluateWith, Expr.evaluateWith]
      exact (alike_evaluateWith h hread v).bind fun _ =>
        (alike_evaluateWith h hread i).bind fun _ => alike_orReport _
  | path dataSet field =>
      -- there are no data sets where a row is at hand
      exact alike_report _
  | project elements filter =>
      rw [Expr.evaluateWith, Expr.evaluateWith]
      cases Expr.firstDataSet? (.project elements filter) with
      | none => exact alike_report _
      | some dataSet => exact alike_report _
  | sequence statements =>
      rw [Expr.evaluateWith, Expr.evaluateWith, Expr.evaluateStatementsWith_eq,
        Expr.evaluateStatementsWith_eq]
      exact (alike_evaluateAllWith h hread statements).bind fun _ => alike_pure _
termination_by structural e

theorem alike_evaluateAllWith (h : f.ShowsAs row g row')
    (hread : f.ReadsAs deeper host row g row') (es : List Expr) :
    Alike (Expr.evaluateAllWith deeper (.ofRow host f row) es)
      (Expr.evaluateAllWith deeper (.ofRow host g row') es) := by
  cases es with
  | nil => exact alike_pure _
  | cons e es =>
      rw [Expr.evaluateAllWith, Expr.evaluateAllWith]
      exact (alike_evaluateWith h hread e).bind fun _ =>
        (alike_evaluateAllWith h hread es).bind fun _ => alike_pure _
termination_by structural es

end

end Evaluation

/-! ### Reading them -/

theorem endAlike_readStored {deeper : RunStatements} (host : Host) {name : String}
    {cells cells' : Cells} (hget : cells.get row = cells'.get row') :
    EndAlike (f.readColumn deeper host { name, content := .stored cells } row)
      (g.readColumn deeper host { name, content := .stored cells' } row') := by
  rw [show f.readColumn deeper host { name, content := .stored cells } row =
    pure (cells.get row) from rfl, hget]
  exact endAlike_pure _

/-- **Columns that show the same are read alike**, however deep computed columns read each other. -/
theorem readsAs (h : f.ShowsAs row g row') (host : Host) (depth : Nat) :
    f.ReadsAs (Expr.runDeep depth) host row g row' := by
  induction depth with
  | zero =>
      intro c d hc
      cases hc with
      | stored _ hget => exact endAlike_readStored host hget
      | computed => exact fun _ _ => rfl
  | succ depth ih =>
      intro c d hc
      cases hc with
      | stored _ hget => exact endAlike_readStored host hget
      | @computed name source e type =>
          change EndAlike (isolated ∅ (Expr.runDeep (depth + 1) (.ofRow host f row) [e]))
            (isolated ∅ (Expr.runDeep (depth + 1) (.ofRow host g row') [e]))
          rw [Expr.runDeep_single, Expr.runDeep_single]
          exact (h.alike_evaluateWith ih e).isolated ∅

/-- An expression has the same value over rows that show the same, or fails alike. -/
theorem endAlike_evaluateOnRow (h : f.ShowsAs row g row') (host : Host) (depth : Nat) (e : Expr) :
    EndAlike (f.evaluateOnRow depth host e row) (g.evaluateOnRow depth host e row') :=
  (h.alike_evaluateWith (h.readsAs host depth) e).isolated ∅

/-- Rows that are shown in two places are read alike by the names of columns, known or not. -/
theorem endAlike_get {logical logical' : Nat} (hrow : f.physicalRow? logical = some row)
    (hrow' : g.physicalRow? logical' = some row') (hname : f.name = g.name)
    (h : f.ShowsAs row g row') (depth : Nat) (host : Host) (name : String) :
    EndAlike (f.get depth host name logical) (g.get depth host name logical') := by
  unfold get readNamed
  have hcolumn := h.column?_rel name
  generalize f.column? name = c at hcolumn ⊢
  generalize g.column? name = d at hcolumn ⊢
  cases hcolumn with
  | none =>
      rw [hname]
      exact endAlike_report _
  | some hc =>
      rw [hrow, hrow']
      exact h.readsAs host depth _ _ hc

/-- Rows that are shown in two places are read alike by the positions of columns. -/
theorem endAlike_getAt {logical logical' : Nat} (hrow : f.physicalRow? logical = some row)
    (hrow' : g.physicalRow? logical' = some row') (h : f.ShowsAs row g row') (depth : Nat)
    (host : Host) (i : Nat) :
    EndAlike (f.getAt depth host logical i) (g.getAt depth host logical' i) := by
  unfold getAt
  have hcolumn := h.getElem?_rel i
  generalize f.columns[i]? = c at hcolumn ⊢
  generalize g.columns[i]? = d at hcolumn ⊢
  cases hcolumn with
  | none =>
      rw [h.columns.length_eq]
      exact endAlike_report _
  | some hc =>
      rw [hrow, hrow']
      exact h.readsAs host depth _ _ hc

end Frame.ShowsAs

namespace Frame

/-- **What a frame shows does not depend on the store.** -/
theorem endAlike_get (f : Frame) (depth : Nat) (host : Host) (name : String) (row : Nat) :
    EndAlike (f.get depth host name row) (f.get depth host name row) := by
  cases hrow : f.physicalRow? row with
  | none =>
      unfold get readNamed
      rw [hrow]
      split
      · exact endAlike_report _
      · exact endAlike_report _
  | some physical => exact (ShowsAs.refl f physical).endAlike_get hrow hrow rfl depth host name

theorem endAlike_getAt (f : Frame) (depth : Nat) (host : Host) (row column : Nat) :
    EndAlike (f.getAt depth host row column) (f.getAt depth host row column) := by
  cases hrow : f.physicalRow? row with
  | none =>
      unfold getAt
      rw [hrow]
      split
      · exact endAlike_report _
      · exact endAlike_report _
  | some physical => exact (ShowsAs.refl f physical).endAlike_getAt hrow hrow depth host column

end Frame
end FrameLang
