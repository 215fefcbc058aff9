/-
The frames there can be.

A frame starts out empty and is then changed by requests, each of which may fail and then leaves
it as it was.  Other frames come out of it: the rows that a condition chooses or leaves, and the
frame that a projection makes.  `Reachable` is all of them, in any order and with any arguments;
a copy of a frame is the same frame, so it needs no case.

A proof about all of them would rather not know about runs, sorting keys and conditions.  What
these come down to is six plain steps, collected in `Step`: a column, a computed column, a row, a
new order of the rows, no order, and no rows.  `Reachable.induct` says that whatever holds of an
empty frame and survives each step holds of every frame there can be.
-/
import FrameLang.Frame.Selection
import FrameLang.Proofs.Comparing
import FrameLang.Proofs.Evaluation
import Mathlib.Logic.Relation

namespace FrameLang

theorem exists_of_bind_eq_ok {ε α β : Type} {x : Except ε α} {f : α → Except ε β} {b : β}
    (h : (x >>= f) = .ok b) : ∃ a, x = .ok a ∧ f a = .ok b := by
  cases x with
  | error e => cases h
  | ok a => exact ⟨a, rfl, h⟩

theorem exists_of_map_eq_ok {ε α β : Type} {x : Except ε α} {f : α → β} {b : β}
    (h : x.map f = .ok b) : ∃ a, x = .ok a ∧ f a = b := by
  cases x with
  | error e => cases h
  | ok a =>
      cases h
      exact ⟨a, rfl, rfl⟩

namespace Frame

open Run

/-! ### Requests -/

/-- What can be asked of a frame that changes it. -/
inductive Request
  | column (name : String) (type : ValueType)
  | computed (name source : String)
  | row (values : List Value)
  | sortBy (names : List String)
  | sortByExpression (text : String)
  | unsort

def Request.run (depth : Nat) (host : Host) (f : Frame) : Request → Run Frame
  | column name type => f.addColumn name type
  | computed name source => f.addComputed name source
  | row values => f.addRow values
  | sortBy names => f.sortBy depth host names
  | sortByExpression text => f.sortByExpression depth host text
  | unsort => pure f.unsort

/-- The frame after a request, which is the frame before it if the request fails. -/
def after (depth : Nat) (host : Host) (f : Frame) (r : Request) (s : Store) : Frame × Store :=
  match (r.run depth host f s : Except Stop Frame × Store) with
  | (.ok g, s') => (g, s')
  | (.error _, s') => (f, s')

/-- The frames that come about by any requests, selections, partitions and projections. -/
inductive Reachable : Frame → Prop
  | new (name : String) (registry : Registry) : Reachable { name, registry }
  | request {f : Frame} (h : Reachable f) (depth : Nat) (host : Host) (r : Request) (s : Store) :
      Reachable (f.after depth host r s).1
  | selected {f g : Frame} (h : Reachable f) {depth : Nat} {host : Host} {text : String}
      {s s' : Store} (hrun : f.select depth host text s = (.ok g, s')) : Reachable g
  | chosen {f g rest : Frame} (h : Reachable f) {depth : Nat} {host : Host} {text : String}
      {s s' : Store} (hrun : f.partition depth host text s = (.ok (g, rest), s')) : Reachable g
  | left {f g rest : Frame} (h : Reachable f) {depth : Nat} {host : Host} {text : String}
      {s s' : Store} (hrun : f.partition depth host text s = (.ok (g, rest), s')) : Reachable rest
  | projected {g : Frame} {env : Environment} {depth : Nat} {elements : List Expr}
      {filter : Option Expr} {identity : Nat} {s s' : Store}
      (hrun : env.evaluate depth (.project elements filter) s = (.ok (.frame identity g), s')) :
      Reachable g

/-! ### What the operations do when they succeed -/

theorem pushColumn_eq_ok {f g : Frame} {c : Column} :
    f.pushColumn c = .ok g ↔ f.hasColumn c.name = false ∧ g = f.extend c := by
  unfold pushColumn
  cases f.hasColumn c.name with
  | true => simp
  | false => simp [eq_comm]

theorem withColumn_eq_ok {f g : Frame} {name : String} {type : ValueType} :
    f.withColumn name type = .ok g ↔
      f.rowCount = 0 ∧ ∃ t, ScalarType.ofValueType? type = some t ∧ f.hasColumn name = false ∧
        g = f.extend { name, content := .stored (.empty t) } := by
  unfold withColumn Cells.ofType
  by_cases hrows : f.rowCount = 0
  · cases ht : ScalarType.ofValueType? type with
    | none => simp [hrows, bind, Except.bind]
    | some t => simp [hrows, bind, Except.bind, pushColumn_eq_ok]
  · simp [hrows]

theorem withComputed_eq_ok {f g : Frame} {name source : String} :
    f.withComputed name source = .ok g ↔
      ∃ e t, Expr.ofSource source = .ok e ∧ f.scope.check e = .ok t ∧ t ≠ .void ∧
        f.hasColumn name = false ∧ g = f.extend { name, content := .computed source e t } := by
  unfold withComputed
  cases he : Expr.ofSource source with
  | error e => simp [Except.mapError, bind, Except.bind]
  | ok e =>
      cases ht : f.scope.check e with
      | error e => simp [Except.mapError, bind, Except.bind, ht]
      | ok t =>
          by_cases hvoid : t = .void
          · simp [Except.mapError, bind, Except.bind, ht, hvoid]
          · simp [Except.mapError, bind, Except.bind, ht, hvoid, pushColumn_eq_ok]

theorem withRow_eq_ok {f g : Frame} {values : List Value} :
    f.withRow values = .ok g ↔
      values.length = f.storedCount ∧ ∃ columns, appendToColumns f.columns values = .ok columns ∧
        g = { f with
          columns, rowCount := f.rowCount + 1, order := f.order.map (· ++ [f.rowCount]) } := by
  unfold withRow
  by_cases hlength : values.length = f.storedCount
  · cases hcolumns : appendToColumns f.columns values with
    | error e => simp [hlength, bind, Except.bind]
    | ok columns => simp [hlength, bind, Except.bind, pure, Except.pure, eq_comm]
  · simp [hlength]

/-! ### Steps -/

/-- One plain change of a frame. -/
inductive Step : Frame → Frame → Prop
  | column {f g : Frame} {name : String} {type : ValueType} (h : f.withColumn name type = .ok g) :
      Step f g
  | computed {f g : Frame} {name source : String} (h : f.withComputed name source = .ok g) :
      Step f g
  | row {f g : Frame} {values : List Value} (h : f.withRow values = .ok g) : Step f g
  | order {f : Frame} {order : List Nat} (h : order.Perm f.rows) :
      Step f { f with order := some order }
  | unsort (f : Frame) : Step f f.unsort
  | clear (f : Frame) : Step f f.cleared

/-- Sorting comes down to a new order of the rows there are. -/
theorem meets_sortWith {sort : RowSort} (hsort : Comparing.Sorts sort) (f : Frame)
    (key : Nat → Run (List Value)) (s : Store) :
    Meets (f.sortWith sort key) s (fun g _ => Step f g) fun _ _ => True := by
  unfold sortWith
  have hkey : ∀ row ∈ f.rows, ∀ s : Store, True → Meets (do return (row, ← key row)) s
      (fun keyed _ => row = keyed.1 ∧ True) fun _ _ => True := by
    intro row _ s _
    exact meets_bind (meets_true _ _) fun _ _ _ => meets_pure ⟨rfl, trivial⟩
  refine meets_bind (meets_mapM hkey trivial) ?_
  intro keyed s' ⟨hrows, _⟩
  have hkeyed : f.rows = keyed.map Prod.fst :=
    List.forall₂_eq_eq_eq ▸ List.forall₂_map_right_iff.mpr hrows
  refine meets_bind
    (meets_orReport (Q := fun order _ => order.Perm f.rows) ?_ fun _ _ => trivial) ?_
  · intro order horder
    rw [hkeyed]
    exact perm_of_sortedRows hsort horder
  · intro order s'' horder
    exact meets_pure (Step.order horder)

theorem meets_request (depth : Nat) (host : Host) (f : Frame) (r : Request) (s : Store) :
    Meets (r.run depth host f) s (fun g _ => Step f g) fun _ _ => True := by
  cases r with
  | column name type => exact meets_orReport (fun _ h => Step.column h) fun _ _ => trivial
  | computed name source => exact meets_orReport (fun _ h => Step.computed h) fun _ _ => trivial
  | row values => exact meets_orReport (fun _ h => Step.row h) fun _ _ => trivial
  | sortBy names =>
      refine meets_bind (meets_true _ _) ?_
      intro columns s' _
      exact meets_sortWith Comparing.sorts_insertionSort f _ s'
  | sortByExpression text =>
      refine meets_bind (meets_true _ _) ?_
      intro e s' _
      exact meets_sortWith Comparing.sorts_insertionSort f _ s'
  | unsort => exact meets_pure (Step.unsort f)

/-- The frames that some steps make of an empty one. -/
def Built (f : Frame) : Prop :=
  ∃ name registry, Relation.ReflTransGen Step { name, registry } f

theorem Built.step {f g : Frame} (hf : Built f) (h : Step f g) : Built g := by
  obtain ⟨name, registry, hsteps⟩ := hf
  exact ⟨name, registry, hsteps.tail h⟩

/-- A fold of operations that are steps, each of which may fail, is made of steps. -/
theorem Built.foldlM {α : Type} {op : Frame → α → Except Error Frame}
    (hop : ∀ f a g, op f a = .ok g → Step f g) {l : List α} {f g : Frame} (hf : Built f)
    (h : l.foldlM op f = .ok g) : Built g := by
  induction l generalizing f with
  | nil =>
      cases h
      exact hf
  | cons a l ih =>
      rw [List.foldlM_cons] at h
      obtain ⟨next, hnext, hrest⟩ := exists_of_bind_eq_ok h
      exact ih (hf.step (hop f a next hnext)) hrest

theorem Built.pick {f g : Frame} {rows : List Nat} (hf : Built f) (h : f.pick rows = .ok g) :
    Built g :=
  (hf.step (Step.clear f)).foldlM (fun _ _ _ hrow => Step.row hrow) h

theorem built_projectedFrame {registry : Registry} {name : String} {elements : List Expr}
    {types : List ValueType} {rows : List (List Value)} {g : Frame}
    (h : projectedFrame registry name elements types rows = .ok g) : Built g := by
  unfold projectedFrame at h
  obtain ⟨empty, hempty, hrows⟩ := exists_of_bind_eq_ok h
  have hbuilt : Built empty :=
    Built.foldlM (fun _ _ _ hcolumn => Step.column hcolumn)
      ⟨name, registry, Relation.ReflTransGen.refl⟩ hempty
  exact hbuilt.foldlM (fun _ _ _ hrow => Step.row hrow) hrows

theorem meets_select {f : Frame} (hf : Built f) (depth : Nat) (host : Host) (text : String)
    (s : Store) : Meets (f.select depth host text) s (fun g _ => Built g) fun _ _ => True := by
  refine meets_bind (meets_true _ _) ?_
  intro rows s' _
  exact meets_orReport (fun _ h => hf.pick h) fun _ _ => trivial

theorem meets_partition {f : Frame} (hf : Built f) (depth : Nat) (host : Host) (text : String)
    (s : Store) :
    Meets (f.partition depth host text) s (fun g _ => Built g.1 ∧ Built g.2) fun _ _ => True := by
  refine meets_bind (meets_true _ _) ?_
  intro rows s' _
  have hpick : ∀ rows s, Meets (orReport (f.pick rows)) s (fun g _ => Built g) fun _ _ => True :=
    fun _ _ => meets_orReport (fun _ h => hf.pick h) fun _ _ => trivial
  refine meets_bind (hpick _ _) ?_
  intro chosen s'' hchosen
  refine meets_bind (hpick _ _) ?_
  intro left s''' hleft
  exact meets_pure ⟨hchosen, hleft⟩

/-- Every frame there can be is built from an empty one by steps. -/
theorem Reachable.built {f : Frame} (h : Reachable f) : Built f := by
  induction h with
  | new name registry => exact ⟨name, registry, Relation.ReflTransGen.refl⟩
  | @request f _ depth host r s ih =>
      unfold after
      rcases hrun : r.run depth host f s with ⟨_ | g, s'⟩
      · exact ih
      · exact ih.step ((meets_request depth host f r s).result hrun)
  | @selected f g _ depth host text s s' hrun ih =>
      exact (meets_select ih depth host text s).result hrun
  | @chosen f g rest _ depth host text s s' hrun ih =>
      exact ((meets_partition ih depth host text s).result hrun).1
  | @left f g rest _ depth host text s s' hrun ih =>
      exact ((meets_partition ih depth host text s).result hrun).2
  | @projected g env depth elements filter identity s s' hrun =>
      obtain ⟨_, _, _, _, _, _, hframe, hg⟩ := Expr.projectedFrame_of_evaluateWith hrun
      cases hframe
      exact built_projectedFrame hg

/-- What a request that succeeds makes of a frame there can be is such a frame. -/
theorem Reachable.of_run {f g : Frame} (hf : Reachable f) (depth : Nat) (host : Host) (r : Request)
    {s s' : Store} (hrun : r.run depth host f s = (.ok g, s')) : Reachable g := by
  have hafter := hf.request depth host r s
  unfold after at hafter
  rw [hrun] at hafter
  exact hafter

/-- What holds of an empty frame and survives every step holds of every frame there can be. -/
theorem Reachable.induct {P : Frame → Prop} (hnew : ∀ name registry, P { name, registry })
    (hstep : ∀ f g, Step f g → P f → P g) {f : Frame} (h : Reachable f) : P f := by
  obtain ⟨name, registry, hsteps⟩ := h.built
  clear h
  induction hsteps with
  | refl => exact hnew name registry
  | tail _ hlast ih => exact hstep _ _ hlast ih

end Frame
end FrameLang
