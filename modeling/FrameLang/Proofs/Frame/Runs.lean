/-
What can be done with a frame.

It is changed by requests, rows are taken from it, and its cells are read.  All of this comes down
to two things that involve the evaluator, to read a cell of one of its columns and to evaluate, over
a row, an expression that has passed its check.  So a property of runs that composes is had by
everything that can be done with a frame if these two have it (`HasParts.everyRun`).
-/
import FrameLang.Proofs.Composition
import FrameLang.Proofs.Frame.Partition
import FrameLang.Proofs.Frame.Reachable

namespace FrameLang

open Run

namespace Frame

/-- `P` holds of everything that can be done with a frame: to change it, to take rows from it, and
to read a cell. -/
structure EveryRun (P : ∀ {α : Type}, Run α → Prop) (depth : Nat) (host : Host) (f : Frame) :
    Prop where
  request : ∀ r : Request, P (r.run depth host f)
  select : ∀ text, P (f.select depth host text)
  partition : ∀ text, P (f.partition depth host text)
  get : ∀ column row, P (f.get depth host column row)
  getAt : ∀ row column, P (f.getAt depth host row column)
  getTyped : ∀ type column row, P (f.getTyped depth host type column row)
  isNull : ∀ column row, P (f.isNull depth host column row)

/-- `P` holds of what a frame has evaluated: its columns, and expressions that pass its check. -/
structure HasParts (P : ∀ {α : Type}, Run α → Prop) (depth : Nat) (host : Host) (f : Frame) :
    Prop where
  column : ∀ column ∈ f.columns, ∀ row, P (f.readColumn (Expr.runDeep depth) host column row)
  checked : ∀ e t, f.scope.check e = .ok t → ∀ row, P (f.evaluateOnRow depth host e row)

variable {P P' : ∀ {α : Type}, Run α → Prop} {depth : Nat} {host : Host} {f : Frame}

theorem EveryRun.imp (h : f.EveryRun P depth host)
    (hP : ∀ {α : Type} (run : Run α), P run → P' run) : f.EveryRun P' depth host where
  request r := hP _ (h.request r)
  select text := hP _ (h.select text)
  partition text := hP _ (h.partition text)
  get column row := hP _ (h.get column row)
  getAt row column := hP _ (h.getAt row column)
  getTyped type column row := hP _ (h.getTyped type column row)
  isNull column row := hP _ (h.isNull column row)

theorem mem_of_sortColumns {names : List String} {columns : List Column}
    (h : f.sortColumns names = .ok columns) {c : Column} (hc : c ∈ columns) : c ∈ f.columns := by
  unfold sortColumns at h
  induction names generalizing columns with
  | nil =>
      cases h
      cases hc
  | cons name names ih =>
      rw [List.mapM_cons] at h
      obtain ⟨first, hfirst, h⟩ := exists_of_bind_eq_ok h
      obtain ⟨rest, hrest, h⟩ := exists_of_bind_eq_ok h
      cases h
      rcases List.mem_cons.mp hc with rfl | hc
      · cases hname : f.column? name with
        | none =>
            rw [hname] at hfirst
            cases hfirst
        | some found =>
            rw [hname] at hfirst
            cases hfirst
            exact mem_of_column? hname
      · exact ih hrest hc

theorem exists_check_of_sortKey {text : String} {e : Expr} (h : f.sortKey text = .ok e) :
    ∃ t, f.scope.check e = .ok t := by
  unfold sortKey at h
  obtain ⟨e', _, h⟩ := exists_of_bind_eq_ok h
  cases hcheck : f.scope.check e' with
  | error cause =>
      rw [hcheck] at h
      cases h
  | ok t =>
      rw [hcheck] at h
      cases h
      exact ⟨t, hcheck⟩

/-- To sort is to compute the keys and then to put the rows in order. -/
theorem sortWith_of_key (hP : Composes P) {sort : RowSort} {key : Nat → Run (List Value)}
    (h : ∀ row, P (key row)) : P (f.sortWith sort key) := by
  unfold sortWith
  refine hP.bind (hP.mapM fun row _ => ?_) fun keyed _ _ _ => ?_
  · exact hP.bind (h row) fun _ _ _ _ => hP.pure _
  · exact hP.bind (hP.orReport _) fun _ _ _ _ => hP.pure _

namespace HasParts

theorem request (h : f.HasParts P depth host) (hP : Composes P) (r : Request) :
    P (r.run depth host f) := by
  cases r with
  | column | computed | row => exact hP.orReport _
  | sortBy names =>
      refine hP.orReport_bind fun columns hcolumns => sortWith_of_key hP fun row => hP.mapM ?_
      intro c hc
      exact h.column c (mem_of_sortColumns hcolumns hc) row
  | sortByExpression text =>
      refine hP.orReport_bind fun e he => sortWith_of_key hP fun row => ?_
      obtain ⟨t, hcheck⟩ := exists_check_of_sortKey he
      exact hP.bind (h.checked e t hcheck row) fun _ _ _ _ => hP.pure _
  | unsort => exact hP.pure _

theorem split (h : f.HasParts P depth host) (hP : Composes P) (text : String) :
    P (f.split depth host text) := by
  unfold Frame.split
  refine hP.orReport_bind fun e he => hP.bind (hP.mapM fun row _ => ?_) fun _ _ _ _ => hP.pure _
  refine hP.bind (h.checked e _ (condition_eq_ok.mp he).2 row) fun v _ _ _ => ?_
  split
  · exact hP.pure _
  · exact hP.pure _

theorem get (h : f.HasParts P depth host) (hP : Composes P) (column : String) (row : Nat) :
    P (f.get depth host column row) :=
  hP.readNamed h.column column row

theorem getAt (h : f.HasParts P depth host) (hP : Composes P) (row column : Nat) :
    P (f.getAt depth host row column) := by
  unfold Frame.getAt
  split
  · exact hP.report _
  · rename_i c hc
    split
    · exact hP.report _
    · exact h.column c (List.mem_of_getElem? hc) _

/-- **What is done with a frame is made of its columns and of the expressions that it checks.** -/
theorem everyRun (h : f.HasParts P depth host) (hP : Composes P) : f.EveryRun P depth host where
  request := h.request hP
  select text := hP.bind (h.split hP text) fun _ _ _ _ => hP.orReport _
  partition text := hP.bind (h.split hP text) fun _ _ _ _ =>
    hP.bind (hP.orReport _) fun _ _ _ _ => hP.bind (hP.orReport _) fun _ _ _ _ => hP.pure _
  get := h.get hP
  getAt := h.getAt hP
  getTyped _ column row := hP.bind (h.get hP column row) fun _ _ _ _ => hP.orReport _
  isNull column row := hP.bind (h.get hP column row) fun _ _ _ _ => hP.pure _

end HasParts

end Frame

end FrameLang
