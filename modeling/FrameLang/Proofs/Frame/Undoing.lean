/-
Sorting can always be undone.

Sorts, failed sorts and unsorts come between the other requests in any way, and rows are appended to
sorted frames.  In the end it makes no difference: unsorting gives the frame that there would be if
nothing had ever been sorted, and every other request succeeds or fails as it would have.

The argument is a simulation.  Beside the history runs the same history without the requests that
are about the order of rows.  A request of those changes the order and nothing else, so the frame
beside it may stand still (`unsort_after`).  Any other request does the same to the columns whatever
the order is (`after_unsort`).  So after each request the one frame, unsorted, is the other
(`unsort_afterAll`).
-/
import FrameLang.Proofs.Frame.Reachable
import FrameLang.Proofs.Frame.Rows

namespace FrameLang

namespace Frame

open Run

/-- Whether a request is about the order of rows and nothing else. -/
def Request.isOrdering : Request → Bool
  | sortBy _ | sortByExpression _ | unsort => true
  | column .. | computed .. | row _ => false

/-- How a request ends: it succeeds, or stops for some reason. -/
def outcome (depth : Nat) (host : Host) (f : Frame) (r : Request) (s : Store) : Except Stop Unit :=
  (r.run depth host f s : Except Stop Frame × Store).1.map fun _ => ()

/-! ### Histories -/

/-- The frame after some requests, one after another. -/
def afterAll (depth : Nat) (host : Host) : Frame → List Request → Store → Frame
  | f, [], _ => f
  | f, r :: rs, s => afterAll depth host (f.after depth host r s).1 rs (f.after depth host r s).2

/-- The requests of a history, each with how it ends. -/
def outcomes (depth : Nat) (host : Host) :
    Frame → List Request → Store → List (Request × Except Stop Unit)
  | _, [], _ => []
  | f, r :: rs, s => (r, f.outcome depth host r s) ::
    outcomes depth host (f.after depth host r s).1 rs (f.after depth host r s).2

/-- Unsorting comes last. -/
theorem afterAll_append_unsort (depth : Nat) (host : Host) (f : Frame) (rs : List Request)
    (s : Store) :
    f.afterAll depth host (rs ++ [.unsort]) s = (f.afterAll depth host rs s).unsort := by
  induction rs generalizing f s with
  | nil => rfl
  | cons r rs ih => exact ih _ _

/-! ### Requests about the order -/

theorem meets_sortWith_unsort (sort : RowSort) (f : Frame) (key : Nat → Run (List Value))
    (s : Store) :
    Meets (f.sortWith sort key) s (fun g _ => g.unsort = f.unsort) fun _ _ => True := by
  refine meets_bind (meets_true _ _) ?_
  intro keyed s₁ _
  refine meets_bind (meets_true _ _) ?_
  intro order s₂ _
  exact meets_pure rfl

theorem meets_ordering {r : Request} (hr : r.isOrdering = true) (depth : Nat) (host : Host)
    (f : Frame) (s : Store) :
    Meets (r.run depth host f) s (fun g _ => g.unsort = f.unsort) fun _ _ => True := by
  cases r with
  | sortBy names =>
      refine meets_bind (meets_true _ _) ?_
      intro columns s' _
      exact meets_sortWith_unsort _ f _ s'
  | sortByExpression text =>
      refine meets_bind (meets_true _ _) ?_
      intro e s' _
      exact meets_sortWith_unsort _ f _ s'
  | unsort => exact meets_pure rfl
  | _ => cases hr

/-- A request about the order changes nothing else, whether it succeeds or fails. -/
theorem unsort_after {r : Request} (hr : r.isOrdering = true) (depth : Nat) (host : Host)
    (f : Frame) (s : Store) : (f.after depth host r s).1.unsort = f.unsort := by
  unfold after
  rcases hrun : r.run depth host f s with ⟨_ | g, s'⟩
  · rfl
  · exact (meets_ordering hr depth host f s).result hrun

/-! ### Requests about columns and rows -/

theorem pushColumn_unsort (f : Frame) (c : Column) :
    f.unsort.pushColumn c = (f.pushColumn c).map unsort := by
  unfold pushColumn
  change (if f.hasColumn c.name then _ else _) = _
  split
  · rfl
  · rfl

theorem withColumn_unsort (f : Frame) (name : String) (type : ValueType) :
    f.unsort.withColumn name type = (f.withColumn name type).map unsort := by
  unfold withColumn
  change (if f.rowCount = 0 then _ else _) = _
  split
  · cases Cells.ofType type with
    | error e => rfl
    | ok cells => exact f.pushColumn_unsort _
  · rfl

theorem withComputed_unsort (f : Frame) (name source : String) :
    f.unsort.withComputed name source = (f.withComputed name source).map unsort := by
  unfold withComputed
  cases Expr.ofSource source with
  | error e => rfl
  | ok e =>
      change (f.scope.check e >>= _) = Except.map unsort (f.scope.check e >>= _)
      cases f.scope.check e with
      | error cause => rfl
      | ok type =>
          change (if type = .void then _ else _) = Except.map unsort (if type = .void then _ else _)
          split
          · rfl
          · exact f.pushColumn_unsort _

theorem withRow_unsort (f : Frame) (values : List Value) :
    f.unsort.withRow values = (f.withRow values).map unsort := by
  unfold withRow
  change (if values.length ≠ f.storedCount then _ else _) = _
  split
  · rfl
  · change (appendToColumns f.columns values >>= _) = _
    cases appendToColumns f.columns values with
    | error e => rfl
    | ok columns => rfl

/-- Any other request does the same to an unsorted frame, from any store. -/
theorem run_unsort {r : Request} (hr : r.isOrdering = false) (depth : Nat) (host : Host)
    (f : Frame) (s s' : Store) :
    (r.run depth host f.unsort s' : Except Stop Frame × Store).1 =
      (r.run depth host f s : Except Stop Frame × Store).1.map unsort := by
  have horReport : ∀ {x y : Except Error Frame}, y = x.map unsort →
      (orReport y s' : Except Stop Frame × Store).1 =
        (orReport x s : Except Stop Frame × Store).1.map unsort := by
    rintro x _ rfl
    cases x with
    | ok g => rfl
    | error e => rfl
  cases r with
  | column name type => exact horReport (f.withColumn_unsort name type)
  | computed name source => exact horReport (f.withComputed_unsort name source)
  | row values => exact horReport (f.withRow_unsort values)
  | _ => cases hr

theorem after_eq (depth : Nat) (host : Host) (f : Frame) (r : Request) (s : Store) :
    (f.after depth host r s).1 = match (r.run depth host f s : Except Stop Frame × Store).1 with
      | .ok g => g
      | .error _ => f := by
  unfold after
  rcases r.run depth host f s with ⟨_ | g, s'⟩
  · rfl
  · rfl

theorem after_unsort {r : Request} (hr : r.isOrdering = false) (depth : Nat) (host : Host)
    (f : Frame) (s s' : Store) :
    (f.unsort.after depth host r s').1 = (f.after depth host r s).1.unsort := by
  rw [after_eq, after_eq, run_unsort hr depth host f s s']
  rcases (r.run depth host f s : Except Stop Frame × Store).1 with _ | g
  · rfl
  · rfl

theorem outcome_unsort {r : Request} (hr : r.isOrdering = false) (depth : Nat) (host : Host)
    (f : Frame) (s s' : Store) :
    f.unsort.outcome depth host r s' = f.outcome depth host r s := by
  unfold outcome
  rw [run_unsort hr depth host f s s']
  rcases (r.run depth host f s : Except Stop Frame × Store).1 with _ | _
  · rfl
  · rfl

/-! ### Whole histories -/

/-- A history, unsorted in the end, is the history without requests about the order. -/
theorem unsort_afterAll (depth : Nat) (host : Host) (f : Frame) (rs : List Request)
    (s s' : Store) :
    (f.afterAll depth host rs s).unsort =
      f.unsort.afterAll depth host (rs.filter (!·.isOrdering)) s' := by
  induction rs generalizing f s s' with
  | nil => rfl
  | cons r rs ih =>
      cases hr : r.isOrdering with
      | true =>
          rw [List.filter_cons_of_neg (by simp [hr]), afterAll, ih _ _ s', unsort_after hr]
      | false =>
          rw [List.filter_cons_of_pos (by simp [hr]), afterAll, afterAll,
            after_unsort hr depth host f s s']
          exact ih _ _ _

/-- The other requests of a history end as they do without requests about the order. -/
theorem outcomes_filter (depth : Nat) (host : Host) (f : Frame) (rs : List Request)
    (s s' : Store) :
    (f.outcomes depth host rs s).filter (!·.1.isOrdering) =
      f.unsort.outcomes depth host (rs.filter (!·.isOrdering)) s' := by
  induction rs generalizing f s s' with
  | nil => rfl
  | cons r rs ih =>
      cases hr : r.isOrdering with
      | true =>
          rw [List.filter_cons_of_neg (by simp [hr]), outcomes,
            List.filter_cons_of_neg (by simp [hr]), ih _ _ s', unsort_after hr]
      | false =>
          rw [List.filter_cons_of_pos (by simp [hr]), outcomes,
            List.filter_cons_of_pos (by simp [hr]), outcomes, outcome_unsort hr depth host f s s',
            after_unsort hr depth host f s s']
          exact congrArg _ (ih _ _ _)

/-- **Sorting can always be undone and never touches contents.**  After any history of requests,
each of which may fail, unsorting gives a frame that is not sorted and has the columns, the rows and
the reads that there are if the requests about the order had never been made; and all other requests
end as they do then.  Neither depends on what was evaluated or written before. -/
theorem sorting_undone {f : Frame} (hf : f.isSorted = false) (depth : Nat) (host : Host)
    (rs : List Request) (s s' : Store) :
    let g := f.afterAll depth host (rs ++ [.unsort]) s
    let h := f.afterAll depth host (rs.filter (!·.isOrdering)) s'
    g.columns = h.columns ∧ g.rowCount = h.rowCount ∧ g.isSorted = false ∧
      (∀ depth host row column,
        EndAlike (g.getAt depth host row column) (h.getAt depth host row column)) ∧
      (∀ depth host name row,
        EndAlike (g.get depth host name row) (h.get depth host name row)) ∧
      (f.outcomes depth host rs s).filter (!·.1.isOrdering) =
        f.outcomes depth host (rs.filter (!·.isOrdering)) s' := by
  have hunsorted : f.unsort = f := by
    obtain ⟨name, columns, index, rowCount, order, registry⟩ := f
    cases order with
    | none => rfl
    | some order => cases hf
  have hframes := unsort_afterAll depth host f rs s s'
  have houtcomes := outcomes_filter depth host f rs s s'
  rw [hunsorted] at hframes houtcomes
  intro g h
  have hg : g = h := (afterAll_append_unsort depth host f rs s).trans hframes
  refine ⟨by rw [hg], by rw [hg], ?_, ?_, ?_, houtcomes⟩
  · change (f.afterAll depth host (rs ++ [.unsort]) s).isSorted = false
    rw [afterAll_append_unsort]
    rfl
  · intro depth host row column
    rw [hg]
    exact h.endAlike_getAt depth host row column
  · intro depth host name row
    rw [hg]
    exact h.endAlike_get depth host name row

/-- A row is appended to a sorted frame, then a sort fails, and then a row does not fit. -/
theorem sorting_undone_appended : ∃ (f : Frame) (host : Host) (rs : List Request),
    f.isSorted = false ∧ (f.afterAll 0 host rs {}).order = some [1, 0, 2] ∧
    (f.afterAll 0 host (rs ++ [.unsort]) {}).columns =
      (f.afterAll 0 host (rs.filter (!·.isOrdering)) {}).columns ∧
    (f.afterAll 0 host (rs ++ [.unsort]) {}).rowCount =
      (f.afterAll 0 host (rs.filter (!·.isOrdering)) {}).rowCount ∧
    (f.outcomes 0 host rs {}).filter (!·.1.isOrdering) =
      f.outcomes 0 host (rs.filter (!·.isOrdering)) {} := by
  let f : Frame := { name := "prices", registry := ∅ }
  let host : Host := fun key _ => .error (.unknownFunction key)
  let rs : List Request := [.column "price" .long, .row [.long 2], .row [.long 1],
    .sortBy ["price"], .row [.long 3], .sortBy ["cost"], .row []]
  have horder : (f.afterAll 0 host rs {}).order = some [1, 0, 2] := by decide +kernel +revert
  obtain ⟨hcolumns, hrowCount, _, _, _, houtcomes⟩ :=
    sorting_undone (f := f) rfl 0 host rs {} {}
  exact ⟨f, host, rs, rfl, horder, hcolumns, hrowCount, houtcomes⟩

end Frame
end FrameLang
