/-
A request that fails leaves everything as it was.

Done in place, a request writes bit by bit, and its failures stand between the writes.  Still, no
failure leaves a write behind: whatever stops a request stops it before its first write, so the
index, the columns with their cells, the number of rows and their order are those from before.

For columns and sorting this can be read off, since the last check comes before the first write.
For rows it is a fact about two loops.  The first asks of each value whether it fits its column; the
second appends the values, and each of its turns may fail after others have written.  None does.
The first loop finds a misfit where appending the whole row would (`checkValues_storedCells`), and
if it finds none, each turn of the second changes its own column and stops at nothing
(`pushValue_of_takes`), so the loop comes to its end (`foldlM_pushValue`).

The way to say all of it is `Performs`: in place, a request ends as it does when it makes a new
frame, and what is kept is the new frame if there is one and the old one if there is none.
-/
import FrameLang.Proofs.Frame.InPlace
import FrameLang.Proofs.Frame.Runs
import FrameLang.Proofs.Frame.Undoing
import FrameLang.Proofs.Frame.WellFormed

namespace FrameLang

open Run

/-! ### Doing the same in place -/

theorem Cells.append_of_fit? {c : Cells} {v : Value} {entry : Option c.type.Carrier}
    (h : c.type.fit? v = some entry) : c.append v = .ok (c.push entry) := by
  unfold append
  rw [h]

theorem Run.orReport_bind {α β : Type} (x : Except Error α) (k : α → Except Error β) :
    orReport (x >>= k) = orReport x >>= fun a => orReport (k a) := by
  cases x with
  | error e => rfl
  | ok a => rfl

namespace Change

variable {α β : Type} {f : Frame}

/-- In place, the change ends as the run does.  What is kept is then the frame that the run makes,
or the old one if it stops. -/
def Performs (change : Change Unit) (f : Frame) (run : Run Frame) : Prop :=
  ∀ s, change (f, s) = match (run s : Except Stop Frame × Store) with
    | (.ok g, s') => (.ok (), (g, s'))
    | (.error stop, s') => (.error stop, (f, s'))

theorem Performs.of_error {change : Change Unit} {run : Run Frame} (h : Performs change f run)
    {s s' : Store} {stop : Stop} {g : Frame}
    (hchange : change (f, s) = (.error stop, (g, s'))) :
    g = f ∧ run s = (.error stop, s') := by
  rw [h s] at hchange
  rcases hrun : run s with ⟨_ | g, s''⟩
  · rw [hrun] at hchange
    cases hchange
    exact ⟨rfl, rfl⟩
  · rw [hrun] at hchange
    cases hchange

theorem Performs.of_ok {change : Change Unit} {run : Run Frame} (h : Performs change f run)
    {s s' : Store} {g : Frame} (hchange : change (f, s) = (.ok (), (g, s'))) :
    run s = (.ok g, s') := by
  rw [h s] at hchange
  rcases hrun : run s with ⟨_ | g', s''⟩
  · rw [hrun] at hchange
    cases hchange
  · rw [hrun] at hchange
    cases hchange
    rfl

theorem performs_report (e : Error) : Performs (report e : Run Unit) f (report e) := fun _ => rfl

theorem Performs.here_bind {k : Frame → Change Unit} {run : Run Frame}
    (h : Performs (k f) f run) : Performs (here >>= k) f run := by
  intro s
  rw [run_bind]
  exact h s

/-- Whatever a run does, it leaves the frame alone. -/
theorem performs_bind {x : Run α} {k : α → Change Unit} {k' : α → Run Frame}
    (h : ∀ a, Performs (k a) f (k' a)) : Performs ((x : Change α) >>= k) f (x >>= k') := by
  intro s
  rw [run_bind, run_bind]
  have hlift : (liftM x : Change α) (f, s) =
      ((x s : Except Stop α × Store).1, (f, (x s : Except Stop α × Store).2)) := rfl
  rw [hlift]
  rcases x s with ⟨_ | a, s'⟩
  · rfl
  · exact h a s'

theorem performs_orReport_bind {x : Except Error α} {k : α → Change Unit}
    {k' : α → Except Error Frame} (h : ∀ a, Performs (k a) f (orReport (k' a))) :
    Performs ((orReport x : Run α) >>= k) f (orReport (x >>= k')) := by
  rw [orReport_bind]
  exact performs_bind h

/-! ### Columns -/

/-- The two writes of a new column make the frame with it. -/
theorem performs_pushColumn (f : Frame) (c : Column) :
    Performs (pushColumn c) f (orReport (f.pushColumn c)) := by
  unfold Frame.pushColumn
  refine Performs.here_bind ?_
  split
  · exact performs_report _
  · exact fun _ => rfl

theorem performs_addColumn (f : Frame) (name : String) (type : ValueType) :
    Performs (addColumn name type) f (f.addColumn name type) := by
  unfold Frame.addColumn Frame.withColumn
  refine Performs.here_bind ?_
  split
  · exact performs_orReport_bind fun cells => performs_pushColumn f _
  · exact performs_report _

theorem performs_addComputed (f : Frame) (name source : String) :
    Performs (addComputed name source) f (f.addComputed name source) := by
  unfold Frame.addComputed Frame.withComputed
  refine performs_orReport_bind fun e => Performs.here_bind ?_
  refine performs_orReport_bind fun type => ?_
  split
  · exact performs_report _
  · exact performs_pushColumn f _

/-! ### Rows -/

/-- The checks find what appending the values would find, a value that does not fit or none. -/
theorem checkValues_storedCells (columns : List Column) (values : List Value) :
    checkValues (storedCells columns) values =
      (Frame.appendToColumns columns values).map fun _ => () := by
  induction columns generalizing values with
  | nil => rfl
  | cons c columns ih =>
      obtain ⟨name, content⟩ := c
      cases content with
      | computed source e type =>
          change checkValues (storedCells columns) values =
            Except.map _ ((Frame.appendToColumns columns values).map _)
          rw [ih]
          cases Frame.appendToColumns columns values with
          | error cause => rfl
          | ok grown => rfl
      | stored cells =>
          cases values with
          | nil =>
              have hrest := ih []
              unfold checkValues at hrest ⊢
              rw [List.zip_nil_right] at hrest ⊢
              change Except.ok () = Except.map _ ((Frame.appendToColumns columns []).map _)
              cases happend : Frame.appendToColumns columns [] with
              | error cause =>
                  rw [happend] at hrest
                  cases hrest
              | ok grown => rfl
          | cons v values =>
              change ((if cells.accepts v then _ else _) >>= fun _ =>
                checkValues (storedCells columns) values) = _
              have haccepts : cells.accepts v = (cells.type.fit? v).isSome := rfl
              simp only [ih, Frame.appendToColumns]
              rw [haccepts]
              cases cells.type.fit? v with
              | none => rfl
              | some entry =>
                  cases Frame.appendToColumns columns values with
                  | error cause => rfl
                  | ok grown => rfl

/-- One turn of the second loop changes one column, the one whose turn it is. -/
theorem pushValue_of_takes {c d : Column} {values left : List Value} (h : c.Takes values d left)
    (l : Frame) (before rest : List Column) (s : Store) :
    pushValue values before.length ({ l with columns := before ++ c :: rest }, s) =
      (.ok left, ({ l with columns := before ++ d :: rest }, s)) := by
  have hat : (before ++ c :: rest)[before.length]? = some c := by simp
  have hset : (before ++ c :: rest).set before.length d = before ++ d :: rest := by simp
  simp only [pushValue, run_bind, here, hat]
  cases h with
  | computed => rfl
  | exhausted => rfl
  | @stored name cells v _ entry hfit =>
      simp only [Cells.append_of_fit? hfit]
      rw [← hset]
      rfl

/-- What the second loop has come past has its row, and the rest is as it was. -/
theorem foldlM_pushValue {rest grown : List Column} {values : List Value}
    (h : Frame.appendToColumns rest values = .ok grown) (l : Frame) (before : List Column)
    (s : Store) :
    ∃ left, (List.range' before.length rest.length).foldlM pushValue values
        ({ l with columns := before ++ rest }, s) =
      (.ok left, ({ l with columns := before ++ grown }, s)) := by
  induction rest generalizing before values grown with
  | nil =>
      cases h
      exact ⟨values, rfl⟩
  | cons c rest ih =>
      obtain ⟨d, left, tail, hturn, htail, rfl⟩ := Frame.takes_of_appendToColumns h
      obtain ⟨last, hlast⟩ := ih htail (before ++ [d])
      refine ⟨last, ?_⟩
      rw [List.length_cons, List.range'_succ, List.foldlM_cons, run_bind,
        pushValue_of_takes hturn]
      rw [List.length_append, List.length_singleton, List.append_assoc, List.append_assoc] at hlast
      exact hlast

/-- The second loop does not fail if the row can be appended. -/
theorem pushValues_of_appendToColumns {grown : List Column} {values : List Value}
    (h : Frame.appendToColumns f.columns values = .ok grown) (s : Store) :
    ∃ left, pushValues values (f, s) = (.ok left, ({ f with columns := grown }, s)) := by
  obtain ⟨left, hloop⟩ := foldlM_pushValue h f [] s
  refine ⟨left, ?_⟩
  unfold pushValues
  rw [run_bind]
  change (List.range f.columns.length).foldlM pushValue values (f, s) = _
  rw [List.range_eq_range']
  exact hloop

/-- Without the checks it can fail, and then a column has got its cell and another has not. -/
example :
    let f : Frame := { name := "stock", registry := ∅, index := .places ["price", "lot"], columns :=
      [{ name := "price", content := .stored (.empty .long) },
        { name := "lot", content := .stored (.empty .string) }] }
    let kept := (pushValues [.long 3, .long 4] (f, {}) :
      Except Stop (List Value) × (Frame × Store)).2.1
    (storedCells kept.columns).map (fun column => column.2.size) = [1, 0] := by
  rfl

theorem performs_addRow (f : Frame) (values : List Value) :
    Performs (addRow values) f (f.addRow values) := by
  unfold Frame.addRow Frame.withRow
  refine Performs.here_bind ?_
  split
  · exact performs_report _
  · rename_i hlength
    have hchecked := checkValues_storedCells f.columns values
    change Performs ((orReport (checkValues (storedCells f.columns) values) : Run Unit) >>= _) f _
    rw [hchecked]
    cases happend : Frame.appendToColumns f.columns values with
    | error e => exact performs_report e
    | ok grown =>
        intro s
        obtain ⟨left, hpush⟩ := pushValues_of_appendToColumns happend s
        rw [run_bind]
        change (pushValues values >>= _) (f, s) = _
        rw [run_bind, hpush]
        rfl

/-! ### Order -/

theorem performs_sortWith (sort : Frame.RowSort) (f : Frame) (key : Nat → Run (List Value)) :
    Performs (sortWith sort key) f (f.sortWith sort key) := by
  refine Performs.here_bind (performs_bind fun keyed => performs_bind fun order => ?_)
  exact fun _ => rfl

theorem performs_sortBy (f : Frame) (depth : Nat) (host : Host) (names : List String) :
    Performs (sortBy depth host names) f (f.sortBy depth host names) := by
  exact Performs.here_bind (performs_bind fun columns => performs_sortWith _ f _)

theorem performs_sortByExpression (f : Frame) (depth : Nat) (host : Host) (text : String) :
    Performs (sortByExpression depth host text) f (f.sortByExpression depth host text) := by
  unfold sortByExpression Frame.sortByExpression Frame.sortByExpressionUsing Frame.sortKey
  rw [orReport_bind, bind_assoc]
  refine performs_bind fun e => Performs.here_bind ?_
  cases f.scope.check e with
  | error cause => exact performs_report cause
  | ok type => exact performs_sortWith _ f _

theorem performs_unsort (f : Frame) : Performs unsort f (pure f.unsort) := fun _ => rfl

end Change

/-! ### Requests -/

namespace Frame

open Change

theorem performs_request (f : Frame) (depth : Nat) (host : Host) (r : Request) :
    Performs (r.perform depth host) f (r.run depth host f) := by
  cases r with
  | column name type => exact performs_addColumn f name type
  | computed name source => exact performs_addComputed f name source
  | row values => exact performs_addRow f values
  | sortBy names => exact performs_sortBy f depth host names
  | sortByExpression text => exact performs_sortByExpression f depth host text
  | unsort => exact performs_unsort f

/-- What is kept after a request is what the history of frames has there. -/
theorem perform_eq_after (f : Frame) (depth : Nat) (host : Host) (r : Request) (s : Store) :
    (r.perform depth host (f, s) : Except Stop Unit × (Frame × Store)).2 =
      f.after depth host r s := by
  rw [performs_request f depth host r s]
  unfold after
  rcases r.run depth host f s with ⟨_ | g, s'⟩
  · rfl
  · rfl

/-- Through a whole history, in which each request may fail, what is kept is the frame that the
history of frames has. -/
theorem performAll_eq (f : Frame) (depth : Nat) (host : Host) (rs : List Request) (s : Store) :
    (performAll depth host rs (f, s)).1 = f.afterAll depth host rs s := by
  induction rs generalizing f s with
  | nil => rfl
  | cons r rs ih =>
      rw [performAll, afterAll, perform_eq_after]
      exact ih _ _

/-- **A request that fails leaves everything as it was.**  Done in place, write by write, on any
frame, a request that stops leaves the columns and their cells, the index, the number of rows and
their order as they were, whatever stopped it and wherever it did; and it stops for the reason that
the request has when it makes a new frame.  If it does not stop, the new frame is kept.  So it is
through any history of requests.  And once a row has passed its checks, none of its values is
refused by the column that takes it. -/
theorem failure_atomic (f : Frame) (depth : Nat) (host : Host) :
    (∀ (r : Request) (s s' : Store) (stop : Stop) (g : Frame),
      r.perform depth host (f, s) = (.error stop, (g, s')) →
        g = f ∧ r.run depth host f s = (.error stop, s')) ∧
    (∀ (r : Request) (s s' : Store) (g : Frame),
      r.perform depth host (f, s) = (.ok (), (g, s')) → r.run depth host f s = (.ok g, s')) ∧
    (∀ (rs : List Request) (s : Store),
      (performAll depth host rs (f, s)).1 = f.afterAll depth host rs s) ∧
    ∀ (values : List Value) (s : Store), checkValues (storedCells f.columns) values = .ok () →
      ∃ left grown, pushValues values (f, s) = (.ok left, ({ f with columns := grown }, s)) := by
  have hperforms := performs_request f depth host
  refine ⟨fun r _ _ _ _ => (hperforms r).of_error, fun r _ _ _ => (hperforms r).of_ok,
    f.performAll_eq depth host, ?_⟩
  intro values s hchecked
  rw [checkValues_storedCells] at hchecked
  obtain ⟨grown, happend, _⟩ := exists_of_map_eq_ok hchecked
  obtain ⟨left, hpush⟩ := pushValues_of_appendToColumns happend s
  exact ⟨left, grown, hpush⟩

/-- A row is refused for its second value, and a sort meets keys that cannot be compared. -/
theorem failure_atomic_refused : ∃ (f : Frame) (host : Host) (misfit pair : Error),
    Reachable f ∧ f.order = some [1, 0] ∧
    (∃ g s', (Request.row [.long 3, .long 4]).perform 0 host (f, {}) =
      (.error (.failed misfit), (g, s')) ∧ g = f) ∧
    (∃ g s', (Request.sortByExpression "(lot, price)").perform 0 host (f, {}) =
      (.error (.failed pair), (g, s')) ∧ g = f) ∧
    ∃ left grown, pushValues [.long 3, .void] (f, {}) =
      (.ok left, ({ f with columns := grown }, {})) := by
  let f : Frame :=
    { name := "stock"
      columns := [{ name := "price", content := .stored ⟨.long, #[some 2, some 1]⟩ },
        { name := "lot", content := .stored ⟨.string, #[some "a", none]⟩ }]
      index := .places ["price", "lot"]
      rowCount := 2
      order := some [1, 0]
      registry := ∅ }
  have host : Host := fun key _ => .error (.unknownFunction key)
  have hempty : Reachable { name := "stock", registry := ∅ } := .new _ _
  have hprice := hempty.of_run 0 host (.column "price" .long) (s := {}) rfl
  have hlot := hprice.of_run 0 host (.column "lot" .string) (s := {}) rfl
  have hfirst := hlot.of_run 0 host (.row [.long 2, .string "a"]) (s := {}) rfl
  have hsecond : Reachable { f with order := none } :=
    hfirst.of_run 0 host (.row [.long 1, .void]) (s := {}) rfl
  have hf : Reachable f := hsecond.of_run 0 host (.sortBy ["price"]) (s := {}) rfl
  have hatomic := failure_atomic f 0 host
  let misfit : Error := .configuration (.misfit "4" "lot" .string)
  have hrow : (Request.row [.long 3, .long 4]).perform 0 host (f, {}) =
      (.error (.failed misfit), (f, { trace := #[.reported misfit] })) := by
    rfl
  let pair : Error := .incompatible .compare "(\"a\", 2)" "(VOID, 1)"
  have hsource : Expr.ofSource "(lot, price)" = .ok (.vector [.var "lot", .var "price"]) := by cbv
  have hsort : (Request.sortByExpression "(lot, price)").perform 0 host (f, {}) =
      (.error (.failed pair), (f, { trace := #[.reported pair] })) := by
    change Change.sortByExpression 0 host "(lot, price)" _ = _
    unfold Change.sortByExpression
    rw [hsource]
    rfl
  exact ⟨f, host, misfit, pair, hf, rfl, ⟨_, _, hrow, (hatomic.1 _ _ _ _ _ hrow).1⟩,
    ⟨_, _, hsort, (hatomic.1 _ _ _ _ _ hsort).1⟩,
    hatomic.2.2.2 [.long 3, .void] {} rfl⟩

end Frame
end FrameLang
