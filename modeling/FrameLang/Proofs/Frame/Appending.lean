/-
A row that is appended is read as it was given.

A row has a value for every stored column and none for a computed one, while columns of both kinds
stand between each other.  So a value does not find its column by its place in the row.  What it
finds is said by `Distributes`, which goes through the columns and the values at once and leaves the
computed columns out.  Everything else is read off it: which rows are taken, what the new row shows,
and that the other rows show what they did.

The new row is the last one physically, and it is put at the end of the order if there is one, so it
is the last one shown in any case.  Which place the earlier rows have is not touched, and neither
are their cells; that is all that a read depends on, however deep computed columns read each other.
-/
import FrameLang.Proofs.Frame.Atomicity
import FrameLang.Proofs.Frame.Rows
import FrameLang.Proofs.Frame.Table
import FrameLang.Proofs.Keys.Preorder

namespace FrameLang

open Run

/-! ### Values for columns -/

namespace ScalarType

/-- Into a column fit `void`, the values of its type, and longs if it is one of doubles. -/
theorem fits_iff {type : ScalarType} {v : Value} :
    type.Fits v ↔
      v = .void ∨ v.type = type.toValueType ∨ v.type = .long ∧ type.toValueType = .double := by
  cases type with
  | _ => cases v with
    | _ => simp [Fits, fit?, Value.type, toValueType]

/-- A cell shows the value that it was given, a long among doubles as the double. -/
theorem Fits.shown_eq {type : ScalarType} {v : Value} (h : type.Fits v) :
    type.shown v = if type.toValueType = .double then v.widened else v := by
  by_cases hlong : v.type = .long ∧ type.toValueType = .double
  · obtain ⟨hv, ht⟩ := hlong
    cases v with
    | long n =>
        cases type with
        | double => rfl
        | _ => cases ht
    | _ => cases hv
  · have hself : v.type = .void ∨ v.type = type.toValueType := by
      rcases fits_iff.mp h with rfl | hown | hwide
      · exact Or.inl rfl
      · exact Or.inr hown
      · exact absurd hwide hlong
    rw [(shown_eq_self hself).2]
    split
    · rename_i ht
      cases v with
      | long n => exact absurd ⟨rfl, ht⟩ hlong
      | _ => rfl
    · rfl

end ScalarType

namespace Column

/-- What may stand in a row for a column: `void`, a value of its type, or a long if the column is
one of doubles. -/
def Accepts (c : Column) (v : Value) : Prop :=
  v = .void ∨ v.type = c.type ∨ v.type = .long ∧ c.type = .double

/-- What a column shows of a value that it accepts. -/
def shows (c : Column) (v : Value) : Value := if c.type = .double then v.widened else v

theorem shows_eq_void (c : Column) {v : Value} : c.shows v = .void ↔ v = .void := by
  unfold shows
  split
  · cases v with
    | _ => simp [Value.widened]
  · exact Iff.rfl

/-- A column that grows keeps what it shows in the rows it has. -/
theorem Grows.showsAs {c d : Column} (h : Grows c d) {n row : Nat} (hc : c.Holds n)
    (hrow : row < n) : ShowsAs row row c d := by
  cases h with
  | @stored name cells entry =>
      have hsize : row < cells.entries.size := by
        have hholds : cells.entries.size = n := hc cells rfl
        omega
      refine ShowsAs.stored rfl ?_
      show cells.type.toValue cells.entries[row]?.join =
        cells.type.toValue (cells.entries.push entry)[row]?.join
      rw [Array.getElem?_push_lt hsize, Array.getElem?_eq_getElem hsize]
  | computed => exact ShowsAs.computed

end Column

/-- A cell that is appended is the next one. -/
theorem Cells.get_push {cells : Cells} {entry : Option cells.type.Carrier} {n : Nat}
    (h : cells.size = n) : (cells.push entry).get n = cells.type.toValue entry := by
  subst h
  show cells.type.toValue ((cells.entries.push entry)[cells.entries.size]?).join = _
  rw [Array.getElem?_push_size]
  rfl

namespace Frame

/-! ### Values among columns -/

/-- Columns before and after a row: the values go to the stored columns in turn, one to each, and
the computed columns get none. -/
inductive Distributes : List Column → List Value → List Column → Prop
  | nil : Distributes [] [] []
  | stored {name : String} {cells : Cells} {v : Value} {columns grown : List Column}
      {values : List Value} (hv : cells.type.Fits v) (h : Distributes columns values grown) :
      Distributes ({ name, content := .stored cells } :: columns) (v :: values)
        ({ name, content := .stored (cells.push (cells.type.cell v)) } :: grown)
  | computed {name source : String} {e : Expr} {type : ValueType} {columns grown : List Column}
      {values : List Value} (h : Distributes columns values grown) :
      Distributes ({ name, content := .computed source e type } :: columns) values
        ({ name, content := .computed source e type } :: grown)

/-- **Appending to the columns is distributing the values among them.** -/
theorem distributes_iff {columns grown : List Column} {values : List Value} :
    Distributes columns values grown ↔
      values.length = columns.countP Column.isStored ∧
        appendToColumns columns values = .ok grown := by
  constructor
  · intro h
    induction h with
    | nil => exact ⟨rfl, rfl⟩
    | stored hv _ ih =>
        obtain ⟨hlength, happend⟩ := ih
        rw [List.countP_cons_of_pos rfl, List.length_cons, hlength]
        refine ⟨rfl, ?_⟩
        simp only [appendToColumns, hv.fit?_eq, happend]
        rfl
    | computed _ ih =>
        obtain ⟨hlength, happend⟩ := ih
        rw [List.countP_cons_of_neg (by simp [Column.isStored])]
        refine ⟨hlength, ?_⟩
        simp only [appendToColumns, happend]
        rfl
  · rintro ⟨hlength, happend⟩
    induction columns generalizing values grown with
    | nil =>
        cases happend
        cases List.length_eq_zero_iff.mp hlength
        exact Distributes.nil
    | cons c columns ih =>
        obtain ⟨d, left, tail, htakes, htail, rfl⟩ := takes_of_appendToColumns happend
        cases htakes with
        | @stored name cells v _ entry hfit =>
            rw [List.countP_cons_of_pos rfl, List.length_cons, Nat.add_right_cancel_iff] at hlength
            have hcell : entry = cells.type.cell v := by
              rw [ScalarType.cell, hfit, Option.join_some]
            rw [hcell]
            exact Distributes.stored (by rw [ScalarType.Fits, hfit]; rfl) (ih hlength htail)
        | exhausted =>
            rw [List.countP_cons_of_pos rfl] at hlength
            cases hlength
        | computed =>
            rw [List.countP_cons_of_neg (by simp [Column.isStored])] at hlength
            exact Distributes.computed (ih hlength htail)

/-- Values can be distributed if there is one for each stored column, which accepts it. -/
theorem exists_distributes_iff {columns : List Column} {values : List Value} :
    (∃ grown, Distributes columns values grown) ↔
      List.Forall₂ Column.Accepts (columns.filter Column.isStored) values := by
  induction columns generalizing values with
  | nil =>
      rw [List.filter_nil, List.forall₂_nil_left_iff]
      constructor
      · rintro ⟨_, h⟩
        cases h
        rfl
      · rintro rfl
        exact ⟨_, Distributes.nil⟩
  | cons c columns ih =>
      obtain ⟨name, content⟩ := c
      cases content with
      | stored cells =>
          rw [List.filter_cons_of_pos rfl, List.forall₂_cons_left_iff]
          constructor
          · rintro ⟨_, h⟩
            cases h with
            | stored hv h => exact ⟨_, _, ScalarType.fits_iff.mp hv, ih.mp ⟨_, h⟩, rfl⟩
          · rintro ⟨v, values, hv, hvalues, rfl⟩
            obtain ⟨grown, h⟩ := ih.mpr hvalues
            exact ⟨_, Distributes.stored (ScalarType.fits_iff.mpr hv) h⟩
      | computed source e type =>
          rw [List.filter_cons_of_neg (by simp [Column.isStored]), ← ih]
          constructor
          · rintro ⟨_, h⟩
            cases h with
            | computed h => exact ⟨_, h⟩
          · rintro ⟨grown, h⟩
            exact ⟨_, Distributes.computed h⟩

/-- **Each stored column has its own value in the new row**, whatever computed columns stand
between them. -/
theorem Distributes.cells {columns grown : List Column} {values : List Value}
    (h : Distributes columns values grown) {n : Nat} (hcells : ∀ c ∈ columns, c.Holds n) :
    List.Forall₂ (fun c v => ∃ cells, (c, ⟨c.name, .stored cells⟩) ∈ columns.zip grown ∧
      cells.get n = c.shows v) (columns.filter Column.isStored) values := by
  induction h with
  | nil => exact List.Forall₂.nil
  | @stored name cells v columns grown values hv _ ih =>
      obtain ⟨hsize, hrest⟩ := List.forall_mem_cons.mp hcells
      rw [List.filter_cons_of_pos rfl]
      refine List.Forall₂.cons ⟨_, List.mem_cons_self, ?_⟩ ?_
      · rw [Cells.get_push (hsize cells rfl)]
        exact hv.shown_eq
      · refine (ih hrest).imp ?_
        rintro c v ⟨cells, hmem, hget⟩
        exact ⟨cells, List.mem_cons_of_mem _ hmem, hget⟩
  | computed _ ih =>
      rw [List.filter_cons_of_neg (by simp [Column.isStored])]
      refine (ih (List.forall_mem_cons.mp hcells).2).imp ?_
      rintro c v ⟨cells, hmem, hget⟩
      exact ⟨cells, List.mem_cons_of_mem _ hmem, hget⟩

/-! ### The frame with the row -/

section Row

variable {f g : Frame} {values : List Value}

theorem withRow_eq_ok_iff_distributes :
    f.withRow values = .ok g ↔ ∃ grown, Distributes f.columns values grown ∧
      g = { f with
        columns := grown, rowCount := f.rowCount + 1,
        order := f.order.map (· ++ [f.rowCount]) } := by
  rw [withRow_eq_ok]
  constructor
  · rintro ⟨hlength, grown, happend, rfl⟩
    exact ⟨grown, distributes_iff.mpr ⟨hlength, happend⟩, rfl⟩
  · rintro ⟨grown, h, rfl⟩
    obtain ⟨hlength, happend⟩ := distributes_iff.mp h
    exact ⟨hlength, grown, happend, rfl⟩

theorem addRow_eq_ok {s s' : Store} :
    f.addRow values s = (.ok g, s') ↔ f.withRow values = .ok g ∧ s = s' := by
  unfold addRow
  cases f.withRow values with
  | error e =>
      constructor
      · intro h
        cases h
      · rintro ⟨h, _⟩
        cases h
  | ok g' =>
      show (Except.ok g', s) = (Except.ok g, s') ↔ _
      simp

/-- A row is taken if and only if there is a value for each stored column, which accepts it. -/
theorem exists_withRow_iff :
    (∃ g, f.withRow values = .ok g) ↔
      List.Forall₂ Column.Accepts (f.columns.filter Column.isStored) values := by
  rw [← exists_distributes_iff]
  constructor
  · rintro ⟨g, hrow⟩
    obtain ⟨grown, h, _⟩ := withRow_eq_ok_iff_distributes.mp hrow
    exact ⟨grown, h⟩
  · rintro ⟨grown, h⟩
    exact ⟨_, withRow_eq_ok_iff_distributes.mpr ⟨grown, h, rfl⟩⟩

/-- The row is shown last, sorted or not. -/
theorem rows_withRow (hrow : f.withRow values = .ok g) : g.rows = f.rows ++ [f.rowCount] := by
  obtain ⟨grown, _, rfl⟩ := withRow_eq_ok_iff_distributes.mp hrow
  unfold rows
  cases f.order with
  | none => exact List.range_succ
  | some order => rfl

theorem rowCount_withRow (hrow : f.withRow values = .ok g) : g.rowCount = f.rowCount + 1 := by
  obtain ⟨grown, _, rfl⟩ := withRow_eq_ok_iff_distributes.mp hrow
  rfl

theorem WellFormed.physicalRow?_last (hf : f.WellFormed) (hrow : f.withRow values = .ok g) :
    g.physicalRow? f.rowCount = some f.rowCount := by
  have hlength : f.rows.length = f.rowCount := by
    rw [hf.rows_perm.length_eq, List.length_range]
  unfold Frame.physicalRow?
  rw [rowCount_withRow hrow, rows_withRow hrow, if_pos (by omega), ← hlength,
    List.getElem?_concat_length]

theorem WellFormed.physicalRow?_withRow (hf : f.WellFormed) (hrow : f.withRow values = .ok g)
    {row : Nat} (hlt : row < f.rowCount) : g.physicalRow? row = f.physicalRow? row := by
  have hlength : row < f.rows.length := by
    rw [hf.rows_perm.length_eq, List.length_range]
    exact hlt
  unfold Frame.physicalRow?
  rw [rowCount_withRow hrow, rows_withRow hrow, if_pos (by omega), if_pos hlt,
    List.getElem?_append_left hlength]

/-- The rows there are show what they did. -/
theorem WellFormed.showsAs_withRow (hf : f.WellFormed) (hrow : f.withRow values = .ok g)
    {row : Nat} (hlt : row < f.rowCount) : f.ShowsAs row g row := by
  obtain ⟨hlength, grown, happend, rfl⟩ := withRow_eq_ok.mp hrow
  refine ⟨rfl, rfl, ?_⟩
  have hgrows := grows_of_appendToColumns hlength happend
  refine ((List.forall₂_and_left _ _).mpr ⟨hf.cells, hgrows⟩).imp ?_
  rintro c d ⟨hc, hcd⟩
  exact hcd.showsAs hc hlt

/-- The last row is read as it was given, by the names of stored columns and by their places. -/
theorem WellFormed.get_last (hf : f.WellFormed) (hrow : f.withRow values = .ok g) :
    List.Forall₂ (fun c v => ∃ i, f.columns[i]? = some c ∧ g.columnIndex? c.name = some i ∧
      ∀ depth host s, g.get depth host c.name f.rowCount s = (.ok (c.shows v), s) ∧
        g.getAt depth host f.rowCount i s = (.ok (c.shows v), s))
      (f.columns.filter Column.isStored) values := by
  have hg := hf.withRow hrow
  have hphysical := hf.physicalRow?_last hrow
  obtain ⟨grown, h, hgrown⟩ := withRow_eq_ok_iff_distributes.mp hrow
  refine (h.cells hf.cells).imp ?_
  rintro c v ⟨cells, hmem, hget⟩
  obtain ⟨i, hi⟩ := List.mem_iff_getElem?.mp hmem
  obtain ⟨hc, hd⟩ := List.getElem?_zip_eq_some.mp hi
  replace hd : g.columns[i]? = some ⟨c.name, .stored cells⟩ := by
    rw [hgrown]
    exact hd
  have hread : ∀ deeper host s, g.readColumn deeper host ⟨c.name, .stored cells⟩ f.rowCount s =
      (.ok (c.shows v), s) := by
    intro deeper host s
    rw [← hget]
    rfl
  refine ⟨i, hc, hg.columnIndex?_eq_some.mpr ⟨_, hd, rfl⟩, fun depth host s => ⟨?_, ?_⟩⟩
  · unfold get readNamed
    rw [hg.column?_name (c := ⟨c.name, .stored cells⟩) (List.mem_of_getElem? hd), hphysical]
    exact hread _ host s
  · unfold getAt
    rw [hd, hphysical]
    exact hread _ host s

end Row

/-- **A row that is appended is read as it was given, and no other row is touched.**  On a frame
there can be, appending in place succeeds if and only if there is a value for each stored column in
turn, `void` or of the column's type, or a long for a column of doubles.  What is kept is then a
frame with one more row.  It is the last one shown, and the stored column for which a value was
given shows that value there, or the double if a long was given to a column of doubles, and nothing
exactly if nothing was given.  Earlier rows are read as before, in stored and in computed columns,
and so are columns that do not exist. -/
theorem reachable_append_reads {f : Frame} (hf : Reachable f) (values : List Value) (s : Store) :
    ((∃ g s', Change.addRow values (f, s) = (.ok (), (g, s'))) ↔
      List.Forall₂ Column.Accepts (f.columns.filter Column.isStored) values) ∧
    ∀ g s', Change.addRow values (f, s) = (.ok (), (g, s')) →
      f.addRow values s = (.ok g, s') ∧ g.rowCount = f.rowCount + 1 ∧
        List.Forall₂ (fun c v => ∃ i, f.columns[i]? = some c ∧ g.columnIndex? c.name = some i ∧
          (c.shows v = .void ↔ v = .void) ∧
          ∀ depth host s, g.get depth host c.name f.rowCount s = (.ok (c.shows v), s) ∧
            g.getAt depth host f.rowCount i s = (.ok (c.shows v), s))
          (f.columns.filter Column.isStored) values ∧
        ∀ row < f.rowCount, ∀ depth host,
          (∀ name, EndAlike (f.get depth host name row) (g.get depth host name row)) ∧
          ∀ i, EndAlike (f.getAt depth host row i) (g.getAt depth host row i) := by
  have hwf := hf.wellFormed
  have hperforms := Change.performs_addRow f values
  constructor
  · rw [← exists_withRow_iff]
    constructor
    · rintro ⟨g, s', hchange⟩
      exact ⟨g, (addRow_eq_ok.mp (hperforms.of_ok hchange)).1⟩
    · rintro ⟨g, hrow⟩
      refine ⟨g, s, ?_⟩
      rw [hperforms s, addRow_eq_ok.mpr ⟨hrow, rfl⟩]
  · intro g s' hchange
    have hrun := hperforms.of_ok hchange
    have hrow : f.withRow values = .ok g := (addRow_eq_ok.mp hrun).1
    refine ⟨hrun, rowCount_withRow hrow, ?_, ?_⟩
    · refine (hwf.get_last hrow).imp ?_
      rintro c v ⟨i, hc, hi, hread⟩
      exact ⟨i, hc, hi, c.shows_eq_void, hread⟩
    · intro row hlt depth host
      obtain ⟨physical, _, hphysical, hplace⟩ := hwf.physicalRow? hlt
      have hphysical' : g.physicalRow? row = some physical := by
        rw [hwf.physicalRow?_withRow hrow hlt, hphysical]
      have hshows := hwf.showsAs_withRow hrow hplace
      have hname : f.name = g.name := by
        obtain ⟨_, _, rfl⟩ := withRow_eq_ok_iff_distributes.mp hrow
        rfl
      exact ⟨hshows.endAlike_get hphysical hphysical' hname depth host,
        hshows.endAlike_getAt hphysical hphysical' depth host⟩

/-- A computed column stands between a column of longs and one of doubles, and the rows are sorted.
The new row has nothing in the first column and a long for the last one. -/
theorem reachable_append_reads_sorted : ∃ f g : Frame, Reachable f ∧ f.order = some [1, 0] ∧
    f.columns.map Column.isStored = [true, false, true] ∧
    (∃ s, Change.addRow [.void, .long 4] (f, {}) = (.ok (), (g, s))) ∧
    g.rowCount = 3 ∧ ∀ depth host s,
      g.get depth host "rank" 2 s = (.ok .void, s) ∧
      g.get depth host "price" 2 s = (.ok (.double (Double.ofInt 4)), s) ∧
      EndAlike (f.get depth host "twice" 0) (g.get depth host "twice" 0) := by
  let twice : Expr := .binary (.arithmetic .add) (.var "rank") (.var "rank")
  let host : Host := fun key _ => .error (.unknownFunction key)
  let f : Frame :=
    { name := "prices"
      columns := [{ name := "rank", content := .stored ⟨.long, #[some 2, some 1]⟩ },
        { name := "twice", content := .computed "rank + rank" twice .long },
        { name := "price", content := .stored ⟨.double, #[none, none]⟩ }]
      index := .places ["rank", "twice", "price"]
      rowCount := 2
      order := some [1, 0]
      registry := ∅ }
  let ranks : Frame :=
    { name := "prices"
      columns := [{ name := "rank", content := .stored (.empty .long) },
        { name := "twice", content := .computed "rank + rank" twice .long }]
      index := .places ["rank", "twice"]
      registry := ∅ }
  have htwice : Expr.ofSource "rank + rank" = .ok twice := by cbv
  have hf : Reachable f := by
    have hempty : Reachable { name := "prices", registry := ∅ } := .new _ _
    have hrank := hempty.of_run 0 host (.column "rank" .long) (s := {}) rfl
    have hcomputed : Reachable ranks := hrank.of_run 0 host (.computed "twice" "rank + rank")
      (s := {}) (by
      show orReport (Frame.withComputed _ "twice" "rank + rank") {} = _
      rw [withComputed_eq_ok.mpr ⟨twice, .long, htwice, rfl, by decide, by decide, rfl⟩]
      rfl)
    have hprice := hcomputed.of_run 0 host (.column "price" .double) (s := {}) rfl
    have hfirst := hprice.of_run 0 host (.row [.long 2, .void]) (s := {}) rfl
    have hsecond : Reachable { f with order := none } :=
      hfirst.of_run 0 host (.row [.long 1, .void]) (s := {}) rfl
    exact hsecond.of_run 0 host (.sortBy ["rank"]) (s := {}) rfl
  obtain ⟨htaken, hexact⟩ := reachable_append_reads hf [.void, .long 4] {}
  have haccepts : List.Forall₂ Column.Accepts (f.columns.filter Column.isStored)
      [.void, .long 4] :=
    .cons (Or.inl rfl) (.cons (Or.inr (Or.inr ⟨rfl, rfl⟩)) .nil)
  obtain ⟨g, s', hchange⟩ := htaken.mpr haccepts
  obtain ⟨_, hcount, hlast, hearlier⟩ := hexact g s' hchange
  cases hlast with
  | cons hrank hrest =>
      obtain ⟨_, _, _, _, hrank⟩ := hrank
      cases hrest with
      | cons hprice _ =>
          obtain ⟨_, _, _, _, hprice⟩ := hprice
          refine ⟨f, g, hf, rfl, rfl, ⟨s', hchange⟩, hcount, fun depth host s => ⟨?_, ?_, ?_⟩⟩
          · exact (hrank depth host s).1
          · exact (hprice depth host s).1
          · exact (hearlier 0 (by decide) depth host).1 "twice"

end Frame
end FrameLang
