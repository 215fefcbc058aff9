/-
A projection agrees with computed columns and a selection.

To put a query to a frame as a projection goes through other code than to add computed columns and
select rows, and the answers look different: one is a table of values, the other a frame that goes
on computing them.  Still the cells are the same.  A row that the selection has copied reads as the
row it was copied from (`Query.IsSelection`), and there a computed column shows the value of its
expression, which is what the projection has put into its table.

There is one thing that only the projection does.  It stores the values, so a value has to fit into
a column of the inferred type.  A value that is of this type always does, and a value that is not
can only come from a host function that does not keep to the result type it announces.  Such a
value can be read from a computed column, but it makes the projection fail (`misfit_of_host`).
-/
import FrameLang.Proofs.Projection.Query

namespace FrameLang

open Run FrameLang.Expr

/-- A cell, given by the name of its column and its logical row, shows a value, whatever the store
is. -/
def Frame.HasCell (f : Frame) (depth : Nat) (host : Host) (name : String) (row : Nat) (v : Value) :
    Prop :=
  ∀ s, (f.get depth host name row s : Except Stop Value × Store).1 = .ok v

namespace Query

/-- A frame consists of some logical rows of another one, as far as reading by names goes. -/
structure IsSelection (h g : Frame) (rows : List Nat) : Prop where
  rowCount : h.rowCount = rows.length
  columnType? : h.columnType? = g.columnType?
  get : ∀ i row, rows[i]? = some row → ∀ depth host name,
    EndAlike (h.get depth host name i) (g.get depth host name row)

theorem isSelection_of_consistsOf {h g : Frame} {rows : List Nat} (hh : h.ConsistsOf g rows) :
    IsSelection h g rows where
  rowCount := hh.rowCount
  columnType? := by rw [← Frame.columnType?_cleared h, hh.cleared, Frame.columnType?_cleared]
  get := hh.get

theorem isSelection_self (g : Frame) : IsSelection g g (List.range g.rowCount) where
  rowCount := List.length_range.symm
  columnType? := rfl
  get i row hrow depth host name := by
    obtain ⟨_, rfl⟩ := List.getElem?_eq_some_iff.mp hrow
    rw [List.getElem_range]
    exact g.endAlike_get depth host name i

/-- Every cell of the items' columns can be read and shows a value that fits into a stored column of
the same type. -/
def CanBeStored (q : Query) (depth : Nat) (host : Host) (h : Frame) : Prop :=
  ∀ item ∈ q.items, ∀ row < h.rowCount, ∃ v, ∃ t : ScalarType,
    h.HasCell depth host item.column row v ∧ h.columnType? item.column = some t.toValueType ∧
      t.Fits v

/-- A projected frame has the items under their labels, with the types and rows that they have in
another frame, and its cells show what is stored of the values in that frame. -/
structure Agrees (q : Query) (depth : Nat) (host : Host) (p h : Frame) : Prop where
  columns : p.columns.map (fun c => (c.name, some c.type)) =
    q.items.map fun item => (item.label, h.columnType? item.column)
  rowCount : p.rowCount = h.rowCount
  cells : ∀ item ∈ q.items, ∀ row < h.rowCount, ∃ v, ∃ t : ScalarType,
    h.HasCell depth host item.column row v ∧ h.columnType? item.column = some t.toValueType ∧
      ∀ depth' host', p.HasCell depth' host' item.label row (t.shown v)

namespace IsReady

variable {q : Query} {f g h : Frame} {depth : Nat} {host : Host}

/-- **A selection succeeds if and only if the condition is decided in every row**, and consists of
the rows of which it is true. -/
theorem meets_select (hq : q.IsReady f g) (s : Store) :
    Meets (q.select depth host g) s
      (fun h _ => (∀ row < f.rowCount, q.IsDecided g depth host (f.place row)) ∧
        IsSelection h g (q.chosen g depth host f))
      fun _ _ => ¬∀ row < f.rowCount, q.IsDecided g depth host (f.place row) := by
  have hplace : g.place = f.place := by
    funext row
    unfold Frame.place
    rw [hq.extended.physicalRow?]
  unfold select chosen takes IsDecided
  cases hcondition : q.condition with
  | none =>
      refine meets_pure ⟨?_, ?_⟩
      · intro row _ condition hmem
        cases hmem
      · rw [List.filter_true, ← hq.extended.rowCount]
        exact isSelection_self g
  | some condition =>
      have hcheck := (hq.condition condition hcondition).2
      have hdecides : (∃ e, g.Decides depth host condition.text e) ↔ ∀ row < f.rowCount,
          ∀ other ∈ some condition,
            ∃ v, g.HasValue depth host other.expression (f.place row) v := by
        unfold Frame.Decides
        rw [hq.plain.wellFormed.rows_eq, hq.extended.rowCount, hplace, hcheck]
        simp
      rw [← hdecides]
      refine meets_bind (Frame.meets_split condition.text s) ?_
      rintro _ s' ⟨e, he, rfl⟩
      dsimp only
      rw [Frame.pick_eq]
      refine meets_pure ⟨⟨e, he⟩, ?_⟩
      cases he.1.symm.trans hcheck
      rw [hq.plain.wellFormed.rows_eq, List.filter_map, hq.extended.rowCount]
      refine isSelection_of_consistsOf ?_
      rw [← hplace]
      refine hq.plain.wellFormed.consistsOf_picked fun row hrow => ?_
      rw [hq.extended.rowCount]
      exact List.mem_range.mp (List.mem_of_mem_filter hrow)

/-! ### Cells -/

/-- To read an item's column in a physical row is to evaluate the item's expression there. -/
theorem readColumn_item (g : Frame) (depth : Nat) (host : Host) (item : Item) (row : Nat) :
    g.readColumn (runDeep (depth + 1)) host
        ⟨item.column, .computed item.source item.expression (item.type g).toValueType⟩ row =
      g.evaluateOnRow depth host item.expression row := by
  change isolated ∅ (runDeep (depth + 1) (.ofRow host g row) [item.expression]) = _
  rw [runDeep_single]
  rfl

/-- A cell of an item's column in the extended frame shows the value of the item's expression. -/
theorem get_item (hq : q.IsReady f g) (hf : f.WellFormed) {item : Item} (hitem : item ∈ q.items)
    {row : Nat} (hrow : row < f.rowCount) :
    g.get (depth + 1) host item.column row =
      g.evaluateOnRow depth host item.expression (f.place row) := by
  rw [Frame.get_of_column? (hq.column? item hitem), hq.extended.physicalRow?,
    hf.physicalRow?_eq hrow]
  exact readColumn_item g depth host item _

theorem mem_chosen {row : Nat} (h : row ∈ q.chosen g depth host f) : row < f.rowCount :=
  List.mem_range.mp (List.mem_of_mem_filter h)

/-- The same in a selection. -/
theorem hasCell_iff (hq : q.IsReady f g) (hf : f.WellFormed)
    (hh : IsSelection h g (q.chosen g depth host f)) {item : Item} (hitem : item ∈ q.items)
    {i row : Nat} (hi : (q.chosen g depth host f)[i]? = some row) {v : Value} :
    h.HasCell (depth + 1) host item.column i v ↔
      g.HasValue depth host item.expression (f.place row) v := by
  have hrow := mem_chosen (List.mem_of_getElem? hi)
  have hread : ∀ s, (h.get (depth + 1) host item.column i s : Except Stop Value × Store).1 =
      (g.evaluateOnRow depth host item.expression (f.place row) s).1 := by
    intro s
    rw [hh.get i row hi _ _ _ s s, hq.get_item hf hitem hrow]
  unfold Frame.HasCell Frame.HasValue
  simp only [hread]

/-- The column of an item has the type of the item in a selection. -/
theorem columnType?_item (hq : q.IsReady f g) (hh : IsSelection h g (q.chosen g depth host f))
    {item : Item} (hitem : item ∈ q.items) :
    h.columnType? item.column = some (item.type g).toValueType := by
  rw [hh.columnType?, Frame.columnType?, hq.column? item hitem]
  rfl

/-- A query is answered if the cells of the selection can be stored. -/
theorem canBeStored_iff (hq : q.IsReady f g) (hf : f.WellFormed)
    (hdecided : ∀ row < f.rowCount, q.IsDecided g depth host (f.place row))
    (hh : IsSelection h g (q.chosen g depth host f)) :
    q.CanBeStored (depth + 1) host h ↔ q.IsAnswered g depth host f := by
  constructor
  · refine fun hstored => ⟨hdecided, fun row hrow item hitem => ?_⟩
    obtain ⟨i, hi⟩ := List.mem_iff_getElem?.mp hrow
    have hlt : i < h.rowCount := by
      rw [hh.rowCount]
      exact (List.getElem?_eq_some_iff.mp hi).1
    obtain ⟨v, t, hcell, ht, hfits⟩ := hstored item hitem i hlt
    obtain rfl : item.type g = t := by
      rw [hq.columnType?_item hh hitem] at ht
      exact ScalarType.eq_of_toValueType_eq (Option.some.inj ht)
    exact ⟨v, (hq.hasCell_iff hf hh hitem hi).mp hcell, hfits⟩
  · intro hanswered item hitem i hlt
    rw [hh.rowCount] at hlt
    obtain ⟨v, hv, hfits⟩ := hanswered.fits _ (List.getElem_mem hlt) item hitem
    exact ⟨v, item.type g, (hq.hasCell_iff hf hh hitem (List.getElem?_eq_getElem hlt)).mpr hv,
      hq.columnType?_item hh hitem, hfits⟩

/-- The table of the answers agrees with the selection. -/
theorem agrees_table (hq : q.IsReady f g) (hf : f.WellFormed)
    (hh : IsSelection h g (q.chosen g depth host f)) (registry : Registry) (name : String)
    {rows : List (List Value)}
    (hrows : List.Forall₂ (fun row vs => q.HasValues g depth host (f.place row) vs)
      (q.chosen g depth host f) rows) :
    q.Agrees (depth + 1) host (Frame.table registry name (q.items.map (Item.heading g)) rows)
      h where
  columns := by
    have hcolumns := congrArg (List.map fun c : String × ValueType => (c.1, some c.2))
      (Frame.map_columnsOf (q.items.map (Item.heading g)) rows)
    simp only [List.map_map, Function.comp_def] at hcolumns
    refine hcolumns.trans (List.map_congr_left fun item hitem => ?_)
    rw [hq.columnType?_item hh hitem]
    rfl
  rowCount := by rw [hh.rowCount, hrows.length_eq]; rfl
  cells := by
    intro item hitem i hlt
    rw [hh.rowCount] at hlt
    obtain ⟨j, hj⟩ := List.mem_iff_getElem?.mp hitem
    have hlt' : i < rows.length := hrows.length_eq ▸ hlt
    have hvs := hrows.get hlt hlt'
    obtain ⟨hj₁, rfl⟩ := List.getElem?_eq_some_iff.mp hj
    have hv := hvs.get hj₁ (hvs.length_eq ▸ hj₁)
    have hlabels : ((q.items.map (Item.heading g)).map Prod.fst).Nodup := by
      rw [List.map_map]
      exact hq.labels
    have hheading : (q.items.map (Item.heading g))[j]? = some (q.items[j].heading g) := by
      rw [List.getElem?_map, hj]
      rfl
    -- The table has no computed columns, so its cells do not depend on how they are read.
    refine ⟨_, _, (hq.hasCell_iff hf hh hitem (List.getElem?_eq_getElem hlt)).mpr hv,
      hq.columnType?_item hh hitem, fun depth' host' s => ?_⟩
    have hcell : (Frame.table registry name _ rows).get depth' host' q.items[j].label i = _ :=
      Frame.get_table hlabels hheading (List.getElem?_eq_getElem hlt')
        (List.getElem?_eq_getElem (hvs.length_eq ▸ hj₁)) depth' host'
    rw [hcell]
    rfl

/-- The values of functions that keep to their result types are of the columns' types. -/
theorem type_of_hasCell (hq : q.IsReady f g) (hf : f.WellFormed)
    (hhonest : f.HasHonestFunctions host) (hdepth : g.columns.length ≤ depth + 1)
    (hh : IsSelection h g (q.chosen g depth host f)) {item : Item} (hitem : item ∈ q.items)
    {i : Nat} (hi : i < h.rowCount) {v : Value}
    (hcell : h.HasCell (depth + 1) host item.column i v) :
    v.type = .void ∨ v.type = (item.type g).toValueType := by
  rw [hh.rowCount] at hi
  have hv := (hq.hasCell_iff hf hh hitem (List.getElem?_eq_getElem hi)).mp hcell
  have hhonest' : g.HasHonestFunctions host :=
    fun name function hfunction => hhonest name function (hq.extended.registry ▸ hfunction)
  obtain ⟨j, hj⟩ := List.mem_iff_getElem?.mp (Frame.mem_of_column? (hq.column? item hitem))
  have hlt : j < depth + 1 := Nat.lt_of_lt_of_le (List.getElem?_eq_some_iff.mp hj).1 hdepth
  have hmeets : Meets (g.evaluateOnRow depth host item.expression
      (f.place (q.chosen g depth host f)[i])) {} _ _ :=
    readColumn_item g depth host item _ ▸
      Frame.meets_readColumn hq.plain.declared hq.plain.simple hhonest' hj
        (Frame.reads_upTo hq.plain.declared hq.plain.simple hhonest' j) hlt {}
  have htype : v.IsOf (item.type g).toValueType := (hmeets.result (Prod.ext (hv {}) rfl)).1
  exact htype.resolve_left (item.type g).toValueType_ne_void

end IsReady

/-- **A projection agrees with computed columns and a selection.**  Let the computed columns of a
frame have no assignments and projections, and let it be a data set where no user functions are
defined.  Let a query be over its columns and have at least one field of the data set in it.  Then
the projection succeeds if and only if the selection succeeds in the frame with the items as
computed columns, and every cell of these columns can be read there and shows a value that fits its
column.  The projected frame then has the items as columns of the same types and the same cells.
With functions that keep to their result types, and room to read one column from another, every
cell that can be read shows a value that fits and is stored as it is. -/
theorem reachable_projection_agrees {f g : Frame} (hf : Frame.Reachable f)
    (hsimple : f.HasSimpleColumns) {q : Query} (hq : q.IsOver f g) {env : Environment}
    {dataSet : String} (hdata : env.dataSets.find? dataSet = some f)
    (hregistry : env.registry = f.registry) (hfunctions : env.functions = ∅)
    (hpath : (q.projection dataSet).firstDataSet? ≠ none) (depth : Nat) (s : Store) :
    ((∃ v s', env.evaluate depth (q.projection dataSet) s = (.ok v, s')) ↔
      ∃ h s', q.select depth env.host g s = (.ok h, s') ∧ q.CanBeStored (depth + 1) env.host h) ∧
    (∀ v s', env.evaluate depth (q.projection dataSet) s = (.ok v, s') →
      ∃ identity p h s'', v = .frame identity p ∧ q.select depth env.host g s = (.ok h, s'') ∧
        q.Agrees (depth + 1) env.host p h) ∧
    (f.HasHonestFunctions env.host → g.columns.length ≤ depth + 1 →
      ∀ h s', q.select depth env.host g s = (.ok h, s') → ∀ item ∈ q.items,
        ∀ row < h.rowCount, ∀ v, h.HasCell (depth + 1) env.host item.column row v →
          ∃ t : ScalarType, h.columnType? item.column = some t.toValueType ∧ t.Fits v ∧
            t.shown v = v) := by
  have hwf := hf.wellFormed
  have hready : q.IsReady f g := hq.isReady ⟨hwf, hf.declared, hsimple⟩
  have hproject : Meets (env.evaluate depth (q.projection dataSet)) s _ _ :=
    hready.meets_projection hwf hdata hregistry hfunctions hpath s
  have hselect : Meets (q.select depth env.host g) s _ _ := hready.meets_select s
  refine ⟨⟨?_, ?_⟩, ?_, ?_⟩
  · rintro ⟨v, s', hrun⟩
    obtain ⟨hanswered, _⟩ := hproject.result hrun
    rcases hrun' : q.select depth env.host g s with ⟨stop | h, s''⟩
    · exact absurd hanswered.decided (hselect.stop hrun')
    · obtain ⟨hdecided, hh⟩ := hselect.result hrun'
      exact ⟨h, s'', rfl, (hready.canBeStored_iff hwf hdecided hh).mpr hanswered⟩
  · rintro ⟨h, s', hrun, hstored⟩
    obtain ⟨hdecided, hh⟩ := hselect.result hrun
    rcases hrun' : env.evaluate depth (q.projection dataSet) s with ⟨stop | v, s''⟩
    · exact absurd ((hready.canBeStored_iff hwf hdecided hh).mp hstored) (hproject.stop hrun')
    · exact ⟨v, s'', rfl⟩
  · intro v s' hrun
    obtain ⟨hanswered, identity, rows, rfl, hrows⟩ := hproject.result hrun
    rcases hrun' : q.select depth env.host g s with ⟨stop | h, s''⟩
    · exact absurd hanswered.decided (hselect.stop hrun')
    · obtain ⟨_, hh⟩ := hselect.result hrun'
      exact ⟨identity, _, h, s'', rfl, rfl, hready.agrees_table hwf hh env.registry dataSet hrows⟩
  · intro hhonest hdepth h s' hrun item hitem row hrow v hcell
    obtain ⟨_, hh⟩ := hselect.result hrun
    have htype := hready.type_of_hasCell hwf hhonest hdepth hh hitem hrow hcell
    exact ⟨item.type g, hready.columnType?_item hh hitem, ScalarType.shown_eq_self htype⟩

/-! ### Queries with one item -/

theorem isOver_single {f g : Frame} {item : Item} {condition : Option Condition} {t : ScalarType}
    (hsource : Expr.ofSource item.source = .ok item.expression) (hover : item.expression.IsOver f)
    (hg : f.withComputed item.column item.source = .ok g)
    (ht : g.columnType? item.column = some t.toValueType)
    (hcondition : ∀ c ∈ condition, Expr.ofSource c.text = .ok c.expression ∧
      c.expression.IsOver f ∧ g.scope.check c.expression = .ok .boolean) :
    ({ items := [item], condition } : Query).IsOver f g where
  sources := List.forall_mem_singleton.mpr hsource
  items := List.forall_mem_singleton.mpr hover
  extended := by
    unfold extend
    rw [List.foldlM_cons, hg]
    rfl
  scalar := List.forall_mem_singleton.mpr ⟨t, ht⟩
  labels := List.nodup_singleton _
  condition := hcondition

/-- Two rows shown in the other order, and one of them has no rate. -/
def sales : Frame where
  name := "sales"
  columns := [{ name := "amount", content := .stored ⟨.long, #[some 3, some 1]⟩ },
    { name := "rate", content := .stored ⟨.double, #[some (Double.ofInt 2), none]⟩ }]
  index := .places ["amount", "rate"]
  rowCount := 2
  order := some [1, 0]
  registry := ∅

def large : Condition where
  text := "amount > 2"
  expression := .binary (.comparison .gt) (.var "amount") (.literal (.long 2))

/-- A branch of type long beside one of type double. -/
def better : Item where
  column := "better"
  source := "if amount > 2 then amount else rate endif"
  expression :=
    .ifElse large.expression (.sequence [.var "amount"]) (some (.sequence [.var "rate"]))
  label := "best"

def bestSales : Query where
  items := [better]
  condition := some large

def betterSales : Frame :=
  sales.extend { name := "better", content := .computed better.source better.expression .double }

theorem reachable_sales : Frame.Reachable sales := by
  let host : Host := fun key _ => .error (.unknownFunction key)
  have hempty : Frame.Reachable { name := "sales", registry := ∅ } := .new _ _
  have hamount := hempty.of_run 0 host (.column "amount" .long) (s := {}) rfl
  have hrate := hamount.of_run 0 host (.column "rate" .double) (s := {}) rfl
  have hfirst := hrate.of_run 0 host (.row [.long 3, .long 2]) (s := {}) rfl
  have hsecond := hfirst.of_run 0 host (.row [.long 1, .void]) (s := {}) rfl
  exact hsecond.of_run 0 host (.sortBy ["amount"]) (s := {}) rfl

theorem hasSimpleColumns_sales : sales.HasSimpleColumns := by
  intro c hc source e t hcontent
  rcases List.mem_pair.mp hc with rfl | rfl
  · cases hcontent
  · cases hcontent

theorem isOver_bestSales : bestSales.IsOver sales betterSales := by
  have hlarge : Expr.ofSource large.text = .ok large.expression := by cbv
  have hbetter : Expr.ofSource better.source = .ok better.expression := by cbv
  have hstep : sales.withComputed better.column better.source = .ok betterSales :=
    Frame.withComputed_eq_ok.mpr
      ⟨better.expression, .double, hbetter, rfl, by decide, by decide, rfl⟩
  refine isOver_single hbetter rfl hstep (t := .double) rfl ?_
  rintro _ ⟨⟩
  exact ⟨hlarge, rfl, rfl⟩

theorem hasValue_better (host : Host) :
    betterSales.HasValue 1 host better.expression 0 (.double (Double.ofInt 3)) :=
  fun _ => rfl

/-- Both rows decide the condition, the second one takes it, and its value fits. -/
theorem isAnswered_bestSales (host : Host) : bestSales.IsAnswered betterSales 1 host sales where
  decided := by
    rintro row hrow _ ⟨⟩
    have hrows : row < 2 := hrow
    obtain rfl | rfl : row = 0 ∨ row = 1 := by omega
    · exact ⟨.boolean false, fun _ => rfl⟩
    · exact ⟨.boolean true, fun _ => rfl⟩
  fits := by
    have hchosen : bestSales.chosen betterSales 1 host sales = [1] := rfl
    rw [hchosen]
    exact List.forall_mem_singleton.mpr
      (List.forall_mem_singleton.mpr ⟨_, hasValue_better host, rfl⟩)

/-- Of two rows shown in the other order the condition takes one, and there a branch of type long is
widened because the other branch is a column of doubles. -/
theorem reachable_projection_agrees_widened : ∃ (f g : Frame) (q : Query) (env : Environment)
    (identity : Nat) (p : Frame) (s' : Store), Frame.Reachable f ∧ f.order = some [1, 0] ∧
    q.IsOver f g ∧ env.evaluate 1 (q.projection "sales") {} = (.ok (.frame identity p), s') ∧
    p.rowCount = 1 ∧ p.columns.map (fun c => (c.name, some c.type)) = [("best", some .double)] ∧
    ∀ depth host, p.HasCell depth host "best" 0 (.double (Double.ofInt 3)) := by
  let host : Host := fun key _ => .error (.unknownFunction key)
  let env : Environment :=
    { registry := ∅, host, dataSets := Bindings.insert ∅ "sales" sales }
  have hwf := reachable_sales.wellFormed
  have hready : bestSales.IsReady sales betterSales :=
    isOver_bestSales.isReady ⟨hwf, reachable_sales.declared, hasSimpleColumns_sales⟩
  have hanswered := isAnswered_bestSales host
  have hselect : Meets (bestSales.select 1 host betterSales) {} _ _ := hready.meets_select {}
  obtain ⟨hiff, hresult, _⟩ := reachable_projection_agrees reachable_sales hasSimpleColumns_sales
    isOver_bestSales (rfl : env.dataSets.find? "sales" = some sales) rfl rfl (by decide) 1 {}
  rcases hrun : bestSales.select 1 host betterSales {} with ⟨stop | h, s₁⟩
  · exact absurd hanswered.decided (hselect.stop hrun)
  · obtain ⟨_, hh⟩ := hselect.result hrun
    have hstored := (hready.canBeStored_iff hwf hanswered.decided hh).mpr hanswered
    obtain ⟨_, s₂, hproject⟩ := hiff.mpr ⟨h, s₁, hrun, hstored⟩
    obtain ⟨identity, p, _, _, rfl, hrun', hagrees⟩ := hresult _ _ hproject
    cases hrun.symm.trans hrun'
    have hitem : better ∈ bestSales.items := List.mem_singleton.mpr rfl
    have htype : h.columnType? better.column = some .double := hready.columnType?_item hh hitem
    have hcount : h.rowCount = 1 := hh.rowCount
    have hcolumns := hagrees.columns
    rw [show bestSales.items = [better] from rfl, List.map_singleton, htype] at hcolumns
    obtain ⟨v, t, hcell, ht, hshown⟩ := hagrees.cells better hitem 0 (by omega)
    have hfirst : (bestSales.chosen betterSales 1 host sales)[0]? = some 1 := rfl
    have hvalue : betterSales.HasValue 1 host better.expression 0 v :=
      (hready.hasCell_iff hwf hh hitem hfirst).mp hcell
    obtain rfl := hvalue.unique (hasValue_better host)
    obtain rfl : ScalarType.double = t :=
      ScalarType.eq_of_toValueType_eq (Option.some.inj (htype.symm.trans ht))
    exact ⟨sales, betterSales, bestSales, env, identity, p, s₂, reachable_sales, rfl,
      isOver_bestSales, hproject, hagrees.rowCount.trans hcount, hcolumns, hshown⟩

/-! ### A value that does not fit -/

/-- A host function that announces longs. -/
def packing : Function where
  name := "pack"
  parameters := some ["x"]
  resultType := fun _ => some .long
  body := .host "pack"

/-- It gives vectors. -/
def packingHost : Host := fun _ arguments => .ok (.vector arguments)

def packable : Frame where
  name := "N"
  columns := [{ name := "a", content := .stored ⟨.long, #[some 1]⟩ }]
  index := .places ["a"]
  rowCount := 1
  registry := Registry.add ∅ packing

def packed : Item where
  column := "m"
  source := "pack(a)"
  expression := .call "pack" [.var "a"]
  label := "n"

def packingQuery : Query where
  items := [packed]

def packedFrame : Frame :=
  packable.extend { name := "m", content := .computed packed.source packed.expression .long }

theorem reachable_packable : Frame.Reachable packable := by
  have hempty : Frame.Reachable { name := "N", registry := Registry.add ∅ packing } := .new _ _
  have hcolumn := hempty.of_run 0 packingHost (.column "a" .long) (s := {}) rfl
  exact hcolumn.of_run 0 packingHost (.row [.long 1]) (s := {}) rfl

theorem hasSimpleColumns_packable : packable.HasSimpleColumns := by
  intro c hc source e t hcontent
  obtain rfl := List.mem_singleton.mp hc
  cases hcontent

theorem isOver_packingQuery : packingQuery.IsOver packable packedFrame := by
  have hpacked : Expr.ofSource packed.source = .ok packed.expression := by cbv
  have hcheck : packable.scope.check packed.expression = .ok .long :=
    Scope.check_eq_ok_iff.mpr ⟨_, _, .callRegistered (.cons (.var rfl) .nil) rfl
      (Bindings.find?_insert_self _ _ _) rfl rfl fun h : false = true =>
        absurd h Bool.false_ne_true, rfl⟩
  have hstep : packable.withComputed packed.column packed.source = .ok packedFrame :=
    Frame.withComputed_eq_ok.mpr
      ⟨packed.expression, .long, hpacked, hcheck, by decide, by decide, rfl⟩
  exact isOver_single hpacked rfl hstep (t := .long) rfl fun _ hcondition => by cases hcondition

theorem hasValue_packed (depth : Nat) :
    packedFrame.HasValue depth packingHost packed.expression 0 (.vector [.long 1]) := by
  intro s
  have hget : packable.registry.get? "pack" = some packing := Bindings.find?_insert_self _ _ _
  have hcall : call (runDeep depth) (.ofRow packingHost packedFrame 0) "pack" [.long 1] =
      packing.invoke (.ofRow packingHost packedFrame 0) [.long 1] := by
    unfold call
    rw [Environment.find?_functions_ofRow,
      show (Environment.ofRow packingHost packedFrame 0).registry.get? "pack" = some packing
        from hget]
  change (isolated ∅ (evaluateWith (runDeep depth) (.ofRow packingHost packedFrame 0)
    packed.expression) s).1 = _
  unfold packed
  rw [evaluateWith]
  change (call (runDeep depth) (.ofRow packingHost packedFrame 0) "pack" [.long 1] _).1 = _
  rw [hcall]
  rfl

/-- A function that announces longs and gives vectors: the selection succeeds and every cell can be
read, but the projection fails. -/
theorem misfit_of_host : ∃ (f g : Frame) (q : Query) (env : Environment), Frame.Reachable f ∧
    f.HasSimpleColumns ∧ q.IsOver f g ∧ env.dataSets.find? "N" = some f ∧
    env.registry = f.registry ∧ env.functions = ∅ ∧ (q.projection "N").firstDataSet? ≠ none ∧
    ∀ depth s,
      (∃ h s', q.select depth env.host g s = (.ok h, s') ∧ ∀ item ∈ q.items,
        ∀ row < h.rowCount, ∃ v, h.HasCell (depth + 1) env.host item.column row v) ∧
      ¬∃ v s', env.evaluate depth (q.projection "N") s = (.ok v, s') := by
  let env : Environment :=
    { registry := packable.registry, host := packingHost,
      dataSets := Bindings.insert ∅ "N" packable }
  have hwf := reachable_packable.wellFormed
  have hready : packingQuery.IsReady packable packedFrame :=
    isOver_packingQuery.isReady ⟨hwf, reachable_packable.declared, hasSimpleColumns_packable⟩
  have hpath : (packingQuery.projection "N").firstDataSet? ≠ none := by decide
  have hitem : packed ∈ packingQuery.items := List.mem_singleton.mpr rfl
  refine ⟨packable, packedFrame, packingQuery, env, reachable_packable, hasSimpleColumns_packable,
    isOver_packingQuery, rfl, rfl, rfl, hpath, fun depth s => ⟨?_, ?_⟩⟩
  · refine ⟨packedFrame, s, rfl, List.forall_mem_singleton.mpr fun row hrow => ?_⟩
    obtain rfl : row = 0 := Nat.lt_one_iff.mp hrow
    refine ⟨.vector [.long 1], ?_⟩
    unfold Frame.HasCell
    rw [hready.get_item hwf hitem hrow]
    exact hasValue_packed depth
  · rintro ⟨v, s', hrun⟩
    have hmeets : Meets (env.evaluate depth (packingQuery.projection "N")) s _ _ :=
      hready.meets_projection hwf rfl rfl rfl hpath s
    obtain ⟨v, hv, hfits⟩ :=
      (hmeets.result hrun).1.fits 0 (List.mem_singleton.mpr rfl) packed hitem
    obtain rfl : v = .vector [.long 1] := hv.unique (hasValue_packed depth)
    cases hfits

end Query
end FrameLang
