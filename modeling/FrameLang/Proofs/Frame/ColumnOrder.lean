/-
Columns do not depend on later ones if their expressions assign before they look up.

A computed column is accepted over the columns before it, and then read in a row of the whole frame.
A name that the check has found among the columns before is found there too, whatever comes later.
A name that the expression has assigned is not looked up at all.  But the check walks through both
branches of an `if`, so it also accepts a name that only one of them assigns.  If the other is
taken, the name is looked up in the frame.  At first nothing is there and the read fails.  Once
there is a column of that name, that is read, and it may be one that reads this column in turn.

So the law holds of the expressions that do not need the name of a later column.  If they need it
for a look-up only, then it holds of every read that does not fail for want of that name.  And a
name that no expression assigns, none needs.
-/
import FrameLang.Proofs.Dependence
import FrameLang.Proofs.Frame.Declared
import FrameLang.Proofs.Typing.Check
import Mathlib

namespace FrameLang

open Run FrameLang.Expr

namespace Frame

/-- No computed column needs the name. -/
def IsFreeOf (f : Frame) (name : String) (looks : Bool) : Prop :=
  ∀ c ∈ f.columns, ∀ source e t, c.content = .computed source e t → e.needs name looks = false

/-- No computed column needs its own name or that of a later column. -/
def IsOrdered (f : Frame) : Prop :=
  ∀ (i j : Nat) (c d : Column), i ≤ j → f.columns[i]? = some c → f.columns[j]? = some d →
    ∀ source e t, c.content = .computed source e t → e.needs d.name true = false

/-- No computed column assigns the name. -/
def IsUnassigned (f : Frame) (name : String) : Prop :=
  ∀ c ∈ f.columns, ∀ source e t, c.content = .computed source e t →
    e.every (isNoAssignmentTo name) = true

/-- A computed column does not need a name that it does not assign and that no column before it
has. -/
theorem Declared.needs_eq_false {f : Frame} (hf : f.Declared) {i : Nat} {name other source : String}
    {e : Expr} {t : ValueType}
    (hi : f.columns[i]? = some { name := other, content := .computed source e t })
    (hname : (f.upTo i).column? name = none) (hfree : f.IsUnassigned name) :
    e.needs name true = false := by
  obtain ⟨_, hcheck, _⟩ := hf i other source e t hi
  have he := hfree _ (List.mem_of_getElem? hi) source e t rfl
  obtain ⟨k, Γ', htyped, _⟩ := Scope.check_eq_ok_iff.mp hcheck
  refine (htyped.needs_eq_false he ?_).1
  change ((f.upTo i).columnType? name).map _ = none
  unfold columnType?
  rw [hname]
  rfl

/-- What no column is named and none assigns, none needs. -/
theorem Declared.isFreeOf {f : Frame} (hf : f.Declared) {name : String}
    (hname : f.column? name = none) (hfree : f.IsUnassigned name) : f.IsFreeOf name true := by
  intro c hc source e t hcontent
  obtain ⟨i, hi⟩ := List.mem_iff_getElem?.mp hc
  obtain ⟨other, content⟩ := c
  cases hcontent
  refine hf.needs_eq_false hi ?_ hfree
  cases hfound : (f.upTo i).column? name with
  | none => rfl
  | some d =>
      rw [(column?_of_upTo hfound).1] at hname
      cases hname

/-- If no column assigns the name of a column, the columns are in order. -/
theorem WellFormed.isOrdered {f : Frame} (hwf : f.WellFormed) (hf : f.Declared)
    (hfree : ∀ c ∈ f.columns, f.IsUnassigned c.name) : f.IsOrdered := by
  intro i j c d hij hi hj source e t hcontent
  obtain ⟨other, content⟩ := c
  cases hcontent
  refine hf.needs_eq_false hi ?_ (hfree d (List.mem_of_getElem? hj))
  cases hfound : (f.upTo i).column? d.name with
  | none => rfl
  | some d' =>
      obtain ⟨hcolumn, k, hk, hplace⟩ := column?_of_upTo hfound
      rw [hwf.column?_name (List.mem_of_getElem? hj)] at hcolumn
      cases hcolumn
      have hnodup : f.columns.Nodup := List.Nodup.of_map _ hwf.names
      obtain ⟨hlt, _⟩ := List.getElem?_eq_some_iff.mp hplace
      have hplaces : k = j := (List.getElem?_inj hlt hnodup).mp (hplace.trans hj.symm)
      omega

/-! ### A further column -/

section Later

variable {f : Frame} {d : Column}

theorem column?_eq_none {name : String} (h : f.hasColumn name = false) : f.column? name = none := by
  unfold column? columnIndex?
  rw [find?_index_of_hasColumn h]
  rfl

theorem column?_extend (hd : f.hasColumn d.name = false) {name : String} {c : Column}
    (h : f.column? name = some c) : (f.extend d).column? name = some c := by
  obtain ⟨i, hi, hc⟩ := Option.bind_eq_some_iff.mp h
  have hne : name ≠ d.name := by
    rintro rfl
    rw [column?_eq_none hd] at h
    cases h
  refine Option.bind_eq_some_iff.mpr ⟨i, ?_, ?_⟩
  · exact (f.index.find?_insert_of_ne _ hne).trans hi
  · exact (List.getElem?_append_left (List.getElem?_eq_some_iff.mp hc).1).trans hc

theorem WellFormed.alike_extend (hf : f.WellFormed) (hd : f.hasColumn d.name = false) :
    f.Alike (· = d.name) (f.extend d) := by
  refine ⟨rfl, fun name hname => ?_⟩
  cases hi : f.columnIndex? name with
  | none =>
      have hi' : (f.extend d).columnIndex? name = none :=
        (f.index.find?_insert_of_ne _ hname).trans hi
      unfold column?
      rw [hi, hi']
      rfl
  | some i =>
      obtain ⟨c, hc, rfl⟩ := hf.columnIndex?_eq_some.mp hi
      have hcolumn := hf.column?_name (List.mem_of_getElem? hc)
      rw [hcolumn, column?_extend hd hcolumn]

/-- A further column makes no difference to the columns that are there, unless one of them looks its
name up. -/
theorem same_readColumn_extend (hf : f.WellFormed) (hd : f.hasColumn d.name = false) {looks : Bool}
    (hfree : f.IsFreeOf d.name looks) (host : Host) (row depth : Nat) {c : Column}
    (hc : c ∈ f.columns) (s : Store) :
    Same (f.readColumn (runDeep depth) host c row)
      ((f.extend d).readColumn (runDeep depth) host c row) s
      (fun _ s' => s'.vars = s.vars) (fun _ => True)
      fun stop => looks = false ∧ stop = .failed (.undefinedVariable d.name) := by
  induction depth generalizing c s with
  | zero =>
      obtain ⟨name, content⟩ := c
      cases content with
      | stored cells => exact same_self (meets_pure rfl)
      | computed source e t => exact same_self (meets_isolated (meets_throw trivial))
  | succ depth ih =>
      obtain ⟨name, content⟩ := c
      cases content with
      | stored cells => exact same_self (meets_pure rfl)
      | computed source e t =>
          have hneeds := hfree _ hc source e t rfl
          have hread : f.ReadAlike (· = d.name) looks (runDeep depth) host row (fun _ => True)
              (fun stop => looks = false ∧ stop = .failed (.undefinedVariable d.name))
              (f.extend d) :=
            { hf.alike_extend hd with
              fails := fun _ => trivial
              read := fun _ c _ hc s => ih (mem_of_column? hc) s
              absent := by
                rintro _ rfl
                cases looks with
                | true => exact Or.inl rfl
                | false => exact Or.inr ⟨column?_eq_none hd, rfl, rfl⟩ }
          change Same (isolated ∅ (runDeep (depth + 1) (.ofRow host f row) [e]))
            (isolated ∅ (runDeep (depth + 1) (.ofRow host (f.extend d) row) [e])) s _ _ _
          rw [runDeep_single, runDeep_single]
          refine Same.isolated ((evaluatesAlike hread e ?_).imp_result fun _ _ _ => rfl)
          rintro _ rfl hn
          rw [hneeds] at hn
          cases hn

end Later

/-! ### Columns in order -/

/-- The names of the columns from place `i` on. -/
def NamedFrom (f : Frame) (i : Nat) (name : String) : Prop :=
  ∃ j d, i ≤ j ∧ f.columns[j]? = some d ∧ d.name = name

section Ordered

variable {f : Frame}

theorem upTo_upTo {i j : Nat} (h : j ≤ i) : (f.upTo i).upTo j = f.upTo j := by
  simp [upTo, List.take_take, Nat.min_eq_left h]

theorem getElem?_upTo {i j : Nat} (h : j < i) : (f.upTo i).columns[j]? = f.columns[j]? :=
  List.getElem?_take_of_lt h

theorem IsOrdered.upTo (h : f.IsOrdered) (i : Nat) : (f.upTo i).IsOrdered := by
  have hplace : ∀ {k : Nat} {c : Column}, (f.upTo i).columns[k]? = some c →
      f.columns[k]? = some c := by
    intro k c hk
    by_cases hlt : k < i
    · rwa [getElem?_upTo hlt] at hk
    · rw [List.getElem?_eq_none (by simp [Frame.upTo]; omega)] at hk
      cases hk
  exact fun j k c d hjk hj hk => h j k c d hjk (hplace hj) (hplace hk)

/-- A name finds no column of another name. -/
def FindsByName (f : Frame) : Prop := ∀ name c, f.column? name = some c → c.name = name

theorem WellFormed.findsByName (hf : f.WellFormed) : f.FindsByName :=
  fun _ _ => hf.name_of_column?

theorem FindsByName.upTo (hf : f.FindsByName) (i : Nat) : (f.upTo i).FindsByName :=
  fun name c h => hf name c (column?_of_upTo h).1

theorem FindsByName.alike_upTo (hf : f.FindsByName) (i : Nat) :
    (f.upTo i).Alike (f.NamedFrom i) f := by
  refine ⟨rfl, fun name hname => ?_⟩
  cases hfound : f.column? name with
  | none =>
      cases hfirst : (f.upTo i).column? name with
      | none => rfl
      | some c =>
          rw [(column?_of_upTo hfirst).1] at hfound
          cases hfound
  | some c =>
      obtain ⟨j, hj, hc⟩ := Option.bind_eq_some_iff.mp hfound
      have hlt : j < i := by
        by_contra hge
        exact hname ⟨j, c, not_lt.mp hge, hc, hf name c hfound⟩
      exact Option.bind_eq_some_iff.mpr ⟨j, hj, (getElem?_upTo hlt).trans hc⟩

/-- **Columns in order read earlier ones only.**  A column is read alike among the columns before it
and in the whole frame, and reads are nested no deeper than there are columns before it. -/
theorem same_readColumn_upTo (hf : f.IsOrdered) (hnames : f.FindsByName) (host : Host) (row : Nat)
    {i : Nat} {c : Column} (hc : f.columns[i]? = some c) {depth : Nat} (hdepth : i < depth)
    (s : Store) :
    Same ((f.upTo i).readColumn (runDeep depth) host c row)
      (f.readColumn (runDeep depth) host c row) s (fun _ s' => s'.vars = s.vars)
      (· ≠ .outOfDepth) fun _ => False := by
  induction i using Nat.strongRecOn generalizing f c depth s with
  | ind i ih =>
      obtain ⟨name, content⟩ := c
      cases content with
      | stored cells => exact same_self (meets_pure rfl)
      | computed source e t =>
          obtain ⟨depth, rfl⟩ : ∃ d, depth = d + 1 := ⟨depth - 1, by omega⟩
          have hread : (f.upTo i).ReadAlike (f.NamedFrom i) true (runDeep depth) host row
              (· ≠ .outOfDepth) (fun _ => False) f :=
            { hnames.alike_upTo i with
              fails := fun _ => nofun
              read := by
                intro name d _ hd s
                obtain ⟨_, j, hj, hplace⟩ := column?_of_upTo hd
                have hdepth : j < depth := by omega
                have hinner := ih j hj (hf.upTo i) (hnames.upTo i) ((getElem?_upTo hj).trans hplace)
                  hdepth s
                rw [upTo_upTo (Nat.le_of_lt hj)] at hinner
                exact hinner.both (ih j hj hf hnames hplace hdepth s)
              absent := fun _ _ => Or.inl rfl }
          change Same (isolated ∅ (runDeep (depth + 1) (.ofRow host (f.upTo i) row) [e]))
            (isolated ∅ (runDeep (depth + 1) (.ofRow host f row) [e])) s _ _ _
          rw [runDeep_single, runDeep_single]
          refine Same.isolated ((evaluatesAlike hread e ?_).imp_result fun _ _ _ => rfl)
          rintro _ ⟨j, d, hij, hd, rfl⟩ hn
          rw [hf i j _ d hij hc hd source e t rfl] at hn
          cases hn

end Ordered

/-! ### Reading -/

theorem get_of_column? {f : Frame} {name : String} {c : Column} (h : f.column? name = some c)
    (depth : Nat) (host : Host) (row : Nat) :
    f.get depth host name row = match f.physicalRow? row with
      | none => report (.outOfBounds (Int64.ofNat row) f.rowCount)
      | some physical => f.readColumn (runDeep depth) host c physical := by
  unfold get readNamed
  cases f.physicalRow? row with
  | none => simp only [h]
  | some physical => simp only [h]

/-- Stored columns come before the rows, so there is nothing to be read. -/
theorem get_withColumn {f g : Frame} (hf : f.WellFormed) {c : Column} (hc : c ∈ f.columns)
    {name : String} {type : ValueType} (hg : f.withColumn name type = .ok g) (depth : Nat)
    (host : Host) (row : Nat) :
    g.get depth host c.name row = f.get depth host c.name row := by
  obtain ⟨hrows, t, _, hname, rfl⟩ := withColumn_eq_ok.mp hg
  have hnone : f.physicalRow? row = none := by
    unfold physicalRow?
    rw [if_neg (by omega)]
  have hcolumn := hf.column?_name hc
  rw [get_of_column? hcolumn, get_of_column? (column?_extend hname hcolumn)]
  change (match f.physicalRow? row with | none => _ | some physical => _ : Run Value) = _
  rw [hnone]
  rfl

theorem same_get_withComputed {f g : Frame} (hf : f.WellFormed) {c : Column} (hc : c ∈ f.columns)
    {name source : String} (hg : f.withComputed name source = .ok g) {looks : Bool}
    (hfree : f.IsFreeOf name looks) (depth : Nat) (host : Host) (row : Nat) (s : Store) :
    Same (f.get depth host c.name row) (g.get depth host c.name row) s
      (fun _ s' => s'.vars = s.vars) (fun _ => True)
      fun stop => looks = false ∧ stop = .failed (.undefinedVariable name) := by
  obtain ⟨e, t, _, _, _, hname, rfl⟩ := withComputed_eq_ok.mp hg
  have hcolumn := hf.column?_name hc
  rw [get_of_column? hcolumn, get_of_column? (column?_extend hname hcolumn)]
  change Same _ (match f.physicalRow? row with | none => _ | some physical => _) s _ _ _
  cases f.physicalRow? row with
  | none => exact same_self (meets_report trivial)
  | some physical => exact same_readColumn_extend hf hname hfree host physical depth hc s

/-- Columns in order can be read without end of depth. -/
theorem meets_get_of_isOrdered {f : Frame} (hf : f.WellFormed) (hordered : f.IsOrdered) {i : Nat}
    {c : Column} (hi : f.columns[i]? = some c) {depth : Nat} (hdepth : i < depth) (host : Host)
    (row : Nat) (s : Store) :
    Meets (f.get depth host c.name row) s (fun _ _ => True) fun stop _ => stop ≠ .outOfDepth := by
  rw [get_of_column? (hf.column?_name (List.mem_of_getElem? hi))]
  cases f.physicalRow? row with
  | none => exact meets_report nofun
  | some physical =>
      have hsame := same_readColumn_upTo hordered hf.findsByName host physical hi hdepth s
      exact hsame.meets.imp_result fun _ _ _ => trivial

/-- **Columns do not depend on later ones**, as far as their expressions do not need the names of
those.  A stored column changes no read.  A computed column changes none if its name is not needed,
and if that is needed for look-ups only, then it changes none but those that fail for want of it.
If no column needs its own name or a later one, then every column is read from those before it, and
so no read goes on for ever. -/
theorem reachable_columns_independent {f g : Frame} (hf : Reachable f) {c : Column}
    (hc : c ∈ f.columns) (name : String) (depth : Nat) (host : Host) (row : Nat) (s : Store) :
    (∀ type, f.withColumn name type = .ok g →
      g.get depth host c.name row s = f.get depth host c.name row s) ∧
    (∀ source, f.withComputed name source = .ok g → f.IsFreeOf name true →
      g.get depth host c.name row s = f.get depth host c.name row s) ∧
    (∀ source, f.withComputed name source = .ok g → f.IsFreeOf name false →
      g.get depth host c.name row s = f.get depth host c.name row s ∨
        ∃ s', f.get depth host c.name row s = (.error (.failed (.undefinedVariable name)), s')) ∧
    (f.IsOrdered → ∀ i, f.columns[i]? = some c → i < depth →
      f.readColumn (runDeep depth) host c row s =
        (f.upTo i).readColumn (runDeep depth) host c row s ∧
      ∀ s', f.get depth host c.name row s ≠ (.error .outOfDepth, s')) := by
  have hwf := hf.wellFormed
  refine ⟨?_, ?_, ?_, ?_⟩
  · intro type hg
    rw [get_withColumn hwf hc hg]
  · intro source hg hfree
    have hsame := same_get_withComputed hwf hc hg hfree depth host row s
    rcases hsame.eq_or_lost with h | ⟨_, _, _, hlooks, _⟩
    · exact h.symm
    · cases hlooks
  · intro source hg hfree
    have hsame := same_get_withComputed hwf hc hg hfree depth host row s
    rcases hsame.eq_or_lost with h | ⟨_, s', hrun, _, rfl⟩
    · exact Or.inl h.symm
    · exact Or.inr ⟨s', hrun⟩
  · intro hordered i hi hdepth
    have hsame := same_readColumn_upTo hordered hwf.findsByName host row hi hdepth s
    refine ⟨(hsame.eq_or_lost.resolve_right fun ⟨_, _, _, h⟩ => h).symm, ?_⟩
    intro s' hrun
    exact (meets_get_of_isOrdered hwf hordered hi hdepth host row s).stop hrun rfl

/-! ### Names that a branch assigns -/

/-- A frame of two columns and no rows. -/
def switches : Frame where
  name := "switched"
  columns := [{ name := "on", content := .stored (.empty .boolean) },
    { name := "d", content := .stored (.empty .double) }]
  index := .places ["on", "d"]
  registry := ∅

/-- The frame with a row, in which `on` is false and `d` is null, and a column computed from it. -/
def switched (source : String) (e : Expr) (t : ValueType) : Frame where
  name := "switched"
  columns := [{ name := "on", content := .stored ⟨.boolean, #[some false]⟩ },
    { name := "d", content := .stored ⟨.double, #[none]⟩ },
    { name := "c", content := .computed source e t }]
  index := .places ["on", "d", "c"]
  rowCount := 1
  registry := ∅

section Switched

variable {source : String} {e : Expr} {t : ValueType}

theorem reachable_switched (hsource : Expr.ofSource source = .ok e)
    (hcheck : switches.scope.check e = .ok t) (ht : t ≠ .void) :
    Reachable (switched source e t) := by
  let host : Host := fun key _ => .error (.unknownFunction key)
  have hempty : Reachable { name := "switched", registry := ∅ } := .new _ _
  have hon := hempty.of_run 0 host (.column "on" .boolean) (s := {}) rfl
  have hd := hon.of_run 0 host (.column "d" .double) (s := {}) rfl
  have hc := hd.of_run 0 host (.computed "c" source) (s := {}) (by
    change orReport (switches.withComputed "c" source) {} = _
    rw [withComputed_eq_ok.mpr ⟨e, t, hsource, hcheck, ht, rfl, rfl⟩]
    rfl)
  exact hc.of_run 0 host (.row [.boolean false, .void]) (s := {}) rfl

/-- The frame takes a further computed column, `x`. -/
theorem withComputed_switched {later : String} {x : Expr} {u : ValueType}
    (hlater : Expr.ofSource later = .ok x) (hcheck : (switched source e t).scope.check x = .ok u)
    (hu : u ≠ .void) :
    (switched source e t).withComputed "x" later =
      .ok ((switched source e t).extend { name := "x", content := .computed later x u }) :=
  withComputed_eq_ok.mpr ⟨x, u, hlater, hcheck, hu, rfl, rfl⟩

end Switched

/-- If both branches assign the name, it may be that of a later column. -/
theorem reachable_columns_independent_assigned : ∃ f g c, Reachable f ∧ c ∈ f.columns ∧
    f.withComputed "x" "7" = .ok g ∧ ∀ depth host row s,
      g.get depth host c.name row s = f.get depth host c.name row s ∧
      (2 < depth → ∀ s', f.get depth host c.name row s ≠ (.error .outOfDepth, s')) := by
  let source : String := "if on then x = 1 else x = 2 endif + x"
  let assign (n : Long) : Expr := .sequence [.assign "x" (.literal (.long n))]
  let e : Expr := .binary (.arithmetic .add)
    (.ifElse (.var "on") (assign 1) (some (assign 2))) (.var "x")
  have hsource : Expr.ofSource source = .ok e := by cbv
  have hlater : Expr.ofSource "7" = .ok (.literal (.long 7)) := by cbv
  have hf : Reachable (switched source e .long) := reachable_switched hsource rfl (by decide)
  have hcomputed : ∀ c ∈ (switched source e .long).columns, ∀ source' e' t',
      c.content = .computed source' e' t' → e' = e := by
    intro c hc _ _ _ hcontent
    simp only [switched, List.mem_cons, List.not_mem_nil, or_false] at hc
    rcases hc with rfl | rfl | rfl
    · cases hcontent
    · cases hcontent
    · cases hcontent
      rfl
  have hfree : (switched source e .long).IsFreeOf "x" true := by
    intro c hc _ _ _ hcontent
    rw [hcomputed c hc _ _ _ hcontent]
    rfl
  have hordered : (switched source e .long).IsOrdered := by
    refine hf.wellFormed.isOrdered hf.declared fun d hd c hc _ _ _ hcontent => ?_
    rw [hcomputed c hc _ _ _ hcontent]
    simp only [switched, List.mem_cons, List.not_mem_nil, or_false] at hd
    rcases hd with rfl | rfl | rfl
    all_goals rfl
  have hc : { name := "c", content := .computed source e .long } ∈
      (switched source e .long).columns := by simp [switched]
  refine ⟨_, _, _, hf, hc, withComputed_switched hlater rfl (by decide),
    fun depth host row s => ?_⟩
  obtain ⟨_, hequal, _, hearlier⟩ :=
    reachable_columns_independent hf hc "x" depth host row s
  exact ⟨hequal "7" (withComputed_switched hlater rfl (by decide)) hfree,
    fun hdepth => (hearlier hordered 2 rfl hdepth).2⟩

def lookingUpSource : String := "if on then x = 1 else 2 endif + x"

/-- One branch only assigns the name. -/
def lookingUp : Expr :=
  .binary (.arithmetic .add)
    (.ifElse (.var "on") (.sequence [.assign "x" (.literal (.long 1))])
      (some (.sequence [.literal (.long 2)])))
    (.var "x")

theorem ofSource_lookingUp : Expr.ofSource lookingUpSource = .ok lookingUp := by
  unfold lookingUpSource lookingUp
  cbv

/-- If the other branch is taken, the name is looked up.  At first the read fails, and later it does
not. -/
theorem dependent_by_lookUp : ∃ f g host s s', Reachable f ∧ f.withComputed "x" "7" = .ok g ∧
    f.get 2 host "c" 0 {} = (.error (.failed (.undefinedVariable "x")), s) ∧
    g.get 2 host "c" 0 {} = (.ok (.long 9), s') := by
  have hlater : Expr.ofSource "7" = .ok (.literal (.long 7)) := by cbv
  exact ⟨_, _, fun key _ => .error (.unknownFunction key), _, _,
    reachable_switched ofSource_lookingUp rfl (by decide),
    withComputed_switched hlater rfl (by decide), rfl, rfl⟩

/-- Two columns that read each other: `c` looks up `x`, and `x` is `c`. -/
def circle : Frame :=
  (switched lookingUpSource lookingUp .long).extend
    { name := "x", content := .computed "c" (.var "c") .long }

theorem meets_readColumn_circle (depth : Nat) (host : Host) (s : Store) :
    Meets (circle.readColumn (runDeep depth) host
      { name := "c", content := .computed lookingUpSource lookingUp .long } 0) s
      (fun _ _ => False) fun stop _ => stop = .outOfDepth := by
  induction depth using Nat.strongRecOn generalizing s with
  | ind depth ih =>
      rcases depth with _ | _ | depth
      · exact rfl
      · exact rfl
      · change Meets (isolated ∅ (runDeep (depth + 2) (.ofRow host circle 0) [lookingUp])) s _ _
        rw [runDeep_single]
        refine meets_isolated ?_
        unfold lookingUp
        rw [evaluateWith]
        refine meets_bind (Q := fun _ s' => s'.vars = ∅) rfl fun _ s₁ hs₁ => ?_
        refine meets_bind (Q := fun _ _ => False) ?_ fun _ _ h => h.elim
        rw [evaluateWith]
        refine meets_reporting ?_ fun _ _ h => nomatch h
        -- `x` is not assigned, so it is the column
        refine meets_bind (meets_get (Q := fun s' s'' => s'.vars = ∅ ∧ s''.vars = ∅) ⟨hs₁, hs₁⟩) ?_
        intro s₂ s₃ ⟨hs₂, hs₃⟩
        rw [hs₂]
        change Meets (isolated ∅ (runDeep (depth + 1) (.ofRow host circle 0) [.var "c"])) s₃ _ _
        rw [runDeep_single]
        refine meets_isolated ?_
        rw [evaluateWith]
        refine meets_reporting ?_ fun _ _ h => nomatch h
        refine meets_bind (meets_get (Q := fun s' _ => s'.vars = ∅) rfl) ?_
        intro s₄ s₅ hs₄
        rw [hs₄]
        exact ih depth (by omega) s₅

/-- The later column may read the one that looks it up, and then neither read ends. -/
theorem dependent_in_circle : ∃ f g, Reachable f ∧ f.withComputed "x" "c" = .ok g ∧
    ∀ depth host s, Meets (g.get depth host "c" 0) s (fun _ _ => False)
      fun stop _ => stop = .outOfDepth := by
  have hlater : Expr.ofSource "c" = .ok (.var "c") := by cbv
  exact ⟨_, circle, reachable_switched ofSource_lookingUp rfl (by decide),
    withComputed_switched hlater rfl (by decide), meets_readColumn_circle⟩

/-- If the name is in the branch that is not taken, a later column of type double widens the other
branch.  Here neither read fails. -/
theorem dependent_by_type : ∃ f g host s s', Reachable f ∧ f.withComputed "x" "d" = .ok g ∧
    f.get 2 host "c" 0 {} = (.ok (.long 1), s) ∧
    g.get 2 host "c" 0 {} = (.ok (.double (Double.ofInt 1)), s') := by
  let source : String := "if if on then x = d; true else true endif then 1 else x endif"
  let yes : Expr := .literal (.boolean true)
  let e : Expr := .ifElse
    (.ifElse (.var "on") (.sequence [.assign "x" (.var "d"), yes]) (some (.sequence [yes])))
    (.sequence [.literal (.long 1)]) (some (.sequence [.var "x"]))
  have hsource : Expr.ofSource source = .ok e := by cbv
  have hlater : Expr.ofSource "d" = .ok (.var "d") := by cbv
  exact ⟨switched source e .double, _, fun key _ => .error (.unknownFunction key), _, _,
    reachable_switched hsource rfl (by decide),
    withComputed_switched (u := .double) hlater rfl (by decide), rfl, rfl⟩

end Frame
end FrameLang
