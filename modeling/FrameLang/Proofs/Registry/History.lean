/-
What a registry holds after any history.

A registry is kept as pairs in ascending order of their keys, and what it is asked is answered by
looking up a key.  Two facts tie the two together, and every change keeps them (`IsKeyed`): the keys
are in strictly ascending order, so that no two are equal, and each key is the normalized name of
its function.  What is found under a name follows the history itself: the last function added under
that name since the last reset, or else what the registry was reset to.
-/
import FrameLang.Function
import FrameLang.Proofs.Registry.LowerCase
import Mathlib

namespace FrameLang

theorem normalizeName_normalizeName (name : String) :
    normalizeName (normalizeName name) = normalizeName name :=
  Text.toLower_toLower name

/-- The function goes by the name, in any mix of case. -/
def Function.isCalled (f : Function) (name : String) : Bool :=
  normalizeName f.name == normalizeName name

/-! ### Bindings in order -/

namespace Bindings

variable {α : Type}

theorem mem_insertEntry {name : String} {a : α} {entries : List (String × α)}
    {entry : String × α} (h : entry ∈ insertEntry name a entries) :
    entry = (name, a) ∨ entry ∈ entries := by
  induction entries with
  | nil => exact Or.inl (List.mem_singleton.mp h)
  | cons head rest ih =>
      obtain ⟨other, b⟩ := head
      rw [insertEntry] at h
      split at h
      · rcases List.mem_cons.mp h with rfl | h
        · exact Or.inl rfl
        · exact Or.inr (List.mem_cons_of_mem _ h)
      · split at h
        · exact List.mem_cons.mp h
        · rcases List.mem_cons.mp h with rfl | h
          · exact Or.inr List.mem_cons_self
          · exact (ih h).imp_right (List.mem_cons_of_mem _)

theorem pairwise_insertEntry {name : String} {a : α} {entries : List (String × α)}
    (h : entries.Pairwise fun x y => x.1 < y.1) :
    (insertEntry name a entries).Pairwise fun x y => x.1 < y.1 := by
  induction entries with
  | nil => exact List.pairwise_singleton _ _
  | cons head rest ih =>
      obtain ⟨other, b⟩ := head
      obtain ⟨hhead, hrest⟩ := List.pairwise_cons.mp h
      rw [insertEntry]
      split
      · rename_i heq
        rw [List.pairwise_cons]
        exact ⟨fun entry hentry => heq ▸ hhead entry hentry, hrest⟩
      · split
        · rename_i hlt
          refine List.pairwise_cons.mpr ⟨fun entry hentry => ?_, h⟩
          rcases List.mem_cons.mp hentry with rfl | hentry
          · exact hlt
          · exact hlt.trans (hhead entry hentry)
        · rename_i hne hge
          refine List.pairwise_cons.mpr ⟨fun entry hentry => ?_, ih hrest⟩
          rcases mem_insertEntry hentry with rfl | hentry
          · exact lt_of_le_of_ne (not_lt.mp hge) (Ne.symm hne)
          · exact hhead entry hentry

/-- Looking up finds every pair there is, because no other has its key. -/
theorem find?_eq_some_iff {b : Bindings α} (h : b.entries.Pairwise fun x y => x.1 < y.1)
    {name : String} {a : α} : b.find? name = some a ↔ (name, a) ∈ b.entries := by
  obtain ⟨entries⟩ := b
  change entries.lookup name = some a ↔ (name, a) ∈ entries
  induction entries with
  | nil => simp
  | cons head rest ih =>
      obtain ⟨other, c⟩ := head
      obtain ⟨hhead, hrest⟩ := List.pairwise_cons.mp h
      rw [lookup_cons, List.mem_cons]
      by_cases hname : name = other
      · rw [if_pos hname]
        have hlater : (name, a) ∉ rest := fun hmem => (hhead _ hmem).ne hname.symm
        simp [hname ▸ hlater, hname, eq_comm]
      · rw [if_neg hname, ih hrest]
        simp [hname]

theorem contains_iff {b : Bindings α} (h : b.entries.Pairwise fun x y => x.1 < y.1)
    {name : String} : (b.find? name).isSome = true ↔ name ∈ b.names := by
  rw [Option.isSome_iff_exists, names, List.mem_map]
  constructor
  · rintro ⟨a, ha⟩
    exact ⟨_, (find?_eq_some_iff h).mp ha, rfl⟩
  · rintro ⟨⟨_, a⟩, ha, rfl⟩
    exact ⟨a, (find?_eq_some_iff h).mpr ha⟩

end Bindings

namespace Registry

/-! ### Histories -/

/-- What can be done to a registry. -/
inductive Change
  | add (f : Function)
  | reset

namespace Change

def isReset : Change → Bool
  | add _ => false
  | reset => true

def added? : Change → Option Function
  | add f => some f
  | reset => none

def applyTo (r : Registry) : Change → Registry
  | add f => r.add f
  | reset => defaults

end Change

/-- The registry after some changes, the earliest first. -/
def after (r : Registry) (changes : List Change) : Registry := changes.foldl Change.applyTo r

/-- A new registry, with the built-in functions or with none. -/
def initial (withDefaults : Bool) : Registry := if withDefaults then defaults else ∅

/-- The functions added since the last reset, the latest first. -/
def addedSinceReset (changes : List Change) : List Function :=
  (changes.reverse.takeWhile (!·.isReset)).filterMap Change.added?

/-- The built-in function of a name. -/
def builtin? (name : String) : Option Function :=
  (Builtin.all.map Builtin.function).find? (·.isCalled name)

variable {r : Registry} {changes : List Change}

theorem after_concat (r : Registry) (changes : List Change) (c : Change) :
    r.after (changes ++ [c]) = c.applyTo (r.after changes) := by
  simp [after]

theorem addedSinceReset_add (changes : List Change) (f : Function) :
    addedSinceReset (changes ++ [.add f]) = f :: addedSinceReset changes := by
  simp [addedSinceReset, Change.isReset, Change.added?]

theorem addedSinceReset_reset (changes : List Change) :
    addedSinceReset (changes ++ [.reset]) = [] := by
  simp [addedSinceReset, Change.isReset]

/-! ### Looking up -/

theorem get?_add (r : Registry) (f : Function) (name : String) :
    (r.add f).get? name = if f.isCalled name then some f else r.get? name := by
  unfold get? add Function.isCalled
  rw [Bindings.find?_insert]
  by_cases h : normalizeName name = normalizeName f.name
  · simp [h]
  · simp [h, Ne.symm h]

/-- **The last function added since the last reset is found**, and where there is none, what was
there before. -/
theorem get?_after (r : Registry) (changes : List Change) (name : String) :
    (r.after changes).get? name = ((addedSinceReset changes).find? (·.isCalled name)).or
      ((if changes.any Change.isReset then defaults else r).get? name) := by
  induction changes using List.reverseRecOn with
  | nil => rfl
  | append_singleton changes c ih =>
      rw [after_concat]
      cases c with
      | reset => simp [Change.applyTo, addedSinceReset_reset, Change.isReset]
      | add f =>
          rw [addedSinceReset_add, Change.applyTo, get?_add, ih, List.find?_cons]
          cases f.isCalled name with
          | true => rfl
          | false => simp [Change.isReset]

theorem defaults_eq_after :
    defaults = (∅ : Registry).after ((Builtin.all.map Builtin.function).map .add) := by
  unfold defaults after
  rw [List.foldl_map, List.foldl_map]
  rfl

/-- No two built-in functions go by one name. -/
theorem eq_of_isCalled {f g : Function} (hf : f ∈ Builtin.all.map Builtin.function)
    (hg : g ∈ Builtin.all.map Builtin.function) {name : String} (hfname : f.isCalled name = true)
    (hgname : g.isCalled name = true) : f = g := by
  have hnodup : (Builtin.all.map fun b => normalizeName b.function.name).Nodup := by
    decide +kernel
  obtain ⟨b, hb, rfl⟩ := List.mem_map.mp hf
  obtain ⟨c, hc, rfl⟩ := List.mem_map.mp hg
  have hsame : normalizeName b.function.name = normalizeName c.function.name :=
    (eq_of_beq hfname).trans (eq_of_beq hgname).symm
  exact congrArg Builtin.function (List.inj_on_of_nodup_map hnodup hb hc hsame)

/-- Among built-in functions it does not matter in which order one looks for a name. -/
theorem find?_isCalled_eq_some_iff {fs : List Function}
    (hfs : fs ⊆ Builtin.all.map Builtin.function) {name : String} {f : Function} :
    fs.find? (·.isCalled name) = some f ↔ f ∈ fs ∧ f.isCalled name = true := by
  have hfound {g : Function} (hg : fs.find? (·.isCalled name) = some g) :
      g ∈ fs ∧ g.isCalled name = true :=
    ⟨List.mem_of_find?_eq_some hg, List.find?_some (p := fun f : Function => f.isCalled name) hg⟩
  refine ⟨hfound, fun h => ?_⟩
  cases hg : fs.find? (·.isCalled name) with
  | none => exact absurd h.2 (List.find?_eq_none.mp hg f h.1)
  | some g =>
      obtain ⟨hmem, hname⟩ := hfound hg
      rw [eq_of_isCalled (hfs hmem) (hfs h.1) hname h.2]

theorem addedSinceReset_functions (fs : List Function) :
    addedSinceReset (fs.map .add) = fs.reverse := by
  induction fs using List.reverseRecOn with
  | nil => rfl
  | append_singleton fs f ih =>
      rw [List.map_append, List.map_singleton, addedSinceReset_add, ih, List.reverse_concat]

/-- The default registry holds the built-in functions. -/
theorem get?_defaults_eq (name : String) : defaults.get? name = builtin? name := by
  have hnoReset : ((Builtin.all.map Builtin.function).map Change.add).any Change.isReset = false :=
    rfl
  have hempty : (∅ : Registry).get? name = none := rfl
  rw [defaults_eq_after, get?_after, hnoReset, addedSinceReset_functions, if_neg Bool.false_ne_true,
    hempty, Option.or_none, builtin?]
  ext f
  rw [find?_isCalled_eq_some_iff (List.reverse_subset.mpr (List.Subset.refl _)),
    find?_isCalled_eq_some_iff (List.Subset.refl _), List.mem_reverse]

theorem get?_initial (withDefaults : Bool) (name : String) :
    (initial withDefaults).get? name = if withDefaults then builtin? name else none := by
  cases withDefaults with
  | true => exact get?_defaults_eq name
  | false => rfl

/-! ### Keys -/

/-- The keys are in order, and each is the normalized name of its function. -/
structure IsKeyed (r : Registry) : Prop where
  ordered : r.entries.Pairwise fun x y => x.1 < y.1
  keyed : ∀ entry ∈ r.entries, entry.1 = normalizeName entry.2.name

theorem IsKeyed.add (h : r.IsKeyed) (f : Function) : (r.add f).IsKeyed where
  ordered := Bindings.pairwise_insertEntry h.ordered
  keyed entry hentry := by
    rcases Bindings.mem_insertEntry hentry with rfl | hentry
    · rfl
    · exact h.keyed entry hentry

theorem isKeyed_empty : IsKeyed ∅ := ⟨List.Pairwise.nil, nofun⟩

theorem isKeyed_defaults : defaults.IsKeyed :=
  List.foldlRecOn _ _ isKeyed_empty fun _ h b _ => h.add b.function

theorem isKeyed_initial (withDefaults : Bool) : (initial withDefaults).IsKeyed := by
  cases withDefaults with
  | true => exact isKeyed_defaults
  | false => exact isKeyed_empty

theorem IsKeyed.after (h : r.IsKeyed) (changes : List Change) : (r.after changes).IsKeyed :=
  List.foldlRecOn _ _ h fun _ h c _ => by
    cases c with
    | add f => exact h.add f
    | reset => exact isKeyed_defaults

theorem IsKeyed.get?_eq_some_iff (h : r.IsKeyed) {name : String} {f : Function} :
    r.get? name = some f ↔ (normalizeName name, f) ∈ r.entries :=
  Bindings.find?_eq_some_iff h.ordered

theorem IsKeyed.names_eq (h : r.IsKeyed) :
    r.names = (r.values.map Function.name).map normalizeName := by
  unfold Bindings.names Bindings.values
  rw [List.map_map, List.map_map]
  exact List.map_congr_left h.keyed

theorem IsKeyed.nodup_names (h : r.IsKeyed) : r.names.Nodup :=
  List.pairwise_map.mpr (h.ordered.imp fun hlt => hlt.ne)

/-- A function is found under its own name. -/
theorem IsKeyed.mem_values_iff (h : r.IsKeyed) {f : Function} :
    f ∈ r.values ↔ r.get? f.name = some f := by
  rw [h.get?_eq_some_iff, Bindings.values, List.mem_map]
  constructor
  · rintro ⟨⟨key, f⟩, hentry, rfl⟩
    have hkey : key = normalizeName f.name := h.keyed _ hentry
    exact hkey ▸ hentry
  · intro hentry
    exact ⟨_, hentry, rfl⟩

/-- **A registry is as large as the names that it knows are many**, up to case. -/
theorem IsKeyed.size_eq (h : r.IsKeyed) :
    r.size = {key | ∃ name, normalizeName name = key ∧ (r.get? name).isSome}.ncard := by
  have hkeys : {key | ∃ name, normalizeName name = key ∧ (r.get? name).isSome} =
      (r.names.toFinset : Set String) := by
    ext key
    simp only [Set.mem_ofPred_eq, List.coe_toFinset]
    unfold get?
    simp only [Bindings.contains_iff h.ordered]
    constructor
    · rintro ⟨name, rfl, hmem⟩
      exact hmem
    · intro hmem
      obtain ⟨f, hf, rfl⟩ := List.mem_map.mp (h.names_eq ▸ hmem)
      exact ⟨f, rfl, hmem⟩
  rw [hkeys, Set.ncard_coe_finset, List.toFinset_card_of_nodup h.nodup_names, Bindings.names,
    List.length_map]
  rfl

/-- **Every function is listed once**, in ascending order of the declared names. -/
theorem IsKeyed.declaredNames (h : r.IsKeyed) :
    r.declaredNames.Pairwise (· < ·) ∧ r.declaredNames.length = r.size ∧
      ∀ name, name ∈ r.declaredNames ↔ ∃ f, r.get? name = some f ∧ f.name = name := by
  have hperm : r.declaredNames.Perm (r.values.map Function.name) := List.mergeSort_perm _ _
  refine ⟨?_, ?_, fun name => ?_⟩
  · -- Equal declared names would be equal keys.
    have hnodup : (r.values.map Function.name).Nodup :=
      List.Nodup.of_map normalizeName (h.names_eq ▸ h.nodup_names)
    have hascending : r.declaredNames.Pairwise (· ≤ ·) := by
      have htrans (a b c : String) (hab : decide (a ≤ b) = true) (hbc : decide (b ≤ c) = true) :
          decide (a ≤ c) = true :=
        decide_eq_true ((of_decide_eq_true hab).trans (of_decide_eq_true hbc))
      have htotal (a b : String) : (decide (a ≤ b) || decide (b ≤ a)) = true := by
        simpa using le_total a b
      exact (List.pairwise_mergeSort htrans htotal _).imp of_decide_eq_true
    exact (hascending.and (hperm.nodup_iff.mpr hnodup)).imp fun h => lt_of_le_of_ne h.1 h.2
  · rw [hperm.length_eq, List.length_map, Bindings.values, List.length_map]
    rfl
  · rw [hperm.mem_iff, List.mem_map]
    constructor
    · rintro ⟨f, hf, rfl⟩
      exact ⟨f, h.mem_values_iff.mp hf, rfl⟩
    · rintro ⟨f, hf, rfl⟩
      exact ⟨f, h.mem_values_iff.mpr hf, rfl⟩

/-- **A registry is a map over names in any mix of case, in which the last write wins.**  Take a
new registry, with or without the built-in functions, and any history of additions and resets.
Under a name one finds the function of that name that was added last since the last reset; if there
is none, the built-in function of that name if the registry began with those or was ever reset; and
else nothing.  To contain a name is to find a function under it.  The size is the number of
different normalized names under which a function is found, and each function is listed by its
declared name, in ascending order and once.  Looking up the normalized name gives the same. -/
theorem last_write_wins (withDefaults : Bool) (changes : List Change) :
    let r := (initial withDefaults).after changes
    (∀ name, r.get? name = ((addedSinceReset changes).find? (·.isCalled name)).or
      (if withDefaults || changes.any Change.isReset then builtin? name else none)) ∧
    (∀ name, r.contains name = (r.get? name).isSome) ∧
    r.size = {key | ∃ name, normalizeName name = key ∧ (r.get? name).isSome}.ncard ∧
    (r.declaredNames.Pairwise (· < ·) ∧ r.declaredNames.length = r.size ∧
      ∀ name, name ∈ r.declaredNames ↔ ∃ f, r.get? name = some f ∧ f.name = name) ∧
    ∀ name, r.get? (normalizeName name) = r.get? name := by
  intro r
  have hkeyed : r.IsKeyed := (isKeyed_initial withDefaults).after changes
  refine ⟨fun name => ?_, fun _ => rfl, hkeyed.size_eq, hkeyed.declaredNames, fun name => ?_⟩
  · rw [get?_after]
    cases changes.any Change.isReset with
    | true => simp [get?_defaults_eq]
    | false => simp [get?_initial]
  · unfold get?
    rw [normalizeName_normalizeName]

end Registry

end FrameLang
