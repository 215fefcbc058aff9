/-
Two equalities of values.

Values by themselves are equal if neither comes before the other.  Vectors are equal if their
elements are the same, one by one, and being the same is another notion: a long is never the same as
a double, and doubles are the same as IEEE numbers are.  Membership asks with the first equality.

The two differ in three cases and in no other: a long beside the double that it is widened to, a NaN
beside itself, and the two zeros beside each other.  `Deviates` is these three.  Wherever it does
not hold of the elements of two vectors, the vectors are equal if and only if their elements are
(`same_eq_equates`), to any depth; and wherever it does hold, one of the two equalities holds and
the other one does not.
-/
import FrameLang.Proofs.Keys.Widening
import FrameLang.Value.Basic

namespace FrameLang

/-! ### Places that agree -/

theorem Date.compare_eq_eq {a b : Date} : a.compare b = .eq ↔ a = b := by
  obtain ⟨year, month, day, hvalid⟩ := a
  obtain ⟨year', month', day', hvalid'⟩ := b
  simp [Date.compare, Ordering.then_eq_eq]

theorem DateTime.compare_eq_eq {a b : DateTime} : a.compare b = .eq ↔ a = b := by
  obtain ⟨date, hour, minute, second, nanos, hvalid⟩ := a
  obtain ⟨date', hour', minute', second', nanos', hvalid'⟩ := b
  simp [DateTime.compare, Ordering.then_eq_eq, Date.compare_eq_eq]

namespace Double

theorem compare_eq_eq {c d : Double} : c.compare d = .eq ↔ c = d := by
  unfold compare
  rw [Std.compare_eq_iff_eq]
  exact order_injective.eq_iff

/-- Two encodings are told apart by the one equality and not by the other: they are one NaN, or
different zeros. -/
def Deviates (c d : Double) : Prop :=
  c = d ∧ c.isNaN = true ∨ c ≠ d ∧ c.magnitude = 0 ∧ d.magnitude = 0

/-- As numbers, doubles are equal exactly if they are one encoding, those cases apart. -/
theorem equals_eq_decide_iff {c d : Double} :
    c.equals d = (c.compare d == .eq) ↔ ¬c.Deviates d := by
  have hcompare : (c.compare d == .eq) = decide (c = d) := by
    by_cases hsame : c = d
    · rw [compare_eq_eq.mpr hsame, decide_eq_true hsame]
      rfl
    · rw [decide_eq_false hsame, beq_eq_false_iff_ne]
      exact fun h => hsame (compare_eq_eq.mp h)
  rw [hcompare]
  unfold Deviates equals
  by_cases hsame : c = d
  · subst hsame
    by_cases hnan : c.isNaN
    · simp [hnan]
    · simp [hnan]
  · have hzero : ∀ e : Double, e.magnitude = 0 → e.isNaN = false := by
      intro e he
      simp [isNaN, he]
    by_cases hc : c.magnitude = 0
    · by_cases hd : d.magnitude = 0
      · simp [hsame, hc, hd, hzero]
      · simp [hsame, hc, hd]
    · simp [hsame, hc]

end Double

namespace Value

/-! ### Elements -/

/-- Two values are equal by themselves and not the same, or the other way round. -/
def Deviates : Value → Value → Prop
  | long n, double d => Double.ofInt n.toInt = d
  | double d, long n => d = Double.ofInt n.toInt
  | double c, double d => c.Deviates d
  | _, _ => False

/-- **Being the same is being equal, but where the two deviate.** -/
theorem same_eq_iff {a b : Value} {r : Bool} (h : a.comparison .eq b = .ok r) :
    a.same b = r ↔ ¬a.Deviates b := by
  cases a with
  | double c =>
      cases b with
      | double d =>
          cases h
          exact Double.equals_eq_decide_iff
      | _ => cases h <;> simp [same, Deviates, Comparison.holds, Double.compare_eq_eq]
  | _ =>
      cases b with
      | _ =>
        cases h <;> simp [same, Deviates, Comparison.holds, Double.compare_eq_eq,
          Date.compare_eq_eq, DateTime.compare_eq_eq, Int64.toInt_inj]

/-! ### Vectors -/

/-- Two values stand at one place in two vectors, or in vectors that do. -/
inductive AtOnePlace : List Value → List Value → Value → Value → Prop
  | first {a b : Value} {as bs : List Value} : AtOnePlace (a :: as) (b :: bs) a b
  | later {a b x y : Value} {as bs : List Value} (h : AtOnePlace as bs x y) :
      AtOnePlace (a :: as) (b :: bs) x y
  | inside {x y : Value} {us vs as bs : List Value} (h : AtOnePlace us vs x y) :
      AtOnePlace (vector us :: as) (vector vs :: bs) x y

mutual

/-- Whether two values are equal by themselves; vectors are if they have as many elements, and these
are equal one by one. -/
def equates : Value → Value → Bool
  | vector as, vector bs => allEquate as bs
  | a, b => (a.comparison .eq b).toOption == some true

def allEquate : List Value → List Value → Bool
  | [], [] => true
  | a :: as, b :: bs => a.equates b && allEquate as bs
  | _, _ => false

end

/-- Other values than vectors have to be compared. -/
theorem equates_eq_of_comparison {a b : Value} {r : Bool} (h : a.comparison .eq b = .ok r)
    (hvectors : ¬(a.type = .vector ∧ b.type = .vector)) : a.equates b = r := by
  have hr : ((a.comparison .eq b).toOption == some true) = r := by
    rw [h]
    cases r with
    | _ => rfl
  rw [← hr]
  cases a with
  | vector as =>
      cases b with
      | vector bs => exact absurd ⟨rfl, rfl⟩ hvectors
      | _ => rfl
  | _ => rfl

mutual

/-- **Where nothing deviates, the two equalities are one**, to any depth. -/
theorem same_eq_equates {a b : Value} {r : Bool} (h : a.comparison .eq b = .ok r)
    (hdeviates : ¬a.Deviates b)
    (hinside : ∀ us vs, a = vector us → b = vector vs → ∀ x y, AtOnePlace us vs x y →
      (∃ r, x.comparison .eq y = .ok r) ∧ ¬x.Deviates y) : a.same b = a.equates b := by
  by_cases hvectors : a.type = .vector ∧ b.type = .vector
  · obtain ⟨ha, hb⟩ := hvectors
    cases a with
    | vector us =>
        cases b with
        | vector vs => exact allSame_eq_allEquate us vs (hinside us vs rfl rfl)
        | _ => cases hb
    | _ => cases ha
  · rw [equates_eq_of_comparison h hvectors]
    exact (same_eq_iff h).mpr hdeviates
termination_by structural a

theorem allSame_eq_allEquate (us vs : List Value)
    (h : ∀ x y, AtOnePlace us vs x y → (∃ r, x.comparison .eq y = .ok r) ∧ ¬x.Deviates y) :
    allSame us vs = allEquate us vs := by
  cases us with
  | nil =>
      cases vs with
      | _ => rfl
  | cons a us =>
      cases vs with
      | nil => rfl
      | cons b vs =>
          obtain ⟨⟨r, hr⟩, hdeviates⟩ := h a b .first
          rw [allSame, allEquate, allSame_eq_allEquate us vs fun x y hxy => h x y hxy.later]
          rw [same_eq_equates hr hdeviates]
          rintro us' vs' rfl rfl x y hxy
          exact h x y hxy.inside
termination_by structural us

end

theorem allSame_iff {us vs : List Value} :
    allSame us vs = true ↔ List.Forall₂ (fun a b => a.same b = true) us vs := by
  induction us generalizing vs with
  | nil =>
      cases vs with
      | nil => simp [allSame]
      | cons b vs => simp [allSame]
  | cons a us ih =>
      cases vs with
      | nil => simp [allSame]
      | cons b vs => simp [allSame, ih]

/-- What is at one place of two vectors themselves. -/
theorem AtOnePlace.forall₂_congr {R S : Value → Value → Prop} {us vs : List Value}
    (h : ∀ x y, AtOnePlace us vs x y → (R x y ↔ S x y)) :
    List.Forall₂ R us vs ↔ List.Forall₂ S us vs := by
  induction us generalizing vs with
  | nil =>
      cases vs with
      | _ => simp
  | cons a us ih =>
      cases vs with
      | nil => simp
      | cons b vs =>
          rw [List.forall₂_cons, List.forall₂_cons, h a b .first,
            ih fun x y hxy => h x y hxy.later]

/-- To be in a vector of one element is to be equal to it. -/
theorem membership_singleton {x y : Value} {r : Bool} (h : x.comparison .eq y = .ok r) :
    membership .isIn x (vector [y]) = .ok (boolean r) := by
  cases r with
  | _ => simp [membership, membership.found, h, Except.toOption]

theorem comparison_singletons (x y : Value) :
    (vector [x]).comparison .eq (vector [y]) = .ok (x.same y) := by
  simp [comparison, allSame]

/-- **Vectors are equal if their elements are, but where equality deviates.**  Let all values at one
place of two vectors, at any depth, be comparable with `==`.  Then the vectors are, and `!=` is the
negation.  If no two of these values deviate, the vectors are equal if and only if their elements
are, and so on within the elements.  As to two values at one place, membership always agrees with
their own equality, while the equality of vectors that hold nothing else does so if and only if they
do not deviate. -/
theorem vectors_equal_by_elements {us vs : List Value}
    (h : ∀ x y, AtOnePlace us vs x y → ∃ r, x.comparison .eq y = .ok r) :
    (∃ r, (vector us).comparison .eq (vector vs) = .ok r ∧
      (vector us).comparison .ne (vector vs) = .ok !r) ∧
    ((∀ x y, AtOnePlace us vs x y → ¬x.Deviates y) →
      ((vector us).comparison .eq (vector vs) = .ok true ↔
        List.Forall₂ (fun x y => x.comparison .eq y = .ok true) us vs) ∧
      (vector us).comparison .eq (vector vs) = .ok (allEquate us vs)) ∧
    ∀ x y, AtOnePlace us vs x y →
      membership .isIn x (vector [y]) = (x.comparison .eq y).map boolean ∧
      ((vector [x]).comparison .eq (vector [y]) = x.comparison .eq y ↔ ¬x.Deviates y) := by
  refine ⟨⟨allSame us vs, rfl, rfl⟩, ?_, ?_⟩
  · intro hdeviates
    constructor
    · have hsame : ∀ x y, AtOnePlace us vs x y →
          (x.same y = true ↔ x.comparison .eq y = .ok true) := by
        intro x y hxy
        obtain ⟨r, hr⟩ := h x y hxy
        rw [(same_eq_iff hr).mpr (hdeviates x y hxy), hr, Except.ok.injEq]
      rw [← AtOnePlace.forall₂_congr hsame, ← allSame_iff]
      show (Except.ok (allSame us vs) : Except Error Bool) = .ok true ↔ _
      rw [Except.ok.injEq]
    · rw [← allSame_eq_allEquate us vs fun x y hxy => ⟨h x y hxy, hdeviates x y hxy⟩]
      rfl
  · intro x y hxy
    obtain ⟨r, hr⟩ := h x y hxy
    rw [hr, membership_singleton hr, comparison_singletons, Except.ok.injEq]
    exact ⟨rfl, same_eq_iff hr⟩

/-- A long beside its double, a zero beside the other one, and a NaN beside itself: `==` and `in`
give one answer, and `==` for the vectors gives the other one.  Elsewhere they agree, also within
vectors. -/
theorem vectors_equal_by_elements_mixed :
    (∀ x y, (x, y) ∈ [(long 1, double (Double.ofInt 1)),
        (double (.ofParts false 0), double (.ofParts true 0)),
        (double (.nan false), double (.nan false))] →
      ∃ r, x.comparison .eq y = .ok r ∧ membership .isIn x (vector [y]) = .ok (boolean r) ∧
        (vector [x]).comparison .eq (vector [y]) ≠ .ok r) ∧
    (vector [long 1, vector [string "a", void]]).comparison .eq
      (vector [long 1, vector [string "b", void]]) = .ok false := by
  constructor
  · intro x y hxy
    have hpair : (∃ r, x.comparison .eq y = .ok r) ∧ x.Deviates y ∧ x.type ≠ .vector := by
      simp only [List.mem_cons, List.not_mem_nil, or_false, Prod.mk.injEq] at hxy
      rcases hxy with ⟨rfl, rfl⟩ | ⟨rfl, rfl⟩ | ⟨rfl, rfl⟩
      · exact ⟨⟨_, rfl⟩, rfl, by decide⟩
      · exact ⟨⟨_, rfl⟩, Or.inr ⟨by decide, rfl, rfl⟩, by decide⟩
      · exact ⟨⟨_, rfl⟩, Or.inl ⟨rfl, by decide⟩, by decide⟩
    obtain ⟨⟨r, hr⟩, hdeviates, hvector⟩ := hpair
    obtain ⟨-, -, hplaces⟩ := @vectors_equal_by_elements [x] [y] (by
      intro x' y' hplace
      cases hplace with
      | first => exact ⟨r, hr⟩
      | later hnone => cases hnone
      | inside => exact absurd rfl hvector)
    obtain ⟨hmember, hagree⟩ := hplaces x y .first
    rw [hr] at hmember hagree
    exact ⟨r, hr, hmember, fun hsame => hagree.mp hsame hdeviates⟩
  · have hplaces : ∀ x y, AtOnePlace [long 1, vector [string "a", void]]
        [long 1, vector [string "b", void]] x y →
        (∃ r, x.comparison .eq y = .ok r) ∧ ¬x.Deviates y := by
      intro x y hplace
      cases hplace with
      | first => exact ⟨⟨_, rfl⟩, id⟩
      | later hplace =>
          cases hplace with
          | first => exact ⟨⟨_, rfl⟩, id⟩
          | later hnone => cases hnone
          | inside hplace =>
              cases hplace with
              | first => exact ⟨⟨_, rfl⟩, id⟩
              | later hplace =>
                  cases hplace with
                  | first => exact ⟨⟨_, rfl⟩, id⟩
                  | later hnone => cases hnone
    obtain ⟨-, hexact, -⟩ := vectors_equal_by_elements fun x y hplace => (hplaces x y hplace).1
    exact (hexact fun x y hplace => (hplaces x y hplace).2).2

end Value
end FrameLang
