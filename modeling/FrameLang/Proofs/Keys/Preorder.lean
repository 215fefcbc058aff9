/-
The order of sort keys.

Two values can be compared if they are of one kind, numbers of both types being of one kind, or if
one of them is `void`, which comes first.  Longs among themselves are compared exactly, but a long
beside a double is rounded to a double first.  So there are two orders at work.

Values that are all widened have only one, that of the cells of a column, and it is a total
preorder.  Widening keeps the exact order of longs (`precedes_widened`), so whatever is in order is
so widened as well; the way back is open but for two longs.  Hence there is one way only in which
the order of keys can fail to be transitive (`compareKeys_preorder`).  A double stands between two
longs that are rounded to it, and these are in the wrong order.  It takes a long of more than 53
bits.
-/
import FrameLang.Proofs.Frame.StableSorting
import FrameLang.Proofs.Keys.Widening

namespace FrameLang

namespace Value

/-- Two values have an order between them. -/
def IsComparable (a b : Value) : Prop := ∃ o, a.compareKeys b = .ok o

/-- Two values have an order between them, and the first does not come after the second. -/
def Precedes (a b : Value) : Prop := ∃ o, a.compareKeys b = .ok o ∧ o ≠ .gt

theorem Precedes.isComparable {a b : Value} (h : a.Precedes b) : a.IsComparable b :=
  h.imp fun _ => And.left

/-! ### What can be compared -/

/-- The value as it is beside a double. -/
def widened : Value → Value
  | long n => double (Double.ofInt n.toInt)
  | v => v

/-- The type of cells among which a value has its place; that of a long is among doubles. -/
def orderType? (v : Value) : Option ScalarType := ScalarType.ofValueType? v.widened.type

/-- A value may come before another one: it is `void`, or the two are of one kind. -/
def Leads (a b : Value) : Prop := a = void ∨ ∃ t, a.orderType? = some t ∧ b.orderType? = some t

variable {a b c : Value}

theorem isComparable_iff : a.IsComparable b ↔ a.Leads b ∨ b = void := by
  cases a with
  | _ =>
      cases b with
      | _ =>
          simp [IsComparable, Leads, compareKeys, orderFor, order?, number?, orderType?, widened,
            type, ScalarType.ofValueType?]

theorem Leads.isComparable (h : a.Leads b) : a.IsComparable b := isComparable_iff.mpr (.inl h)

/-- **Being of one kind passes on**, which not even `void` breaks, because nothing but `void` leads
it. -/
theorem Leads.trans (hab : a.Leads b) (hbc : b.Leads c) : a.Leads c := by
  rcases hab with rfl | ⟨t, ha, hb⟩
  · exact .inl rfl
  · rcases hbc with rfl | ⟨u, hb', hc⟩
    · cases hb
    · obtain rfl : t = u := Option.some.inj (hb.symm.trans hb')
      exact .inr ⟨t, ha, hc⟩

instance : IsTrans Value Leads := ⟨fun _ _ _ => Leads.trans⟩

theorem Precedes.leads (h : a.Precedes b) : a.Leads b := by
  rcases isComparable_iff.mp h.isComparable with hleads | rfl
  · exact hleads
  · obtain ⟨o, ho, hgt⟩ := h
    cases a with
    | void => exact .inl rfl
    | _ =>
        cases ho
        exact absurd rfl hgt

theorem void_precedes (b : Value) : void.Precedes b := by
  cases b with
  | void => exact ⟨.eq, rfl, nofun⟩
  | _ => exact ⟨.lt, rfl, nofun⟩

/-! ### Widened values -/

/-- A value that has its place among the cells of a type is the value of such a cell. -/
theorem widened_eq_toValue {t : ScalarType} (h : a.orderType? = some t) :
    ∃ x : t.Carrier, a.widened = t.toValue (some x) := by
  cases a with
  | void | vector | frame => cases h
  | _ =>
      cases h
      exact ⟨_, rfl⟩

/-- Values are compared widened, two longs apart. -/
theorem compareKeys_widened (h : ¬(a.type = .long ∧ b.type = .long)) (o : Ordering) :
    a.widened.compareKeys b.widened = .ok o ↔ a.compareKeys b = .ok o := by
  cases a with
  | long m =>
      cases b with
      | long n => exact absurd ⟨rfl, rfl⟩ h
      | _ => simp [compareKeys, orderFor, order?, number?, widened]
  | _ =>
      cases b with
      | _ => simp [compareKeys, orderFor, order?, number?, widened]

theorem eq_long_of_type (h : a.type = .long) : ∃ n, a = long n := by
  cases a with
  | long n => exact ⟨n, rfl⟩
  | _ => cases h

theorem compareKeys_longs (m n : Long) :
    (long m).compareKeys (long n) = .ok (compare m.toInt n.toInt) := rfl

theorem precedes_longs {m n : Long} : (long m).Precedes (long n) ↔ m.toInt ≤ n.toInt := by
  unfold Precedes
  rw [compareKeys_longs]
  simp [← Int.isLE_compare, Ordering.isLE_iff_ne_gt]

theorem precedes_doubles {x y : Double} : (double x).Precedes (double y) ↔ x.order ≤ y.order := by
  unfold Precedes
  rw [show (double x).compareKeys (double y) = .ok (compare x.order y.order) from rfl]
  simp [← Int.isLE_compare, Ordering.isLE_iff_ne_gt]

/-- What is in order is so widened. -/
theorem precedes_widened (h : a.Precedes b) : a.widened.Precedes b.widened := by
  by_cases hlongs : a.type = .long ∧ b.type = .long
  · obtain ⟨m, rfl⟩ := eq_long_of_type hlongs.1
    obtain ⟨n, rfl⟩ := eq_long_of_type hlongs.2
    exact precedes_doubles.mpr (Double.order_ofInt_mono (precedes_longs.mp h))
  · exact h.imp fun o ho => ⟨(compareKeys_widened hlongs o).mpr ho.1, ho.2⟩

theorem precedes_of_widened (hlongs : ¬(a.type = .long ∧ b.type = .long))
    (h : a.widened.Precedes b.widened) : a.Precedes b :=
  h.imp fun o ho => ⟨(compareKeys_widened hlongs o).mp ho.1, ho.2⟩

theorem precedes_toValue {t : ScalarType} {x y : t.Carrier} :
    (t.toValue (some x)).Precedes (t.toValue (some y)) ↔ (t.compare x y).isLE = true := by
  unfold Precedes
  rw [t.compareKeys_toValue]
  simp [Ordering.isLE_iff_ne_gt, ScalarType.compareEntries]

/-- **Widened values are in a total preorder.** -/
theorem Precedes.trans_widened (hab : a.Precedes b) (hbc : b.Precedes c) :
    a.widened.Precedes c.widened := by
  rcases hab.leads with rfl | ⟨t, ha, hb⟩
  · exact void_precedes _
  · rcases hbc.leads with rfl | ⟨u, hb', hc⟩
    · cases hb
    · obtain rfl : t = u := Option.some.inj (hb.symm.trans hb')
      have hab' := precedes_widened hab
      have hbc' := precedes_widened hbc
      obtain ⟨x, hx⟩ := widened_eq_toValue ha
      obtain ⟨y, hy⟩ := widened_eq_toValue hb
      obtain ⟨z, hz⟩ := widened_eq_toValue hc
      rw [hx, hy, precedes_toValue] at hab'
      rw [hy, hz, precedes_toValue] at hbc'
      rw [hx, hz, precedes_toValue]
      exact Std.TransCmp.isLE_trans hab' hbc'

/-! ### The order of keys -/

theorem compareKeys_self (h : a.IsComparable a) : a.compareKeys a = .ok .eq := by
  obtain ⟨o, ho⟩ := h
  by_cases hlong : a.type = .long
  · obtain ⟨n, rfl⟩ := eq_long_of_type hlong
    exact congrArg Except.ok Std.ReflCmp.compare_self
  · rw [← compareKeys_widened fun h => hlong h.1]
    rcases isComparable_iff.mp ⟨o, ho⟩ with (rfl | ⟨t, ha, -⟩) | rfl
    · rfl
    · obtain ⟨x, hx⟩ := widened_eq_toValue ha
      rw [hx, t.compareKeys_toValue]
      exact congrArg Except.ok Std.ReflCmp.compare_self
    · rfl

theorem compareKeys_swap {o : Ordering} (h : a.compareKeys b = .ok o) :
    b.compareKeys a = .ok o.swap := by
  by_cases hlongs : a.type = .long ∧ b.type = .long
  · obtain ⟨m, rfl⟩ := eq_long_of_type hlongs.1
    obtain ⟨n, rfl⟩ := eq_long_of_type hlongs.2
    cases h
    exact congrArg Except.ok Std.OrientedCmp.eq_swap
  · rcases isComparable_iff.mp ⟨o, h⟩ with (rfl | ⟨t, ha, hb⟩) | rfl
    · cases b with
      | _ =>
          cases h
          rfl
    · rw [← compareKeys_widened hlongs] at h
      rw [← compareKeys_widened fun h => hlongs h.symm]
      obtain ⟨x, hx⟩ := widened_eq_toValue ha
      obtain ⟨y, hy⟩ := widened_eq_toValue hb
      rw [hx, hy, t.compareKeys_toValue] at h
      cases h
      rw [hx, hy, t.compareKeys_toValue]
      exact congrArg Except.ok Std.OrientedCmp.eq_swap
    · cases a with
      | _ =>
          cases h
          rfl

theorem IsComparable.symm (h : a.IsComparable b) : b.IsComparable a :=
  h.imp' Ordering.swap fun _ => compareKeys_swap

/-- Two longs that are rounded to the double between them, the larger one first. -/
def IsRoundedTogether (a b c : Value) : Prop :=
  ∃ m n : Long, a = long m ∧ c = long n ∧ n.toInt < m.toInt ∧
    b = double (Double.ofInt m.toInt) ∧ Double.ofInt n.toInt = Double.ofInt m.toInt ∧
    (2 ^ 53 < m.toInt.natAbs ∨ 2 ^ 53 < n.toInt.natAbs)

theorem isRoundedTogether_of_not_precedes (hab : a.Precedes b) (hbc : b.Precedes c)
    (hac : ¬a.Precedes c) : IsRoundedTogether a b c := by
  have hlongs : a.type = .long ∧ c.type = .long :=
    by_contra fun h => hac (precedes_of_widened h (hab.trans_widened hbc))
  obtain ⟨m, rfl⟩ := eq_long_of_type hlongs.1
  obtain ⟨n, rfl⟩ := eq_long_of_type hlongs.2
  rw [precedes_longs, not_le] at hac
  cases b with
  | long k =>
      have hmk := precedes_longs.mp hab
      have hkn := precedes_longs.mp hbc
      omega
  | double d =>
      have hmd : (Double.ofInt m.toInt).order ≤ d.order :=
        precedes_doubles.mp (precedes_widened hab)
      have hdn : d.order ≤ (Double.ofInt n.toInt).order :=
        precedes_doubles.mp (precedes_widened hbc)
      have hnm := Double.order_ofInt_mono hac.le
      have hd : d = Double.ofInt m.toInt := Double.order_injective (by omega)
      have hn : Double.ofInt n.toInt = Double.ofInt m.toInt := Double.order_injective (by omega)
      refine ⟨m, n, rfl, rfl, hac, congrArg double hd, hn, ?_⟩
      by_contra hsmall
      rw [not_or, not_lt, not_lt] at hsmall
      have hsame := (Double.ofInt_inj hsmall.2 hsmall.1).mp hn
      omega
  | _ =>
      rcases hab.leads with hvoid | ⟨_, ha, hb⟩
      · cases hvoid
      · cases ha
        cases hb

/-- **The order of sort keys is a total preorder, rounding apart.**  A value that can be compared
with itself equals itself, and of two values the order is the reverse of that of the same values
the other way round.  If a first value does not come after a second one, nor that after a third
one, then the first and the third can be compared, and the first comes after the third if and only
if they are longs, the larger one first, that are rounded together to the double between them; one
of the longs has more than 53 bits then. -/
theorem compareKeys_preorder (a b c : Value) :
    (a.IsComparable a → a.compareKeys a = .ok .eq) ∧
    (∀ o, a.compareKeys b = .ok o → b.compareKeys a = .ok o.swap) ∧
    (a.Precedes b → b.Precedes c →
      a.IsComparable c ∧ (¬a.Precedes c ↔ IsRoundedTogether a b c)) := by
  refine ⟨compareKeys_self, fun _ => compareKeys_swap, fun hab hbc => ⟨?_, ?_, ?_⟩⟩
  · exact (hab.leads.trans hbc.leads).isComparable
  · exact isRoundedTogether_of_not_precedes hab hbc
  · rintro ⟨m, n, rfl, rfl, hlt, -⟩
    rw [precedes_longs]
    omega

/-- Two to the power of 53, and the long that comes after it and is rounded to it. -/
theorem compareKeys_preorder_rounded :
    let a := long 9007199254740993
    let b := double (Double.ofInt 9007199254740992)
    let c := long 9007199254740992
    a.compareKeys b = .ok .eq ∧ b.compareKeys c = .ok .eq ∧ a.compareKeys c = .ok .gt ∧
      IsRoundedTogether a b c := by
  have hrounded : Double.ofInt 9007199254740993 = Double.ofInt 9007199254740992 := by
    decide +kernel
  have hab : (long 9007199254740993).compareKeys (double (Double.ofInt 9007199254740992)) =
      .ok .eq := by
    rw [← hrounded]
    exact (compareKeys_widened (by simp [type]) .eq).mp (compareKeys_self ⟨_, rfl⟩)
  have hbc : (double (Double.ofInt 9007199254740992)).compareKeys (long 9007199254740992) =
      .ok .eq :=
    (compareKeys_widened (by simp [type]) .eq).mp (compareKeys_self ⟨_, rfl⟩)
  have hac : (long 9007199254740993).compareKeys (long 9007199254740992) = .ok .gt := rfl
  refine ⟨hab, hbc, hac, ?_⟩
  obtain ⟨-, -, htrans⟩ := compareKeys_preorder (long 9007199254740993)
    (double (Double.ofInt 9007199254740992)) (long 9007199254740992)
  refine (htrans ⟨.eq, hab, nofun⟩ ⟨.eq, hbc, nofun⟩).2.mp ?_
  rw [precedes_longs]
  decide

end Value

end FrameLang
