/-
Widening keeps the order of numbers.

A long beside a double is rounded to a double before the two are compared.  Rounding may bring two
longs together, but never into the other order.

The code of a rounded number is put together from its exponent and its significand.  Of numbers with
one exponent the significands are in order, because division is, to the nearest number as well
(`divideToEven_mono`).  A significand that is rounded up as far as it goes reaches the least code
of the next exponent and no further (`wholeSignificand_bounds`), so numbers with different exponents
keep their order as well.  Up to two to the power of 53 nothing is rounded, and different longs stay
different (`ofInt_inj`).
-/
import FrameLang.Double.Basic
import Mathlib

namespace FrameLang.Double

theorem exponentStep_eq : exponentStep = 2 ^ 52 := by decide

/-! ### Places on the line of encodings -/

section Parts

variable {m : Nat} (negative : Bool) (h : m < signBit)

include h

theorem toNat_bits_ofParts :
    (ofParts negative m).bits.toNat = if negative then m + signBit else m := by
  unfold signBit at *
  cases negative with
  | false => simp [ofParts]; omega
  | true => simp [ofParts, signBit]; omega

theorem order_ofParts : (ofParts negative m).order = if negative then -(m : Int) - 1 else m := by
  have hbits := toNat_bits_ofParts negative h
  unfold order isNegative magnitude
  rw [hbits]
  unfold signBit at *
  cases negative with
  | false => simp; omega
  | true => simp; omega

end Parts

/-- No two encodings stand in one place. -/
theorem order_injective : Function.Injective order := by
  intro c d h
  have hc := c.bits.toNat_lt
  have hd := d.bits.toNat_lt
  have hbits : c.bits.toNat = d.bits.toNat := by
    unfold order isNegative magnitude signBit at h
    simp only [decide_eq_true_eq] at h
    split at h <;> split at h <;> omega
  obtain ⟨c⟩ := c
  obtain ⟨d⟩ := d
  exact congrArg Double.mk (UInt64.toNat_inj.mp hbits)

/-! ### Rounding whole numbers -/

/-- Rounding to whole numbers keeps their order. -/
theorem divideToEven_mono {m n den : Nat} (h : m ≤ n) :
    divideToEven m den ≤ divideToEven n den := by
  have hquotient : m / den ≤ n / den := Nat.div_le_div_right h
  have hm := Nat.div_add_mod m den
  have hn := Nat.div_add_mod n den
  unfold divideToEven
  simp only [Bool.or_eq_true, Bool.and_eq_true, decide_eq_true_eq, beq_iff_eq]
  by_cases hsame : m / den = n / den
  · -- of numbers with one quotient the remainders decide
    rw [hsame] at hm ⊢
    split <;> split <;> omega
  · split <;> split <;> omega

/-- The significand of a whole number, scaled to 53 bits. -/
def wholeSignificand (n : Nat) : Nat :=
  divideToEven (n * 2 ^ (52 - n.log2)) (2 ^ (n.log2 - 52))

/-- The magnitude of the double nearest to a whole number. -/
def wholeCode (n : Nat) : Nat :=
  if n = 0 then 0
  else min ((n.log2 + 1022) * exponentStep + wholeSignificand n) infinityCode

theorem floorLog_whole {n : Nat} (hn : n ≠ 0) : floorLog n 1 = n.log2 := by
  have hone : Nat.log2 1 = 0 := by decide
  have hle : 2 ^ n.log2 ≤ n := Nat.log2_self_le hn
  unfold floorLog
  simpa [hone] using hle

theorem ofInt_eq (n : Int) : ofInt n = ofParts (n < 0) (wholeCode n.natAbs) := by
  unfold ofInt ofRatio wholeCode
  split
  · rfl
  · rename_i hn
    have hexponent : max ((n.natAbs.log2 : Int) - 52) (-1074) = n.natAbs.log2 - 52 := by omega
    have hup : (-((n.natAbs.log2 : Int) - 52)).toNat = 52 - n.natAbs.log2 := by omega
    have hdown : ((n.natAbs.log2 : Int) - 52).toNat = n.natAbs.log2 - 52 := by omega
    have hplace : ((n.natAbs.log2 : Int) - 52 + 1074).toNat = n.natAbs.log2 + 1022 := by omega
    simp only [floorLog_whole hn, hexponent, hup, hdown, hplace, Nat.one_mul]
    rfl

theorem wholeCode_lt_signBit (n : Nat) : wholeCode n < signBit := by
  have hinfinity : infinityCode < signBit := by decide
  unfold wholeCode
  split
  · decide
  · exact lt_of_le_of_lt (Nat.min_le_right _ _) hinfinity

/-- The scale at which a number is rounded gives it 53 bits. -/
theorem scaled_bounds {n : Nat} (hn : n ≠ 0) :
    2 ^ 52 * 2 ^ (n.log2 - 52) ≤ n * 2 ^ (52 - n.log2) ∧
      n * 2 ^ (52 - n.log2) < 2 ^ 53 * 2 ^ (n.log2 - 52) := by
  have hlow : 2 ^ n.log2 ≤ n := Nat.log2_self_le hn
  have hhigh : n < 2 ^ (n.log2 + 1) := Nat.lt_log2_self
  have hscale : 52 + (n.log2 - 52) = n.log2 + (52 - n.log2) := by omega
  have hscale' : 53 + (n.log2 - 52) = n.log2 + 1 + (52 - n.log2) := by omega
  constructor
  · rw [← pow_add, hscale, pow_add]
    exact Nat.mul_le_mul_right _ hlow
  · rw [← pow_add, hscale', pow_add]
    exact Nat.mul_lt_mul_of_pos_right hhigh (Nat.two_pow_pos _)

/-- A significand has 53 bits, or is rounded up to the next power of two. -/
theorem wholeSignificand_bounds {n : Nat} (hn : n ≠ 0) :
    2 ^ 52 ≤ wholeSignificand n ∧ wholeSignificand n ≤ 2 ^ 53 := by
  obtain ⟨hlow, hhigh⟩ := scaled_bounds hn
  have hden : 0 < 2 ^ (n.log2 - 52) := Nat.two_pow_pos _
  constructor
  · calc 2 ^ 52 = divideToEven (2 ^ 52 * 2 ^ (n.log2 - 52)) (2 ^ (n.log2 - 52)) :=
        (divideToEven_mul hden).symm
      _ ≤ wholeSignificand n := divideToEven_mono hlow
  · calc wholeSignificand n
        ≤ divideToEven (2 ^ 53 * 2 ^ (n.log2 - 52)) (2 ^ (n.log2 - 52)) :=
          divideToEven_mono hhigh.le
      _ = 2 ^ 53 := divideToEven_mul hden

theorem log2_mono {m n : Nat} (hm : m ≠ 0) (h : m ≤ n) : m.log2 ≤ n.log2 :=
  (Nat.le_log2 (by omega)).mpr ((Nat.log2_self_le hm).trans h)

theorem wholeCode_mono {m n : Nat} (h : m ≤ n) : wholeCode m ≤ wholeCode n := by
  by_cases hm : m = 0
  · simp [wholeCode, hm]
  · have hn : n ≠ 0 := by omega
    obtain ⟨-, hmax⟩ := wholeSignificand_bounds hm
    obtain ⟨hmin, -⟩ := wholeSignificand_bounds hn
    have hunbounded : (m.log2 + 1022) * 2 ^ 52 + wholeSignificand m ≤
        (n.log2 + 1022) * 2 ^ 52 + wholeSignificand n := by
      rcases (log2_mono hm h).eq_or_lt with hsame | hlt
      · have hsignificand : wholeSignificand m ≤ wholeSignificand n := by
          unfold wholeSignificand
          rw [hsame]
          exact divideToEven_mono (Nat.mul_le_mul_right _ h)
        rw [hsame]
        exact Nat.add_le_add_left hsignificand _
      · have hstep : (m.log2 + 1 + 1022) * 2 ^ 52 ≤ (n.log2 + 1022) * 2 ^ 52 :=
          Nat.mul_le_mul_right _ (by omega)
        calc (m.log2 + 1022) * 2 ^ 52 + wholeSignificand m
            ≤ (m.log2 + 1022) * 2 ^ 52 + 2 ^ 53 := Nat.add_le_add_left hmax _
          _ = (m.log2 + 1 + 1022) * 2 ^ 52 + 2 ^ 52 := by ring
          _ ≤ (n.log2 + 1022) * 2 ^ 52 + wholeSignificand n := Nat.add_le_add hstep hmin
    unfold wholeCode
    rw [if_neg hm, if_neg hn, exponentStep_eq]
    exact min_le_min_right _ hunbounded

theorem order_ofInt (n : Int) :
    (ofInt n).order = if n < 0 then -(wholeCode n.natAbs : Int) - 1 else wholeCode n.natAbs := by
  rw [ofInt_eq, order_ofParts _ (wholeCode_lt_signBit _)]
  simp only [decide_eq_true_eq]

/-- **Widening keeps the order of longs.** -/
theorem order_ofInt_mono {m n : Int} (h : m ≤ n) : (ofInt m).order ≤ (ofInt n).order := by
  rw [order_ofInt, order_ofInt]
  by_cases hm : m < 0
  · by_cases hn : n < 0
    · have hcode : wholeCode n.natAbs ≤ wholeCode m.natAbs := wholeCode_mono (by omega)
      rw [if_pos hm, if_pos hn]
      omega
    · rw [if_pos hm, if_neg hn]
      omega
  · have hn : ¬n < 0 := by omega
    have hcode : wholeCode m.natAbs ≤ wholeCode n.natAbs := wholeCode_mono (by omega)
    rw [if_neg hm, if_neg hn]
    omega

/-! ### Longs that are doubles -/

/-- A number of at most 53 bits is its own significand. -/
theorem wholeSignificand_eq {n : Nat} (h : n.log2 ≤ 52) :
    wholeSignificand n = n * 2 ^ (52 - n.log2) := by
  have hden : n.log2 - 52 = 0 := by omega
  have hrounded := divideToEven_mul (q := n * 2 ^ (52 - n.log2)) one_pos
  unfold wholeSignificand
  rw [hden, pow_zero]
  rwa [mul_one] at hrounded

theorem wholeCode_lt {m n : Nat} (h : m < n) (hn : n ≤ 2 ^ 53) : wholeCode m < wholeCode n := by
  have hn' : n ≠ 0 := by omega
  have hlog : n.log2 ≤ 53 := by
    have hlog' := log2_mono hn' hn
    rwa [Nat.log2_two_pow] at hlog'
  obtain ⟨hmin, hmax⟩ := wholeSignificand_bounds hn'
  have hcode : wholeCode n = (n.log2 + 1022) * 2 ^ 52 + wholeSignificand n := by
    have hinfinity : infinityCode = 2047 * 2 ^ 52 := by decide
    unfold wholeCode
    rw [if_neg hn', exponentStep_eq, Nat.min_eq_left]
    omega
  rw [hcode]
  by_cases hm : m = 0
  · simp only [wholeCode, if_pos hm]
    omega
  · have hm' : m.log2 ≤ 52 :=
      Nat.lt_succ_iff.mp ((Nat.log2_lt hm).mpr (by omega))
    have hexact := wholeSignificand_eq hm'
    have hcode' : wholeCode m ≤ (m.log2 + 1022) * 2 ^ 52 + wholeSignificand m := by
      unfold wholeCode
      rw [if_neg hm, exponentStep_eq]
      exact Nat.min_le_left _ _
    rcases (log2_mono hm h.le).eq_or_lt with hsame | hlt
    · have hexact' := wholeSignificand_eq (n := n) (hsame ▸ hm')
      have hscaled : m * 2 ^ (52 - m.log2) < n * 2 ^ (52 - m.log2) :=
        Nat.mul_lt_mul_of_pos_right h (Nat.two_pow_pos _)
      rw [← hsame] at hexact' ⊢
      omega
    · have hfull := (scaled_bounds hm).2
      rw [← hexact, Nat.sub_eq_zero_of_le hm', pow_zero] at hfull
      have hstep : (m.log2 + 1 + 1022) * 2 ^ 52 ≤ (n.log2 + 1022) * 2 ^ 52 :=
        Nat.mul_le_mul_right _ (by omega)
      omega

/-- Widening keeps apart longs that have at most 53 bits. -/
theorem ofInt_inj {m n : Int} (hm : m.natAbs ≤ 2 ^ 53) (hn : n.natAbs ≤ 2 ^ 53) :
    ofInt m = ofInt n ↔ m = n := by
  refine ⟨fun h => ?_, fun h => congrArg ofInt h⟩
  have horder := congrArg order h
  rw [order_ofInt, order_ofInt] at horder
  have hcode : wholeCode m.natAbs = wholeCode n.natAbs ∧ (m < 0 ↔ n < 0) := by
    split at horder <;> split at horder <;> omega
  have habs : m.natAbs = n.natAbs := by
    rcases lt_trichotomy m.natAbs n.natAbs with hlt | heq | hgt
    · exact absurd hcode.1 (wholeCode_lt hlt hn).ne
    · exact heq
    · exact absurd hcode.1 (wholeCode_lt hgt hm).ne'
  omega

end FrameLang.Double
