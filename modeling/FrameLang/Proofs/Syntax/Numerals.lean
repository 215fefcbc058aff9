/-
Numerals for numbers.

Every number without a sign has a numeral that reads back as it.  For a long it is the text that
shows it.  A double is a whole number of units of two to the power of -1074, so it has 1074 decimals
at most, and a numeral with all of them has its exact value; reading rounds, but only what lies
between two doubles.  The infinite double is what a numeral beyond all others reads as.
-/
import FrameLang.Proofs.Keys.Widening
import FrameLang.Proofs.Syntax.Rendering
import Mathlib

namespace FrameLang

/-- A constant without a sign: texts and truth values, and the numbers that have numerals. -/
def Literal.IsUnsigned : Literal → Prop
  | .boolean _ | .string _ => True
  | .long n => 0 ≤ n.toInt
  | .double d => d.isNegative = false ∧ d.isNaN = false

/-! ### Digits -/

namespace Text

theorem digitsValue_eq (cs : List Char) : digitsValue cs = Nat.ofDigitChars 10 cs 0 := by
  rw [Nat.ofDigitChars_eq_foldl]
  rfl

theorem isDigit_of_mem_padded (width n : Nat) : ∀ c ∈ padded width n, c.isDigit = true := by
  intro c hc
  rcases List.mem_append.mp hc with hzero | hdigit
  · rw [List.eq_of_mem_replicate hzero]
    rfl
  · exact Nat.isDigit_of_mem_toDigits (by decide) (by decide) hdigit

theorem digitsValue_padded (width n : Nat) : digitsValue (padded width n) = n := by
  rw [digitsValue_eq, padded, Nat.ofDigitChars_append, Nat.ofDigitChars_replicate_zero]
  exact Nat.ofDigitChars_toDigits (by decide) (by decide)

theorem le_length_padded (width n : Nat) : width ≤ (padded width n).length := by
  rw [padded, List.length_append, List.length_replicate]
  omega

/-- What starts with a digit has no sign. -/
theorem splitSign_eq {c : Char} {cs : List Char} (hc : c.isDigit = true) :
    splitSign (c :: cs) = (false, c :: cs) := by
  unfold splitSign
  split
  · rename_i heq
    obtain ⟨rfl, -⟩ := List.cons.inj heq
    cases hc
  · rename_i heq
    obtain ⟨rfl, -⟩ := List.cons.inj heq
    cases hc
  · rfl

end Text

namespace Double

/-! ### Rounding what need not be rounded -/

theorem zpow_eq_div (e : Int) : (2 : ℚ) ^ e = 2 ^ e.toNat / 2 ^ (-e).toNat := by
  obtain ⟨n, rfl | rfl⟩ := e.eq_nat_or_neg
  · simp
  · simp

/-- Two powers of two around the same number are the same. -/
theorem eq_of_zpow_le {x : ℚ} {e f : Int} (he : 2 ^ e ≤ x) (he' : x < 2 ^ (e + 1)) (hf : 2 ^ f ≤ x)
    (hf' : x < 2 ^ (f + 1)) : e = f := by
  have hef : e < f + 1 := (zpow_lt_zpow_iff_right₀ one_lt_two).mp (he.trans_lt hf')
  have hfe : f < e + 1 := (zpow_lt_zpow_iff_right₀ one_lt_two).mp (hf.trans_lt he')
  omega

theorem zpow_log2_le {n : Nat} (h : 0 < n) : (2 : ℚ) ^ (n.log2 : Int) ≤ n := by
  rw [zpow_natCast]
  exact_mod_cast Nat.log2_self_le h.ne'

theorem lt_zpow_log2 (n : Nat) : (n : ℚ) < 2 ^ ((n.log2 : Int) + 1) := by
  have h : n < 2 ^ (n.log2 + 1) := Nat.lt_log2_self
  rw [← Nat.cast_succ, zpow_natCast]
  exact_mod_cast h

/-- The power of two below a fraction is the one that the comparison of the sizes of its two numbers
gives, or the one before. -/
theorem floorLog_eq {num den : Nat} (hnum : 0 < num) (hden : 0 < den) {e : Int}
    (hlow : (2 : ℚ) ^ e ≤ num / den) (hhigh : (num / den : ℚ) < 2 ^ (e + 1)) :
    floorLog num den = e := by
  have hden' : (0 : ℚ) < den := by exact_mod_cast hden
  unfold floorLog
  set guess : Int := (num.log2 : Int) - den.log2 with hguess
  have hcompare : den * Nat.pow 2 guess.toNat ≤ num * Nat.pow 2 (-guess).toNat ↔
      (2 : ℚ) ^ guess ≤ num / den := by
    rw [zpow_eq_div, div_le_div_iff₀ (by positivity) hden', mul_comm]
    exact_mod_cast Iff.rfl
  have habove : (num / den : ℚ) < 2 ^ (guess + 1) := calc
    (num / den : ℚ) ≤ num / 2 ^ (den.log2 : Int) :=
      div_le_div_of_nonneg_left (by positivity) (by positivity) (zpow_log2_le hden)
    _ < 2 ^ ((num.log2 : Int) + 1) / 2 ^ (den.log2 : Int) :=
      div_lt_div_of_pos_right (lt_zpow_log2 num) (by positivity)
    _ = 2 ^ (guess + 1) := by
      rw [← zpow_sub₀ two_ne_zero, hguess, add_sub_right_comm]
  have hbelow : (2 : ℚ) ^ (guess - 1) ≤ num / den := calc
    (2 : ℚ) ^ (guess - 1) = 2 ^ (num.log2 : Int) / 2 ^ ((den.log2 : Int) + 1) := by
      rw [← zpow_sub₀ two_ne_zero, hguess, sub_sub]
    _ ≤ num / 2 ^ ((den.log2 : Int) + 1) :=
      div_le_div_of_nonneg_right (zpow_log2_le hnum) (by positivity)
    _ ≤ num / den :=
      div_le_div_of_nonneg_left (by positivity) hden' (lt_zpow_log2 den).le
  dsimp only
  split
  · rename_i h
    exact eq_of_zpow_le (hcompare.mp h) habove hlow hhigh
  · rename_i h
    refine eq_of_zpow_le hbelow ?_ hlow hhigh
    rw [sub_add_cancel]
    exact lt_of_not_ge fun hle => h (hcompare.mpr hle)

/-! ### The value of a finite double -/

theorem ofParts_magnitude {d : Double} (h : d.isNegative = false) :
    ofParts false d.magnitude = d := by
  have hlt : d.bits.toNat < signBit := by simpa [isNegative] using h
  unfold ofParts magnitude
  rw [if_neg Bool.false_ne_true, Nat.mod_eq_of_lt hlt, UInt64.ofNat_toNat]

/-- The value of the double, were it finite. -/
def value (d : Double) : ℚ := d.significand * 2 ^ d.exponent

theorem neg_le_exponent (d : Double) : -1074 ≤ d.exponent := by
  unfold exponent
  omega

/-- The code is the significand and the exponent, put together as rounding puts them. -/
theorem magnitude_eq (d : Double) :
    d.magnitude = (d.exponent + 1074).toNat * exponentStep + d.significand := by
  have hsplit := Nat.div_add_mod d.magnitude exponentStep
  unfold exponent significand
  cases hhigh : d.magnitude / exponentStep with
  | zero =>
      rw [hhigh] at hsplit
      simpa using hsplit.symm
  | succ high =>
      rw [hhigh, Nat.mul_succ, Nat.mul_comm] at hsplit
      have hplace : (((max (high + 1) 1 : Nat) : Int) - 1075 + 1074).toNat = high := by omega
      rw [hplace, if_neg (Nat.succ_ne_zero high)]
      omega

/-- Doubles near zero have small significands and the least exponent; all others have significands
of full length. -/
theorem significand_bounds (d : Double) : d.significand < 2 ^ 53 ∧
    (d.exponent = -1074 ∨ 2 ^ 52 ≤ d.significand) := by
  have hmod := Nat.mod_lt d.magnitude (show 0 < exponentStep by decide)
  unfold significand exponent
  rw [exponentStep_eq] at *
  cases hhigh : d.magnitude / 2 ^ 52 with
  | zero => simp; omega
  | succ high => simp; omega

/-- Rounding keeps the exponent of a double that has the value of the fraction. -/
theorem max_floorLog_eq {d : Double} {num den : Nat} (hnum : 0 < num) (hden : 0 < den)
    (hvalue : (num / den : ℚ) = d.value) : max (floorLog num den - 52) (-1074) = d.exponent := by
  have htwo : (1 : ℚ) < 2 := one_lt_two
  have hpos : (0 : ℚ) < num / den := by positivity
  have hlow := Int.zpow_log_le_self (b := 2) one_lt_two hpos
  have hhigh := Int.lt_zpow_succ_log_self (b := 2) one_lt_two (num / den : ℚ)
  rw [floorLog_eq hnum hden hlow hhigh]
  obtain ⟨hlt, hfull⟩ := d.significand_bounds
  have hexponent := d.neg_le_exponent
  have habove : Int.log 2 (num / den : ℚ) < d.exponent + 53 := by
    refine (zpow_lt_zpow_iff_right₀ htwo).mp (hlow.trans_lt ?_)
    rw [hvalue, value, zpow_add₀ two_ne_zero, mul_comm]
    exact mul_lt_mul_of_pos_left (by exact_mod_cast hlt) (by positivity)
  rcases hfull with hleast | hfull
  · omega
  · have hbelow : d.exponent + 52 < Int.log 2 (num / den : ℚ) + 1 := by
      refine (zpow_lt_zpow_iff_right₀ htwo).mp (lt_of_le_of_lt ?_ hhigh)
      rw [hvalue, value, zpow_add₀ two_ne_zero, mul_comm]
      exact mul_le_mul_of_nonneg_right (by exact_mod_cast hfull) (by positivity)
    omega

theorem magnitude_of_significand {d : Double} (h : d.significand = 0) : d.magnitude = 0 := by
  have hexponent := d.magnitude_eq
  obtain ⟨-, hleast | hfull⟩ := d.significand_bounds
  · rw [hexponent, hleast, h]
    rfl
  · omega

/-- **A fraction that has the value of a double is rounded to it.** -/
theorem ofRatio_eq {d : Double} (hfinite : d.isFinite = true) (hsign : d.isNegative = false)
    {num den : Nat} (hden : 0 < den) (hvalue : (num / den : ℚ) = d.value) :
    ofRatio false num den = d := by
  have hden' : (den : ℚ) ≠ 0 := by positivity
  have hmagnitude := ofParts_magnitude hsign
  unfold ofRatio
  split
  · rename_i hnum
    have hsignificand : d.significand = 0 := by
      rw [hnum, Nat.cast_zero, zero_div, value] at hvalue
      have hzero := (mul_eq_zero.mp hvalue.symm).resolve_right (zpow_ne_zero _ two_ne_zero)
      exact_mod_cast hzero
    rw [← hmagnitude, magnitude_of_significand hsignificand]
  · rename_i hnum
    -- Scaled by the exponent the fraction is the significand, so nothing is left to be rounded.
    have hexact : num * Nat.pow 2 (-d.exponent).toNat =
        d.significand * (den * Nat.pow 2 d.exponent.toNat) := by
      rw [value, zpow_eq_div, div_eq_iff hden', mul_div_assoc', div_mul_eq_mul_div,
        eq_div_iff (by positivity), mul_assoc, mul_comm (2 ^ _ : ℚ) (den : ℚ)] at hvalue
      exact_mod_cast hvalue
    have hscale : 0 < den * Nat.pow 2 d.exponent.toNat := Nat.mul_pos hden (Nat.two_pow_pos _)
    dsimp only
    rw [max_floorLog_eq (Nat.pos_of_ne_zero hnum) hden hvalue, hexact, divideToEven_mul hscale,
      ← magnitude_eq, Nat.min_eq_left, hmagnitude]
    exact (of_decide_eq_true hfinite).le

/-! ### Reading a numeral -/

theorem unsigned?_eq {whole decimals : List Char} (hne : whole ≠ [])
    (hwhole : ∀ c ∈ whole, c.isDigit = true) (hdecimals : ∀ c ∈ decimals, c.isDigit = true) :
    unsigned? false (whole ++ '.' :: decimals) =
      some (ofDecimal false (Text.digitsValue (whole ++ decimals)) (-decimals.length)) := by
  have hpoint : ('.'.isDigit) = false := rfl
  have htake : decimals.takeWhile Char.isDigit = decimals :=
    List.takeWhile_eq_self_iff.mpr hdecimals
  have hdrop : decimals.dropWhile Char.isDigit = [] := List.dropWhile_eq_nil_iff.mpr hdecimals
  unfold unsigned?
  rw [List.takeWhile_append_of_pos hwhole, List.dropWhile_append_of_pos hwhole]
  simp [hpoint, hne, htake, hdrop, exponent?]

theorem toLower_of_isDigit {c : Char} (h : c.isDigit = true) : c.toLower = c := by
  have hcode : 48 ≤ c.toNat ∧ c.toNat ≤ 57 := by
    simpa [Char.isDigit, UInt32.le_iff_toNat_le] using h
  unfold Char.toLower
  rw [dif_neg]
  rintro ⟨hlow, -⟩
  have hupper : 65 ≤ c.toNat := by simpa [Char.le_def, UInt32.le_iff_toNat_le] using hlow
  omega

/-- What starts with a digit has no sign and is no name of infinity or NaN. -/
theorem ofText_eq {c : Char} {cs : List Char} (hc : c.isDigit = true) :
    ofText (String.ofList (c :: cs)) =
      (unsigned? false (c :: cs)).elim (.error .malformed) .ok := by
  have hword (d : Char) (ds : List Char) (hd : d.isDigit = false) :
      (String.ofList ((c :: cs).map Char.toLower) == String.ofList (d :: ds)) = false := by
    refine beq_eq_false_iff_ne.mpr fun heq => ?_
    have hlist := congrArg String.toList heq
    rw [String.toList_ofList, String.toList_ofList, List.map_cons, toLower_of_isDigit hc] at hlist
    rw [(List.cons.inj hlist).1, hd] at hc
    cases hc
  have hnan : (String.ofList ((c :: cs).map Char.toLower) == "nan") = false :=
    hword 'n' ['a', 'n'] rfl
  have hinf : (String.ofList ((c :: cs).map Char.toLower) == "inf") = false :=
    hword 'i' ['n', 'f'] rfl
  have hinfinity : (String.ofList ((c :: cs).map Char.toLower) == "infinity") = false :=
    hword 'i' ['n', 'f', 'i', 'n', 'i', 't', 'y'] rfl
  have hempty : (String.ofList (c :: cs)).isEmpty = false := by simp
  unfold ofText
  rw [hempty, if_neg Bool.false_ne_true, String.toList_ofList, Text.splitSign_eq hc]
  dsimp only
  rw [hnan, hinf, hinfinity]
  rfl

theorem positional_eq (n : Nat) {places : Nat} (hplaces : 0 < places) :
    positional n 0 places = String.ofList
      ((Text.padded (places + 1) n).take ((Text.padded (places + 1) n).length - places) ++
        '.' :: (Text.padded (places + 1) n).drop
          ((Text.padded (places + 1) n).length - places)) := by
  unfold positional
  rw [if_neg (by omega)]
  rfl

/-- A numeral with decimals reads as the double for its digits. -/
theorem ofText_positional (n : Nat) {places : Nat} (hplaces : 0 < places) :
    ofText (positional n 0 places) = .ok (ofDecimal false n (-places)) := by
  have hlength := Text.le_length_padded (places + 1) n
  have hdigits := Text.isDigit_of_mem_padded (places + 1) n
  have hvalue := Text.digitsValue_padded (places + 1) n
  rw [positional_eq n hplaces]
  generalize Text.padded (places + 1) n = cs at *
  have hdrop : (cs.drop (cs.length - places)).length = places := by
    rw [List.length_drop]
    omega
  have hne : cs.take (cs.length - places) ≠ [] := by
    refine List.ne_nil_of_length_pos ?_
    rw [List.length_take]
    omega
  have hdecimals : ∀ c ∈ cs.drop (cs.length - places), c.isDigit = true := fun c hc =>
    hdigits c (List.mem_of_mem_drop hc)
  have hread := unsigned?_eq hne (fun c hc => hdigits c (List.mem_of_mem_take hc)) hdecimals
  rw [List.take_append_drop, hvalue, hdrop] at hread
  obtain ⟨c, tail, hcons⟩ := List.exists_cons_of_ne_nil hne
  have hc : c.isDigit = true :=
    hdigits c (List.mem_of_mem_take (hcons ▸ List.mem_cons_self))
  rw [hcons, List.cons_append] at hread ⊢
  rw [ofText_eq hc, hread]
  rfl

/-- The digits of a double when all its decimals are written. -/
def allDigits (d : Double) : Nat := d.significand * 2 ^ (d.exponent + 1074).toNat * 5 ^ 1074

theorem exponent_le {d : Double} (hfinite : d.isFinite = true) : d.exponent ≤ 971 := by
  have hlt : d.magnitude < infinityCode := of_decide_eq_true hfinite
  have hhigh : d.magnitude / exponentStep < 2047 :=
    Nat.div_lt_of_lt_mul (hlt.trans_eq (by decide))
  unfold exponent
  omega

theorem value_eq_allDigits (d : Double) : (d.allDigits / (10 ^ 1074 : Nat) : ℚ) = d.value := by
  have hexponent := d.neg_le_exponent
  have hsplit : (2 : ℚ) ^ d.exponent = 2 ^ (d.exponent + 1074).toNat / 2 ^ 1074 := by
    rw [← zpow_natCast, ← zpow_natCast, ← zpow_sub₀ two_ne_zero, Int.toNat_of_nonneg (by omega)]
    congr 1
    omega
  have hten : (10 : ℚ) ^ 1074 = 2 ^ 1074 * 5 ^ 1074 := by rw [← mul_pow]; norm_num
  unfold allDigits value
  rw [hsplit]
  rw [Nat.cast_mul, Nat.cast_mul, Nat.cast_pow, Nat.cast_pow, Nat.cast_pow, Nat.cast_ofNat,
    Nat.cast_ofNat, Nat.cast_ofNat, hten, mul_div_mul_right _ _ (by positivity), mul_div_assoc]

theorem length_digits_le {n k : Nat} (hk : 0 < k) (h : n < 10 ^ k) :
    (Text.digits n).length ≤ k :=
  (Nat.length_toDigits_le_iff (by decide) hk).mpr h

theorem lt_length_digits {n k : Nat} (hk : 0 < k) (h : 10 ^ k ≤ n) :
    k < (Text.digits n).length :=
  Nat.lt_of_not_le fun hle =>
    Nat.not_lt.mpr h ((Nat.length_toDigits_le_iff (by decide) hk).mp hle)

theorem ten_pow_le_five_pow (m : Nat) {k : Nat} (hk : 16 * m + 18 ≤ k) :
    10 ^ (11 * m + 7) ≤ 5 ^ k := by
  refine le_trans ?_ (Nat.pow_le_pow_right (by decide) hk)
  rw [pow_add, pow_add, pow_mul, pow_mul]
  exact Nat.mul_le_mul (Nat.pow_le_pow_left (by decide) m) (by decide)

theorem two_pow_mul_five_pow_lt {i k m : Nat} (hm : m ≠ 0) (hi : i ≤ k + 16 * m) :
    2 ^ i * 5 ^ k < 10 ^ (k + 5 * m) := by
  refine lt_of_le_of_lt (Nat.mul_le_mul_right _ (Nat.pow_le_pow_right (by decide) hi)) ?_
  rw [pow_add, pow_add, pow_mul, pow_mul, Nat.mul_right_comm, ← mul_pow]
  exact Nat.mul_lt_mul_of_pos_left (Nat.pow_lt_pow_left (by decide) hm) (Nat.pow_pos (by decide))

/-- The number of digits decides about zero and infinity, and in between about neither. -/
theorem ofDecimal_eq_ofRatio {n places : Nat} (hn : n ≠ 0)
    (hlong : places < (Text.digits n).length + 341)
    (hshort : (Text.digits n).length ≤ places + 320) :
    ofDecimal false n (-places) = ofRatio false n (10 ^ places) := by
  unfold ofDecimal
  dsimp only
  rw [if_neg hn, if_neg (by omega), if_neg (by omega), Int.toNat_neg_natCast, neg_neg,
    Int.toNat_natCast]
  exact congrArg (ofRatio false · _) (Nat.mul_one n)

theorem ofDecimal_allDigits {d : Double} (hfinite : d.isFinite = true)
    (hsign : d.isNegative = false) : ofDecimal false d.allDigits (-1074) = d := by
  have hvalue := d.value_eq_allDigits
  have hratio := ofRatio_eq hfinite hsign (pow_pos (by decide) 1074) hvalue
  obtain ⟨hsignificand, -⟩ := d.significand_bounds
  by_cases hzero : d.allDigits = 0
  · rw [ofDecimal, if_pos hzero, ← hratio, hzero]
    rfl
  · have hpos : 0 < d.significand * 2 ^ (d.exponent + 1074).toNat :=
      Nat.pos_of_ne_zero fun h => hzero (by rw [allDigits, h, Nat.zero_mul])
    have hlong : 11 * 66 + 7 < (Text.digits d.allDigits).length :=
      lt_length_digits (by decide)
        ((ten_pow_le_five_pow 66 (by decide)).trans (Nat.le_mul_of_pos_left _ hpos))
    have hbits : d.significand * 2 ^ (d.exponent + 1074).toNat ≤
        2 ^ (53 + (d.exponent + 1074).toNat) := by
      rw [pow_add]
      exact Nat.mul_le_mul_right _ hsignificand.le
    have hexponent : 53 + (d.exponent + 1074).toNat ≤ 1074 + 16 * 64 := by
      have := exponent_le hfinite
      omega
    have hshort : (Text.digits d.allDigits).length ≤ 1074 + 5 * 64 :=
      length_digits_le (by decide)
        ((Nat.mul_le_mul_right _ hbits).trans_lt (two_pow_mul_five_pow_lt (by decide) hexponent))
    have hread : ofDecimal false d.allDigits (-(1074 : Nat)) = _ :=
      ofDecimal_eq_ofRatio hzero (by omega) (by omega)
    exact hread.trans hratio

/-- A numeral beyond all doubles. -/
theorem ofDecimal_beyond : ofDecimal false (10 ^ 400) (-1) = infinity false := by
  have hlong : ¬(Text.digits (10 ^ 400)).length ≤ 321 := by
    rw [Text.digits, Nat.length_toDigits_le_iff (by decide) (by decide)]
    decide +kernel
  unfold ofDecimal
  rw [if_neg (by decide +kernel)]
  dsimp only
  rw [if_pos (by omega)]

/-- Every double without a sign is the double for some digits with decimals. -/
theorem exists_ofDecimal {d : Double} (hsign : d.isNegative = false) (hnumber : d.isNaN = false) :
    ∃ n places : Nat, 0 < places ∧ ofDecimal false n (-places) = d := by
  cases hfinite : d.isFinite with
  | true => exact ⟨d.allDigits, 1074, by decide, ofDecimal_allDigits hfinite hsign⟩
  | false =>
      refine ⟨10 ^ 400, 1, Nat.one_pos, ofDecimal_beyond.trans ?_⟩
      have hcode : d.magnitude = infinityCode := Nat.le_antisymm
        (by simpa [isNaN] using hnumber) (by simpa [isFinite] using hfinite)
      rw [← ofParts_magnitude hsign, hcode]
      rfl

end Double

namespace Long

theorem le_ofDigitChars (n : Nat) (cs : List Char) : n ≤ Nat.ofDigitChars 10 cs n := by
  rw [Nat.ofDigitChars_eq_ofDigitChars_zero]
  exact (Nat.le_mul_of_pos_left n (Nat.pow_pos (by decide))).trans (Nat.le_add_right _ _)

theorem readDigits_eq {limit : Nat} {overflow : ReadError} {n : Nat} {cs : List Char}
    (hcs : ∀ c ∈ cs, c.isDigit = true) (hlimit : Nat.ofDigitChars 10 cs n ≤ limit) :
    readDigits limit overflow n cs = .ok (Nat.ofDigitChars 10 cs n) := by
  induction cs generalizing n with
  | nil => rfl
  | cons c cs ih =>
      rw [Nat.ofDigitChars_cons] at hlimit ⊢
      have hle : 10 * n + (c.toNat - 48) ≤ limit := (le_ofDigitChars _ cs).trans hlimit
      rw [readDigits, hcs c List.mem_cons_self]
      simp only [Bool.not_true, Bool.false_eq_true, if_false]
      rw [if_neg (Nat.not_lt.mpr hle)]
      exact ih (fun d hd => hcs d (List.mem_cons_of_mem c hd)) hlimit

theorem toText_eq {n : Long} (h : 0 ≤ n.toInt) :
    n.toText = String.ofList (Text.digits n.toInt.natAbs) := by
  unfold toText
  rw [if_neg (by omega)]

theorem isDigit_of_mem_digits {n : Nat} : ∀ c ∈ Text.digits n, c.isDigit = true := fun _ =>
  Nat.isDigit_of_mem_toDigits (by decide) (by decide)

/-- A long without a sign is read from the text that shows it. -/
theorem ofText_toText {n : Long} (h : 0 ≤ n.toInt) : ofText n.toText = .ok n := by
  rw [toText_eq h]
  have hdigits := isDigit_of_mem_digits (n := n.toInt.natAbs)
  have hvalue : Nat.ofDigitChars 10 (Text.digits n.toInt.natAbs) 0 = n.toInt.natAbs :=
    Nat.ofDigitChars_toDigits (by decide) (by decide)
  have hne : Text.digits n.toInt.natAbs ≠ [] := Nat.toDigits_ne_nil
  have hlimit : n.toInt.natAbs ≤ 9223372036854775807 := by
    have := Int64.toInt_lt n
    omega
  generalize Text.digits n.toInt.natAbs = cs at *
  have hread : readDigits 9223372036854775807 .tooLarge 0 cs = .ok n.toInt.natAbs := by
    rw [readDigits_eq hdigits (hvalue.trans_le hlimit), hvalue]
  have hsign : Text.splitSign cs = (false, cs) := by
    obtain ⟨c, cs, rfl⟩ := List.exists_cons_of_ne_nil hne
    exact Text.splitSign_eq (hdigits c List.mem_cons_self)
  have hempty : (String.ofList cs).isEmpty = false := by simpa using hne
  have hcs : cs.isEmpty = false := by simpa using hne
  unfold ofText
  rw [hempty, if_neg Bool.false_ne_true, String.toList_ofList, hsign]
  dsimp only
  rw [hcs, hread]
  change Except.ok (Int64.ofInt (n.toInt.natAbs : Int)) = .ok n
  rw [Int.natAbs_of_nonneg h, Int64.ofInt_toInt]

end Long

namespace Grammar

/-- The text of a long without a sign is a numeral for it. -/
theorem isConstant_long {n : Long} (h : 0 ≤ n.toInt) :
    IsConstant (.long n) (.number n.toText) := by
  have hpoint : '.' ∉ n.toText.toList := by
    rw [Long.toText_eq h, String.toList_ofList]
    exact fun hmem => absurd (Long.isDigit_of_mem_digits _ hmem) (by decide)
  refine .number ?_
  unfold numberLiteral?
  rw [if_neg (by simpa using hpoint), Long.ofText_toText h]
  rfl

/-- Every number without a sign has a numeral. -/
theorem exists_isConstant {v : Literal} (h : v.IsUnsigned) : ∃ t, IsConstant v t := by
  cases v with
  | boolean b =>
      cases b with
      | true => exact ⟨_, .true_⟩
      | false => exact ⟨_, .false_⟩
  | string text => exact ⟨_, .string⟩
  | long n => exact ⟨_, isConstant_long h⟩
  | double d =>
      obtain ⟨n, places, hplaces, hread⟩ := Double.exists_ofDecimal h.1 h.2
      have hpoint : '.' ∈ (Double.positional n 0 places).toList := by
        rw [Double.positional_eq n hplaces, String.toList_ofList]
        simp
      refine ⟨.number (Double.positional n 0 places), .number ?_⟩
      unfold numberLiteral?
      rw [if_pos (by simpa using hpoint), Double.ofText_positional n hplaces, hread]
      rfl

end Grammar

end FrameLang
