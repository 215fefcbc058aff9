/-
Lowering what is low.

Lower case is found character by character, a capital sigma apart, which looks at its neighbours.
So a text stays as it is if none of its characters is a capital sigma and each is its own lower case
(`lowerAfter_eq_self`), and all characters that lowering writes are like that.  For the codes that
are shifted, this is a fact of the table: no shifted code is the code of a capital.
-/
import FrameLang.Proofs.Syntax.Spelling

namespace FrameLang.Text

/-! ### The table -/

/-- A code belongs to a run. -/
def CaseRun.Has (run : CaseRun) (code : Nat) : Prop :=
  run.1 ≤ code ∧ code ≤ run.2.1 ∧ (code - run.1) % run.2.2.1 = 0

/-- No code of the second run is a shifted code of the first: its codes are all greater, all
smaller, or of the other parity. -/
def isApart (r s : CaseRun) : Bool :=
  let up := r.2.2.2.toNat
  let down := (-r.2.2.2).toNat
  Nat.blt (r.2.1 + up) (s.1 + down) || Nat.blt (s.2.1 + down) (r.1 + up) ||
    Nat.beq s.2.2.1 2 && (Nat.beq r.2.2.1 2 || Nat.beq r.1 r.2.1) &&
      Nat.beq ((r.1 + up + s.1 + down) % 2) 1

/-- The capitals beyond ASCII: the dotted I, which becomes two characters, and those that are
shifted. -/
def capitals : List CaseRun := (0x130, 0x130, 1, 0) :: lowerRuns.toList

theorem isApart_capitals : (lowerRuns.toList.all fun r => capitals.all (isApart r)) = true := by
  decide +kernel

theorem shift_lowerRuns : ∀ run ∈ lowerRuns.toList, (0 : Int) ≤ run.1 + run.2.2.2 := by
  decide +kernel

theorem not_has_of_isApart {r s : CaseRun} {n : Nat} (hshift : (0 : Int) ≤ r.1 + r.2.2.2)
    (h : isApart r s = true) (hn : r.Has n) : ¬s.Has (n + r.2.2.2).toNat := by
  obtain ⟨first, last, step, shift⟩ := r
  obtain ⟨first', last', step', shift'⟩ := s
  simp only [isApart, Bool.or_eq_true, Bool.and_eq_true, Nat.blt_eq, Nat.beq_eq] at h
  simp only [CaseRun.Has] at *
  rintro ⟨hlow, hhigh, hstep⟩
  rcases h with (hbelow | habove) | ⟨⟨rfl, rfl | rfl⟩, hparity⟩
  · omega
  · omega
  · omega
  · omega

/-- A code is shifted as a run says that it belongs to, or it belongs to none and stays. -/
theorem shiftCase_cases (n : Nat) :
    shiftCase lowerRuns n = n ∧ (∀ run ∈ lowerRuns.toList, ¬CaseRun.Has run n) ∨
      ∃ run ∈ lowerRuns.toList, CaseRun.Has run n ∧
        shiftCase lowerRuns n = (n + run.2.2.2).toNat := by
  unfold shiftCase
  split
  · rename_i first last step shift hrun
    have hcode := Array.find?_some hrun
    simp only [Bool.and_eq_true, decide_eq_true_eq, beq_iff_eq, and_assoc] at hcode
    exact Or.inr ⟨_, (Array.mem_of_find?_eq_some hrun).val, hcode, rfl⟩
  · rename_i hnone
    refine Or.inl ⟨rfl, fun run hrun hcode => ?_⟩
    refine Array.find?_eq_none.mp hnone run ⟨hrun⟩ ?_
    simp only [Bool.and_eq_true, decide_eq_true_eq, beq_iff_eq, and_assoc]
    exact hcode

/-- **A shifted code is no capital's.** -/
theorem not_has_shiftCase {n : Nat} (hn : n ≠ 0x130) :
    ∀ run ∈ capitals, ¬CaseRun.Has run (shiftCase lowerRuns n) := by
  intro run hrun
  rcases shiftCase_cases n with ⟨hself, hnone⟩ | ⟨r, hr, hcode, hshifted⟩
  · rw [hself]
    rcases List.mem_cons.mp hrun with rfl | hrun
    · rintro ⟨hlow, hhigh, -⟩
      exact hn (Nat.le_antisymm hhigh hlow)
    · exact hnone run hrun
  · rw [hshifted]
    have hapart := List.all_eq_true.mp (List.all_eq_true.mp isApart_capitals r hr) run hrun
    exact not_has_of_isApart (shift_lowerRuns r hr) hapart hcode

/-! ### Characters -/

/-- A character that lowering leaves alone, wherever it stands. -/
def IsLow (c : Char) : Prop := c ≠ 'Σ' ∧ lowerChar c = [c]

instance (c : Char) : Decidable (IsLow c) := inferInstanceAs (Decidable (_ ∧ _))

theorem isLow_toLower {c : Char} (hc : c.toNat < 128) : IsLow c.toLower := by
  have hlow : ∀ n : Fin 128, IsLow (Char.ofNat n).toLower := by decide +kernel
  have hcode := hlow ⟨c.toNat, hc⟩
  rwa [Char.ofNat_toNat] at hcode

/-- What is beyond ASCII and no capital is low. -/
theorem isLow_of_not_has {c : Char} (hc : 128 ≤ c.toNat)
    (h : ∀ run ∈ capitals, ¬CaseRun.Has run c.toNat) : IsLow c := by
  constructor
  · rintro rfl
    exact h (0x3a3, 0x3ab, 1, 32) (by decide +kernel) ⟨by decide, by decide, rfl⟩
  · rw [lowerChar, if_neg (by omega), mapCase]
    split
    · rename_i codes hcodes
      obtain ⟨hdotted, -⟩ := lookup_lowerSequences hcodes
      have hmem : (0x130, 0x130, 1, 0) ∈ capitals := List.mem_cons_self
      exact absurd ⟨hdotted.ge, hdotted.le, Nat.mod_one _⟩ (h _ hmem)
    · rcases shiftCase_cases c.toNat with ⟨hself, -⟩ | ⟨run, hrun, hcode, -⟩
      · rw [hself, Char.ofNat_toNat]
      · exact absurd hcode (h run (List.mem_cons_of_mem _ hrun))

theorem isLow_of_mem_lowerChar {c d : Char} (hd : d ∈ lowerChar c) : IsLow d := by
  by_cases hascii : c.toNat < 128
  · rw [lowerChar, if_pos hascii, List.mem_singleton] at hd
    rw [hd]
    exact isLow_toLower hascii
  · rw [lowerChar, if_neg hascii, mapCase] at hd
    split at hd
    · rename_i codes hcodes
      obtain ⟨-, rfl⟩ := lookup_lowerSequences hcodes
      rcases List.mem_pair.mp hd with rfl | rfl
      · decide +kernel
      · decide +kernel
    · rename_i hnone
      rw [List.mem_singleton] at hd
      have hdotted : c.toNat ≠ 0x130 := by
        intro heq
        rw [heq] at hnone
        cases hnone
      by_cases hzero : d.toNat = 0
      · have hd : d = Char.ofNat 0 := by rw [← hzero, Char.ofNat_toNat]
        rw [hd]
        decide +kernel
      · rw [hd] at hzero
        have hcode := toNat_ofNat hzero
        rw [← hd] at hcode
        rcases le_shiftCase_lowerRuns (Nat.le_of_not_lt hascii) with hle | hk
        · refine isLow_of_not_has (by omega) ?_
          rw [hcode]
          exact not_has_shiftCase hdotted
        · rw [hd, hk]
          decide +kernel

/-! ### Texts -/

theorem lowerAfter_eq_self {cs : List Char} (h : ∀ c ∈ cs, IsLow c) (before : List Char) :
    lowerAfter before cs = cs := by
  induction cs generalizing before with
  | nil => rfl
  | cons c rest ih =>
      obtain ⟨hsigma, hself⟩ := h c List.mem_cons_self
      rw [lowerAfter, ih fun d hd => h d (List.mem_cons_of_mem c hd)]
      simp [hsigma, hself]

theorem isLow_of_mem_lowerAfter {cs before : List Char} {d : Char}
    (hd : d ∈ lowerAfter before cs) : IsLow d := by
  induction cs generalizing before with
  | nil => cases hd
  | cons c rest ih =>
      rw [lowerAfter, List.mem_append] at hd
      rcases hd with hd | hd
      · split at hd
        · rw [List.mem_singleton] at hd
          rw [hd]
          split
          · decide +kernel
          · decide +kernel
        · exact isLow_of_mem_lowerChar hd
      · exact ih hd

/-- **What is in lower case stays as it is.** -/
theorem toLower_toLower (text : String) : toLower (toLower text) = toLower text := by
  unfold toLower
  rw [String.toList_ofList, lowerAfter_eq_self fun _ => isLow_of_mem_lowerAfter]

end FrameLang.Text
