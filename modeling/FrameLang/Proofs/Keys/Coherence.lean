/-
The comparison operators among each other.

Of values other than `void` a comparison succeeds for one of two reasons (`comparison_eq_ok_iff`).
Either the values have an order as sort keys, and the operator says what it makes of that order; or
both are vectors, and the operator asks whether they are the same.  The order of keys turns around
with the values, and being the same does not care which comes first.  So exchanging the operands and
turning the operator around changes nothing, with `void` on one side as well, and where `<` has an
answer, the other operators have the answers that belong to the same order.
-/
import FrameLang.Proofs.Keys.Preorder
import FrameLang.Proofs.Typing.Misuse

namespace FrameLang

namespace Comparison

/-- The operator that says of exchanged operands what this one says. -/
def mirrored : Comparison → Comparison
  | eq => eq
  | ne => ne
  | lt => gt
  | le => ge
  | gt => lt
  | ge => le

/-- The operator that is true of one order only. -/
def exactly : Ordering → Comparison
  | .lt => lt
  | .eq => eq
  | .gt => gt

theorem mirrored_mirrored (op : Comparison) : op.mirrored.mirrored = op := by
  cases op <;> rfl

theorem holds_mirrored (op : Comparison) (o : Ordering) :
    op.mirrored.holds o.swap = op.holds o := by
  cases op <;> cases o <;> rfl

theorem holds_exactly {o p : Ordering} : (exactly o).holds p = true ↔ o = p := by
  cases o <;> cases p <;> decide

end Comparison

theorem Double.equals_comm (c d : Double) : c.equals d = d.equals c := by
  unfold equals
  rw [BEq.comm (a := c), Bool.and_comm (!c.isNaN), Bool.and_comm (c.magnitude == 0)]

namespace Value

variable {a b : Value} {op : Comparison}

/-! ### Being the same -/

mutual

theorem same_comm (a b : Value) : a.same b = b.same a := by
  cases a with
  | double c =>
      cases b with
      | double d => exact Double.equals_comm c d
      | _ => rfl
  | vector us =>
      cases b with
      | vector vs => exact allSame_comm us vs
      | _ => rfl
  | _ =>
      cases b with
      | _ => first | rfl | exact BEq.comm
termination_by structural a

theorem allSame_comm (us vs : List Value) : allSame us vs = allSame vs us := by
  cases us with
  | nil =>
      cases vs with
      | _ => rfl
  | cons u us =>
      cases vs with
      | nil => rfl
      | cons v vs => rw [allSame, allSame, same_comm u v, allSame_comm us vs]
termination_by structural us

end

/-! ### When a comparison succeeds -/

/-- Vectors are compared with vectors and for equality only, and then by being the same. -/
def ComparesVectors (op : Comparison) (a b : Value) (r : Bool) : Prop :=
  ∃ us vs, a = vector us ∧ b = vector vs ∧
    (op = .eq ∧ r = allSame us vs ∨ op = .ne ∧ r = !allSame us vs)

theorem ComparesVectors.symm {r : Bool} (h : ComparesVectors op a b r) :
    ComparesVectors op.mirrored b a r := by
  obtain ⟨us, vs, rfl, rfl, hop⟩ := h
  refine ⟨vs, us, rfl, rfl, ?_⟩
  rw [allSame_comm vs us]
  rcases hop with ⟨rfl, hr⟩ | ⟨rfl, hr⟩
  · exact Or.inl ⟨rfl, hr⟩
  · exact Or.inr ⟨rfl, hr⟩

/-- Of values other than `void` the order as keys is the order that operators ask for. -/
theorem compareKeys_eq_ok_iff {o : Ordering} (ha : a ≠ void) (hb : b ≠ void) :
    a.compareKeys b = .ok o ↔ a.order? b = some o := by
  have hkeys : a.compareKeys b = a.orderFor .compare b := by
    unfold compareKeys
    split
    · exact absurd rfl ha
    · exact absurd rfl ha
    · exact absurd rfl hb
    · rfl
  rw [hkeys, orderFor]
  cases a.order? b with
  | none => simp
  | some p => simp

/-- **A comparison goes by the order of keys, or else by vectors being the same.** -/
theorem comparison_eq_ok_iff {r : Bool} (ha : a ≠ void) (hb : b ≠ void) :
    a.comparison op b = .ok r ↔
      (∃ o, a.compareKeys b = .ok o ∧ op.holds o = r) ∨ ComparesVectors op a b r := by
  simp only [compareKeys_eq_ok_iff ha hb]
  by_cases hvector : a.type = .vector
  · obtain ⟨us, rfl⟩ := eq_vector_of_type hvector
    have hnone : ¬∃ o, (vector us).order? b = some o ∧ op.holds o = r := by
      simp [order?, number?]
    rw [or_iff_right hnone]
    by_cases hop : b.type = .vector → op ≠ .eq ∧ op ≠ .ne
    · rw [comparison_vector us hb hop]
      simp only [reduceCtorEq, false_iff]
      rintro ⟨_, vs, -, rfl, ⟨rfl, -⟩ | ⟨rfl, -⟩⟩
      · exact (hop rfl).1 rfl
      · exact (hop rfl).2 rfl
    · rw [Classical.not_imp, ← not_or, not_not] at hop
      obtain ⟨htype, hop⟩ := hop
      obtain ⟨vs, rfl⟩ := eq_vector_of_type htype
      rcases hop with rfl | rfl
      · simp [comparison, ComparesVectors, eq_comm]
      · simp [comparison, ComparesVectors, eq_comm]
  · have hnone : ¬ComparesVectors op a b r := by
      rintro ⟨us, vs, rfl, -⟩
      exact hvector rfl
    rw [or_iff_left hnone]
    by_cases hframe : a.type = .dataFrame
    · obtain ⟨i, f, rfl⟩ := eq_frame_of_type hframe
      rw [comparison_frame op i f hb]
      simp [order?, number?]
    · rw [comparison_scalar op ha hb hvector hframe, orderFor]
      cases a.order? b with
      | none => simp [Except.map]
      | some o => simp [Except.map]

/-! ### Coherence -/

theorem comparison_void (op : Comparison) (a : Value) :
    void.comparison op a = a.comparison op.mirrored void := by
  cases a <;> cases op <;> rfl

/-- Exchanging the operands and turning the operator around keeps a success. -/
theorem comparison_swap {r : Bool} (h : a.comparison op b = .ok r) :
    b.comparison op.mirrored a = .ok r := by
  by_cases ha : a = void
  · rw [ha] at h ⊢
    rwa [← comparison_void]
  by_cases hb : b = void
  · rw [hb] at h ⊢
    rwa [comparison_void, Comparison.mirrored_mirrored]
  rw [comparison_eq_ok_iff ha hb] at h
  rw [comparison_eq_ok_iff hb ha]
  rcases h with ⟨o, ho, rfl⟩ | hvectors
  · exact Or.inl ⟨o.swap, compareKeys_swap ho, Comparison.holds_mirrored op o⟩
  · exact Or.inr hvectors.symm

theorem comparison_ne {r : Bool} (heq : a.comparison .eq b = .ok r) :
    a.comparison .ne b = .ok !r := by
  by_cases hvoid : a = void ∨ b = void
  · rcases hvoid with rfl | rfl
    · cases b <;> cases heq <;> rfl
    · cases a <;> cases heq <;> rfl
  rw [not_or] at hvoid
  rw [comparison_eq_ok_iff hvoid.1 hvoid.2] at heq ⊢
  rcases heq with ⟨o, ho, rfl⟩ | ⟨us, vs, ha, hb, ⟨-, hr⟩ | ⟨hop, -⟩⟩
  · exact Or.inl ⟨o, ho, rfl⟩
  · exact Or.inr ⟨us, vs, ha, hb, Or.inr ⟨rfl, congrArg _ hr⟩⟩
  · cases hop

/-- Values that `<` has an answer for have an order. -/
theorem exists_order_of_lt {r : Bool} (ha : a ≠ void) (hb : b ≠ void)
    (h : a.comparison .lt b = .ok r) : ∃ o, a.compareKeys b = .ok o := by
  rcases (comparison_eq_ok_iff ha hb).mp h with ⟨o, ho, -⟩ | ⟨us, vs, -, -, ⟨hop, -⟩ | ⟨hop, -⟩⟩
  · exact ⟨o, ho⟩
  · cases hop
  · cases hop

/-- Values that have an order are compared by it. -/
theorem comparison_of_order {o : Ordering} (ha : a ≠ void) (hb : b ≠ void)
    (ho : a.compareKeys b = .ok o) (op : Comparison) : a.comparison op b = .ok (op.holds o) :=
  (comparison_eq_ok_iff ha hb).mpr (Or.inl ⟨o, ho, rfl⟩)

/-- **The comparison operators are coherent.**  A comparison of any two values succeeds, and with
which answer, exactly as the turned one of the exchanged values does.  If `==` and `!=` both have
an answer, one is the negation of the other.  Of values other than `void` for which `<` has an
answer, exactly one of `<`, `==` and `>` is true, and it is the one that is true of their order as
sort keys; `<=` is the negation of `>`, and `>=` that of `<`. -/
theorem comparisons_coherent (a b : Value) :
    (∀ op r, a.comparison op b = .ok r ↔ b.comparison op.mirrored a = .ok r) ∧
    (∀ r s, a.comparison .eq b = .ok r → a.comparison .ne b = .ok s → s = !r) ∧
    (a ≠ void → b ≠ void → ∀ r, a.comparison .lt b = .ok r →
      (∃! o, a.comparison (.exactly o) b = .ok true) ∧
      (∀ o, a.compareKeys b = .ok o ↔ a.comparison (.exactly o) b = .ok true) ∧
      ∃ s, a.comparison .gt b = .ok s ∧
        a.comparison .le b = .ok !s ∧ a.comparison .ge b = .ok !r) := by
  refine ⟨fun op r => ⟨comparison_swap, fun h => ?_⟩, fun r s heq hne => ?_, ?_⟩
  · rw [← op.mirrored_mirrored]
    exact comparison_swap h
  · rw [comparison_ne heq] at hne
    exact (Except.ok.inj hne).symm
  · intro ha hb r hlt
    obtain ⟨o, ho⟩ := exists_order_of_lt ha hb hlt
    have hop := comparison_of_order ha hb ho
    have hexactly (p : Ordering) : a.comparison (.exactly p) b = .ok true ↔ p = o := by
      rw [hop, Except.ok.injEq, Comparison.holds_exactly]
    refine ⟨⟨o, (hexactly o).mpr rfl, fun p hp => (hexactly p).mp hp⟩, fun p => ?_, ?_⟩
    · rw [ho, hexactly, Except.ok.injEq, eq_comm]
    · obtain rfl := Except.ok.inj ((hop .lt).symm.trans hlt)
      exact ⟨_, hop .gt, hop .le, hop .ge⟩

/-- A long that rounding brings to the double beside it: neither comes before the other, whichever
stands on the left. -/
theorem comparisons_coherent_rounded :
    let a := long 9007199254740993
    let b := double (Double.ofInt 9007199254740992)
    a ≠ void ∧ b ≠ void ∧ a.comparison .lt b = .ok false ∧
      (∃! o, a.comparison (.exactly o) b = .ok true) ∧
      b.comparison .ge a = .ok true ∧ a.comparison .ne b = .ok false := by
  have hrounded : Double.ofInt 9007199254740993 = Double.ofInt 9007199254740992 := by
    decide +kernel
  have hkeys : (long 9007199254740993).compareKeys (double (Double.ofInt 9007199254740992)) =
      .ok .eq := by
    rw [← hrounded]
    exact (compareKeys_widened (by simp [type]) .eq).mp (compareKeys_self ⟨_, rfl⟩)
  have ha : long 9007199254740993 ≠ void := by simp
  have hb : double (Double.ofInt 9007199254740992) ≠ void := by simp
  have hop := comparison_of_order ha hb hkeys
  obtain ⟨hswap, hnegation, horder⟩ := comparisons_coherent (long 9007199254740993)
    (double (Double.ofInt 9007199254740992))
  have hne := hnegation true _ (hop .eq) (hop .ne)
  exact ⟨ha, hb, hop .lt, (horder ha hb false (hop .lt)).1, (hswap .le true).mp (hop .le),
    (hop .ne).trans (congrArg Except.ok hne)⟩

end Value

end FrameLang
