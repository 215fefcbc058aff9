/-
The type of an operator foresees its misuse.

An operator refuses values in one way only: its error blames the operands.  The result type of the
operator is `void` exactly when it does, with one exception.  Two vectors can be equal or not but
have no order, and two frames are never compared; of their types, which are equal, the check sees
only that.

The exception apart, what the check promises an operator keeps: a value it gives has the type that
was foreseen.
-/
import FrameLang.Proofs.Typing.Operators

namespace FrameLang

/-- Whether an error blames the operands of an operator. -/
def Error.isMisuse : Error → Bool
  | unsupported .. | incompatible .. => true
  | _ => false

/-- The outcome of an operator is what its result type says: a misuse if that is `void` and only
then, and otherwise of that type if there is a value. -/
def Foreseen (x : Except Error Value) (t : ValueType) : Prop :=
  (t = .void ↔ ∃ e, x = .error e ∧ e.isMisuse = true) ∧ ∀ r, x = .ok r → r.type = t

/-- Comparisons whose operands are of one type that has no such comparison. -/
def Comparison.IsOverlooked (op : Comparison) (t u : ValueType) : Prop :=
  t = u ∧ (t = .dataFrame ∨ t = .vector ∧ op ≠ .eq ∧ op ≠ .ne)

instance (op : Comparison) (t u : ValueType) : Decidable (op.IsOverlooked t u) :=
  inferInstanceAs (Decidable (_ ∧ _))

namespace Foreseen

theorem of_misuse {e : Error} {t : ValueType} (he : e.isMisuse = true) (ht : t = .void) :
    Foreseen (.error e) t :=
  ⟨⟨fun _ => ⟨e, rfl, he⟩, fun _ => ht⟩, nofun⟩

theorem of_failure {e : Error} {t : ValueType} (he : e.isMisuse = false) (ht : t ≠ .void) :
    Foreseen (.error e) t := by
  refine ⟨⟨fun h => absurd h ht, ?_⟩, nofun⟩
  intro h
  obtain ⟨f, heq, hf⟩ := h
  cases heq
  rw [he] at hf
  cases hf

theorem of_value {r : Value} {t : ValueType} (hr : r.type = t) (ht : t ≠ .void) :
    Foreseen (.ok r) t := by
  refine ⟨⟨fun h => absurd h ht, ?_⟩, ?_⟩
  · intro h
    obtain ⟨e, heq, _⟩ := h
    cases heq
  · intro s hs
    cases hs
    exact hr

end Foreseen

theorem ValueType.join_numbers_ne_void {t u : ValueType} (ht : t.isNumber = true)
    (hu : u.isNumber = true) : t.join u ≠ .void := by
  unfold join
  by_cases heq : t = u
  · rw [if_pos heq]
    intro hvoid
    rw [hvoid] at ht
    cases ht
  · rw [if_neg heq, ht, hu]
    nofun

namespace Value

variable {v w : Value}

theorem number?_isSome (v : Value) : v.number?.isSome = v.type.isNumber := by
  cases v with
  | _ => rfl

theorem type_ne_void (hv : v ≠ .void) : v.type ≠ .void := by
  cases v with
  | void => exact absurd rfl hv
  | _ => nofun

theorem eq_string_of_type (hv : v.type = .string) : ∃ s, v = .string s := by
  cases v with
  | string s => exact ⟨s, rfl⟩
  | _ => cases hv

theorem eq_vector_of_type (hv : v.type = .vector) : ∃ elements, v = .vector elements := by
  cases v with
  | vector elements => exact ⟨elements, rfl⟩
  | _ => cases hv

theorem eq_frame_of_type (hv : v.type = .dataFrame) : ∃ i f, v = .frame i f := by
  cases v with
  | frame i f => exact ⟨i, f, rfl⟩
  | _ => cases hv

/-! ### Arithmetic -/

/-- A division by zero is no misuse: of numbers all are operands. -/
theorem foreseen_longs (op : Arithmetic) (m n : Long) :
    Foreseen ((long m).arithmetic op (long n)) .long := by
  by_cases hzero : op = .divide ∧ n = 0
  · obtain ⟨rfl, rfl⟩ := hzero
    exact .of_failure rfl nofun
  · have hvalue : ∃ k, arithmeticOnLongs op m n = .ok k := by
      cases op with
      | divide =>
          have hn : n ≠ 0 := fun hn => hzero ⟨rfl, hn⟩
          exact ⟨m / n, if_neg hn⟩
      | _ => exact ⟨_, rfl⟩
    obtain ⟨k, hk⟩ := hvalue
    have harithmetic : (long m).arithmetic op (long n) = .ok (long k) := by
      rw [arithmetic, hk]
      rfl
    rw [harithmetic]
    exact .of_value rfl nofun

theorem foreseen_numbers (op : Arithmetic) (hv : v.type.isNumber = true)
    (hw : w.type.isNumber = true) : Foreseen (v.arithmetic op w) (v.type.join w.type) := by
  have hjoin := ValueType.join_numbers_ne_void hv hw
  rcases isNumber_type hv with ⟨m, rfl⟩ | ⟨x, rfl⟩
  · rcases isNumber_type hw with ⟨n, rfl⟩ | ⟨y, rfl⟩
    · exact foreseen_longs op m n
    · exact .of_value rfl hjoin
  · rcases isNumber_type hw with ⟨n, rfl⟩ | ⟨y, rfl⟩
    · exact .of_value rfl hjoin
    · exact .of_value rfl hjoin

/-- What is neither two numbers nor a sum of two strings is a misuse. -/
theorem arithmetic_misuse {op : Arithmetic} (hv : v ≠ .void) (hw : w ≠ .void)
    (hnumbers : ¬(v.type.isNumber = true ∧ w.type.isNumber = true))
    (hstrings : ¬(op = .add ∧ v.type = .string ∧ w.type = .string)) :
    ∃ e, v.arithmetic op w = .error e ∧ e.isMisuse = true := by
  rw [← number?_isSome, ← number?_isSome] at hnumbers
  unfold arithmetic
  split
  · exact absurd rfl hv
  · exact absurd rfl hw
  · exact absurd ⟨rfl, rfl⟩ hnumbers
  · split
    · exact absurd (by simp [*]) hnumbers
    · exact absurd ⟨rfl, rfl, rfl⟩ hstrings
    · split
      · exact ⟨_, rfl, rfl⟩
      · exact ⟨_, rfl, rfl⟩

theorem foreseen_arithmetic (op : Arithmetic) (hv : v ≠ .void) (hw : w ≠ .void) :
    Foreseen (v.arithmetic op w) (BinaryOp.resultType (.arithmetic op) v.type w.type) := by
  by_cases hnumbers : v.type.isNumber = true ∧ w.type.isNumber = true
  · have hresult : BinaryOp.resultType (.arithmetic op) v.type w.type = v.type.join w.type := by
      simp [BinaryOp.resultType, hnumbers]
    rw [hresult]
    exact foreseen_numbers op hnumbers.1 hnumbers.2
  · by_cases hstrings : op = .add ∧ v.type = .string ∧ w.type = .string
    · obtain ⟨rfl, hv, hw⟩ := hstrings
      obtain ⟨s, rfl⟩ := eq_string_of_type hv
      obtain ⟨t, rfl⟩ := eq_string_of_type hw
      have hstring : ValueType.string ≠ .void := by decide
      exact .of_value rfl hstring
    · obtain ⟨e, he, hmisuse⟩ := arithmetic_misuse hv hw hnumbers hstrings
      rw [he]
      exact .of_misuse hmisuse (by simp [BinaryOp.resultType, hnumbers, hstrings])

/-! ### Comparison -/

/-- Values have an order when their types are equal or both of numbers, and only then. -/
theorem order?_isSome (hvoid : v.type ≠ .void) (hvector : v.type ≠ .vector)
    (hframe : v.type ≠ .dataFrame) :
    (v.order? w).isSome = true ↔
      (v.type.isNumber && w.type.isNumber) = true ∨ v.type = w.type := by
  cases v with
  | void => exact absurd rfl hvoid
  | vector => exact absurd rfl hvector
  | frame => exact absurd rfl hframe
  | _ =>
      cases w with
      | _ => simp [order?, number?, type, ValueType.isNumber]

theorem comparison_scalar (op : Comparison) (hv : v ≠ .void) (hw : w ≠ .void)
    (hvector : v.type ≠ .vector) (hframe : v.type ≠ .dataFrame) :
    v.comparison op w = (v.orderFor (.binary (.comparison op)) w).map op.holds := by
  unfold comparison
  split
  · exact absurd rfl hv
  · exact absurd rfl hv
  · exact absurd rfl hw
  · exact absurd rfl hvector
  · exact absurd rfl hframe
  · rfl

/-- A comparison whose left operand is a scalar is a misuse exactly when there is no order. -/
theorem foreseen_comparison_scalar (op : Comparison) (hv : v ≠ .void) (hw : w ≠ .void)
    (hvector : v.type ≠ .vector) (hframe : v.type ≠ .dataFrame) :
    Foreseen ((v.comparison op w).map boolean)
      (BinaryOp.resultType (.comparison op) v.type w.type) := by
  have horder := order?_isSome (w := w) (type_ne_void hv) hvector hframe
  rw [comparison_scalar op hv hw hvector hframe, orderFor]
  cases h : v.order? w with
  | none =>
      rw [h] at horder
      exact .of_misuse rfl (if_neg fun htypes => nomatch horder.mpr htypes)
  | some o =>
      rw [h] at horder
      have hresult : BinaryOp.resultType (.comparison op) v.type w.type = .boolean :=
        if_pos (horder.mp rfl)
      rw [hresult]
      exact .of_value rfl nofun

theorem comparison_frame (op : Comparison) (i : Nat) (f : Frame) (hw : w ≠ .void) :
    (frame i f).comparison op w =
      .error (.unsupported (.binary (.comparison op)) (frame i f).literalText) := by
  cases w with
  | void => exact absurd rfl hw
  | _ => rfl

/-- A vector is compared with vectors only, and only for equality. -/
theorem comparison_vector {op : Comparison} (a : List Value) (hw : w ≠ .void)
    (hop : w.type = .vector → op ≠ .eq ∧ op ≠ .ne) :
    (vector a).comparison op w =
      .error (.unsupported (.binary (.comparison op)) (vector a).literalText) := by
  cases w with
  | void => exact absurd rfl hw
  | vector b =>
      obtain ⟨heq, hne⟩ := hop rfl
      cases op with
      | eq => exact absurd rfl heq
      | ne => exact absurd rfl hne
      | _ => rfl
  | _ =>
      cases op with
      | _ => rfl

/-- Vectors and frames are no operands of a comparison with anything of another type. -/
theorem foreseen_comparison_compound (op : Comparison) (hw : w ≠ .void)
    (hv : v.type = .vector ∨ v.type = .dataFrame) (htypes : v.type ≠ w.type) :
    Foreseen ((v.comparison op w).map boolean)
      (BinaryOp.resultType (.comparison op) v.type w.type) := by
  have hresult : BinaryOp.resultType (.comparison op) v.type w.type = .void := by
    rcases hv with hv | hv
    · simp [BinaryOp.resultType, ValueType.isNumber, hv, hv ▸ htypes]
    · simp [BinaryOp.resultType, ValueType.isNumber, hv, hv ▸ htypes]
  cases v with
  | vector a =>
      rw [comparison_vector a hw fun h => absurd h.symm htypes]
      exact .of_misuse rfl hresult
  | frame i f =>
      rw [comparison_frame op i f hw]
      exact .of_misuse rfl hresult
  | _ => rcases hv with hv | hv <;> cases hv

theorem foreseen_equality {op : Comparison} (a b : List Value) (hop : op = .eq ∨ op = .ne) :
    Foreseen (((vector a).comparison op (vector b)).map boolean)
      (BinaryOp.resultType (.comparison op) .vector .vector) := by
  rcases hop with rfl | rfl
  · exact .of_value rfl nofun
  · exact .of_value rfl nofun

theorem foreseen_comparison (op : Comparison) (hv : v ≠ .void) (hw : w ≠ .void)
    (hop : ¬op.IsOverlooked v.type w.type) :
    Foreseen ((v.comparison op w).map boolean)
      (BinaryOp.resultType (.comparison op) v.type w.type) := by
  by_cases hcompound : v.type = .vector ∨ v.type = .dataFrame
  · by_cases htypes : v.type = w.type
    · rcases hcompound with hvector | hframe
      · have hequality : op = .eq ∨ op = .ne := by
          by_contra hother
          rw [not_or] at hother
          exact hop ⟨htypes, Or.inr ⟨hvector, hother⟩⟩
        obtain ⟨a, rfl⟩ := eq_vector_of_type hvector
        obtain ⟨b, rfl⟩ := eq_vector_of_type htypes.symm
        exact foreseen_equality a b hequality
      · exact absurd ⟨htypes, Or.inl hframe⟩ hop
    · exact foreseen_comparison_compound op hw hcompound htypes
  · rw [not_or] at hcompound
    exact foreseen_comparison_scalar op hv hw hcompound.1 hcompound.2

/-- What the check overlooks is always refused. -/
theorem comparison_overlooked {op : Comparison} (hop : op.IsOverlooked v.type w.type) :
    BinaryOp.resultType (.comparison op) v.type w.type = .boolean ∧
      v.comparison op w = .error (.unsupported (.binary (.comparison op)) v.literalText) := by
  obtain ⟨htypes, hkind⟩ := hop
  refine ⟨if_pos (Or.inr htypes), ?_⟩
  rcases hkind with hframe | ⟨hvector, hother⟩
  · obtain ⟨i, f, rfl⟩ := eq_frame_of_type hframe
    obtain ⟨j, g, rfl⟩ := eq_frame_of_type htypes.symm
    exact comparison_frame op i f nofun
  · obtain ⟨a, rfl⟩ := eq_vector_of_type hvector
    obtain ⟨b, rfl⟩ := eq_vector_of_type htypes.symm
    exact comparison_vector a nofun fun _ => hother

/-- **The type of an operator foresees its misuse.**  Of values other than `void` an arithmetic
operator or a comparison blames its operands exactly when their types give `void`, and a value it
gives has the type that they give.  The exceptions are the comparisons of two frames and the
ordering ones of two vectors: these are taken for booleans and always refused. -/
theorem operators_foreseen {v w : Value} (hv : v ≠ .void) (hw : w ≠ .void) :
    (∀ op, Foreseen (v.arithmetic op w) (BinaryOp.resultType (.arithmetic op) v.type w.type)) ∧
      ∀ op, if Comparison.IsOverlooked op v.type w.type then
        BinaryOp.resultType (.comparison op) v.type w.type = .boolean ∧
          v.comparison op w = .error (.unsupported (.binary (.comparison op)) v.literalText)
      else
        Foreseen ((v.comparison op w).map boolean)
          (BinaryOp.resultType (.comparison op) v.type w.type) := by
  refine ⟨fun op => foreseen_arithmetic op hv hw, fun op => ?_⟩
  split
  · rename_i hop
    exact comparison_overlooked hop
  · rename_i hop
    exact foreseen_comparison op hv hw hop

/-- A string and a long are neither added nor compared. -/
theorem operators_foreseen_mixed :
    string "a" ≠ void ∧ long 1 ≠ void ∧
      (∃ e, (string "a").arithmetic .add (long 1) = .error e ∧ e.isMisuse = true) ∧
      ∃ e, ((string "a").comparison .lt (long 1)).map boolean = .error e ∧ e.isMisuse = true := by
  have hforeseen := operators_foreseen (v := string "a") (w := long 1) nofun nofun
  refine ⟨nofun, nofun, (hforeseen.1 .add).1.mp rfl, ?_⟩
  have hcomparison := hforeseen.2 .lt
  rw [if_neg (by decide)] at hcomparison
  exact hcomparison.1.mp rfl

/-- Two vectors are no operands of an ordering comparison, which their types do not say. -/
theorem ordered_vectors_not_foreseen :
    vector [long 1, long 2] ≠ void ∧ vector [long 3, long 4] ≠ void ∧
      ¬Foreseen (((vector [long 1, long 2]).comparison .lt (vector [long 3, long 4])).map boolean)
        (BinaryOp.resultType (.comparison .lt) (vector [long 1, long 2]).type
          (vector [long 3, long 4]).type) := by
  refine ⟨nofun, nofun, fun h => ?_⟩
  have hvoid := h.1.mpr ⟨_, rfl, rfl⟩
  cases hvoid

end Value

end FrameLang
