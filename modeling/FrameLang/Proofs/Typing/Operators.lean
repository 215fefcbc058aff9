/-
Operators keep to their types.

An operator on values that are in keeping with what is known of its operands ends with a value in
keeping with what is then known of it, or with an error.  The error is never about a name that
stands for nothing or about the number of arguments: `isUnresolved` marks those, and an operator
has no names.  `Yields` is the two together.

Most operators are easier than that.  A comparison gives a boolean whatever the types are; only
for arithmetic and for the connectives does it matter that the check has passed.
-/
import FrameLang.Proofs.Typing.Rules
import FrameLang.Eval

namespace FrameLang

/-- Whether an error is about a name that stands for nothing or about the number of arguments. -/
def Error.isUnresolved : Error → Bool
  | undefinedVariable _ | unknownFunction _ | argumentCount .. => true
  | _ => false

/-- A result that satisfies `P`, or an error that is not about names. -/
def Yields {α : Type} (x : Except Error α) (P : α → Prop) : Prop :=
  match x with
  | .ok a => P a
  | .error e => e.isUnresolved = false

namespace Yields

variable {α β : Type} {x : Except Error α} {P Q : α → Prop}

@[simp] theorem ok {a : α} : Yields (.ok a) P ↔ P a := Iff.rfl

@[simp] theorem error {e : Error} : Yields (.error e : Except Error α) P ↔ e.isUnresolved = false :=
  Iff.rfl

theorem imp (h : Yields x P) (hP : ∀ a, P a → Q a) : Yields x Q := by
  cases x with
  | ok a => exact hP a h
  | error e => exact h

theorem bind {f : α → Except Error β} {R : β → Prop} (hx : Yields x P)
    (hf : ∀ a, P a → Yields (f a) R) : Yields (x >>= f) R := by
  cases x with
  | ok a => exact hf a hx
  | error e => exact hx

theorem mapM {l : List α} {f : α → Except Error β} (hf : ∀ a ∈ l, Yields (f a) fun _ => True) :
    Yields (l.mapM f) fun _ => True := by
  induction l with
  | nil => trivial
  | cons a l ih =>
      rw [List.mapM_cons]
      exact (hf a (by simp)).bind fun _ _ =>
        (ih fun a ha => hf a (by simp [ha])).bind fun _ _ => trivial

end Yields

/-! ### Values in keeping with what is known -/

namespace Known

variable {k : Known} {v : Value}

theorem fits_of_type (h : v.type = k.type) : k.Fits v := Or.inl h

theorem fits_void (h : k.exact = false) : k.Fits .void := Or.inr ⟨h, Or.inr rfl⟩

theorem fits_of_unknown (h : k.exact = false) (ht : k.type = .void) (v : Value) : k.Fits v :=
  Or.inr ⟨h, Or.inl ht⟩

/-- A value whose type is known is of that type, unless it is `void` where it may be. -/
theorem Fits.type_eq (h : k.Fits v) (ht : k.type ≠ .void) :
    v.type = k.type ∨ v = .void ∧ k.exact = false := by
  rcases h with h | ⟨hexact, h | h⟩
  · exact Or.inl h
  · exact absurd h ht
  · cases v with
    | void => exact Or.inr ⟨rfl, hexact⟩
    | _ => cases h

/-- What is exact may be taken as inexact. -/
theorem Fits.inexact (h : k.Fits v) : Fits { type := k.type } v := by
  rcases h with h | ⟨_, h⟩
  · exact Or.inl h
  · exact Or.inr ⟨rfl, h⟩

end Known

namespace Value

theorem isNumber_type {v : Value} (h : v.type.isNumber = true) :
    (∃ n, v = .long n) ∨ ∃ d, v = .double d := by
  cases v with
  | long n => exact Or.inl ⟨n, rfl⟩
  | double d => exact Or.inr ⟨d, rfl⟩
  | _ => cases h

/-! ### Unary operators -/

theorem yields_unary {op : UnaryOp} {k : Known} {v : Value} (hv : k.Fits v)
    (hop : op.resultType k.type ≠ .void) : Yields (v.unary op) (op.known k).Fits := by
  cases op with
  | minus =>
      have hnumber : k.type.isNumber = true := by_contra fun hn => hop (if_neg hn)
      have hresult : UnaryOp.resultType .minus k.type = k.type := if_pos hnumber
      rcases hv.type_eq (hresult ▸ hop) with htype | ⟨rfl, hexact⟩
      · rcases isNumber_type (htype ▸ hnumber) with ⟨n, rfl⟩ | ⟨d, rfl⟩
        · exact Known.fits_of_type (htype.trans hresult.symm)
        · exact Known.fits_of_type (htype.trans hresult.symm)
      · exact Known.fits_void hexact
  | not =>
      have hboolean : k.type = .boolean := by_contra fun hn => hop (if_neg hn)
      rcases hv.type_eq (by simp [hboolean]) with htype | ⟨rfl, hexact⟩
      · cases v with
        | boolean b => exact Known.fits_of_type (if_pos hboolean).symm
        | _ => cases htype.trans hboolean
      · exact Known.fits_void hexact
  | isEmpty =>
      have hboolean : UnaryOp.resultType .isEmpty k.type = .boolean :=
        if_pos (by_contra fun hn => hop (if_neg hn))
      cases v with
      | void | string | vector => exact Known.fits_of_type hboolean.symm
      | _ => exact rfl
  | isNotEmpty =>
      have hboolean : UnaryOp.resultType .isNotEmpty k.type = .boolean :=
        if_pos (by_contra fun hn => hop (if_neg hn))
      cases v with
      | void | string | vector => exact Known.fits_of_type hboolean.symm
      | _ => exact rfl

/-! ### Arithmetic -/

theorem arithmetic_void_left (op : Arithmetic) (v : Value) : void.arithmetic op v = .ok void := by
  cases v <;> rfl

theorem arithmetic_void_right (op : Arithmetic) (v : Value) : v.arithmetic op void = .ok void := by
  cases v <;> rfl

/-- Numbers are combined as longs or as doubles, and a division by zero is all that can fail. -/
theorem yields_arithmetic_numbers {op : Arithmetic} {v w : Value} (hv : v.type.isNumber = true)
    (hw : w.type.isNumber = true) :
    Yields (v.arithmetic op w) fun r => r.type = v.type.join w.type := by
  rcases isNumber_type hv with ⟨m, rfl⟩ | ⟨x, rfl⟩
  · rcases isNumber_type hw with ⟨n, rfl⟩ | ⟨y, rfl⟩
    · cases op with
      | divide =>
          by_cases hn : n = 0
          · simp [arithmetic, arithmeticOnLongs, hn, Except.map, Error.isUnresolved]
          · simp [arithmetic, arithmeticOnLongs, hn, Except.map, type, ValueType.join]
      | _ => rfl
    · rfl
  · rcases isNumber_type hw with ⟨n, rfl⟩ | ⟨y, rfl⟩
    · rfl
    · rfl

theorem yields_arithmetic {op : Arithmetic} {j k : Known} {v w : Value} (hv : j.Fits v)
    (hw : k.Fits w) (hop : BinaryOp.resultType (.arithmetic op) j.type k.type ≠ .void) :
    Yields (v.arithmetic op w) (BinaryOp.known (.arithmetic op) j k).Fits := by
  have hj : j.type ≠ .void := by
    intro hvoid
    exact hop (by simp [BinaryOp.resultType, hvoid, ValueType.isNumber])
  have hk : k.type ≠ .void := by
    intro hvoid
    exact hop (by simp [BinaryOp.resultType, hvoid, ValueType.isNumber])
  rcases hv.type_eq hj with hv | ⟨rfl, hexact⟩
  · rcases hw.type_eq hk with hw | ⟨rfl, hexact⟩
    · by_cases hnumbers : j.type.isNumber = true ∧ k.type.isNumber = true
      · refine (yields_arithmetic_numbers (hv ▸ hnumbers.1) (hw ▸ hnumbers.2)).imp ?_
        intro r hr
        rw [hv, hw] at hr
        exact Known.fits_of_type (by simp [BinaryOp.known, BinaryOp.resultType, hnumbers, hr])
      · obtain ⟨rfl, hstrings⟩ : op = .add ∧ j.type = .string ∧ k.type = .string := by
          by_contra hn
          exact hop (by simp [BinaryOp.resultType, hnumbers, hn])
        rw [hstrings.1] at hv
        rw [hstrings.2] at hw
        cases v with
        | string s =>
            cases w with
            | string t => exact Known.fits_of_type (by
                simp [BinaryOp.known, BinaryOp.resultType, hstrings, type, ValueType.isNumber])
            | _ => cases hw
        | _ => cases hv
    · rw [arithmetic_void_right]
      exact Known.fits_void (by simp [BinaryOp.known, hexact])
  · rw [arithmetic_void_left]
    exact Known.fits_void (by simp [BinaryOp.known, hexact])

/-! ### Comparison and membership -/

theorem yields_orderFor (operation : Operation) (v w : Value) :
    Yields (v.orderFor operation w) fun _ => True := by
  unfold orderFor
  cases v.order? w with
  | none => exact rfl
  | some o => exact trivial

/-- A comparison gives a boolean, or its operands have no order. -/
theorem yields_comparison_bool (op : Comparison) (v w : Value) :
    Yields (v.comparison op w) fun _ => True := by
  unfold comparison
  split
  · trivial
  · trivial
  · trivial
  · split
    · trivial
    · trivial
    · exact rfl
  · exact rfl
  · exact (yields_orderFor _ _ _).bind fun _ _ => trivial

theorem yields_comparison {op : Comparison} {j k : Known} {v w : Value}
    (hop : BinaryOp.resultType (.comparison op) j.type k.type ≠ .void) :
    Yields ((v.comparison op w).map boolean) (BinaryOp.known (.comparison op) j k).Fits := by
  have hresult : BinaryOp.resultType (.comparison op) j.type k.type = .boolean :=
    if_pos (by_contra fun hn => hop (if_neg hn))
  exact (yields_comparison_bool op v w).bind fun b _ => Known.fits_of_type hresult.symm

theorem yields_membership {op : Membership} {j k : Known} {v w : Value} (hv : j.Fits v)
    (hw : k.Fits w) (hop : BinaryOp.resultType (.membership op) j.type k.type ≠ .void) :
    Yields (v.membership op w) (BinaryOp.known (.membership op) j k).Fits := by
  have htypes : k.type = .vector ∨ j.type = .string ∧ k.type = .string :=
    by_contra fun hn => hop (if_neg hn)
  have hfound : ∀ isFound,
      Yields (membership.found op isFound) (BinaryOp.known (.membership op) j k).Fits :=
    fun _ => Known.fits_of_type (if_pos htypes).symm
  have hk : k.type ≠ .void := by
    rcases htypes with h | ⟨_, h⟩
    · simp [h]
    · simp [h]
  rcases hw.type_eq hk with hw | ⟨rfl, hexact⟩
  · rcases htypes with hvector | ⟨hj, hstring⟩
    · rw [hvector] at hw
      cases w with
      | vector elements => exact hfound _
      | _ => cases hw
    · rw [hstring] at hw
      cases w with
      | string text =>
          rcases hv.type_eq (by simp [hj]) with hv | ⟨rfl, hexact⟩
          · rw [hj] at hv
            cases v with
            | string needle => exact hfound _
            | _ => cases hv
          · exact Known.fits_void (by simp [BinaryOp.known, hexact])
      | _ => cases hw
  · exact Known.fits_void (by simp [BinaryOp.known, hexact])

/-! ### Connectives -/

/-- A connective that its left operand settles gives that operand. -/
theorem yields_shortcut (op : Connective) (v : Value) :
    Yields (v.shortcut op) fun r => ∀ u, r = .inl u → u = v := by
  unfold shortcut
  split
  · rintro _ ⟨⟩
    rfl
  · rintro _ ⟨⟩
    rfl
  · rintro _ ⟨⟩
    rfl
  · rintro _ ⟨⟩
  · exact rfl

theorem yields_connective {op : Connective} {left : Bool} {k : Known} {v : Value} (hv : k.Fits v)
    (hk : k.type = .boolean) :
    Yields (v.connective op left) (Known.Fits { type := .boolean, exact := k.exact }) := by
  rcases hv.type_eq (by simp [hk]) with hv | ⟨rfl, hexact⟩
  · rw [hk] at hv
    cases v with
    | boolean right => exact Known.fits_of_type rfl
    | _ => cases hv
  · exact Known.fits_void hexact

end Value

/-- The element at a position may be anything. -/
theorem yields_element (v position : Value) :
    Yields (element v position) (Known.Fits { type := .void }) := by
  cases helement : element v position with
  | ok r => exact Known.fits_of_unknown rfl rfl r
  | error e =>
      cases v with
      | vector elements =>
          cases position with
          | long i =>
              simp only [element, Value.asVector, Value.asLong, bind, Except.bind] at helement
              split at helement
              · cases helement
                rfl
              · split at helement
                · cases helement
                · cases helement
                  rfl
          | _ =>
              cases helement
              rfl
      | _ =>
          cases helement
          rfl

end FrameLang
