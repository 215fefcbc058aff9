/-
Values that are the same up to the frames in them.

A program can tell two frames apart, since each frame that is made is a value of its own, but it
cannot see which number the frame has or in which order its rows are.  Where two runs make the same
frames with other numbers, their values are alike: the same but for the frames, which are paired and
have the same rows (`Like`).

Operators and built-in functions look at no more of a frame than its name and whether it is the same
as another one.  So from values that are alike they give values that are alike.  Hardly any gives a
vector or a frame at all; what is neither of these is `IsPlain`, and then the values are equal.
-/
import FrameLang.Proofs.Frame.SameRows
import FrameLang.Proofs.Typing.Functions
import Mathlib.Logic.Relator

namespace FrameLang

/-- Which frames of one run stand for which frames of another, by their identities. -/
abbrev Pairing := Nat → Nat → Prop

namespace Value

/-- Neither a vector nor a frame. -/
def IsPlain (v : Value) : Prop := v.type ≠ .vector ∧ v.type ≠ .dataFrame

/-- Two values are the same up to the frames in them: those are paired and have the same rows. -/
inductive Like (R : Pairing) : Value → Value → Prop
  | plain {v : Value} (h : v.IsPlain) : Like R v v
  | vector {vs ws : List Value} (h : List.Forall₂ (Like R) vs ws) :
      Like R (.vector vs) (.vector ws)
  | frame {i j : Nat} {f g : Frame} (hij : R i j) (hfg : f.SameRows g) :
      Like R (.frame i f) (.frame j g)

variable {R S : Pairing}

theorem isPlain_void : IsPlain .void := ⟨nofun, nofun⟩

theorem isPlain_boolean (b : Bool) : IsPlain (.boolean b) := ⟨nofun, nofun⟩

theorem isPlain_long (n : Long) : IsPlain (.long n) := ⟨nofun, nofun⟩

theorem isPlain_double (d : Double) : IsPlain (.double d) := ⟨nofun, nofun⟩

theorem isPlain_toValue (type : ScalarType) (entry : Option type.Carrier) :
    (type.toValue entry).IsPlain := by
  cases type <;> cases entry <;> exact ⟨nofun, nofun⟩

namespace Like

mutual

theorem mono {v w : Value} (hRS : R ≤ S) (h : Like R v w) : Like S v w := by
  cases h with
  | plain h => exact .plain h
  | vector h => exact .vector (forall₂_mono hRS h)
  | frame hij hfg => exact .frame (hRS _ _ hij) hfg

theorem forall₂_mono {vs ws : List Value} (hRS : R ≤ S) (h : List.Forall₂ (Like R) vs ws) :
    List.Forall₂ (Like S) vs ws := by
  cases h with
  | nil => exact List.Forall₂.nil
  | cons h hs => exact List.Forall₂.cons (mono hRS h) (forall₂_mono hRS hs)

end

theorem type_eq {v w : Value} (h : Like R v w) : v.type = w.type := by
  cases h <;> rfl

mutual

theorem literalText_eq {v w : Value} (h : Like R v w) : v.literalText = w.literalText := by
  cases h with
  | plain => rfl
  | vector h => rw [literalText, literalText, literalTexts_eq h]
  | frame _ hfg => rw [literalText, literalText, hfg.name_eq]

theorem literalTexts_eq {vs ws : List Value} (h : List.Forall₂ (Like R) vs ws) :
    literalTexts vs = literalTexts ws := by
  cases h with
  | nil => rfl
  | cons h hs => rw [literalTexts, literalTexts, literalText_eq h, literalTexts_eq hs]

end

theorem text_eq {v w : Value} (h : Like R v w) : v.text = w.text := by
  cases h with
  | plain => rfl
  | vector h => exact literalText_eq (.vector h)
  | frame hij hfg => exact literalText_eq (.frame hij hfg)

theorem asString_eq {v w : Value} (h : Like R v w) : v.asString = w.asString := by
  cases h <;> rfl

theorem asLong_eq {v w : Value} (h : Like R v w) : v.asLong = w.asLong := by
  cases h <;> rfl

theorem asDate_eq {v w : Value} (h : Like R v w) : v.asDate = w.asDate := by
  cases h <;> rfl

mutual

/-- Whether values are the same does not depend on how the frames in them are paired. -/
theorem same_eq {v v' w w' : Value} (hR : Relator.BiUnique R) (hv : Like R v v')
    (hw : Like R w w') :
    v.same w = v'.same w' := by
  cases hv with
  | plain hv =>
      cases hw with
      | plain => rfl
      | vector => cases v <;> first | rfl | exact absurd rfl hv.1
      | frame => cases v <;> first | rfl | exact absurd rfl hv.2
  | vector hvs =>
      cases hw with
      | plain hw => cases w <;> first | rfl | exact absurd rfl hw.1
      | vector hws => rw [same, same, allSame_eq hR hvs hws]
      | frame => rfl
  | @frame i j _ _ hij =>
      cases hw with
      | plain hw => cases w <;> first | rfl | exact absurd rfl hw.2
      | vector => rfl
      | @frame i' j' _ _ hij' =>
          have hiff : i = i' ↔ j = j' :=
            ⟨fun h => hR.right hij (h ▸ hij'), fun h => hR.left hij (h ▸ hij')⟩
          rw [same, same, Bool.eq_iff_iff, beq_iff_eq, beq_iff_eq, hiff]

theorem allSame_eq {vs vs' ws ws' : List Value} (hR : Relator.BiUnique R)
    (hvs : List.Forall₂ (Like R) vs vs') (hws : List.Forall₂ (Like R) ws ws') :
    allSame vs ws = allSame vs' ws' := by
  cases hvs with
  | nil => cases hws <;> rfl
  | cons hv hvs =>
      cases hws with
      | nil => rfl
      | cons hw hws => rw [allSame, allSame, same_eq hR hv hw, allSame_eq hR hvs hws]

end

/-- Values compare alike, or neither pair can be compared. -/
theorem comparison_toOption {v v' w w' : Value} (hR : Relator.BiUnique R) (op : Comparison)
    (hv : Like R v v') (hw : Like R w w') :
    (v.comparison op w).toOption = (v'.comparison op w').toOption := by
  cases hv with
  | plain hv =>
      cases hw with
      | plain => rfl
      | vector | frame => cases v <;> first | rfl | exact absurd rfl hv.1
  | vector hvs =>
      cases hw with
      | plain hw => cases w <;> first | (cases op <;> rfl) | exact absurd rfl hw.1
      | vector hws =>
          have hsame := allSame_eq hR hvs hws
          cases op with
          | eq => exact congrArg some hsame
          | ne => exact congrArg (fun b => some !b) hsame
          | _ => rfl
      | frame => cases op <;> rfl
  | frame =>
      cases hw with
      | plain hw => cases w <;> rfl
      | vector | frame => rfl

/-- The last values of two lists are alike if the lists are. -/
theorem getLastD {vs ws : List Value} (h : List.Forall₂ (Like R) vs ws) :
    Like R (vs.getLastD .void) (ws.getLastD .void) := by
  induction h with
  | nil => exact .plain isPlain_void
  | cons hvw hvs ih =>
      cases hvs with
      | nil => exact hvw
      | cons => exact ih

end Like

/-! ### Operators -/

/-- The second computation ends as the first one does if that ends with a value, which is plain. -/
def Follows (x x' : Except Error Value) : Prop := ∀ u, x = .ok u → u.IsPlain ∧ x' = .ok u

theorem isPlain_of_type {v : Value} {t : ValueType} (h : v.type = t) (ht : t ≠ .vector)
    (ht' : t ≠ .dataFrame) : v.IsPlain :=
  ⟨h ▸ ht, h ▸ ht'⟩

section Operators

variable {v v' w w' : Value}

theorem isPlain_of_unary {op : UnaryOp} {u : Value} (h : v.unary op = .ok u) : u.IsPlain := by
  cases op with
  | minus | not => cases v <;> cases h <;> exact ⟨nofun, nofun⟩
  | isEmpty | isNotEmpty => cases v <;> cases h <;> exact isPlain_boolean _

theorem Like.unary (h : Like R v w) (op : UnaryOp) : Follows (v.unary op) (w.unary op) := by
  intro u hu
  refine ⟨isPlain_of_unary hu, ?_⟩
  cases h with
  | plain => exact hu
  | vector hvs =>
      rw [← hu]
      cases hvs <;> cases op <;> first | rfl | cases hu
  | frame => cases op <;> cases hu

theorem isPlain_of_arithmetic {op : Arithmetic} {u : Value} (h : v.arithmetic op w = .ok u) :
    u.IsPlain := by
  unfold arithmetic at h
  split at h
  · cases h
    exact isPlain_void
  · cases h
    exact isPlain_void
  · obtain ⟨n, -, rfl⟩ := exists_of_map_eq_ok h
    exact ⟨nofun, nofun⟩
  · split at h
    · cases h
      exact ⟨nofun, nofun⟩
    · cases h
      exact ⟨nofun, nofun⟩
    · dsimp only at h
      split at h <;> cases h

theorem Like.eq_of_isPlain (h : Like R v w) (hv : v.IsPlain) : w = v := by
  cases h with
  | plain => rfl
  | vector => exact absurd rfl hv.1
  | frame => exact absurd rfl hv.2

/-- Vectors and frames take part in arithmetic beside `void` only. -/
theorem eq_void_of_arithmetic {op : Arithmetic} {u : Value} (hplain : ¬(v.IsPlain ∧ w.IsPlain))
    (h : v.arithmetic op w = .ok u) : v = .void ∨ w = .void := by
  cases v with
  | void => exact Or.inl rfl
  | vector | frame =>
      cases w with
      | void => exact Or.inr rfl
      | _ => cases op <;> cases h
  | _ =>
      cases w with
      | void => exact Or.inr rfl
      | vector | frame => cases op <;> cases h
      | _ => exact absurd ⟨⟨nofun, nofun⟩, nofun, nofun⟩ hplain

theorem Like.arithmetic (hv : Like R v v') (hw : Like R w w') (op : Arithmetic) :
    Follows (v.arithmetic op w) (v'.arithmetic op w') := by
  intro u hu
  refine ⟨isPlain_of_arithmetic hu, ?_⟩
  by_cases hplain : v.IsPlain ∧ w.IsPlain
  · rwa [hv.eq_of_isPlain hplain.1, hw.eq_of_isPlain hplain.2]
  · rw [← hu]
    rcases eq_void_of_arithmetic hplain hu with rfl | rfl
    · rw [hv.eq_of_isPlain isPlain_void, arithmetic_void_left, arithmetic_void_left]
    · rw [hw.eq_of_isPlain isPlain_void, arithmetic_void_right, arithmetic_void_right]

theorem Like.comparison (hR : Relator.BiUnique R) (hv : Like R v v') (hw : Like R w w')
    (op : Comparison) :
    Follows ((v.comparison op w).map .boolean) ((v'.comparison op w').map .boolean) := by
  intro u hu
  obtain ⟨b, hb, rfl⟩ := exists_of_map_eq_ok hu
  have hcompare := Like.comparison_toOption hR op hv hw
  rw [hb] at hcompare
  cases hb' : v'.comparison op w' with
  | ok b' =>
      rw [hb'] at hcompare
      cases hcompare
      exact ⟨isPlain_boolean b, rfl⟩
  | error e =>
      rw [hb'] at hcompare
      cases hcompare

theorem any_comparison_eq {vs vs' : List Value} (hR : Relator.BiUnique R) (hw : Like R w w')
    (hvs : List.Forall₂ (Like R) vs vs') :
    (vs.any fun v => (w.comparison .eq v).toOption == some true) =
      vs'.any fun v => (w'.comparison .eq v).toOption == some true := by
  induction hvs with
  | nil => rfl
  | cons hv _ ih => rw [List.any_cons, List.any_cons, ih, Like.comparison_toOption hR .eq hw hv]

theorem Like.membership (hR : Relator.BiUnique R) (hv : Like R v v') (hw : Like R w w')
    (op : Membership) : Follows (v.membership op w) (v'.membership op w') := by
  intro u hu
  cases hw with
  | plain hw =>
      cases w with
      | void =>
          cases hu
          exact ⟨isPlain_void, rfl⟩
      | string text =>
          cases v with
          | void | string =>
              cases hu
              rw [hv.eq_of_isPlain ⟨nofun, nofun⟩]
              exact ⟨⟨nofun, nofun⟩, rfl⟩
          | _ => cases hu
      | vector => exact absurd rfl hw.1
      | _ => cases hu
  | vector hws =>
      have hany := any_comparison_eq hR hv hws
      rw [Value.membership] at hu ⊢
      rw [← hany]
      refine ⟨?_, hu⟩
      cases hu
      exact isPlain_boolean _
  | frame => cases hu

theorem Like.shortcut (h : Like R v w) (op : Connective) {settled : Value ⊕ Bool}
    (hs : v.shortcut op = .ok settled) :
    (∀ u, settled = .inl u → u.IsPlain) ∧ w.shortcut op = .ok settled := by
  cases h with
  | plain =>
      refine ⟨?_, hs⟩
      rintro u rfl
      cases v with
      | void =>
          cases hs
          exact isPlain_void
      | boolean b =>
          cases op <;> cases b <;> cases hs <;> exact isPlain_boolean _
      | _ => cases op <;> cases hs
  | vector | frame => cases op <;> cases hs

theorem Like.connective (h : Like R v w) (op : Connective) (left : Bool) :
    Follows (v.connective op left) (w.connective op left) := by
  intro u hu
  cases h with
  | plain =>
      refine ⟨?_, hu⟩
      cases v with
      | void | boolean =>
          cases hu
          exact ⟨nofun, nofun⟩
      | _ => cases hu
  | vector | frame => cases hu

theorem element_eq_ok {u : Value} : element v w = .ok u ↔
    ∃ vs n, v = .vector vs ∧ w = .long n ∧ 0 ≤ n.toInt ∧ vs[n.toInt.toNat]? = some u := by
  constructor
  · intro h
    cases v with
    | vector vs =>
        cases w with
        | long n =>
            simp only [element, asVector, asLong, bind, Except.bind] at h
            split at h
            · cases h
            · rename_i hn
              split at h
              · rename_i hget
                cases h
                exact ⟨vs, n, rfl, rfl, not_lt.mp hn, hget⟩
              · cases h
        | _ => cases h
    | _ => cases h
  · rintro ⟨vs, n, rfl, rfl, hn, hget⟩
    simp only [element, asVector, asLong, bind, Except.bind]
    rw [if_neg (not_lt.mpr hn), hget]
    rfl

theorem Like.element (hv : Like R v v') (hw : Like R w w') {u : Value}
    (hu : element v w = .ok u) : ∃ u', element v' w' = .ok u' ∧ Like R u u' := by
  obtain ⟨vs, n, rfl, rfl, hn, hget⟩ := element_eq_ok.mp hu
  cases hv with
  | plain hv => exact absurd rfl hv.1
  | @vector _ ws hvs =>
      obtain ⟨hlt, rfl⟩ := List.getElem?_eq_some_iff.mp hget
      have hlt' : n.toInt.toNat < ws.length := hvs.length_eq ▸ hlt
      refine ⟨ws[n.toInt.toNat], ?_, hvs.get hlt hlt'⟩
      rw [hw.eq_of_isPlain ⟨nofun, nofun⟩]
      exact element_eq_ok.mpr ⟨ws, n, rfl, rfl, hn, List.getElem?_eq_getElem hlt'⟩

end Operators

end Value

/-! ### Functions -/

namespace Builtin

open Value

section Arguments

variable {v v' w w' : Value}

theorem stringTest_eq (hv : Like R v v') (hw : Like R w w')
    (test : List Char → List Char → Bool) : stringTest test v w = stringTest test v' w' := by
  cases hv with
  | plain =>
      cases hw with
      | plain => rfl
      | vector | frame => cases v <;> rfl
  | vector | frame =>
      cases hw with
      | plain => cases w <;> rfl
      | vector | frame => rfl

theorem mapString_eq (hv : Like R v v') (change : String → String) :
    mapString change v = mapString change v' := by
  cases hv <;> rfl

theorem stringArgument_eq (hv : Like R v v') (f : Function) :
    stringArgument f v = stringArgument f v' := by
  cases hv <;> rfl

theorem absoluteValue_eq (hv : Like R v v') (f : Function) :
    absoluteValue f v = absoluteValue f v' := by
  cases hv <;> rfl

theorem slice_eq (hv : Like R v v') (hw : Like R w w') (f : Function) {stop stop' : Option Value}
    (hstop : Option.Rel (Like R) stop stop') : slice f v w stop = slice f v' w' stop' := by
  have hlast : stop.mapM Value.asLong = stop'.mapM Value.asLong := by
    cases hstop with
    | none => rfl
    | some h => exact congrArg (some <$> ·) h.asLong_eq
  unfold slice
  rw [hv.type_eq, hv.asString_eq, hv.text_eq, hw.asLong_eq, hlast]

theorem datePart_eq (hv : Like R v v') (f : Function) : datePart f v = datePart f v' := by
  unfold datePart
  rw [hv.asLong_eq]

theorem mapM_datePart_eq {vs vs' : List Value} (h : List.Forall₂ (Like R) vs vs') (f : Function) :
    vs.mapM (datePart f) = vs'.mapM (datePart f) := by
  induction h with
  | nil => rfl
  | cons hv _ ih => rw [List.mapM_cons, List.mapM_cons, datePart_eq hv, ih]

theorem dateTimeOfParts_eq (hv : Like R v v') {vs vs' : List Value}
    (h : List.Forall₂ (Like R) vs vs') (f : Function) :
    dateTimeOfParts f v vs = dateTimeOfParts f v' vs' := by
  have htexts : vs.map literalText = vs'.map literalText := by
    induction h with
    | nil => rfl
    | cons hv _ ih => rw [List.map_cons, List.map_cons, hv.literalText_eq, ih]
  unfold dateTimeOfParts
  rw [hv.asLong_eq, mapM_datePart_eq h, List.map_cons, List.map_cons, hv.literalText_eq, htexts]

theorem apply_one_eq (hv : Like R v v') (operation : Builtin) (f : Function) :
    operation.apply f [v] = operation.apply f [v'] := by
  cases operation with
  | toUpper | trim => exact mapString_eq hv _
  | abs => exact absoluteValue_eq hv f
  | toString | toDate | toDateTime =>
      unfold apply
      dsimp only
      rw [hv.text_eq]
  | toLong | toDouble =>
      unfold apply
      dsimp only
      rw [stringArgument_eq hv]
  | _ => rfl

theorem apply_toDateTime_eq (hv : Like R v v') (hw : Like R w w') {vs vs' : List Value}
    (h : List.Forall₂ (Like R) vs vs') (f : Function) :
    toDateTime.apply f (v :: w :: vs) = toDateTime.apply f (v' :: w' :: vs') := by
  unfold apply
  dsimp only
  rw [List.length_cons, List.length_cons, h.length_eq,
    dateTimeOfParts_eq hv (List.Forall₂.cons hw h)]

theorem apply_two_eq (hv : Like R v v') (hw : Like R w w') (operation : Builtin) (f : Function) :
    operation.apply f [v, w] = operation.apply f [v', w'] := by
  cases operation with
  | startsWith => exact stringTest_eq hv hw fun text part => part.isPrefixOf text
  | contains => exact stringTest_eq hv hw fun text part => occursIn part text
  | substr => exact slice_eq hv hw f .none
  | toDateTime => exact apply_toDateTime_eq hv hw .nil f
  | _ => rfl

theorem apply_three_eq {u u' : Value} (hv : Like R v v') (hw : Like R w w') (hu : Like R u u')
    (operation : Builtin) (f : Function) :
    operation.apply f [v, w, u] = operation.apply f [v', w', u'] := by
  cases operation with
  | substr => exact slice_eq hv hw f (.some hu)
  | toDate =>
      unfold apply dateOfParts
      dsimp only
      rw [hv.asLong_eq, datePart_eq hw, datePart_eq hu]
  | toDateTime => exact apply_toDateTime_eq hv hw (.cons hu .nil) f
  | withinDays =>
      unfold apply areWithin
      dsimp only
      rw [hv.asDate_eq, hw.asDate_eq, hu.asLong_eq]
  | _ => rfl

end Arguments

/-- A built-in function looks at no more of a vector or a frame than its type and its text. -/
theorem apply_eq {arguments arguments' : List Value}
    (h : List.Forall₂ (Like R) arguments arguments') (operation : Builtin) (f : Function) :
    operation.apply f arguments = operation.apply f arguments' := by
  match h with
  | .nil => rfl
  | .cons hv .nil => exact apply_one_eq hv operation f
  | .cons hv (.cons hw .nil) => exact apply_two_eq hv hw operation f
  | .cons hv (.cons hw (.cons hu .nil)) => exact apply_three_eq hv hw hu operation f
  | .cons hv (.cons hw (.cons hu (.cons hx h))) =>
      cases operation with
      | toDateTime => exact apply_toDateTime_eq hv hw (.cons hu (.cons hx h)) f
      | _ => rfl

/-- What a built-in function gives is neither a vector nor a frame. -/
theorem isPlain_of_apply {operation : Builtin} {f : Function} {arguments : List Value} {u : Value}
    (h : operation.apply f arguments = .ok u) : u.IsPlain := by
  have hgives : ∀ {x : Except Error Value} {P : Value → Prop} {t : ValueType}, Yields x P →
      (∀ r, P r → r.type = t ∨ r = .void) → t ≠ .vector → t ≠ .dataFrame → x = .ok u →
        u.IsPlain := by
    rintro _ P t hx hP ht ht' rfl
    rcases hP u hx with rfl | rfl
    · exact ⟨ht, ht'⟩
    · exact isPlain_void
  unfold apply at h
  split at h
  · cases h
    exact isPlain_void
  · cases h
    exact isPlain_void
  · exact hgives (yields_stringTest _ _ _) (fun _ => Or.imp_right And.left) nofun nofun h
  · exact hgives (yields_stringTest _ _ _) (fun _ => Or.imp_right And.left) nofun nofun h
  · exact hgives (yields_mapString _ _) (fun _ => Or.imp_right And.left) nofun nofun h
  · exact hgives (yields_mapString _ _) (fun _ => Or.imp_right And.left) nofun nofun h
  · exact hgives (yields_slice _ _ _ _) (fun _ => Or.imp_right And.left) nofun nofun h
  · exact hgives (yields_slice _ _ _ _) (fun _ => Or.imp_right And.left) nofun nofun h
  · rename_i v
    cases v with
    | void | long | double =>
        cases h
        exact ⟨nofun, nofun⟩
    | _ => cases h
  · cases h
    exact ⟨nofun, nofun⟩
  · exact hgives (yields_dateOfText _ _) (fun _ => Or.inl) nofun nofun h
  · exact hgives (yields_dateOfParts _ _ _ _) (fun _ => Or.inl) nofun nofun h
  · exact hgives (yields_dateTimeOfText _ _) (fun _ => Or.inl) nofun nofun h
  · split at h
    · exact hgives (yields_dateTimeOfParts _ _ _) (fun _ => Or.inl) nofun nofun h
    · cases h
  · obtain ⟨text, -, h⟩ := exists_of_bind_eq_ok h
    split at h
    · cases h
      exact ⟨nofun, nofun⟩
    · cases h
  · obtain ⟨text, -, h⟩ := exists_of_bind_eq_ok h
    split at h
    · cases h
      exact ⟨nofun, nofun⟩
    · cases h
  · exact hgives (yields_areWithin _ _ _) (fun _ => Or.inl) nofun nofun h
  · cases h

end Builtin

end FrameLang
