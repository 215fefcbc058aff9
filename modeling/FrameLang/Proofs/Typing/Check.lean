/-
The typing rules are the check.

One half is in `Proofs/Typing/Inference.lean`.  This is the other one, from the rules to the walk,
and it says a little more: the walk may know of more variables than the rules do, and fewer bodies
may be open.  It is where the bound on open bodies is seen to be enough.  The bodies that are open
are different functions of the program, so when one more is entered there is room for it.
-/
import FrameLang.Proofs.Typing.Inference
import Mathlib.Data.List.Perm.Subperm

namespace FrameLang

/-! ### From the rules to the walk -/

namespace Typing

variable {α β : Type} {s : Findings} {P R : Findings → Prop}

/-- The walk has the result `a`, notes no problem, and leaves findings that satisfy `P`. -/
def Settles (walk : Typing α) (s : Findings) (a : α) (P : Findings → Prop) : Prop :=
  ∃ s', walk.run s = (a, s') ∧ s'.issues = s.issues ∧ P s'

theorem settles_pure {a : α} (h : P s) : Settles (pure a) s a P := ⟨s, rfl, rfl, h⟩

theorem Settles.bind {x : Typing α} {f : α → Typing β} {a : α} {b : β} (hx : Settles x s a P)
    (hf : ∀ s', P s' → Settles (f a) s' b R) : Settles (x >>= f) s b R := by
  obtain ⟨s₁, hrun, hissues, hs₁⟩ := hx
  obtain ⟨s₂, hrun', hissues', hs₂⟩ := hf s₁ hs₁
  refine ⟨s₂, ?_, hissues'.trans hissues, hs₂⟩
  rw [StateT.run_bind, hrun]
  exact hrun'

theorem settles_get : Settles (get : Typing Findings) s s fun s' => s' = s := ⟨s, rfl, rfl, rfl⟩

theorem settles_assign (name : String) (t : ValueType) :
    Settles (assign name t) s () fun s' => s' = { s with types := s.types.insert name t } :=
  ⟨_, rfl, rfl, rfl⟩

theorem Settles.discard_bind {x : Typing α} {f : Typing β} {a : α} {b : β}
    (hx : Settles x s a P) (hf : ∀ s', P s' → Settles f s' b R) :
    Settles (do discard x; f) s b R :=
  (hx.bind (f := fun _ => pure ()) fun _ h => settles_pure h).bind hf

theorem Settles.condition {c : Typing ValueType} {e : Expr} {rest : Typing α} {a : α}
    (hc : Settles c s .boolean P) (hrest : ∀ s', P s' → Settles rest s' a R) :
    Settles (do
      if (← c) ≠ .boolean then
        discard <| note .condition e
      rest) s a R :=
  hc.bind fun s' hs' => by
    rw [if_neg (not_not.mpr rfl)]
    exact hrest s' hs'

theorem Settles.imp {walk : Typing α} {a : α} (h : Settles walk s a P)
    (hP : ∀ s', P s' → R s') : Settles walk s a R := by
  obtain ⟨s', hrun, hissues, hs'⟩ := h
  exact ⟨s', hrun, hissues, hP s' hs'⟩

theorem Settles.isolated {walk : Typing α} {types : Bindings ValueType} {a : α}
    (h : Settles walk { s with types } a fun _ => True) :
    Settles (isolated types walk) s a fun s' => s'.types = s.types := by
  obtain ⟨s', hrun, hissues, _⟩ := h
  refine ⟨{ s' with types := s.types }, ?_, hissues, rfl⟩
  change ((walk.run { s with types }).1,
    { (walk.run { s with types }).2 with types := s.types }) = _
  rw [hrun]

end Typing

/-- The walk knows of the variables that the rules know of. -/
def Findings.Covers (s : Findings) (scope : Scope) (Γ : View) : Prop :=
  ∀ name t, Γ.types name = some t → s.view scope name = some t

/-- The open functions are different functions of the program, and there is room for the others. -/
structure FunctionDefs.Room (functions : FunctionDefs) (free : Nat) (active : List String) :
    Prop where
  nodup : active.Nodup
  subset : active ⊆ functions.values.map fun f => normalizeName f.name
  size : functions.size ≤ free + active.length

theorem Bindings.mem_values_of_find? {α : Type} {b : Bindings α} {name : String} {a : α}
    (h : b.find? name = some a) : a ∈ b.values := by
  obtain ⟨entries⟩ := b
  change entries.lookup name = some a at h
  change a ∈ entries.map Prod.snd
  induction entries with
  | nil => cases h
  | cons entry rest ih =>
      obtain ⟨key, first⟩ := entry
      rw [lookup_cons] at h
      split at h
      · cases h
        simp
      · simp [ih h]

/-- If a function is entered, there was room for it, and there is room for the rest. -/
theorem FunctionDefs.Room.enter {functions : FunctionDefs} {free : Nat} {active : List String}
    (h : functions.Room free active) {name : String} {f : FunctionDef}
    (hf : functions.find? name = some f) (hactive : normalizeName f.name ∉ active) :
    ∃ rest, free = rest + 1 ∧ functions.Room rest (normalizeName f.name :: active) := by
  have hmem : normalizeName f.name ∈ functions.values.map fun f => normalizeName f.name :=
    List.mem_map.mpr ⟨f, Bindings.mem_values_of_find? hf, rfl⟩
  have hnodup : (normalizeName f.name :: active).Nodup := List.nodup_cons.mpr ⟨hactive, h.nodup⟩
  have hsubset := List.cons_subset.mpr ⟨hmem, h.subset⟩
  have hlength := (List.subperm_of_subset hnodup hsubset).length_le
  rw [List.length_cons, List.length_map, Bindings.values, List.length_map] at hlength
  have hsize := h.size
  unfold Bindings.size at hsize
  obtain ⟨rest, rfl⟩ : ∃ rest, free = rest + 1 := ⟨free - 1, by omega⟩
  refine ⟨rest, rfl, hnodup, hsubset, ?_⟩
  rw [List.length_cons, Bindings.size]
  omega

namespace Expr

open Typing

variable {D : Discipline} {base : Scope}

theorem covers_ofParameters (scope : Scope) (parameters : List String) (ks : List Known)
    (s : Findings) :
    ({ s with types := Bindings.ofList (parameters.zip (ks.map Known.type)) } : Findings).Covers
      scope (View.ofParameters parameters ks) := by
  intro name t ht
  rw [View.types_ofParameters] at ht
  simp [Findings.view, ht]

theorem settles_operatorType {e : Expr} {t : ValueType} (ht : t ≠ .void) {s : Findings}
    {P : Findings → Prop} (hs : P s) : Settles (operatorType e t) s t P := by
  unfold operatorType
  rw [if_neg ht]
  exact settles_pure hs

@[simp] theorem covers_merge {s : Findings} {scope : Scope} {Γ Γ' : View} :
    s.Covers scope (Γ.merge Γ') ↔ s.Covers scope Γ' := by
  simp [Findings.Covers]

theorem settles_var {scope : Scope} {enter : EnterFunction} {Γ : View} {name : String} {k : Known}
    (hname : Γ name = some k) {s : Findings} (hs : s.Covers scope Γ) :
    Settles ((var name).inferWith scope enter) s k.type fun s' => s'.Covers scope Γ := by
  have ht : s.view scope name = some k.type := hs name k.type (by simp [View.types, hname])
  rw [inferWith]
  refine settles_get.bind fun s' hs' => ?_
  subst hs'
  rw [show (s'.types.find? name).or (scope.variableType name) = some k.type from ht]
  exact settles_pure hs

/-- The body of a function that is not open is inferred apart, with one more body open. -/
theorem settles_callDefined {scope outer : Scope} (hscope : scope.blank = base) {free : Nat}
    {opened : List String} {Γ : View} {name : String} {arguments : List Expr} {ks js : List Known}
    {f : FunctionDef} (hf : base.functions.find? (normalizeName name) = some f)
    (hlength : f.parameters.length = arguments.length) (hclosed : normalizeName f.name ∉ opened)
    {s : Findings} {R : Findings → Prop}
    (harguments : Settles (inferAllWith scope (enter outer (free + 1) opened) arguments) s
      (ks.map Known.type) fun s' => s'.Covers scope Γ)
    (hbody : ∀ s' : Findings,
      Settles (inferAllWith outer.blank (enter outer free (normalizeName f.name :: opened)) f.body)
        { s' with types := Bindings.ofList (f.parameters.zip (ks.map Known.type)) }
        (js.map Known.type) R) :
    Settles ((call name arguments).inferWith scope (enter outer (free + 1) opened)) s
      (Known.last js).type fun s' => s'.Covers scope Γ := by
  rw [inferWith]
  refine harguments.bind fun s₁ hs₁ => ?_
  rw [Scope.functions_of_blank hscope, hf]
  change Settles (if f.parameters.length ≠ arguments.length then _ else _) s₁ _ _
  rw [if_neg (not_not.mpr hlength), enter, if_neg (by simpa using hclosed)]
  refine ((hbody s₁).bind (b := some ((js.map Known.type).getLastD .void)) fun _ _ =>
    settles_pure trivial).isolated.bind fun s₂ hs₂ => ?_
  rw [Known.type_last]
  refine settles_pure ?_
  intro name t ht
  rw [← hs₁ name t ht, Findings.view, Findings.view, hs₂]

theorem settles_callRegistered {scope : Scope} (hscope : scope.blank = base)
    {enter : EnterFunction} {name : String} {arguments : List Expr} {types : List ValueType}
    {t : ValueType} {f : Function} (hdefined : base.functions.find? (normalizeName name) = none)
    (hf : base.registry.get? name = some f) (htakes : f.takes types.length = true)
    (htype : f.resultType types = some t) {s : Findings} {P : Findings → Prop}
    (harguments : Settles (inferAllWith scope enter arguments) s types P) :
    Settles ((call name arguments).inferWith scope enter) s t P := by
  rw [inferWith]
  refine harguments.bind fun s₁ hs₁ => ?_
  rw [Scope.functions_of_blank hscope, hdefined, Scope.registry_of_blank hscope]
  unfold registeredCallType
  rw [hf]
  change Settles (if !f.takes types.length then _ else _) s₁ _ _
  rw [htakes, htype]
  exact settles_pure hs₁

/-- An assignment makes the name known with the type that it is known of. -/
theorem settles_assignment {scope : Scope} {enter : EnterFunction} {Γ : View} {name : String}
    {e : Expr} {k : Known} {s : Findings}
    (he : Settles (e.inferWith scope enter) s k.type fun s' => s'.Covers scope Γ) :
    Settles ((Expr.assign name e).inferWith scope enter) s k.type fun s' =>
      s'.Covers scope (Γ.bind name k) := by
  rw [inferWith]
  refine he.bind fun s₁ hs₁ => ?_
  refine (settles_assign name k.type).bind fun s₂ hs₂ => settles_pure ?_
  subst hs₂
  intro other t ht
  rw [View.types_bind] at ht
  rw [Findings.view, Bindings.find?_insert]
  split
  · rename_i hother
    rw [if_pos hother] at ht
    cases ht
    rfl
  · rename_i hother
    rw [if_neg hother] at ht
    exact hs₁ other t ht

theorem settles_inferWith {active : List String} {Γ Γ' : View} {e : Expr} {k : Known}
    (h : Typed D base active Γ e k Γ') {scope outer : Scope} (hscope : scope.blank = base)
    (houter : outer.blank = base) {free : Nat} {opened : List String} (hopened : opened ⊆ active)
    (hroom : base.functions.Room free opened) {s : Findings} (hs : s.Covers scope Γ) :
    Settles (e.inferWith scope (enter outer free opened)) s k.type fun s' =>
      s'.Covers scope Γ' := by
  induction h using @Typed.rec D base _ (fun active Γ es ks Γ' _ => ∀ {scope outer : Scope},
    scope.blank = base → outer.blank = base → ∀ {free : Nat} {opened : List String},
      opened ⊆ active → base.functions.Room free opened → ∀ {s : Findings}, s.Covers scope Γ →
        Settles (inferAllWith scope (enter outer free opened) es) s (ks.map Known.type) fun s' =>
          s'.Covers scope Γ') generalizing scope outer free opened s with
  | literal => exact settles_pure hs
  | var hname => exact settles_var hname hs
  | unary _ hop ih =>
      rw [inferWith]
      exact (ih hscope houter hopened hroom hs).bind fun _ hs₁ => settles_operatorType hop hs₁
  | binary _ _ _ hop ihl ihr =>
      rw [inferWith]
      refine (ihl hscope houter hopened hroom hs).bind fun _ hs₁ => ?_
      exact (ihr hscope houter hopened hroom hs₁).bind fun _ hs₂ => settles_operatorType hop hs₂
  | connective _ _ hop _ ihl ihr =>
      rw [inferWith]
      refine (ihl hscope houter hopened hroom hs).bind fun _ hs₁ => ?_
      refine (ihr hscope houter hopened hroom hs₁).bind fun _ hs₂ => settles_operatorType hop ?_
      exact covers_merge.mpr hs₂
  | callDefined _ hf hlength hactive _ ih ihbody =>
      have hclosed := fun hmem => hactive (hopened hmem)
      obtain ⟨rest, rfl, hrest⟩ := hroom.enter hf hclosed
      have hblank : outer.blank.blank = base := houter
      exact settles_callDefined hscope hf hlength hclosed (ih hscope houter hopened hroom hs)
        fun s₁ => ihbody hblank houter (List.cons_subset_cons _ hopened) hrest
          (covers_ofParameters _ _ _ s₁)
  | callRegistered _ hdefined hf htakes htype _ ih =>
      exact settles_callRegistered hscope hdefined hf (by rwa [List.length_map]) htype
        (ih hscope houter hopened hroom hs)
  | ifThen _ hcondition _ _ ihc iht =>
      rw [inferWith]
      refine (hcondition ▸ ihc hscope houter hopened hroom hs).condition fun s₁ hs₁ => ?_
      exact (iht hscope houter hopened hroom hs₁).imp fun _ => covers_merge.mpr
  | ifElse _ hcondition _ _ hjoin _ _ _ _ ihc iht ihe =>
      rw [inferWith]
      refine (hcondition ▸ ihc hscope houter hopened hroom hs).condition fun s₁ hs₁ => ?_
      refine (iht hscope houter hopened hroom hs₁).bind fun s₂ hs₂ => ?_
      refine (ihe hscope houter hopened hroom (covers_merge.mpr hs₂)).bind fun s₃ hs₃ => ?_
      rw [if_neg fun h => h.2 (hjoin h.1)]
      exact settles_pure (covers_merge.mpr hs₃)
  | assign _ _ ih => exact settles_assignment (ih hscope houter hopened hroom hs)
  | named _ ih =>
      rw [inferWith]
      exact ih hscope houter hopened hroom hs
  | vector _ ih =>
      rw [inferWith]
      exact (ih hscope houter hopened hroom hs).discard_bind fun _ hs₁ => settles_pure hs₁
  | index _ _ ihv ihi =>
      rw [inferWith]
      refine (ihv hscope houter hopened hroom hs).discard_bind fun s₁ hs₁ => ?_
      exact (ihi hscope houter hopened hroom hs₁).discard_bind fun _ hs₂ => settles_pure hs₂
  | path hf htype =>
      rw [inferWith]
      unfold pathType
      rw [Scope.dataSets_of_blank hscope, hf]
      dsimp only
      rw [htype]
      exact settles_pure hs
  | project _ => exact settles_pure hs
  | sequence _ ih =>
      rw [inferWith]
      refine (ih hscope houter hopened hroom hs).bind fun s₁ hs₁ => ?_
      rw [Known.type_last]
      exact settles_pure hs₁
  | nil => exact settles_pure ‹_›
  | cons _ _ ihe ihes =>
      rename_i hscope houter _ _ hopened hroom _ hs
      rw [inferAllWith]
      refine (ihe hscope houter hopened hroom hs).bind fun s₁ hs₁ => ?_
      exact (ihes hscope houter hopened hroom hs₁).bind fun s₂ hs₂ => settles_pure hs₂

theorem settles_inferAllWith {active : List String} {Γ Γ' : View} {es : List Expr}
    {ks : List Known} (h : TypedAll D base active Γ es ks Γ') {scope outer : Scope}
    (hscope : scope.blank = base) (houter : outer.blank = base) {free : Nat} {opened : List String}
    (hopened : opened ⊆ active) (hroom : base.functions.Room free opened) {s : Findings}
    (hs : s.Covers scope Γ) :
    Settles (inferAllWith scope (enter outer free opened) es) s (ks.map Known.type) fun s' =>
      s'.Covers scope Γ' := by
  induction es generalizing s Γ ks with
  | nil =>
      cases h with
      | nil => exact settles_pure hs
  | cons e es ih =>
      cases h with
      | cons he hes =>
          rw [inferAllWith]
          refine (settles_inferWith he hscope houter hopened hroom hs).bind fun s₁ hs₁ => ?_
          exact (ih hes hs₁).bind fun s₂ hs₂ => settles_pure hs₂

end Expr

/-! ### The check -/

/-- What the types of variables alone say about them: any of them may be `void`. -/
def View.ofTypes (types : String → Option ValueType) : View :=
  fun name => (types name).map fun t => { type := t }

@[simp] theorem View.types_ofTypes (types : String → Option ValueType) :
    (View.ofTypes types).types = types := by
  funext name
  unfold View.types View.ofTypes
  cases types name <;> rfl

/-- A result can be decided by itself, without the errors. -/
theorem eq_ok_of_toOption {ε α : Type} {x : Except ε α} {a : α}
    (h : x.toOption = some a) : x = .ok a := by
  cases x with
  | ok b => exact congrArg Except.ok (Option.some.inj h)
  | error e => cases h

theorem FunctionDefs.room_nil (functions : FunctionDefs) :
    functions.Room functions.size [] :=
  ⟨List.nodup_nil, List.nil_subset _, Nat.le_refl _⟩

theorem Findings.covers_empty {scope : Scope} {Γ : View}
    (hΓ : ∀ name t, Γ.types name = some t → scope.variableType name = some t) :
    ({} : Findings).Covers scope Γ := by
  intro name t ht
  simp [Findings.view, hΓ name t ht]

namespace Scope

variable {D : Discipline} {scope : Scope} {Γ Γ' : View} {e : Expr} {k : Known} {t : ValueType}

/-- The type of an expression in a scope that knows more than the rules need. -/
theorem typeOf_of_typed {active : List String} (h : Typed D scope.blank active Γ e k Γ')
    (hΓ : ∀ name t, Γ.types name = some t → scope.variableType name = some t) :
    scope.typeOf e = k.type := by
  obtain ⟨s', hrun, _, _⟩ := Expr.settles_inferWith h rfl rfl (List.nil_subset _)
    (FunctionDefs.room_nil _) (Findings.covers_empty hΓ)
  unfold typeOf infer
  rw [show scope.functions = scope.blank.functions from rfl, hrun]

/-- An expression that follows the rules passes the check in a scope that knows more than the rules
need. -/
theorem check_of_typed (h : Typed D scope.blank [] Γ e k Γ')
    (hΓ : ∀ name t, Γ.types name = some t → scope.variableType name = some t) :
    scope.check e = .ok k.type := by
  obtain ⟨s', hrun, hissues, _⟩ := Expr.settles_inferWith h rfl rfl (List.nil_subset _)
    (FunctionDefs.room_nil _) (Findings.covers_empty hΓ)
  unfold check infer
  rw [show scope.functions = scope.blank.functions from rfl, hrun]
  simp [hissues]

theorem typed_of_check (hD : D.Suits scope.functions) (he : e.every D.allows = true)
    (hcheck : scope.check e = .ok t) (hΓ : Γ.types = scope.variableType) :
    ∃ k Γ', Typed D scope.blank [] Γ e k Γ' ∧ k.type = t := by
  have hfinds := (Expr.finds_inferWith hD (Expr.follows_enter hD scope.functions.size []) e he) {}
  unfold check infer at hcheck
  rcases hrun : (e.inferWith scope (Expr.enter scope scope.functions.size [])).run {} with
    ⟨type, findings⟩
  rw [hrun] at hfinds hcheck
  cases hissue : findings.issues[0]? with
  | some issue =>
      simp only [hissue] at hcheck
      cases hcheck
  | none =>
      simp only [hissue] at hcheck
      cases hcheck
      obtain ⟨k, Γ', hk, htype, _⟩ := hfinds.2 (by simpa using hissue) Γ (by
        rw [hΓ]
        funext name
        simp [Findings.view])
      exact ⟨k, Γ', hk, htype⟩

/-- **The rules are the check.** -/
theorem check_eq_ok_iff : scope.check e = .ok t ↔
    ∃ k Γ', Typed .lax scope.blank [] (View.ofTypes scope.variableType) e k Γ' ∧ k.type = t := by
  constructor
  · intro h
    exact typed_of_check (Discipline.suits_lax _) (Expr.every_of_forall (fun _ => rfl) e) h
      (View.types_ofTypes _)
  · rintro ⟨k, Γ', h, rfl⟩
    exact check_of_typed h fun _ _ ht => by simpa using ht

/-- **To know more changes no check that is passed.**  An expression passes the check with the same
type in a scope that has further variables. -/
theorem check_of_knows {more : Scope} (hblank : scope.blank = more.blank)
    (hknows : ∀ name t, scope.variableType name = some t → more.variableType name = some t)
    (h : scope.check e = .ok t) : more.check e = .ok t := by
  obtain ⟨k, Γ', htyped, rfl⟩ := check_eq_ok_iff.mp h
  exact check_of_typed (hblank ▸ htyped) fun name u hu => hknows name u (by simpa using hu)

/-- The type of a program is that of the last of its statements. -/
theorem run_inferProgram {p : Program} {types : List ValueType} {s : Findings}
    (h : ({ scope with functions := p.functions }.inferAll p.statements).run {} = (types, s)) :
    (scope.inferProgram p).run {} = (types.getLastD .void, s) := by
  unfold inferProgram
  rw [StateT.run_bind, h]
  rfl

theorem type_of_checkProgram {p : Program} {ks : List Known}
    (h : TypedAll D { scope with functions := p.functions }.blank [] Γ p.statements ks Γ')
    (hΓ : ∀ name t, Γ.types name = some t → scope.variableType name = some t) :
    scope.checkProgram p = .ok (Known.last ks).type := by
  have hblank : ({ scope with functions := p.functions } : Scope).blank =
      { scope with functions := p.functions }.blank := rfl
  obtain ⟨s', hrun, hissues, _⟩ := Expr.settles_inferAllWith h hblank hblank (List.nil_subset _)
    (FunctionDefs.room_nil _) (Findings.covers_empty hΓ)
  unfold checkProgram
  rw [run_inferProgram hrun, Known.type_last]
  dsimp only
  rw [hissues]
  rfl

theorem typed_of_checkProgram {p : Program} (hD : D.Suits p.functions)
    (hp : Expr.everyIn D.allows p.statements = true) (hcheck : scope.checkProgram p = .ok t)
    (hΓ : Γ.types = scope.variableType) :
    ∃ ks Γ', TypedAll D { scope with functions := p.functions }.blank [] Γ p.statements ks Γ' ∧
      (Known.last ks).type = t := by
  let inner : Scope := { scope with functions := p.functions }
  have hsuits : D.Suits inner.functions := hD
  have hfinds := (Expr.finds_inferAllWith hsuits
    (Expr.follows_enter hsuits p.functions.size []) p.statements hp) {}
  rcases hrun : (Expr.inferAllWith inner (Expr.enter inner p.functions.size [])
    p.statements).run {} with ⟨types, findings⟩
  rw [hrun] at hfinds
  unfold checkProgram at hcheck
  rw [run_inferProgram hrun] at hcheck
  dsimp only at hcheck
  cases hissue : findings.issues[0]? with
  | some issue =>
      rw [hissue] at hcheck
      cases hcheck
  | none =>
      rw [hissue] at hcheck
      cases hcheck
      obtain ⟨ks, Γ', hks, rfl, _⟩ := hfinds.2 (by simpa using hissue) Γ (by
        rw [hΓ]
        funext name
        simp [Findings.view, inner])
      exact ⟨ks, Γ', hks, Known.type_last ks⟩

end Scope

end FrameLang
