/-
What an expression needs to be told of names.

A name that an expression has not assigned is looked up outside: it is a column, or it is nothing.
`needs name` says of an expression that some way through it may ask for `name` before assigning it,
and `assigns name` that every way through it assigns it.  What is on the way is decided without
evaluating: a branch of an `if` may be skipped, and so may the right operand of `and` and `or`.

A name is asked for in two ways.  Evaluating a variable looks it up, and fails if nothing has the
name.  The evaluator also infers the type of a branch that it did not take, and a name that nothing
has is no failure there: the branch only has no type then.

The statements below take two places that know the same names apart from some, `N`.  An expression
that needs none of these cannot tell the places apart, neither when its type is inferred nor when it
is evaluated.  If it only looks some of them up, and the first place has nothing of those names,
then it fails there or does the same in both.
-/
import FrameLang.Proofs.Typing.Functions

namespace FrameLang

namespace Expr

/-! ### Names on the way -/

mutual

/-- Whether every way through the expression assigns the name. -/
def assigns (name : String) : Expr → Bool
  | literal _ | var _ | path .. | project .. => false
  | unary _ e | named _ e => e.assigns name
  | binary (.connective _) l _ => l.assigns name
  | binary _ l r | index l r => l.assigns name || r.assigns name
  | call _ es | vector es | sequence es => assignsIn name es
  | ifElse c _ none => c.assigns name
  | ifElse c t (some e) => c.assigns name || (t.assigns name && e.assigns name)
  | assign other e => other == name || e.assigns name

def assignsIn (name : String) : List Expr → Bool
  | [] => false
  | e :: es => e.assigns name || assignsIn name es

end

mutual

/-- Whether some way through the expression may ask for the name before it is assigned.  A variable
that is looked up counts if `looks`; a name whose type is inferred counts always. -/
def needs (name : String) (looks : Bool) : Expr → Bool
  | literal _ | path .. | project .. => false
  | var other => looks && other == name
  | unary _ e | named _ e | assign _ e => e.needs name looks
  | binary _ l r | index l r => l.needs name looks || (!l.assigns name && r.needs name looks)
  | call _ es | vector es | sequence es => needsIn name looks es
  | ifElse c t none => c.needs name looks || (!c.assigns name && t.needs name looks)
  | ifElse c t (some e) =>
    c.needs name looks || (!c.assigns name && (t.needs name true || e.needs name true))

def needsIn (name : String) (looks : Bool) : List Expr → Bool
  | [] => false
  | e :: es => e.needs name looks || (!e.assigns name && needsIn name looks es)

end

end Expr

/-- The names that are bound and those that are assigned on every way. -/
def Bindings.Has {α : Type} (b : Bindings α) (name : String) : Prop := (b.find? name).isSome = true

theorem Bindings.has_insert {α : Type} {b : Bindings α} {name other : String} {a : α} :
    (b.insert name a).Has other ↔ other = name ∨ b.Has other := by
  unfold Has
  rw [find?_insert]
  split
  · simp [*]
  · simp [*]

section Ready

variable {N has has' : String → Prop} {first last assigned : String → Bool}

/-- What the first of two parts needs is there if what both need is. -/
theorem ready_first (h : ∀ n, N n → (first n || (!assigned n && last n)) = true → has n) :
    ∀ n, N n → first n = true → has n :=
  fun n hn hfirst => h n hn (by rw [hfirst, Bool.true_or])

/-- What the second part needs is there after the first, which may have assigned it. -/
theorem ready_last (h : ∀ n, N n → (first n || (!assigned n && last n)) = true → has n)
    (hfirst : ∀ n, assigned n = true ∨ has n → has' n) : ∀ n, N n → last n = true → has' n := by
  intro n hn hlast
  cases hassigned : assigned n with
  | true => exact hfirst n (Or.inl hassigned)
  | false => exact hfirst n (Or.inr (h n hn (by simp [hassigned, hlast])))

/-- What two parts assign is there after both. -/
theorem has_both {has'' : String → Prop} (h : ∀ n, assigned n = true ∨ has n → has' n)
    (h' : ∀ n, last n = true ∨ has' n → has'' n) :
    ∀ n, (assigned n || last n) = true ∨ has n → has'' n := by
  intro n hn
  rw [Bool.or_eq_true, or_right_comm] at hn
  exact hn.elim (fun hfirst => h' n (Or.inr (h n hfirst))) fun hlast => h' n (Or.inl hlast)

/-- What an `if` assigns is there after the condition or is assigned in both branches. -/
theorem has_branches {other : String → Bool} (h : ∀ n, assigned n = true ∨ has n → has' n) :
    ∀ n, (assigned n || (last n && other n)) = true ∨ has n →
      last n = true ∧ other n = true ∨ has' n := by
  intro n hn
  rw [Bool.or_eq_true, Bool.and_eq_true] at hn
  rcases hn with (hassigned | hboth) | hhas
  · exact Or.inr (h n (Or.inl hassigned))
  · exact Or.inl hboth
  · exact Or.inr (h n (Or.inr hhas))

end Ready

/-! ### Names that are not assigned -/

/-- Whether a node does not assign the name. -/
def Expr.isNoAssignmentTo (name : String) : Expr → Bool
  | assign other _ => other != name
  | _ => true

theorem View.merge_eq_none {Γ Γ' : View} {name : String} (h : Γ' name = none) :
    Γ.merge Γ' name = none := by
  unfold merge
  rw [h]

/-- The rules have no place for a name that is neither known nor assigned. -/
theorem Typed.needs_eq_false {D : Discipline} {name : String} {scope : Scope}
    {active : List String} {Γ Γ' : View} {e : Expr} {k : Known} (h : Typed D scope active Γ e k Γ')
    (he : e.every (Expr.isNoAssignmentTo name) = true) (hΓ : Γ name = none) :
    e.needs name true = false ∧ Γ' name = none := by
  induction h using @Typed.rec D scope _ (fun _ Γ es _ Γ' _ =>
    Expr.everyIn (Expr.isNoAssignmentTo name) es = true → Γ name = none →
      Expr.needsIn name true es = false ∧ Γ' name = none) with
  | literal | path | project => exact ⟨rfl, hΓ⟩
  | nil _ hΓ => exact ⟨rfl, hΓ⟩
  | @var _ _ other _ hother =>
      refine ⟨beq_eq_false_iff_ne.mpr ?_, hΓ⟩
      rintro rfl
      rw [hΓ] at hother
      cases hother
  | unary _ _ ih | named _ ih | vector _ ih | sequence _ ih =>
      simp only [Expr.every, Bool.and_eq_true] at he
      exact ih he.2 hΓ
  | callDefined _ _ _ _ _ ih | callRegistered _ _ _ _ _ _ ih =>
      simp only [Expr.every, Bool.and_eq_true] at he
      exact ih he.2 hΓ
  | binary _ _ _ _ ihl ihr | index _ _ ihl ihr =>
      simp only [Expr.every, Bool.and_eq_true] at he
      obtain ⟨hl, hΓ₁⟩ := ihl he.1.2 hΓ
      obtain ⟨hr, hΓ₂⟩ := ihr he.2 hΓ₁
      exact ⟨by simp [Expr.needs, hl, hr], hΓ₂⟩
  | cons _ _ ihl ihr he hΓ =>
      simp only [Expr.everyIn, Bool.and_eq_true] at he
      obtain ⟨hl, hΓ₁⟩ := ihl he.1 hΓ
      obtain ⟨hr, hΓ₂⟩ := ihr he.2 hΓ₁
      exact ⟨by simp [Expr.needsIn, hl, hr], hΓ₂⟩
  | connective _ _ _ _ ihl ihr =>
      simp only [Expr.every, Bool.and_eq_true] at he
      obtain ⟨hl, hΓ₁⟩ := ihl he.1.2 hΓ
      obtain ⟨hr, hΓ₂⟩ := ihr he.2 hΓ₁
      exact ⟨by simp [Expr.needs, hl, hr], View.merge_eq_none hΓ₂⟩
  | ifThen _ _ _ _ ihc iht =>
      simp only [Expr.every, Bool.and_eq_true] at he
      obtain ⟨hc, hΓ₁⟩ := ihc he.1.2 hΓ
      obtain ⟨ht, hΓ₂⟩ := iht he.2 hΓ₁
      exact ⟨by simp [Expr.needs, hc, ht], View.merge_eq_none hΓ₂⟩
  | ifElse _ _ _ _ _ _ _ _ _ ihc iht ihe =>
      simp only [Expr.every, Bool.and_eq_true] at he
      obtain ⟨hc, hΓ₁⟩ := ihc he.1.1.2 hΓ
      obtain ⟨ht, hΓ₂⟩ := iht he.1.2 hΓ₁
      obtain ⟨he, hΓ₃⟩ := ihe he.2 (View.merge_eq_none hΓ₂)
      exact ⟨by simp [Expr.needs, hc, ht, he], View.merge_eq_none hΓ₃⟩
  | assign _ _ ih =>
      simp only [Expr.every, Bool.and_eq_true] at he
      obtain ⟨hneeds, hΓ₁⟩ := ih he.2 hΓ
      refine ⟨hneeds, ?_⟩
      unfold View.bind
      rw [if_neg (Ne.symm (bne_iff_ne.mp he.1)), hΓ₁]

/-! ### Inference -/

namespace Typing

variable {α β : Type} {s : Findings} {Q : α → Findings → Prop}

/-- Two walks do the same, and end with a result and findings that satisfy `Q`. -/
def Same (walk walk' : Typing α) (s : Findings) (Q : α → Findings → Prop) : Prop :=
  walk.run s = walk'.run s ∧ Q (walk.run s).1 (walk.run s).2

theorem same_self {walk : Typing α} (h : Q (walk.run s).1 (walk.run s).2) : Same walk walk s Q :=
  ⟨rfl, h⟩

theorem Same.bind {x x' : Typing α} {f f' : α → Typing β} {R : β → Findings → Prop}
    (hx : Same x x' s Q) (hf : ∀ a s', Q a s' → Same (f a) (f' a) s' R) :
    Same (x >>= f) (x' >>= f') s R := by
  obtain ⟨hrun, hQ⟩ := hx
  obtain ⟨hrun', hR⟩ := hf _ _ hQ
  refine ⟨?_, hR⟩
  rw [StateT.run_bind, StateT.run_bind, ← hrun]
  exact hrun'

theorem Same.imp {x x' : Typing α} {R : α → Findings → Prop} (h : Same x x' s Q)
    (hQ : ∀ a s', Q a s' → R a s') : Same x x' s R :=
  ⟨h.1, hQ _ _ h.2⟩

theorem same_discard {x x' : Typing α} {P : Findings → Prop}
    (hx : Same x x' s fun _ s' => P s') :
    Same (discard x) (discard x') s fun _ s' => P s' := by
  change Same (x >>= fun _ => pure ()) (x' >>= fun _ => pure ()) s _
  exact hx.bind fun _ _ h => same_self h

/-- The walk leaves the types of variables as they are. -/
def KeepsTypes (walk : Typing α) : Prop := ∀ s : Findings, (walk.run s).2.types = s.types

theorem KeepsTypes.same {walk : Typing α} (h : KeepsTypes walk)
    (hQ : ∀ a s', s'.types = s.types → Q a s') : Same walk walk s Q :=
  same_self (hQ _ _ (h s))

theorem keepsTypes_pure (a : α) : KeepsTypes (pure a) := fun _ => rfl

theorem keepsTypes_note (problem : TypeProblem) (e : Expr) : KeepsTypes (note problem e) :=
  fun _ => rfl

theorem KeepsTypes.bind {x : Typing α} {f : α → Typing β} (hx : KeepsTypes x)
    (hf : ∀ a, KeepsTypes (f a)) : KeepsTypes (x >>= f) := by
  intro s
  rw [StateT.run_bind]
  exact (hf _ _).trans (hx s)

theorem keepsTypes_isolated (types : Bindings ValueType) (walk : Typing α) :
    KeepsTypes (isolated types walk) := fun _ => rfl

/-- Conditions are followed by the same if they do the same. -/
theorem Same.condition {c c' : Typing ValueType} {e : Expr} {rest rest' : Typing α}
    {P : Bindings ValueType → Prop} (hc : Same c c' s fun _ s' => P s'.types)
    (hrest : ∀ s', P s'.types → Same rest rest' s' Q) :
    Same (do
      if (← c) ≠ .boolean then
        discard <| note .condition e
      rest) (do
      if (← c') ≠ .boolean then
        discard <| note .condition e
      rest') s Q := by
  refine hc.bind fun t s₁ hs₁ => ?_
  split
  · refine Same.bind (Q := fun _ s' => P s'.types) ?_ fun _ s₂ hs₂ => hrest s₂ hs₂
    exact same_discard (same_self hs₁)
  · exact hrest s₁ hs₁

end Typing

namespace Expr

open Typing

theorem keepsTypes_operatorType (e : Expr) (t : ValueType) : KeepsTypes (operatorType e t) := by
  unfold operatorType
  split
  · exact keepsTypes_note _ _
  · exact keepsTypes_pure _

theorem keepsTypes_registeredCallType (registry : Registry) (e : Expr) (name : String)
    (types : List ValueType) : KeepsTypes (registeredCallType registry e name types) := by
  unfold registeredCallType
  split
  · exact keepsTypes_note _ _
  · split
    · exact keepsTypes_note _ _
    · split
      · exact keepsTypes_pure _
      · exact keepsTypes_note _ _

theorem keepsTypes_pathType (dataSets : Bindings Frame) (dataSet : String) (field : List String) :
    KeepsTypes (pathType dataSets dataSet field) := by
  unfold pathType
  split
  · exact keepsTypes_note _ _
  · split
    · exact keepsTypes_pure _
    · exact keepsTypes_note _ _

theorem keepsTypes_enter (scope : Scope) (free : Nat) (active : List String) (f : FunctionDef)
    (types : List ValueType) : KeepsTypes (enter scope free active f types) := by
  cases free with
  | zero => exact keepsTypes_pure _
  | succ free =>
      rw [enter]
      split
      · exact keepsTypes_pure _
      · exact keepsTypes_isolated _ _

/-- The bodies of functions see no variables from outside. -/
theorem enter_congr {scope scope' : Scope} (h : scope.blank = scope'.blank) (free : Nat)
    (active : List String) : enter scope free active = enter scope' free active := by
  induction free generalizing active with
  | zero => rfl
  | succ free ih =>
      funext f types
      have hinner : ({ scope with variableType := fun _ => none } : Scope) =
          { scope' with variableType := fun _ => none } := h
      rw [enter, enter, ih, hinner]

end Expr

/-- Two scopes that know the same of every name apart from some. -/
structure Scope.Alike (N : String → Prop) (scope scope' : Scope) : Prop where
  blank : scope.blank = scope'.blank
  variableType : ∀ name, ¬N name → scope.variableType name = scope'.variableType name

namespace Expr

open Typing

section Inference

variable {N : String → Prop} {scope scope' : Scope} {enter : EnterFunction}

/-- From findings that have the names that the expression needs, both scopes give it one type, and
the names that it assigns are found as well. -/
def InfersAlike (N : String → Prop) (scope scope' : Scope) (enter : EnterFunction) (e : Expr) :
    Prop :=
  ∀ ⦃s : Findings⦄, (∀ n, N n → e.needs n true = true → s.types.Has n) →
    Same (e.inferWith scope enter) (e.inferWith scope' enter) s fun _ s' =>
      ∀ n, e.assigns n = true ∨ s.types.Has n → s'.types.Has n

theorem infersAlike_var (hscope : scope.Alike N scope') (name : String) :
    InfersAlike N scope scope' enter (var name) := by
  intro s h
  have hview : (s.types.find? name).or (scope.variableType name) =
      (s.types.find? name).or (scope'.variableType name) := by
    by_cases hname : N name
    · have hhas := h name hname (by simp [needs])
      rw [Bindings.Has, Option.isSome_iff_exists] at hhas
      obtain ⟨t, ht⟩ := hhas
      rw [ht]
      rfl
    · rw [hscope.variableType name hname]
  rw [inferWith, inferWith]
  refine Same.bind (same_self (Q := fun a s' => a = s ∧ s' = s) ⟨rfl, rfl⟩) ?_
  rintro a s₁ ⟨rfl, rfl⟩
  rw [hview]
  refine KeepsTypes.same ?_ fun _ s' hs' n hn => hs' ▸ hn.resolve_left Bool.false_ne_true
  split
  · exact keepsTypes_pure _
  · exact keepsTypes_note _ _

theorem infersAlike_binary {op : BinaryOp} {l r : Expr} (hl : InfersAlike N scope scope' enter l)
    (hr : InfersAlike N scope scope' enter r) :
    InfersAlike N scope scope' enter (binary op l r) := by
  intro s h
  -- A connective may skip its right operand, so it assigns no more than any other operator.
  have hassigns : ∀ n, (binary op l r).assigns n = true →
      (l.assigns n || r.assigns n) = true := by
    intro n hn
    cases op with
    | connective c => exact Bool.or_eq_true_iff.mpr (Or.inl hn)
    | _ => exact hn
  rw [inferWith, inferWith]
  refine (hl (ready_first h)).bind fun a s₁ hs₁ => ?_
  refine (hr (ready_last h hs₁)).bind fun b s₂ hs₂ => ?_
  exact (keepsTypes_operatorType _ _).same fun _ s₃ hs₃ n hn =>
    hs₃ ▸ has_both hs₁ hs₂ n (hn.imp_left (hassigns n))

theorem infersAlike_ifThen {c t : Expr} (hc : InfersAlike N scope scope' enter c)
    (ht : InfersAlike N scope scope' enter t) :
    InfersAlike N scope scope' enter (ifElse c t none) := by
  intro s h
  rw [inferWith, inferWith]
  refine Same.condition (P := fun types => ∀ n, c.assigns n = true ∨ s.types.Has n →
    types.Has n) (hc (ready_first h)) fun s₁ hs₁ => ?_
  exact (ht (ready_last h hs₁)).imp fun _ s₂ hs₂ n hn => hs₂ n (Or.inr (hs₁ n hn))

theorem infersAlike_ifElse {c t e : Expr} (hc : InfersAlike N scope scope' enter c)
    (ht : InfersAlike N scope scope' enter t) (he : InfersAlike N scope scope' enter e) :
    InfersAlike N scope scope' enter (ifElse c t (some e)) := by
  intro s h
  rw [inferWith, inferWith]
  refine Same.condition (P := fun types => ∀ n, c.assigns n = true ∨ s.types.Has n →
    types.Has n) (hc (ready_first h)) fun s₁ hs₁ => ?_
  have hbranches := ready_last h hs₁
  refine (ht fun n hn ht => hbranches n hn (by simp [ht])).bind fun a s₂ hs₂ => ?_
  refine (he fun n hn he => hs₂ n (Or.inr (hbranches n hn (by simp [he])))).bind
    fun b s₃ hs₃ => ?_
  have hall : ∀ n, (ifElse c t (some e)).assigns n = true ∨ s.types.Has n → s₃.types.Has n := by
    have hassigns : ∀ n, (ifElse c t (some e)).assigns n = true ∨ s.types.Has n →
        t.assigns n = true ∧ e.assigns n = true ∨ s₁.types.Has n := has_branches hs₁
    exact fun n hn => hs₃ n (Or.inr (hs₂ n ((hassigns n hn).imp_left And.left)))
  split
  · exact (keepsTypes_note _ _).same fun _ s₄ hs₄ n hn => hs₄ ▸ hall n hn
  · exact (keepsTypes_pure _).same fun _ s₄ hs₄ n hn => hs₄ ▸ hall n hn

theorem infersAlike_assign {name : String} {e : Expr} (he : InfersAlike N scope scope' enter e) :
    InfersAlike N scope scope' enter (Expr.assign name e) := by
  intro s h
  rw [inferWith, inferWith]
  refine (he h).bind fun t s₁ hs₁ => ?_
  refine Same.bind (same_self (Q := fun _ s' => s'.types = s₁.types.insert name t) rfl) ?_
  intro _ s₂ hs₂
  refine (keepsTypes_pure t).same fun _ s₃ hs₃ n hn => ?_
  rw [hs₃, hs₂, Bindings.has_insert]
  rw [assigns, Bool.or_eq_true, beq_iff_eq, or_assoc] at hn
  exact hn.imp Eq.symm (hs₁ n)

theorem infersAlike_index {v i : Expr} (hv : InfersAlike N scope scope' enter v)
    (hi : InfersAlike N scope scope' enter i) :
    InfersAlike N scope scope' enter (index v i) := by
  intro s h
  rw [inferWith, inferWith]
  refine (same_discard (hv (ready_first h))).bind fun _ s₁ hs₁ => ?_
  refine (same_discard (hi (ready_last h hs₁))).bind fun _ s₂ hs₂ => ?_
  exact (keepsTypes_pure _).same fun _ s₃ hs₃ n hn => hs₃ ▸ has_both hs₁ hs₂ n hn

mutual

/-- The type of an expression that needs none of the names is the same in both scopes. -/
theorem infersAlike (hscope : scope.Alike N scope')
    (henter : ∀ f types, KeepsTypes (enter f types)) (e : Expr) :
    InfersAlike N scope scope' enter e := by
  cases e with
  | literal | project =>
      intro s h
      exact (keepsTypes_pure _).same fun _ s' hs' n hn => hs' ▸ hn.resolve_left nofun
  | var name => exact infersAlike_var hscope name
  | unary op e =>
      intro s h
      rw [inferWith, inferWith]
      refine (infersAlike hscope henter e h).bind fun t s₁ hs₁ => ?_
      exact (keepsTypes_operatorType _ _).same fun _ s₂ hs₂ n hn => hs₂ ▸ hs₁ n hn
  | binary op l r =>
      exact infersAlike_binary (infersAlike hscope henter l) (infersAlike hscope henter r)
  | call name es =>
      intro s h
      rw [inferWith, inferWith, Scope.functions_of_blank hscope.blank,
        Scope.registry_of_blank hscope.blank]
      refine (allInferAlike hscope henter es h).bind fun types s₁ hs₁ => ?_
      refine KeepsTypes.same ?_ fun _ s₂ hs₂ n hn => hs₂ ▸ hs₁ n hn
      split
      · split
        · exact keepsTypes_note _ _
        · refine (henter _ _).bind fun t => ?_
          split
          · exact keepsTypes_pure _
          · exact keepsTypes_note _ _
      · exact keepsTypes_registeredCallType _ _ _ _
  | ifElse c t e =>
      have hc := infersAlike hscope henter c
      have ht := infersAlike hscope henter t
      cases e with
      | none => exact infersAlike_ifThen hc ht
      | some e => exact infersAlike_ifElse hc ht (infersAlike hscope henter e)
  | assign name e => exact infersAlike_assign (infersAlike hscope henter e)
  | named name e =>
      intro s h
      rw [inferWith, inferWith]
      exact infersAlike hscope henter e h
  | vector es =>
      intro s h
      rw [inferWith, inferWith]
      refine (same_discard (allInferAlike hscope henter es h)).bind fun _ s₁ hs₁ => ?_
      exact (keepsTypes_pure _).same fun _ s₂ hs₂ n hn => hs₂ ▸ hs₁ n hn
  | index v i => exact infersAlike_index (infersAlike hscope henter v) (infersAlike hscope henter i)
  | path dataSet field =>
      intro s h
      rw [inferWith, inferWith, Scope.dataSets_of_blank hscope.blank]
      exact (keepsTypes_pathType _ _ _).same fun _ s' hs' n hn => hs' ▸ hn.resolve_left nofun
  | sequence es =>
      intro s h
      rw [inferWith, inferWith]
      refine (allInferAlike hscope henter es h).bind fun types s₁ hs₁ => ?_
      exact (keepsTypes_pure _).same fun _ s₂ hs₂ n hn => hs₂ ▸ hs₁ n hn
termination_by structural e

theorem allInferAlike (hscope : scope.Alike N scope')
    (henter : ∀ f types, KeepsTypes (enter f types)) (es : List Expr) {s : Findings}
    (h : ∀ n, N n → needsIn n true es = true → s.types.Has n) :
    Same (inferAllWith scope enter es) (inferAllWith scope' enter es) s fun _ s' =>
      ∀ n, assignsIn n es = true ∨ s.types.Has n → s'.types.Has n := by
  cases es with
  | nil => exact (keepsTypes_pure _).same fun _ s' hs' n hn => hs' ▸ hn.resolve_left nofun
  | cons e es =>
      rw [inferAllWith, inferAllWith]
      refine (infersAlike hscope henter e (ready_first h)).bind fun t s₁ hs₁ => ?_
      refine (allInferAlike hscope henter es (ready_last h hs₁)).bind fun ts s₂ hs₂ => ?_
      exact (keepsTypes_pure _).same fun _ s₃ hs₃ n hn => hs₃ ▸ has_both hs₁ hs₂ n hn
termination_by structural es

end

end Inference

end Expr

/-- An expression that needs none of the names has the same type in both scopes. -/
theorem Scope.Alike.typeOf_eq {N : String → Prop} {scope scope' : Scope}
    (h : scope.Alike N scope') {e : Expr} (he : ∀ n, N n → e.needs n true = false) :
    scope.typeOf e = scope'.typeOf e := by
  have hsame := Expr.infersAlike h (Expr.keepsTypes_enter scope scope.functions.size []) e
    (s := {}) fun n hn hneeds => by rw [he n hn] at hneeds; cases hneeds
  unfold typeOf infer
  rw [hsame.1, Expr.enter_congr h.blank, functions_of_blank h.blank]
  rfl

theorem Scope.Alike.inferAll_eq {N : String → Prop} {scope scope' : Scope}
    (h : scope.Alike N scope') {es : List Expr}
    (hes : ∀ n, N n → Expr.needsIn n true es = false) :
    ((scope.inferAll es).run {}).1 = ((scope'.inferAll es).run {}).1 := by
  have hsame := Expr.allInferAlike h (Expr.keepsTypes_enter scope scope.functions.size []) es
    (s := {}) fun n hn hneeds => by rw [hes n hn] at hneeds; cases hneeds
  unfold inferAll
  rw [hsame.1, Expr.enter_congr h.blank, functions_of_blank h.blank]
  rfl

/-! ### Evaluation -/

namespace Run

variable {α β : Type} {s : Store} {Q : α → Store → Prop} {E lost : Stop → Prop}

/-- Two runs do the same, unless the first stops for a reason that satisfies `lost`.  They end with
a result and a store that satisfy `Q` or stop for a reason that satisfies `E`. -/
def Same (run run' : Run α) (s : Store) (Q : α → Store → Prop) (E lost : Stop → Prop) : Prop :=
  Meets run s (fun a s' => run' s = (.ok a, s') ∧ Q a s')
    fun stop s' => lost stop ∨ run' s = (.error stop, s') ∧ E stop

theorem same_self {run : Run α} (h : Meets run s Q fun stop _ => E stop) :
    Same run run s Q E lost :=
  meets_iff.mpr ⟨fun _ _ hrun => ⟨hrun, h.result hrun⟩,
    fun _ _ hrun => Or.inr ⟨hrun, h.stop hrun⟩⟩

theorem Same.bind {x x' : Run α} {f f' : α → Run β} {R : β → Store → Prop}
    (hx : Same x x' s Q E lost) (hf : ∀ a s', Q a s' → Same (f a) (f' a) s' R E lost) :
    Same (x >>= f) (x' >>= f') s R E lost := by
  unfold Same Meets at hx
  unfold Same Meets
  rw [run_bind, run_bind]
  rcases hrun : x s with ⟨stop | a, s'⟩
  · rw [hrun] at hx
    exact hx.imp_right fun h => by rw [h.1]; exact ⟨rfl, h.2⟩
  · rw [hrun] at hx
    rw [hx.1]
    exact hf a s' hx.2

theorem Same.eq_or_lost {x x' : Run α} (h : Same x x' s Q E lost) :
    x s = x' s ∨ ∃ stop s', x s = (.error stop, s') ∧ lost stop := by
  unfold Same Meets at h
  rcases hrun : x s with ⟨stop | a, s'⟩
  · rw [hrun] at h
    rcases h with h | h
    · exact Or.inr ⟨stop, s', rfl, h⟩
    · exact Or.inl h.1.symm
  · rw [hrun] at h
    exact Or.inl h.1.symm

theorem Same.imp_result {x x' : Run α} {R : α → Store → Prop} (h : Same x x' s Q E lost)
    (hQ : ∀ a s', Q a s' → R a s') : Same x x' s R E lost :=
  Meets.imp_result h fun a s' ha => ⟨ha.1, hQ a s' ha.2⟩

/-- Two runs that do the same as a third do the same. -/
theorem Same.both {x y z : Run α} (hy : Same x y s Q E fun _ => False)
    (hz : Same x z s Q E fun _ => False) : Same y z s Q E fun _ => False := by
  unfold Same Meets at *
  rcases hrun : x s with ⟨stop | a, s'⟩
  · rw [hrun] at hy hz
    rw [(hy.resolve_left id).1]
    exact hz
  · rw [hrun] at hy hz
    rw [hy.1]
    exact hz

theorem Same.meets {x x' : Run α} (h : Same x x' s Q E fun _ => False) :
    Meets x' s Q fun stop _ => E stop := by
  unfold Same Meets at h
  unfold Meets
  rcases hrun : x s with ⟨stop | a, s'⟩
  · rw [hrun] at h
    rw [(h.resolve_left id).1]
    exact (h.resolve_left id).2
  · rw [hrun] at h
    rw [h.1]
    exact h.2

theorem Same.reporting {x x' : Run α} (h : Same x x' s Q E lost) :
    Same (reporting x) (reporting x') s Q E lost := by
  unfold Same Meets at h
  unfold Same Meets Run.reporting
  rw [run_tryCatch, run_tryCatch]
  rcases hrun : x s with ⟨stop | a, s'⟩
  · rw [hrun] at h
    cases stop with
    | failed e => exact h.imp_right fun h => by rw [h.1]; exact ⟨rfl, h.2⟩
    | outOfDepth => exact h.imp_right fun h => by rw [h.1]; exact ⟨rfl, h.2⟩
  · rw [hrun] at h
    rw [h.1]
    exact ⟨rfl, h.2⟩

theorem Same.isolated {vars : Bindings Value} {x x' : Run α}
    (h : Same x x' { s with vars } (fun a s' => Q a { s' with vars := s.vars }) E lost) :
    Same (isolated vars x) (isolated vars x') s Q E lost := by
  refine meets_isolated (h.imp ?_ ?_)
  · intro a s' ⟨hrun, hQ⟩
    unfold Run.isolated
    rw [hrun]
    exact ⟨rfl, hQ⟩
  · intro stop s' hstop
    refine hstop.imp_right fun ⟨hrun, hE⟩ => ?_
    unfold Run.isolated
    rw [hrun]
    exact ⟨rfl, hE⟩

end Run

/-- Two frames that have the same columns and functions, apart from the columns of some names. -/
structure Frame.Alike (N : String → Prop) (f g : Frame) : Prop where
  registry : f.registry = g.registry
  column? : ∀ name, ¬N name → f.column? name = g.column? name

open Run

/-- Two frames that read alike in a row: apart from some names they have the same columns, and
reading one of these does the same in both.  Unless look-ups are minded, the first has no columns
of those names, and looking one up is a reason to be lost. -/
structure Frame.ReadAlike (N : String → Prop) (looks : Bool) (deeper : RunStatements) (host : Host)
    (row : Nat) (E lost : Stop → Prop) (f g : Frame) : Prop extends f.Alike N g where
  /-- Failures are among the reasons to stop. -/
  fails : ∀ e, E (.failed e)
  read : ∀ name c, ¬N name → f.column? name = some c → ∀ s,
    Same (f.readColumn deeper host c row) (g.readColumn deeper host c row) s
      (fun _ s' => s'.vars = s.vars) E lost
  absent : ∀ name, N name → looks = true ∨
    f.column? name = none ∧ lost (.failed (.undefinedVariable name))

section Evaluation

variable {N : String → Prop} {f g : Frame} {host : Host} {row : Nat} {deeper : RunStatements}
  {E lost : Stop → Prop}

/-- Nothing more is asked of the frames where look-ups are minded. -/
theorem Frame.ReadAlike.looking {looks : Bool} (h : f.ReadAlike N looks deeper host row E lost g) :
    f.ReadAlike N true deeper host row E lost g :=
  { h with absent := fun _ _ => Or.inl rfl }

/-- Variables come first, so frames that differ in their names are told apart by the others only. -/
theorem Frame.Alike.scope (h : f.Alike N g) (vars : Bindings Value) :
    ((Environment.ofRow host f row).scope vars).Alike (fun n => N n ∧ ¬vars.Has n)
      ((Environment.ofRow host g row).scope vars) := by
  refine ⟨?_, ?_⟩
  · unfold Environment.scope Environment.ofRow Scope.blank
    rw [h.registry]
  · intro name hname
    change ((vars.find? name).map Value.type).or (f.columnType? name) =
      ((vars.find? name).map Value.type).or (g.columnType? name)
    by_cases hhas : vars.Has name
    · obtain ⟨v, hv⟩ := Option.isSome_iff_exists.mp hhas
      rw [hv]
      rfl
    · unfold Frame.columnType?
      rw [h.column? name fun hn => hname ⟨hn, hhas⟩]

theorem same_widen (h : f.Alike N g) (v : Value) {other : Expr} {s : Store}
    (hother : ∀ n, N n → other.needs n true = true → s.vars.Has n) {P : Store → Prop} (hs : P s) :
    Same (widen (.ofRow host f row) v other) (widen (.ofRow host g row) v other) s
      (fun _ s' => P s') E lost := by
  have htype : ((Environment.ofRow host f row).scope s.vars).typeOf other =
      ((Environment.ofRow host g row).scope s.vars).typeOf other := by
    refine (h.scope s.vars).typeOf_eq fun n ⟨hn, hhas⟩ => ?_
    by_contra hneeds
    exact hhas (hother n hn (Bool.not_eq_false _ ▸ hneeds))
  unfold widen
  split
  · refine Same.bind (same_self (meets_get (Q := fun s₁ s' => s₁ = s ∧ s' = s) ⟨rfl, rfl⟩)) ?_
    intro s₁ s' ⟨hs₁, hs'⟩
    rw [hs₁, htype, hs']
    split
    · exact same_self (meets_pure hs)
    · exact same_self (meets_pure hs)
  · exact same_self (meets_pure hs)

theorem same_choose {t t' u u' : Run Value} {s : Store} {Q : Value → Store → Prop}
    (hE : ∀ e, E (.failed e)) (condition : Value) (ht : Same t t' s Q E lost)
    (hu : Same u u' s Q E lost) :
    Same (choose condition t u) (choose condition t' u') s Q E lost := by
  unfold choose
  split
  · exact ht
  · exact hu
  · exact same_self (meets_report (hE _))

/-- Calls see the functions of a frame, but not its columns. -/
theorem same_call (h : f.Alike N g) (hE : ∀ e, E (.failed e)) (name : String)
    (arguments : List Value) (s : Store) :
    Same (call deeper (.ofRow host f row) name arguments)
      (call deeper (.ofRow host g row) name arguments) s (fun _ s' => s'.vars = s.vars) E lost := by
  have hcall : call deeper (.ofRow host f row) name arguments =
      call deeper (.ofRow host g row) name arguments := by
    unfold call
    rw [show (Environment.ofRow host f row).registry = (Environment.ofRow host g row).registry from
      h.registry]
    rfl
  rw [hcall]
  refine same_self ?_
  have hperform : ∀ (function : Function) arguments,
      Meets (function.perform (.ofRow host g row) arguments) s (fun _ s' => s'.vars = s.vars)
        fun stop _ => E stop :=
    fun function arguments => (function.meets_perform _ arguments s).imp (fun _ _ h => h.2) (by
      rintro _ _ ⟨e, rfl, _⟩
      exact hE e)
  unfold call
  rw [Environment.find?_functions_ofRow]
  dsimp only
  split
  · unfold Function.invoke
    split
    · exact hperform _ _
    · split
      · exact hperform _ _
      · exact meets_fail (hE _)
  · exact meets_report (hE _)

theorem same_lookUp {looks : Bool} (hf : f.ReadAlike N looks deeper host row E lost g)
    {name : String} {s : Store} (h : N name → looks = true → s.vars.Has name) :
    Same (lookUp deeper (.ofRow host f row) name) (lookUp deeper (.ofRow host g row) name) s
      (fun _ s' => s'.vars = s.vars) E lost := by
  refine Same.bind (same_self (meets_get (Q := fun s₁ s' => s₁ = s ∧ s' = s) ⟨rfl, rfl⟩)) ?_
  intro s₁ s' ⟨hs₁, hs'⟩
  rw [hs₁, hs']
  cases hv : s.vars.find? name with
  | some v => exact same_self (meets_pure rfl)
  | none =>
      dsimp only [Environment.ofRow]
      by_cases hname : N name
      · rcases hf.absent name hname with hlooks | ⟨hnone, hlost⟩
        · have hhas := h hname hlooks
          rw [Bindings.Has, hv] at hhas
          cases hhas
        · rw [hnone]
          exact meets_fail (Or.inl hlost)
      · rw [← hf.column? name hname]
        cases hc : f.column? name with
        | none => exact same_self (meets_fail (hf.fails _))
        | some c => exact hf.read name c hname hc s

namespace Expr

/-- From a store that has the names that the expression needs, it does the same in both frames, and
the store has the names that it assigns as well. -/
def EvaluatesAlike (N : String → Prop) (looks : Bool) (f g : Frame) (deeper : RunStatements)
    (host : Host) (row : Nat) (E lost : Stop → Prop) (e : Expr) : Prop :=
  ∀ ⦃s : Store⦄, (∀ n, N n → e.needs n looks = true → s.vars.Has n) →
    Same (e.evaluateWith deeper (.ofRow host f row)) (e.evaluateWith deeper (.ofRow host g row)) s
      (fun _ s' => ∀ n, e.assigns n = true ∨ s.vars.Has n → s'.vars.Has n) E lost

section Parts

variable {looks : Bool}

theorem same_orReport (hE : ∀ e, E (.failed e)) {α : Type} (x : Except Error α) (s : Store) :
    Same (orReport x) (orReport x) s (fun _ s' => s'.vars = s.vars) E lost :=
  same_self (meets_orReport (fun _ _ => rfl) fun e _ => hE e)

theorem evaluatesAlike_connective (hE : ∀ e, E (.failed e)) {op : Connective} {l r : Expr}
    (hl : EvaluatesAlike N looks f g deeper host row E lost l)
    (hr : EvaluatesAlike N looks f g deeper host row E lost r) :
    EvaluatesAlike N looks f g deeper host row E lost (binary (.connective op) l r) := by
  intro s h
  rw [evaluateWith, evaluateWith]
  refine (hl (ready_first h)).bind fun left s₁ hs₁ => ?_
  refine (same_orReport hE _ s₁).bind fun settled s₂ hs₂ => ?_
  rw [← hs₂] at hs₁
  split
  · exact same_self (meets_pure hs₁)
  · refine (hr (ready_last h hs₁)).bind fun right s₃ hs₃ => ?_
    exact (same_orReport hE _ s₃).imp_result fun _ s₄ hs₄ n hn => hs₄ ▸ hs₃ n (Or.inr (hs₁ n hn))

theorem evaluatesAlike_ifThen (hE : ∀ e, E (.failed e)) {c t : Expr}
    (hc : EvaluatesAlike N looks f g deeper host row E lost c)
    (ht : EvaluatesAlike N looks f g deeper host row E lost t) :
    EvaluatesAlike N looks f g deeper host row E lost (ifElse c t none) := by
  intro s h
  rw [evaluateWith, evaluateWith]
  refine (hc (ready_first h)).bind fun v s₁ hs₁ => ?_
  refine same_choose hE v ?_ (same_self (meets_pure hs₁))
  exact (ht (ready_last h hs₁)).imp_result fun _ s₂ hs₂ n hn => hs₂ n (Or.inr (hs₁ n hn))

/-- The branch that is not taken is inferred, so it is asked for the names that it infers. -/
theorem evaluatesAlike_ifElse (hf : f.ReadAlike N looks deeper host row E lost g) {c t e : Expr}
    (hc : EvaluatesAlike N looks f g deeper host row E lost c)
    (ht : EvaluatesAlike N true f g deeper host row E lost t)
    (he : EvaluatesAlike N true f g deeper host row E lost e) :
    EvaluatesAlike N looks f g deeper host row E lost (ifElse c t (some e)) := by
  intro s h
  rw [evaluateWith, evaluateWith]
  refine (hc (ready_first h)).bind fun v s₁ hs₁ => ?_
  have hbranches := ready_last h hs₁
  have hready : ∀ n, N n → t.needs n true = true → s₁.vars.Has n :=
    fun n hn ht => hbranches n hn (by simp [ht])
  have hready' : ∀ n, N n → e.needs n true = true → s₁.vars.Has n :=
    fun n hn he => hbranches n hn (by simp [he])
  have hassigns : ∀ n, (ifElse c t (some e)).assigns n = true ∨ s.vars.Has n →
      t.assigns n = true ∧ e.assigns n = true ∨ s₁.vars.Has n := has_branches hs₁
  refine same_choose hf.fails v ?_ ?_
  · refine (ht hready).bind fun v s₂ hs₂ => ?_
    refine same_widen hf.toAlike v (fun n hn he => hs₂ n (Or.inr (hready' n hn he)))
      (P := fun s' => ∀ n, _ → s'.vars.Has n) fun n hn => hs₂ n ?_
    exact (hassigns n hn).imp_left And.left
  · refine (he hready').bind fun v s₂ hs₂ => ?_
    refine same_widen hf.toAlike v (fun n hn ht => hs₂ n (Or.inr (hready n hn ht)))
      (P := fun s' => ∀ n, _ → s'.vars.Has n) fun n hn => hs₂ n ?_
    exact (hassigns n hn).imp_left And.right

theorem evaluatesAlike_assign {name : String} {e : Expr}
    (he : EvaluatesAlike N looks f g deeper host row E lost e) :
    EvaluatesAlike N looks f g deeper host row E lost (Expr.assign name e) := by
  intro s h
  rw [evaluateWith, evaluateWith]
  refine (he h).bind fun v s₁ hs₁ => ?_
  refine same_self (meets_bind (meets_setVariable
    (Q := fun _ s' => s'.vars = s₁.vars.insert name v) rfl) fun _ s₂ hs₂ => meets_pure ?_)
  intro n hn
  rw [hs₂, Bindings.has_insert]
  rw [assigns, Bool.or_eq_true, beq_iff_eq, or_assoc] at hn
  exact hn.imp Eq.symm (hs₁ n)

end Parts

mutual

/-- **An expression that needs none of the names cannot tell the frames apart.** -/
theorem evaluatesAlike {looks : Bool} (hf : f.ReadAlike N looks deeper host row E lost g)
    (e : Expr) : EvaluatesAlike N looks f g deeper host row E lost e := by
  cases e with
  | literal v =>
      intro s h
      exact same_self (meets_pure fun n hn => hn.resolve_left nofun)
  | var name =>
      intro s h
      rw [evaluateWith, evaluateWith]
      have hready : N name → looks = true → s.vars.Has name :=
        fun hn hlooks => h name hn (by simp [needs, hlooks])
      refine (same_lookUp hf hready).reporting.imp_result fun _ s' hs' n hn => ?_
      rw [hs']
      exact hn.resolve_left nofun
  | unary op e =>
      intro s h
      rw [evaluateWith, evaluateWith]
      refine (evaluatesAlike hf e h).bind fun v s₁ hs₁ => ?_
      exact (same_orReport hf.fails _ s₁).imp_result fun _ s₂ hs₂ n hn => hs₂ ▸ hs₁ n hn
  | binary op l r =>
      have hl := evaluatesAlike hf l
      have hr := evaluatesAlike hf r
      cases op with
      | connective c => exact evaluatesAlike_connective hf.fails hl hr
      | _ =>
          intro s h
          rw [evaluateWith, evaluateWith]
          refine (hl (ready_first h)).bind fun left s₁ hs₁ => ?_
          refine (hr (ready_last h hs₁)).bind fun right s₂ hs₂ => ?_
          exact (same_orReport hf.fails _ s₂).imp_result fun _ s₃ hs₃ n hn =>
            hs₃ ▸ has_both hs₁ hs₂ n hn
  | call name es =>
      intro s h
      rw [evaluateWith, evaluateWith]
      refine (allEvaluateAlike hf es h).bind fun vs s₁ hs₁ => ?_
      exact (same_call hf.toAlike hf.fails name vs s₁).imp_result fun _ s₂ hs₂ n hn =>
        hs₂ ▸ hs₁ n hn
  | ifElse c t e =>
      have hc := evaluatesAlike hf c
      cases e with
      | none => exact evaluatesAlike_ifThen hf.fails hc (evaluatesAlike hf t)
      | some e =>
          exact evaluatesAlike_ifElse hf hc (evaluatesAlike hf.looking t)
            (evaluatesAlike hf.looking e)
  | assign name e => exact evaluatesAlike_assign (evaluatesAlike hf e)
  | named name e =>
      intro s h
      rw [evaluateWith, evaluateWith]
      exact evaluatesAlike hf e h
  | vector es =>
      intro s h
      rw [evaluateWith, evaluateWith]
      refine (allEvaluateAlike hf es h).bind fun vs s₁ hs₁ => ?_
      exact same_self (meets_pure hs₁)
  | index v i =>
      intro s h
      rw [evaluateWith, evaluateWith]
      refine (evaluatesAlike hf v (ready_first h)).bind fun _ s₁ hs₁ => ?_
      refine (evaluatesAlike hf i (ready_last h hs₁)).bind fun _ s₂ hs₂ => ?_
      exact (same_orReport hf.fails _ s₂).imp_result fun _ s₃ hs₃ n hn =>
        hs₃ ▸ has_both hs₁ hs₂ n hn
  | path dataSet field =>
      intro s h
      exact same_self (meets_report (hf.fails _))
  | project elements filter =>
      intro s h
      rw [evaluateWith, evaluateWith]
      cases firstDataSet? (project elements filter) with
      | none => exact same_self (meets_report (hf.fails _))
      | some dataSet => exact same_self (meets_report (hf.fails _))
  | sequence es =>
      intro s h
      rw [evaluateWith, evaluateWith, evaluateStatementsWith_eq, evaluateStatementsWith_eq]
      refine (allEvaluateAlike hf es h).bind fun vs s₁ hs₁ => ?_
      exact same_self (meets_pure hs₁)
termination_by structural e

theorem allEvaluateAlike {looks : Bool} (hf : f.ReadAlike N looks deeper host row E lost g)
    (es : List Expr) {s : Store} (h : ∀ n, N n → needsIn n looks es = true → s.vars.Has n) :
    Same (evaluateAllWith deeper (.ofRow host f row) es)
      (evaluateAllWith deeper (.ofRow host g row) es) s
      (fun _ s' => ∀ n, assignsIn n es = true ∨ s.vars.Has n → s'.vars.Has n) E lost := by
  cases es with
  | nil => exact same_self (meets_pure fun n hn => hn.resolve_left nofun)
  | cons e es =>
      rw [evaluateAllWith, evaluateAllWith]
      refine (evaluatesAlike hf e (ready_first h)).bind fun _ s₁ hs₁ => ?_
      refine (allEvaluateAlike hf es (ready_last h hs₁)).bind fun _ s₂ hs₂ => ?_
      exact same_self (meets_pure (has_both hs₁ hs₂))
termination_by structural es

end

end Expr

end Evaluation

end FrameLang
