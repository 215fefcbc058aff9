/-
A walk without problems follows the typing rules.

`Finds` relates the findings before a walk to its result and to the findings after it.  It holds of
a walk that notes a problem for no better reason than that, so that a proof may follow the walk
and need not carry along that nothing has gone wrong so far.

A body that the walk does not enter, for want of room or because it is open, makes a problem of its
own.  So nothing here depends on how much room there is.
-/
import FrameLang.Proofs.Typing.Rules
import Mathlib.Data.List.Forall2

namespace FrameLang

/-- The types of variables: those assigned so far, and those of the scope. -/
def Findings.view (s : Findings) (scope : Scope) (name : String) : Option ValueType :=
  (s.types.find? name).or (scope.variableType name)

/-! ### Walks -/

namespace Typing

variable {α β : Type}

/-- No problem is taken back, and if none is noted, the findings before, the result and the findings
after satisfy `Q`. -/
def Finds (walk : Typing α) (Q : Findings → α → Findings → Prop) : Prop :=
  ∀ s : Findings, s.issues.size ≤ (walk.run s).2.issues.size ∧
    ((walk.run s).2.issues.size = s.issues.size → Q s (walk.run s).1 (walk.run s).2)

theorem Finds.imp {walk : Typing α} {Q R : Findings → α → Findings → Prop} (h : Finds walk Q)
    (hQ : ∀ s a s', Q s a s' → R s a s') : Finds walk R :=
  fun s => ⟨(h s).1, fun hclean => hQ _ _ _ ((h s).2 hclean)⟩

theorem finds_pure {a : α} {Q : Findings → α → Findings → Prop} (h : ∀ s, Q s a s) :
    Finds (pure a) Q :=
  fun s => ⟨Nat.le_refl _, fun _ => h s⟩

theorem Finds.bind {x : Typing α} {f : α → Typing β} {Q : Findings → α → Findings → Prop}
    {R : α → Findings → β → Findings → Prop} (hx : Finds x Q) (hf : ∀ a, Finds (f a) (R a)) :
    Finds (x >>= f) fun s b s' => ∃ a s₁, Q s a s₁ ∧ R a s₁ b s' := by
  intro s
  rw [StateT.run_bind]
  obtain ⟨hle, hQ⟩ := hx s
  obtain ⟨hle', hR⟩ := hf (x.run s).1 (x.run s).2
  change s.issues.size ≤ ((f (x.run s).1).run (x.run s).2).2.issues.size ∧
    (((f (x.run s).1).run (x.run s).2).2.issues.size = s.issues.size → _)
  refine ⟨Nat.le_trans hle hle', fun hclean => ⟨(x.run s).1, (x.run s).2, hQ ?_, hR ?_⟩⟩
  · omega
  · omega

/-- A result that is thrown away. -/
theorem Finds.discard_bind {x : Typing α} {f : Typing β} {Q : Findings → α → Findings → Prop}
    {R : Findings → β → Findings → Prop} (hx : Finds x Q) (hf : Finds f R) :
    Finds (do discard x; f) fun s b s' => ∃ a s₁, Q s a s₁ ∧ R s₁ b s' :=
  hx.bind fun _ => hf

/-- A problem that is noted is one more than there were. -/
theorem finds_note (problem : TypeProblem) (e : Expr) (Q : Findings → ValueType → Findings → Prop) :
    Finds (note problem e) Q := by
  intro s
  change s.issues.size ≤ (s.issues.push _).size ∧ ((s.issues.push _).size = s.issues.size → _)
  rw [Array.size_push]
  exact ⟨Nat.le_succ _, fun h => absurd h (Nat.succ_ne_self _)⟩

/-- A condition is followed through if it is of type boolean. -/
theorem Finds.condition {c : Typing ValueType} {e : Expr} {rest : Typing α}
    {Q : Findings → ValueType → Findings → Prop} {R : Findings → α → Findings → Prop}
    (hc : Finds c Q) (hrest : Finds rest R) :
    Finds (do
      if (← c) ≠ .boolean then
        discard <| note .condition e
      rest) fun s a s' => ∃ s₁, Q s .boolean s₁ ∧ R s₁ a s' := by
  refine (hc.bind (R := fun t s a s' => t = .boolean ∧ R s a s') fun t => ?_).imp ?_
  · split
    · refine ((finds_note _ e fun _ _ _ => False).discard_bind hrest).imp ?_
      rintro _ _ _ ⟨_, _, hfalse, _⟩
      exact hfalse.elim
    · rename_i ht
      exact hrest.imp fun _ _ _ h => ⟨not_not.mp ht, h⟩
  · rintro s a s' ⟨_, s₁, hQ, rfl, hR⟩
    exact ⟨s₁, hQ, hR⟩

theorem finds_get :
    Finds (get : Typing Findings) fun s a s' => a = s ∧ s' = s :=
  fun _ => ⟨Nat.le_refl _, fun _ => ⟨rfl, rfl⟩⟩

theorem finds_assign (name : String) (t : ValueType) :
    Finds (assign name t) fun s _ s' => s' = { s with types := s.types.insert name t } :=
  fun _ => ⟨Nat.le_refl _, fun _ => rfl⟩

theorem Finds.isolated {walk : Typing α} {types : Bindings ValueType}
    {Q : Findings → α → Findings → Prop} (h : Finds walk Q) :
    Finds (isolated types walk) fun s a s' => s'.types = s.types ∧
      ∃ s₁, Q { s with types } a s₁ := by
  intro s
  obtain ⟨hle, hQ⟩ := h { s with types }
  change s.issues.size ≤ (walk.run { s with types }).2.issues.size ∧
    ((walk.run { s with types }).2.issues.size = s.issues.size → _)
  exact ⟨hle, fun hclean => ⟨rfl, _, hQ hclean⟩⟩

end Typing

/-! ### Parameters -/

/-- What is bound to a name by two lists of the same names is related as the lists are. -/
theorem Bindings.find?_ofList_zip_rel {α β : Type} {R : α → β → Prop} {as : List α} {bs : List β}
    (h : List.Forall₂ R as bs) (names : List String) (name : String) :
    Option.Rel R ((Bindings.ofList (names.zip as)).find? name)
      ((Bindings.ofList (names.zip bs)).find? name) := by
  have hfold : ∀ (a : Bindings α) (b : Bindings β),
      (∀ n, Option.Rel R (a.find? n) (b.find? n)) → ∀ n, Option.Rel R
        (((names.zip as).foldl (fun b pair => b.insert pair.1 pair.2) a).find? n)
        (((names.zip bs).foldl (fun b pair => b.insert pair.1 pair.2) b).find? n) := by
    induction h generalizing names with
    | nil =>
        intro a b hab n
        simpa using hab n
    | @cons x y xs ys hxy _ ih =>
        intro a b hab n
        cases names with
        | nil => exact hab n
        | cons first names =>
            refine ih names _ _ (fun m => ?_) n
            rw [Bindings.find?_insert, Bindings.find?_insert]
            split
            · exact Option.Rel.some hxy
            · exact hab m
  exact hfold ∅ ∅ (fun _ => Option.Rel.none) name

theorem View.types_ofParameters (parameters : List String) (ks : List Known) :
    (View.ofParameters parameters ks).types =
      (Bindings.ofList (parameters.zip (ks.map Known.type))).find? := by
  funext name
  have hks : List.Forall₂ (fun k t => Known.type k = t) ks (ks.map Known.type) := by
    rw [List.forall₂_map_right_iff]
    exact List.forall₂_same.mpr fun _ _ => rfl
  have hrel := Bindings.find?_ofList_zip_rel hks parameters name
  unfold View.types View.ofParameters
  generalize (Bindings.ofList (parameters.zip ks)).find? name = x at hrel ⊢
  generalize (Bindings.ofList (parameters.zip (ks.map Known.type))).find? name = y at hrel ⊢
  cases hrel with
  | none => rfl
  | some h => exact congrArg some h

@[simp] theorem Known.type_last (ks : List Known) :
    (Known.last ks).type = (ks.map Known.type).getLastD .void := by
  unfold Known.last
  rw [List.getLastD_eq_getLast?, List.getLastD_eq_getLast?, List.getLast?_map]
  cases ks.getLast? <;> rfl

/-! ### From the walk to the rules -/

theorem Expr.finds_operatorType (e : Expr) (t : ValueType) :
    Typing.Finds (operatorType e t) fun s r s' => r = t ∧ s' = s ∧ t ≠ .void := by
  unfold operatorType
  split
  · exact Typing.finds_note _ _ _
  · exact Typing.finds_pure fun _ => ⟨rfl, rfl, by assumption⟩

/-- A discipline that asks for nothing but allowed nodes, which the functions of a program have. -/
structure Discipline.Suits (D : Discipline) (functions : FunctionDefs) : Prop where
  skips : ∀ Γ Γ', D.Skips Γ Γ'
  besides : ∀ scope Γ e t, D.Besides scope Γ e t
  bodies : ∀ name f, functions.find? name = some f → Expr.everyIn D.allows f.body = true

theorem Discipline.suits_lax (functions : FunctionDefs) : Discipline.lax.Suits functions :=
  ⟨fun _ _ => trivial, fun _ _ _ _ => trivial, fun _ _ _ =>
    Expr.everyIn_of_forall (fun _ => rfl) _⟩

/-- A way into the bodies of functions that follows the rules. -/
def EnterFunction.Follows (enter : EnterFunction) (D : Discipline) (scope : Scope)
    (active : List String) : Prop :=
  ∀ f types, Expr.everyIn D.allows f.body = true → Typing.Finds (enter f types) fun s r s' =>
    ∀ t, r = some t → normalizeName f.name ∉ active ∧ s'.types = s.types ∧
      ∀ ks, ks.map Known.type = types → ∃ js Γ', (Known.last js).type = t ∧
        TypedAll D scope (normalizeName f.name :: active) (View.ofParameters f.parameters ks)
          f.body js Γ'

namespace Expr

open Typing

/-- Wherever the views agree with the findings before, the rules give the expression the type, and a
view that agrees with the findings after. -/
def FollowsRules (D : Discipline) (scope : Scope) (active : List String) (e : Expr) (s : Findings)
    (t : ValueType) (s' : Findings) : Prop :=
  ∀ Γ : View, Γ.types = s.view scope →
    ∃ k Γ', Typed D scope.blank active Γ e k Γ' ∧ k.type = t ∧ Γ'.types = s'.view scope

/-- The same of expressions one after the other. -/
def AllFollowRules (D : Discipline) (scope : Scope) (active : List String) (es : List Expr)
    (s : Findings) (ts : List ValueType) (s' : Findings) : Prop :=
  ∀ Γ : View, Γ.types = s.view scope →
    ∃ ks Γ', TypedAll D scope.blank active Γ es ks Γ' ∧ ks.map Known.type = ts ∧
      Γ'.types = s'.view scope

section Rules

variable {D : Discipline} {scope : Scope} {active : List String} {enter : EnterFunction}
  {c t e l r : Expr} {es : List Expr}

/-! ### The parts of a walk -/

theorem finds_var (name : String) :
    Finds ((var name).inferWith scope enter) (FollowsRules D scope active (var name)) := by
  rw [inferWith]
  refine (finds_get.bind (R := fun a s t s' => s' = s ∧ a.view scope name = some t)
    fun a => ?_).imp ?_
  · split
    · rename_i t ht
      exact finds_pure fun _ => ⟨rfl, ht⟩
    · exact finds_note _ _ _
  · rintro _ t s ⟨_, _, ⟨rfl, rfl⟩, rfl, ht⟩ Γ hΓ
    rw [← hΓ] at ht
    obtain ⟨k, hk, rfl⟩ := Option.map_eq_some_iff.mp ht
    exact ⟨k, Γ, Typed.var hk, rfl, hΓ⟩

theorem finds_unary {op : UnaryOp}
    (he : Finds (e.inferWith scope enter) (FollowsRules D scope active e)) :
    Finds ((unary op e).inferWith scope enter) (FollowsRules D scope active (unary op e)) := by
  rw [inferWith]
  refine (he.bind fun t => finds_operatorType (unary op e) (op.resultType t)).imp ?_
  rintro s _ s' ⟨t, s₁, he, rfl, rfl, ht⟩ Γ hΓ
  obtain ⟨k, Γ₁, hk, rfl, hΓ₁⟩ := he Γ hΓ
  exact ⟨_, Γ₁, Typed.unary hk ht, rfl, hΓ₁⟩

theorem finds_binary (hD : D.Suits scope.functions) {op : BinaryOp}
    (hl : Finds (l.inferWith scope enter) (FollowsRules D scope active l))
    (hr : Finds (r.inferWith scope enter) (FollowsRules D scope active r)) :
    Finds ((binary op l r).inferWith scope enter)
      (FollowsRules D scope active (binary op l r)) := by
  rw [inferWith]
  refine (hl.bind fun a => hr.bind fun b =>
    finds_operatorType (binary op l r) (op.resultType a b)).imp ?_
  rintro s _ s' ⟨a, s₁, hl, b, s₂, hr, rfl, rfl, ht⟩ Γ hΓ
  obtain ⟨j, Γ₁, hj, rfl, hΓ₁⟩ := hl Γ hΓ
  obtain ⟨k, Γ₂, hk, rfl, hΓ₂⟩ := hr Γ₁ hΓ₁
  by_cases hop : ∃ c, op = .connective c
  · obtain ⟨c, rfl⟩ := hop
    exact ⟨_, Γ₁.merge Γ₂, Typed.connective hj hk ht (hD.skips Γ₁ Γ₂), rfl, by simpa using hΓ₂⟩
  · exact ⟨_, Γ₂, Typed.binary (fun c hc => hop ⟨c, hc⟩) hj hk ht, rfl, hΓ₂⟩

/-- The call of a function, given the types of the arguments: it leaves the types of the variables
as they are, and has a type wherever the arguments have those types. -/
def CallFollowsRules (D : Discipline) (scope : Scope) (active : List String) (name : String)
    (es : List Expr) (types : List ValueType) (s : Findings) (t : ValueType) (s' : Findings) :
    Prop :=
  s'.types = s.types ∧ ∀ Γ Γ₁ ks, TypedAll D scope.blank active Γ es ks Γ₁ →
    ks.map Known.type = types →
      ∃ k, k.type = t ∧ Typed D scope.blank active Γ (call name es) k Γ₁

theorem finds_callDefined (hD : D.Suits scope.functions)
    (henter : enter.Follows D scope.blank active) {name : String} {f : FunctionDef}
    (hf : scope.functions.find? (normalizeName name) = some f)
    (hlength : f.parameters.length = es.length) (types : List ValueType) :
    Finds (do
      match ← enter f types with
      | some t => pure t
      | none => note .recursion (call name es))
      (CallFollowsRules D scope active name es types) := by
  refine ((henter f types (hD.bodies _ f hf)).bind
    (R := fun r s t s' => r = some t ∧ s' = s) fun r => ?_).imp ?_
  · split
    · exact finds_pure fun _ => ⟨rfl, rfl⟩
    · exact finds_note _ _ _
  · rintro s t s' ⟨_, _, hentered, rfl, rfl⟩
    obtain ⟨hactive, htypes, hbody⟩ := hentered t rfl
    refine ⟨htypes, fun Γ Γ₁ ks hks hmap => ?_⟩
    obtain ⟨js, Γ₂, ht, hjs⟩ := hbody ks hmap
    exact ⟨_, ht, Typed.callDefined hks hf hlength hactive hjs⟩

theorem finds_callRegistered {name : String}
    (hdefined : scope.functions.find? (normalizeName name) = none) (types : List ValueType) :
    Finds (registeredCallType scope.registry (call name es) name types)
      (CallFollowsRules D scope active name es types) := by
  unfold registeredCallType
  split
  · exact finds_note _ _ _
  · rename_i f hf
    split
    · exact finds_note _ _ _
    · rename_i htakes
      split
      · rename_i t ht
        refine finds_pure fun s => ⟨rfl, fun Γ Γ₁ ks hks hmap => ?_⟩
        refine ⟨{ type := t }, rfl,
          Typed.callRegistered hks hdefined hf ?_ (hmap ▸ ht) (by simp)⟩
        rw [← hmap, List.length_map] at htakes
        simpa using htakes
      · exact finds_note _ _ _

theorem finds_call (hD : D.Suits scope.functions) (henter : enter.Follows D scope.blank active)
    {name : String} (hes : Finds (inferAllWith scope enter es) (AllFollowRules D scope active es)) :
    Finds ((call name es).inferWith scope enter) (FollowsRules D scope active (call name es)) := by
  rw [inferWith]
  refine (hes.bind (R := CallFollowsRules D scope active name es) fun types => ?_).imp ?_
  · split
    · rename_i f hf
      split
      · exact finds_note _ _ _
      · rename_i hlength
        exact finds_callDefined hD henter hf (not_not.mp hlength) types
    · rename_i hdefined
      exact finds_callRegistered hdefined types
  · rintro s t s' ⟨types, s₁, hall, htypes, hcall⟩ Γ hΓ
    obtain ⟨ks, Γ₁, hks, hmap, hΓ₁⟩ := hall Γ hΓ
    obtain ⟨k, hk, hcall⟩ := hcall Γ Γ₁ ks hks hmap
    refine ⟨k, Γ₁, hcall, hk, ?_⟩
    rw [hΓ₁]
    unfold Findings.view
    rw [htypes]

theorem finds_ifThen (hD : D.Suits scope.functions)
    (hc : Finds (c.inferWith scope enter) (FollowsRules D scope active c))
    (ht : Finds (t.inferWith scope enter) (FollowsRules D scope active t)) :
    Finds ((ifElse c t none).inferWith scope enter)
      (FollowsRules D scope active (ifElse c t none)) := by
  rw [inferWith]
  refine (hc.condition ht).imp ?_
  rintro s _ s' ⟨s₁, hc, ht⟩ Γ hΓ
  obtain ⟨j, Γ₁, hj, hcondition, hΓ₁⟩ := hc Γ hΓ
  obtain ⟨k, Γ₂, hk, rfl, hΓ₂⟩ := ht Γ₁ hΓ₁
  exact ⟨_, Γ₁.merge Γ₂, Typed.ifThen hj hcondition hk (hD.skips _ _), rfl, by simpa using hΓ₂⟩

theorem finds_ifElse (hD : D.Suits scope.functions)
    (hc : Finds (c.inferWith scope enter) (FollowsRules D scope active c))
    (ht : Finds (t.inferWith scope enter) (FollowsRules D scope active t))
    (he : Finds (e.inferWith scope enter) (FollowsRules D scope active e)) :
    Finds ((ifElse c t (some e)).inferWith scope enter)
      (FollowsRules D scope active (ifElse c t (some e))) := by
  rw [inferWith]
  refine (hc.condition <| ht.bind fun a => he.bind (R := fun b s r s' => s' = s ∧ r = a.join b ∧
    (a.join b = .void → a = .void ∧ b = .void)) fun b => ?_).imp ?_
  · split
    · exact finds_note _ _ _
    · rename_i hjoin
      exact finds_pure fun _ => ⟨rfl, rfl, fun h => by_contra fun hn => hjoin ⟨h, hn⟩⟩
  · rintro s _ s' ⟨s₁, hc, a, s₂, ht, b, s₃, he, rfl, rfl, hjoin⟩ Γ hΓ
    obtain ⟨i, Γ₁, hi, hcondition, hΓ₁⟩ := hc Γ hΓ
    obtain ⟨j, Γ₂, hj, rfl, hΓ₂⟩ := ht Γ₁ hΓ₁
    obtain ⟨k, Γ₃, hk, rfl, hΓ₃⟩ := he (Γ₁.merge Γ₂) (by simpa using hΓ₂)
    refine ⟨_, Γ₂.merge Γ₃, Typed.ifElse hi hcondition hj hk hjoin (hD.skips _ _)
      (hD.skips _ _) (fun _ => hD.besides _ _ _ _) (fun _ => hD.besides _ _ _ _), rfl, ?_⟩
    simpa using hΓ₃

theorem finds_inferAssign {name : String} (hallows : D.allows (.assign name e) = true)
    (he : Finds (e.inferWith scope enter) (FollowsRules D scope active e)) :
    Finds ((Expr.assign name e).inferWith scope enter)
      (FollowsRules D scope active (.assign name e)) := by
  rw [inferWith]
  refine (he.bind fun t => (finds_assign name t).bind fun _ =>
    finds_pure (Q := fun s t' s' => t' = t ∧ s' = s) fun _ => ⟨rfl, rfl⟩).imp ?_
  rintro s _ _ ⟨t, s₁, hv, _, _, rfl, rfl, rfl⟩ Γ hΓ
  obtain ⟨k, Γ₁, hk, rfl, hΓ₁⟩ := hv Γ hΓ
  refine ⟨k, Γ₁.bind name k, Typed.assign hallows hk, rfl, ?_⟩
  funext other
  rw [View.types_bind, hΓ₁]
  unfold Findings.view
  rw [Bindings.find?_insert]
  split <;> rfl

theorem finds_vector
    (hes : Finds (inferAllWith scope enter es) (AllFollowRules D scope active es)) :
    Finds ((vector es).inferWith scope enter) (FollowsRules D scope active (vector es)) := by
  rw [inferWith]
  refine (hes.discard_bind
    (finds_pure (Q := fun s t s' => t = ValueType.vector ∧ s' = s) fun _ => ⟨rfl, rfl⟩)).imp ?_
  rintro s _ s' ⟨ts, s₁, hall, rfl, rfl⟩ Γ hΓ
  obtain ⟨ks, Γ₁, hks, _, hΓ₁⟩ := hall Γ hΓ
  exact ⟨_, Γ₁, Typed.vector hks, rfl, hΓ₁⟩

theorem finds_index {v p : Expr}
    (hv : Finds (v.inferWith scope enter) (FollowsRules D scope active v))
    (hp : Finds (p.inferWith scope enter) (FollowsRules D scope active p)) :
    Finds ((index v p).inferWith scope enter) (FollowsRules D scope active (index v p)) := by
  rw [inferWith]
  refine (hv.discard_bind <| hp.discard_bind <|
    finds_pure (Q := fun s t s' => t = ValueType.void ∧ s' = s) fun _ => ⟨rfl, rfl⟩).imp ?_
  rintro s _ s' ⟨a, s₁, hv, b, s₂, hp, rfl, rfl⟩ Γ hΓ
  obtain ⟨j, Γ₁, hj, _, hΓ₁⟩ := hv Γ hΓ
  obtain ⟨k, Γ₂, hk, _, hΓ₂⟩ := hp Γ₁ hΓ₁
  exact ⟨_, Γ₂, Typed.index hj hk, rfl, hΓ₂⟩

theorem finds_path (dataSet : String) (field : List String) :
    Finds ((path dataSet field).inferWith scope enter)
      (FollowsRules D scope active (path dataSet field)) := by
  rw [inferWith]
  unfold pathType
  split
  · exact finds_note _ _ _
  · rename_i f hf
    split
    · rename_i t ht
      exact finds_pure fun s Γ hΓ => ⟨_, Γ, Typed.path hf ht, rfl, hΓ⟩
    · exact finds_note _ _ _

theorem finds_sequence
    (hes : Finds (inferAllWith scope enter es) (AllFollowRules D scope active es)) :
    Finds ((sequence es).inferWith scope enter) (FollowsRules D scope active (sequence es)) := by
  rw [inferWith]
  refine (hes.bind fun types => finds_pure
    (Q := fun s t s' => t = types.getLastD .void ∧ s' = s) fun _ => ⟨rfl, rfl⟩).imp ?_
  rintro s _ s' ⟨types, s₁, hall, rfl, rfl⟩ Γ hΓ
  obtain ⟨ks, Γ₁, hks, rfl, hΓ₁⟩ := hall Γ hΓ
  exact ⟨_, Γ₁, Typed.sequence hks, Known.type_last ks, hΓ₁⟩

theorem finds_cons (he : Finds (e.inferWith scope enter) (FollowsRules D scope active e))
    (hes : Finds (inferAllWith scope enter es) (AllFollowRules D scope active es)) :
    Finds (inferAllWith scope enter (e :: es)) (AllFollowRules D scope active (e :: es)) := by
  rw [inferAllWith]
  refine (he.bind fun t => hes.bind fun ts =>
    finds_pure (Q := fun s ts' s' => ts' = t :: ts ∧ s' = s) fun _ => ⟨rfl, rfl⟩).imp ?_
  rintro s _ s' ⟨t, s₁, he, ts, s₂, hes, rfl, rfl⟩ Γ hΓ
  obtain ⟨k, Γ₁, hk, rfl, hΓ₁⟩ := he Γ hΓ
  obtain ⟨ks, Γ₂, hks, rfl, hΓ₂⟩ := hes Γ₁ hΓ₁
  exact ⟨k :: ks, Γ₂, TypedAll.cons hk hks, rfl, hΓ₂⟩

/-! ### The whole walk -/

mutual

/-- A walk through an expression that notes no problem follows the rules. -/
theorem finds_inferWith (hD : D.Suits scope.functions)
    (henter : enter.Follows D scope.blank active) (e : Expr) (he : e.every D.allows = true) :
    Finds (e.inferWith scope enter) (FollowsRules D scope active e) := by
  cases e with
  | literal v => exact finds_pure fun s Γ hΓ => ⟨_, Γ, Typed.literal, rfl, hΓ⟩
  | var name => exact finds_var name
  | unary op e =>
      rw [every, Bool.and_eq_true] at he
      exact finds_unary (finds_inferWith hD henter e he.2)
  | binary op l r =>
      rw [every, Bool.and_eq_true, Bool.and_eq_true] at he
      exact finds_binary hD (finds_inferWith hD henter l he.1.2) (finds_inferWith hD henter r he.2)
  | call name arguments =>
      rw [every, Bool.and_eq_true] at he
      exact finds_call hD henter (finds_inferAllWith hD henter arguments he.2)
  | ifElse c t e =>
      cases e with
      | none =>
          rw [every, Bool.and_eq_true, Bool.and_eq_true] at he
          exact finds_ifThen hD (finds_inferWith hD henter c he.1.2)
            (finds_inferWith hD henter t he.2)
      | some e =>
          rw [every, Bool.and_eq_true, Bool.and_eq_true, Bool.and_eq_true] at he
          exact finds_ifElse hD (finds_inferWith hD henter c he.1.1.2)
            (finds_inferWith hD henter t he.1.2) (finds_inferWith hD henter e he.2)
  | assign name e =>
      rw [every, Bool.and_eq_true] at he
      exact finds_inferAssign he.1 (finds_inferWith hD henter e he.2)
  | named name e =>
      rw [every, Bool.and_eq_true] at he
      rw [inferWith]
      refine (finds_inferWith hD henter e he.2).imp ?_
      intro s t s' he Γ hΓ
      obtain ⟨k, Γ₁, hk, ht, hΓ₁⟩ := he Γ hΓ
      exact ⟨k, Γ₁, Typed.named hk, ht, hΓ₁⟩
  | vector elements =>
      rw [every, Bool.and_eq_true] at he
      exact finds_vector (finds_inferAllWith hD henter elements he.2)
  | index v i =>
      rw [every, Bool.and_eq_true, Bool.and_eq_true] at he
      exact finds_index (finds_inferWith hD henter v he.1.2) (finds_inferWith hD henter i he.2)
  | path dataSet field => exact finds_path dataSet field
  | project elements filter =>
      rw [inferWith]
      refine finds_pure fun s Γ hΓ => ⟨_, Γ, Typed.project ?_, rfl, hΓ⟩
      cases filter with
      | none =>
          rw [every, Bool.and_eq_true] at he
          exact he.1
      | some filter =>
          rw [every, Bool.and_eq_true, Bool.and_eq_true] at he
          exact he.1.1
  | sequence statements =>
      rw [every, Bool.and_eq_true] at he
      exact finds_sequence (finds_inferAllWith hD henter statements he.2)
termination_by structural e

theorem finds_inferAllWith (hD : D.Suits scope.functions)
    (henter : enter.Follows D scope.blank active) (es : List Expr)
    (hes : everyIn D.allows es = true) :
    Finds (inferAllWith scope enter es) (AllFollowRules D scope active es) := by
  cases es with
  | nil => exact finds_pure fun s Γ hΓ => ⟨[], Γ, TypedAll.nil, rfl, hΓ⟩
  | cons e es =>
      rw [everyIn, Bool.and_eq_true] at hes
      exact finds_cons (finds_inferWith hD henter e hes.1) (finds_inferAllWith hD henter es hes.2)
termination_by structural es

end

end Rules

/-- The bound on open bodies makes the walk stop early, but never go astray. -/
theorem follows_enter {D : Discipline} {scope : Scope} (hD : D.Suits scope.functions) (free : Nat)
    (active : List String) :
    EnterFunction.Follows (enter scope free active) D scope.blank active := by
  induction free generalizing active with
  | zero =>
      intro f types hf
      exact finds_pure fun _ _ h => nomatch h
  | succ free ih =>
      intro f types hf
      rw [enter]
      by_cases hactive : normalizeName f.name ∈ active
      · rw [if_pos (List.contains_iff_mem.mpr hactive)]
        exact finds_pure fun _ _ h => nomatch h
      · rw [if_neg (by simpa using hactive)]
        have hblank : D.Suits scope.blank.functions := hD
        refine ((finds_inferAllWith hblank (ih (normalizeName f.name :: active)) f.body hf).bind
          fun ts => finds_pure (Q := fun s r s' => r = some (ts.getLastD .void))
            fun _ => rfl).isolated.imp ?_
        rintro s _ s' ⟨htypes, s₁, ts, s₂, hbody, rfl⟩ _ ⟨⟩
        refine ⟨hactive, htypes, fun ks hks => ?_⟩
        subst hks
        obtain ⟨js, Γ', hjs, rfl, _⟩ := hbody (View.ofParameters f.parameters ks) (by
          rw [View.types_ofParameters]
          funext name
          simp [Findings.view, Scope.blank])
        exact ⟨js, Γ', Known.type_last js, hjs⟩

end Expr

end FrameLang
