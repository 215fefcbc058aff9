/-
Scopes in which types come out the same.

Inferring the type of an expression looks at the functions of a scope, and at the types of variables
and of columns.  It does not look at the rows of data sets.  Scopes that agree so far give every
expression the same type and note the same problems, provided that the bodies of functions are
walked through in the same way.
-/
import FrameLang.Typing

namespace FrameLang

/-- Two scopes know the same functions, and of every variable and every column the same type. -/
structure Scope.Agrees (scope scope' : Scope) : Prop where
  variableType : scope.variableType = scope'.variableType
  columnType : ∀ dataSet, (scope.dataSets.find? dataSet).map Frame.columnType? =
    (scope'.dataSets.find? dataSet).map Frame.columnType?
  registry : scope.registry = scope'.registry
  functions : scope.functions = scope'.functions

theorem Scope.Agrees.refl (scope : Scope) : scope.Agrees scope :=
  ⟨rfl, fun _ => rfl, rfl, rfl⟩

namespace Expr

open Typing

variable {scope scope' : Scope} {walk walk' : EnterFunction}

theorem pathType_congr (h : scope.Agrees scope') (dataSet : String) (field : List String) :
    pathType scope.dataSets dataSet field = pathType scope'.dataSets dataSet field := by
  have hcolumn := h.columnType dataSet
  unfold pathType
  cases hf : scope.dataSets.find? dataSet with
  | none =>
      rw [hf, Option.map_none, eq_comm, Option.map_eq_none_iff] at hcolumn
      rw [hcolumn]
  | some f =>
      rw [hf, Option.map_some, eq_comm, Option.map_eq_some_iff] at hcolumn
      obtain ⟨g, hg, htypes⟩ := hcolumn
      rw [hg]
      dsimp only
      rw [htypes]

mutual

/-- It matters only how functions are entered that there are. -/
theorem inferWith_congr (h : scope.Agrees scope') (hwalk : ∀ name f types,
    scope.functions.find? name = some f → walk f types = walk' f types) (e : Expr) :
    e.inferWith scope walk = e.inferWith scope' walk' := by
  cases e with
  | literal | project => rfl
  | var name => rw [inferWith, inferWith, h.variableType]
  | path dataSet field => exact pathType_congr h dataSet field
  | unary op e => rw [inferWith, inferWith, inferWith_congr h hwalk e]
  | binary op l r =>
      rw [inferWith, inferWith, inferWith_congr h hwalk l, inferWith_congr h hwalk r]
  | call name arguments =>
      rw [inferWith, inferWith, inferAllWith_congr h hwalk arguments, ← h.functions, ← h.registry]
      cases hf : scope.functions.find? (normalizeName name) with
      | none => rfl
      | some f => simp only [hwalk _ f _ hf]
  | ifElse c t e =>
      have hc := inferWith_congr h hwalk c
      have ht := inferWith_congr h hwalk t
      cases e with
      | none => rw [inferWith, inferWith, hc, ht]
      | some e => rw [inferWith, inferWith, hc, ht, inferWith_congr h hwalk e]
  | assign name e => rw [inferWith, inferWith, inferWith_congr h hwalk e]
  | named name e => rw [inferWith, inferWith, inferWith_congr h hwalk e]
  | vector elements => rw [inferWith, inferWith, inferAllWith_congr h hwalk elements]
  | index v i => rw [inferWith, inferWith, inferWith_congr h hwalk v, inferWith_congr h hwalk i]
  | sequence statements => rw [inferWith, inferWith, inferAllWith_congr h hwalk statements]
termination_by structural e

theorem inferAllWith_congr (h : scope.Agrees scope') (hwalk : ∀ name f types,
    scope.functions.find? name = some f → walk f types = walk' f types) (es : List Expr) :
    inferAllWith scope walk es = inferAllWith scope' walk' es := by
  cases es with
  | nil => rfl
  | cons e es =>
      rw [inferAllWith, inferAllWith, inferWith_congr h hwalk e, inferAllWith_congr h hwalk es]
termination_by structural es

end

theorem enter_eq_of_agrees (h : scope.Agrees scope') (free : Nat) (active : List String)
    (f : FunctionDef) (types : List ValueType) :
    enter scope free active f types = enter scope' free active f types := by
  induction free generalizing active f types with
  | zero => rfl
  | succ free ih =>
      have hinner : ({ scope with variableType := fun _ => none } : Scope).Agrees
          { scope' with variableType := fun _ => none } :=
        ⟨rfl, h.columnType, h.registry, h.functions⟩
      have hbody := inferAllWith_congr hinner
        (fun _ g types _ => ih (normalizeName f.name :: active) g types) f.body
      rw [enter, enter]
      dsimp only
      rw [hbody]

end Expr

namespace Scope.Agrees

variable {scope scope' : Scope}

theorem inferAll_eq (h : scope.Agrees scope') (es : List Expr) :
    scope.inferAll es = scope'.inferAll es := by
  unfold Scope.inferAll
  rw [h.functions]
  exact Expr.inferAllWith_congr h (fun _ f types _ => Expr.enter_eq_of_agrees h _ _ f types) es

theorem typeOf_eq (h : scope.Agrees scope') (e : Expr) : scope.typeOf e = scope'.typeOf e := by
  have hinfer : scope.infer e = scope'.infer e := by
    unfold Scope.infer
    rw [h.functions]
    exact Expr.inferWith_congr h (fun _ f types _ => Expr.enter_eq_of_agrees h _ _ f types) e
  unfold Scope.typeOf
  rw [hinfer]

end Scope.Agrees

end FrameLang
