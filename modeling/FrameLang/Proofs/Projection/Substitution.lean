/-
Columns as variables, and columns as fields of a data set.

An expression over the rows of a frame names a column as a variable.  A projection has no row whose
columns were variables: it names the column as a field of the data set that the frame is registered
as.  `Expr.onto` turns the one kind of expression into the other, and this is about what they have
in common before anything is evaluated.

They have the same type.  The walk through the one finds a name among the variables, the walk
through the other finds it among the columns of a data set, and both find the type of the column.
The problems that they note are not the same, since a problem holds the expression it is about, so
`Typing.Matches` compares two walks by their results only.  Assignments would make types of
variables that columns are hidden by, and a projection inside would stay as it is, so expressions
with either are left out.
-/
import FrameLang.Proofs.Typing.Check

namespace FrameLang

namespace Expr

/-! ### Replacing variables -/

mutual

/-- The expression with every variable replaced by the field of that name of a data set. -/
def onto (dataSet : String) : Expr → Expr
  | literal v => literal v
  | var name => path dataSet [name]
  | unary op e => unary op (e.onto dataSet)
  | binary op l r => binary op (l.onto dataSet) (r.onto dataSet)
  | call name es => call name (ontoAll dataSet es)
  | ifElse c t none => ifElse (c.onto dataSet) (t.onto dataSet) none
  | ifElse c t (some e) => ifElse (c.onto dataSet) (t.onto dataSet) (some (e.onto dataSet))
  | assign name e => assign name (e.onto dataSet)
  | named name e => named name (e.onto dataSet)
  | vector es => vector (ontoAll dataSet es)
  | index v i => index (v.onto dataSet) (i.onto dataSet)
  | path other field => path other field
  | project es none => project (ontoAll dataSet es) none
  | project es (some filter) => project (ontoAll dataSet es) (some (filter.onto dataSet))
  | sequence es => sequence (ontoAll dataSet es)

def ontoAll (dataSet : String) : List Expr → List Expr
  | [] => []
  | e :: es => e.onto dataSet :: ontoAll dataSet es

end

/-! ### Expressions over columns -/

/-- Whether a node is neither an assignment nor a projection, and if a variable, then a column. -/
def isOver (columns : List String) : Expr → Bool
  | assign .. | project .. => false
  | var name => columns.contains name
  | _ => true

/-- An expression without assignments and projections whose variables are columns of the frame. -/
def IsOver (f : Frame) (e : Expr) : Prop := e.every (isOver f.columnNames) = true

/-- The same for a node that is no field of a data set either. -/
def isOverOnly (columns : List String) : Expr → Bool
  | path .. => false
  | e => isOver columns e

theorem every_project_ne_true {p : Expr → Bool} {es : List Expr} {filter : Option Expr}
    (hp : p (project es filter) = false) : (project es filter).every p ≠ true := by
  cases filter with
  | none => simp [every, hp]
  | some filter => simp [every, hp]

theorem fieldName_single (name : String) : fieldName [name] = name := rfl

/-- Where there are no data sets, an expression that passes the check has no fields of any. -/
theorem every_isOverOnly {columns : List String} {D : Discipline} {scope : Scope}
    {active : List String} {Γ Γ' : View} {e : Expr} {k : Known}
    (h : Typed D scope active Γ e k Γ') (hscope : ∀ name, scope.dataSets.find? name = none)
    (he : e.every (isOver columns) = true) : e.every (isOverOnly columns) = true := by
  induction h using @Typed.rec D scope _ (fun _ _ es _ _ _ =>
    everyIn (isOver columns) es = true → everyIn (isOverOnly columns) es = true) with
  | literal | var => exact he
  | nil => rfl
  | project _ => exact absurd he (every_project_ne_true rfl)
  | path hf =>
      rw [hscope] at hf
      cases hf
  | unary _ _ ih | named _ ih | vector _ ih | sequence _ ih | assign _ _ ih =>
      simp only [every, Bool.and_eq_true] at he ⊢
      exact ⟨he.1, ih he.2⟩
  | callDefined _ _ _ _ _ ih | callRegistered _ _ _ _ _ _ ih =>
      simp only [every, Bool.and_eq_true] at he ⊢
      exact ⟨he.1, ih he.2⟩
  | binary _ _ _ _ ihl ihr | connective _ _ _ _ ihl ihr | index _ _ ihl ihr
  | ifThen _ _ _ _ ihl ihr =>
      simp only [every, Bool.and_eq_true] at he ⊢
      exact ⟨⟨he.1.1, ihl he.1.2⟩, ihr he.2⟩
  | ifElse _ _ _ _ _ _ _ _ _ ihc iht ihe =>
      simp only [every, Bool.and_eq_true] at he ⊢
      exact ⟨⟨⟨he.1.1.1, ihc he.1.1.2⟩, iht he.1.2⟩, ihe he.2⟩
  | cons _ _ ihl ihr he =>
      simp only [everyIn, Bool.and_eq_true] at he ⊢
      exact ⟨ihl he.1, ihr he.2⟩

/-! ### The data set it is about -/

/-- Of two parts that are about one data set, if any, the whole is about that. -/
theorem or_eq_or {dataSet : String} {a b : Option String} (ha : a = none ∨ a = some dataSet)
    (hb : b = none ∨ b = some dataSet) : a.or b = none ∨ a.or b = some dataSet := by
  rcases ha with rfl | rfl
  · exact hb
  · exact Or.inr rfl

mutual

/-- The only data set in such an expression is the one its variables were moved to. -/
theorem firstDataSet?_onto {columns : List String} (dataSet : String) (e : Expr)
    (he : e.every (isOverOnly columns) = true) :
    (e.onto dataSet).firstDataSet? = none ∨ (e.onto dataSet).firstDataSet? = some dataSet := by
  cases e with
  | literal v => exact Or.inl rfl
  | var name => exact Or.inr rfl
  | unary op e | named name e =>
      simp only [every, Bool.and_eq_true] at he
      exact firstDataSet?_onto dataSet e he.2
  | binary op l r | index l r =>
      simp only [every, Bool.and_eq_true] at he
      exact or_eq_or (firstDataSet?_onto dataSet l he.1.2) (firstDataSet?_onto dataSet r he.2)
  | call name es | vector es | sequence es =>
      simp only [every, Bool.and_eq_true] at he
      exact firstDataSetIn?_ontoAll dataSet es he.2
  | ifElse c t e =>
      cases e with
      | none =>
          simp only [every, Bool.and_eq_true] at he
          exact or_eq_or (firstDataSet?_onto dataSet c he.1.2) (firstDataSet?_onto dataSet t he.2)
      | some e =>
          simp only [every, Bool.and_eq_true] at he
          exact or_eq_or (firstDataSet?_onto dataSet c he.1.1.2)
            (or_eq_or (firstDataSet?_onto dataSet t he.1.2) (firstDataSet?_onto dataSet e he.2))
  | assign name e | path other field => cases he
  | project es filter => exact absurd he (every_project_ne_true rfl)
termination_by structural e

theorem firstDataSetIn?_ontoAll {columns : List String} (dataSet : String) (es : List Expr)
    (hes : everyIn (isOverOnly columns) es = true) :
    firstDataSetIn? (ontoAll dataSet es) = none ∨
      firstDataSetIn? (ontoAll dataSet es) = some dataSet := by
  cases es with
  | nil => exact Or.inl rfl
  | cons e es =>
      simp only [everyIn, Bool.and_eq_true] at hes
      exact or_eq_or (firstDataSet?_onto dataSet e hes.1) (firstDataSetIn?_ontoAll dataSet es hes.2)
termination_by structural es

end

end Expr

/-! ### The type -/

namespace Typing

variable {α β : Type}

/-- From where no variable has been given a type, a walk has the result that another walk has from
anywhere, and gives none a type either. -/
def Matches (walk walk' : Typing α) : Prop :=
  ∀ s s' : Findings, s.types = ∅ →
    (walk.run s).1 = (walk'.run s').1 ∧ (walk.run s).2.types = ∅

theorem matches_pure (a : α) : Matches (pure a) (pure a) := fun _ _ hs => ⟨rfl, hs⟩

theorem Matches.bind {x x' : Typing α} {f f' : α → Typing β} (hx : Matches x x')
    (hf : ∀ a, Matches (f a) (f' a)) : Matches (x >>= f) (x' >>= f') := by
  intro s s' hs
  obtain ⟨hresult, hs₁⟩ := hx s s' hs
  rw [StateT.run_bind, StateT.run_bind]
  change (StateT.run (f (x.run s).1) (x.run s).2).1 =
    (StateT.run (f' (x'.run s').1) (x'.run s').2).1 ∧ _
  rw [← hresult]
  exact hf _ _ _ hs₁

/-- A walk that looks at the findings sees that no variable has been given a type. -/
theorem matches_get_bind {f : Findings → Typing α} {walk' : Typing α}
    (h : ∀ s : Findings, s.types = ∅ → Matches (f s) walk') : Matches (get >>= f) walk' :=
  fun s s' hs => h s hs s s' hs

/-- A problem leaves no type, whichever it is and whatever it is about. -/
theorem matches_note (problem problem' : TypeProblem) (e e' : Expr) :
    Matches (note problem e) (note problem' e') :=
  fun _ _ hs => ⟨rfl, hs⟩

theorem Matches.discard {x x' : Typing α} (hx : Matches x x') :
    Matches (discard x) (discard x') :=
  hx.bind fun _ => matches_pure ()

/-- Conditions are followed by matching walks if they match. -/
theorem Matches.condition {c c' : Typing ValueType} {e e' : Expr} {rest rest' : Typing α}
    (hc : Matches c c') (hrest : Matches rest rest') : Matches (do
      if (← c) ≠ .boolean then
        Functor.discard <| note .condition e
      rest) (do
      if (← c') ≠ .boolean then
        Functor.discard <| note .condition e'
      rest') := by
  refine hc.bind fun t => ?_
  split
  · exact (matches_note _ _ _ _).discard.bind fun _ => hrest
  · exact hrest

theorem matches_operatorType (e e' : Expr) (t : ValueType) :
    Matches (Expr.operatorType e t) (Expr.operatorType e' t) := by
  unfold Expr.operatorType
  split
  · exact matches_note _ _ _ _
  · exact matches_pure t

theorem matches_registeredCallType (registry : Registry) (e e' : Expr) (name : String)
    (types : List ValueType) :
    Matches (Expr.registeredCallType registry e name types)
      (Expr.registeredCallType registry e' name types) := by
  unfold Expr.registeredCallType
  split
  · exact matches_note _ _ _ _
  · split
    · exact matches_note _ _ _ _
    · split
      · exact matches_pure _
      · exact matches_note _ _ _ _

end Typing

open Typing

/-- One scope has the columns as variables that another has as fields of a data set.  Neither knows
functions of a program. -/
structure Scope.Mirrors (columns : List String) (dataSet : String) (scope scope' : Scope) : Prop
    where
  functions : ∀ name, scope.functions.find? name = none
  functions' : ∀ name, scope'.functions.find? name = none
  registry : scope.registry = scope'.registry
  fields : ∃ f, scope'.dataSets.find? dataSet = some f ∧
    ∀ name ∈ columns, scope.variableType name = f.columnType? name

namespace Scope.Mirrors

variable {columns : List String} {dataSet : String} {scope scope' : Scope}
  {enter enter' : EnterFunction}

theorem matches_var (h : scope.Mirrors columns dataSet scope') {name : String}
    (hname : name ∈ columns) :
    Matches ((Expr.var name).inferWith scope enter)
      ((Expr.path dataSet [name]).inferWith scope' enter') := by
  obtain ⟨f, hf, hfields⟩ := h.fields
  rw [Expr.inferWith, Expr.inferWith, Expr.pathType, hf, Expr.fieldName_single]
  refine matches_get_bind fun s hs => ?_
  rw [hs, hfields name hname, Bindings.find?_empty, Option.none_or]
  dsimp only
  cases f.columnType? name with
  | none => exact matches_note _ _ _ _
  | some t => exact matches_pure t

mutual

/-- **An expression has the same type over variables as over fields.** -/
theorem matches_inferWith (h : scope.Mirrors columns dataSet scope') (e : Expr)
    (he : e.every (Expr.isOverOnly columns) = true) :
    Matches (e.inferWith scope enter) ((e.onto dataSet).inferWith scope' enter') := by
  cases e with
  | literal v => exact matches_pure _
  | var name => exact h.matches_var (List.contains_iff_mem.mp he)
  | unary op e =>
      simp only [Expr.every, Bool.and_eq_true] at he
      rw [Expr.onto, Expr.inferWith, Expr.inferWith]
      exact (matches_inferWith h e he.2).bind fun t => matches_operatorType _ _ _
  | binary op l r =>
      simp only [Expr.every, Bool.and_eq_true] at he
      rw [Expr.onto, Expr.inferWith, Expr.inferWith]
      refine (matches_inferWith h l he.1.2).bind fun a => ?_
      exact (matches_inferWith h r he.2).bind fun b => matches_operatorType _ _ _
  | call name es =>
      simp only [Expr.every, Bool.and_eq_true] at he
      rw [Expr.onto, Expr.inferWith, Expr.inferWith, h.functions, h.functions', h.registry]
      exact (matches_inferAllWith h es he.2).bind fun types =>
        matches_registeredCallType _ _ _ _ _
  | ifElse c t e =>
      cases e with
      | none =>
          simp only [Expr.every, Bool.and_eq_true] at he
          rw [Expr.onto, Expr.inferWith, Expr.inferWith]
          exact (matches_inferWith h c he.1.2).condition (matches_inferWith h t he.2)
      | some e =>
          simp only [Expr.every, Bool.and_eq_true] at he
          rw [Expr.onto, Expr.inferWith, Expr.inferWith]
          refine (matches_inferWith h c he.1.1.2).condition ?_
          refine (matches_inferWith h t he.1.2).bind fun a => ?_
          refine (matches_inferWith h e he.2).bind fun b => ?_
          split
          · exact matches_note _ _ _ _
          · exact matches_pure _
  | assign name e | path other field => cases he
  | project es filter => exact absurd he (Expr.every_project_ne_true rfl)
  | named name e =>
      simp only [Expr.every, Bool.and_eq_true] at he
      rw [Expr.onto, Expr.inferWith, Expr.inferWith]
      exact matches_inferWith h e he.2
  | vector es =>
      simp only [Expr.every, Bool.and_eq_true] at he
      rw [Expr.onto, Expr.inferWith, Expr.inferWith]
      exact (matches_inferAllWith h es he.2).discard.bind fun _ => matches_pure _
  | index v i =>
      simp only [Expr.every, Bool.and_eq_true] at he
      rw [Expr.onto, Expr.inferWith, Expr.inferWith]
      refine (matches_inferWith h v he.1.2).discard.bind fun _ => ?_
      exact (matches_inferWith h i he.2).discard.bind fun _ => matches_pure _
  | sequence es =>
      simp only [Expr.every, Bool.and_eq_true] at he
      rw [Expr.onto, Expr.inferWith, Expr.inferWith]
      exact (matches_inferAllWith h es he.2).bind fun types => matches_pure _
termination_by structural e

theorem matches_inferAllWith (h : scope.Mirrors columns dataSet scope') (es : List Expr)
    (hes : Expr.everyIn (Expr.isOverOnly columns) es = true) :
    Matches (Expr.inferAllWith scope enter es)
      (Expr.inferAllWith scope' enter' (Expr.ontoAll dataSet es)) := by
  cases es with
  | nil => exact matches_pure _
  | cons e es =>
      simp only [Expr.everyIn, Bool.and_eq_true] at hes
      rw [Expr.ontoAll, Expr.inferAllWith, Expr.inferAllWith]
      refine (matches_inferWith h e hes.1).bind fun t => ?_
      exact (matches_inferAllWith h es hes.2).bind fun types => matches_pure _
termination_by structural es

end

theorem typeOf_onto (h : scope.Mirrors columns dataSet scope') {e : Expr}
    (he : e.every (Expr.isOverOnly columns) = true) :
    scope.typeOf e = scope'.typeOf (e.onto dataSet) :=
  (h.matches_inferWith e he {} {} rfl).1

end Scope.Mirrors
end FrameLang
