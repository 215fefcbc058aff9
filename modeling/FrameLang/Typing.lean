/-
The types of expressions, without evaluating them.

Checking walks through an expression once, in the order of evaluation and through both branches of
every `if`.  It does not stop at a problem: the problem is noted, the expression gets the type
`void`, and the walk goes on.  Assignments give their variables a type for the rest of the walk.

A call of a user function walks through the function's body with the types of the arguments, and
sees none of the caller's variables.  A function whose body is being walked through already is not
entered again, which is noted as a recursion.  So with as many functions as a program has, that
many bodies can be open at once and no more, and `enter` counts down from there.
-/
import FrameLang.Error
import FrameLang.Function
import FrameLang.Frame.Basic

namespace FrameLang

/-- What the names in an expression stand for, as far as types go. -/
structure Scope where
  variableType : String → Option ValueType := fun _ => none
  dataSets : Bindings Frame := ∅
  registry : Registry
  functions : FunctionDefs := ∅

/-- The types assigned so far, and the problems found so far. -/
structure Findings where
  types : Bindings ValueType := ∅
  issues : Array TypeIssue := #[]

abbrev Typing := StateM Findings

/-- How a walk goes into the body of a user function: `none` if that body is being walked through
already. -/
abbrev EnterFunction := FunctionDef → List ValueType → Typing (Option ValueType)

namespace Typing

/-- Notes a problem of an expression, which leaves it without a type. -/
def note (problem : TypeProblem) (expression : Expr) : Typing ValueType := do
  modify fun s => { s with issues := s.issues.push { problem, expression } }
  return .void

def assign (name : String) (type : ValueType) : Typing Unit :=
  modify fun s => { s with types := s.types.insert name type }

/-- Runs a walk with variable types of its own. -/
def isolated {α : Type} (types : Bindings ValueType) (walk : Typing α) : Typing α := do
  let outer := (← get).types
  modify fun s => { s with types }
  let result ← walk
  modify fun s => { s with types := outer }
  return result

end Typing

namespace Expr

open Typing

/-- Notes the operands of an operator if they leave it without a result. -/
def operatorType (e : Expr) (result : ValueType) : Typing ValueType :=
  if result = .void then note .operands e else pure result

/-- The type of a call of a registered function. -/
def registeredCallType (registry : Registry) (e : Expr) (name : String) (types : List ValueType) :
    Typing ValueType :=
  match registry.get? name with
  | none => note .unknownFunction e
  | some f =>
    if !f.takes types.length then note .argumentCount e
    else match f.resultType types with
      | some t => pure t
      | none => note .argumentTypes e

/-- The type of a field of a data set. -/
def pathType (dataSets : Bindings Frame) (dataSet : String) (field : List String) :
    Typing ValueType :=
  match dataSets.find? dataSet with
  | none => note .unknownDataSet (.path dataSet field)
  | some f =>
    match f.columnType? (fieldName field) with
    | some t => pure t
    | none => note .unknownProperty (.path dataSet field)

mutual

/-- The type of an expression; `enter` goes into the functions that it calls. -/
def inferWith (scope : Scope) (enter : EnterFunction) : Expr → Typing ValueType
  | literal v => pure v.type
  | var name => do
    match ((← get).types.find? name).or (scope.variableType name) with
    | some t => return t
    | none => note .undefinedVariable (var name)
  | unary op e => do
    let t ← e.inferWith scope enter
    operatorType (unary op e) (op.resultType t)
  | binary op l r => do
    let a ← l.inferWith scope enter
    let b ← r.inferWith scope enter
    operatorType (binary op l r) (op.resultType a b)
  | call name arguments => do
    let types ← inferAllWith scope enter arguments
    match scope.functions.find? (normalizeName name) with
    | some f =>
      if f.parameters.length ≠ arguments.length then note .argumentCount (call name arguments)
      else match ← enter f types with
        | some t => return t
        | none => note .recursion (call name arguments)
    | none => registeredCallType scope.registry (call name arguments) name types
  | ifElse c t none => do
    if (← c.inferWith scope enter) ≠ .boolean then
      discard <| note .condition (ifElse c t none)
    t.inferWith scope enter
  | ifElse c t (some e) => do
    if (← c.inferWith scope enter) ≠ .boolean then
      discard <| note .condition (ifElse c t (some e))
    let a ← t.inferWith scope enter
    let b ← e.inferWith scope enter
    if a.join b = .void ∧ ¬(a = .void ∧ b = .void) then
      note .branches (ifElse c t (some e))
    else return a.join b
  | assign name e => do
    let t ← e.inferWith scope enter
    Typing.assign name t
    return t
  | named _ e => e.inferWith scope enter
  | vector elements => do
    discard <| inferAllWith scope enter elements
    return .vector
  | index v i => do
    -- the types of elements are not followed, so this one is not known
    discard <| v.inferWith scope enter
    discard <| i.inferWith scope enter
    return .void
  | path dataSet field => pathType scope.dataSets dataSet field
  | project _ _ => pure .dataFrame
  | sequence statements => do
    let types ← inferAllWith scope enter statements
    return types.getLastD .void

def inferAllWith (scope : Scope) (enter : EnterFunction) : List Expr → Typing (List ValueType)
  | [] => pure []
  | e :: es => do
    let t ← e.inferWith scope enter
    return t :: (← inferAllWith scope enter es)

end

section

-- Derived here, once, instead of in every proof that asks for these equations.
attribute [local simp] inferWith inferAllWith

end

/-- Walks through the body of a function with the given argument types.  At most `free` functions
are not open yet; `active` holds the normalized names of those that are. -/
def enter (scope : Scope) (free : Nat) (active : List String) (f : FunctionDef)
    (types : List ValueType) : Typing (Option ValueType) :=
  match free with
  | 0 => pure none
  | free + 1 =>
    let name := normalizeName f.name
    if active.contains name then pure none
    else isolated (Bindings.ofList (f.parameters.zip types)) do
      let inner := { scope with variableType := fun _ => none }
      let types ← inferAllWith inner (enter scope free (name :: active)) f.body
      return some (types.getLastD .void)

end Expr

namespace Scope

/-- The type of each expression in turn, an assignment in one holding for the next. -/
def inferAll (scope : Scope) (es : List Expr) : Typing (List ValueType) :=
  Expr.inferAllWith scope (Expr.enter scope scope.functions.size []) es

def infer (scope : Scope) (e : Expr) : Typing ValueType :=
  e.inferWith scope (Expr.enter scope scope.functions.size [])

/-- The type of an expression on its own, problems or not. -/
def typeOf (scope : Scope) (e : Expr) : ValueType := ((scope.infer e).run {}).1

/-- The type of an expression without problems, or its first problem. -/
def check (scope : Scope) (e : Expr) : Except Error ValueType :=
  let (type, findings) := (scope.infer e).run {}
  match findings.issues[0]? with
  | some issue => .error (.illTyped issue)
  | none => .ok type

/-- The type of a program's last statement, in a scope that knows the program's functions. -/
def inferProgram (scope : Scope) (p : Program) : Typing ValueType := do
  let types ← { scope with functions := p.functions }.inferAll p.statements
  return types.getLastD .void

def checkProgram (scope : Scope) (p : Program) : Except Error ValueType :=
  let (type, findings) := (scope.inferProgram p).run {}
  match findings.issues[0]? with
  | some issue => .error (.illTyped issue)
  | none => .ok type

end Scope

/-- The scope of expressions over a frame: its columns are the variables. -/
def Frame.scope (f : Frame) : Scope :=
  { variableType := f.columnType?, registry := f.registry }

end FrameLang
