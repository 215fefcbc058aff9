/-
Evaluation.

The value of an expression is found by recursion on the expression, with two exceptions: a call
of a user function goes on with the function's body, and reading a cell of a computed column goes
on with the column's expression.  Both leave the expression at hand, so evaluation takes them as a
parameter, `deeper`, which runs statements in another environment.  `runDeep` closes the loop with
a bound on how deep such steps may be nested; nothing else needs one.

An environment says what names stand for besides the variables: functions, data sets, and the row
of a frame whose columns are variables too, where there is one.
-/
import FrameLang.Frame.Growth
import FrameLang.Run
import FrameLang.Value.Builtin

namespace FrameLang

/-- What comes of a host function: what it printed, and its result. -/
structure HostAnswer where
  printed : String := ""
  result : Except Error Value

namespace HostAnswer

def ok (v : Value) : HostAnswer := { result := .ok v }

def error (e : Error) : HostAnswer := { result := .error e }

@[simp] theorem result_ok (v : Value) : (ok v).result = .ok v := rfl

@[simp] theorem result_error (e : Error) : (error e).result = .error e := rfl

end HostAnswer

/-- What the host's functions do: a key and arguments to an answer.  Of its caller a host function
uses the printer alone; it could look at variables and data sets too, which is left out. -/
abbrev Host := String → List Value → HostAnswer

structure Environment where
  registry : Registry
  host : Host := fun key _ => .error (.unknownFunction key)
  /-- Frames by name.  A host may have data sets of other kinds, which are left out. -/
  dataSets : Bindings Frame := ∅
  functions : FunctionDefs := ∅
  /-- The frame and physical row whose columns can be read as variables. -/
  row : Option (Frame × Nat) := none
  /-- The row of the data sets that a projection has come to. -/
  projectedRow : Option Nat := none

namespace Environment

/-- Where printed text goes. -/
def sink (env : Environment) : Sink := if env.row.isSome then .rows else .script

/-- What an expression over a row of a frame can see: the columns and the frame's functions. -/
def ofRow (host : Host) (f : Frame) (row : Nat) : Environment :=
  { registry := f.registry, host, row := some (f, row) }

/-- What a function's body can see: everything but the caller's variables and rows. -/
def forCall (env : Environment) : Environment := { env with row := none, projectedRow := none }

/-- The scope of types that the environment and the variables make up. -/
def scope (env : Environment) (vars : Bindings Value) : Scope where
  variableType name :=
    ((vars.find? name).map Value.type).or
      (env.row.bind fun (f, _) => f.columnType? name)
  dataSets := env.dataSets
  registry := env.registry
  functions := env.functions

end Environment

open Run

/-- Runs statements in an environment, with the variables there are. -/
abbrev RunStatements := Environment → List Expr → Run Value

/-! ### Reading frames -/

namespace Frame

/-- The value of a column in a physical row. -/
def readColumn (deeper : RunStatements) (host : Host) (f : Frame) (column : Column) (row : Nat) :
    Run Value :=
  match column.content with
  | .stored cells => pure (cells.get row)
  | .computed _ expression _ => isolated ∅ (deeper (.ofRow host f row) [expression])

/-- The value of a column, given by name, at a logical row. -/
def readNamed (deeper : RunStatements) (host : Host) (f : Frame) (name : String) (row : Nat) :
    Run Value := do
  match f.column? name with
  | none => report (.configuration (.noColumn name f.name))
  | some column =>
    match f.physicalRow? row with
    | none => report (.outOfBounds (Int64.ofNat row) f.rowCount)
    | some physical => f.readColumn deeper host column physical

end Frame

/-! ### Names -/

/-- The value of a name: a variable, or else a column of the current row. -/
def lookUp (deeper : RunStatements) (env : Environment) (name : String) : Run Value := do
  match (← get).vars.find? name with
  | some v => return v
  | none =>
    match env.row with
    | none => fail (.undefinedVariable name)
    | some (f, row) =>
      match f.column? name with
      | none => fail (.undefinedVariable name)
      | some column => f.readColumn deeper env.host column row

/-- The value of a field in the row that a projection has come to. -/
def readPath (deeper : RunStatements) (env : Environment) (dataSet : String)
    (field : List String) : Run Value :=
  match env.dataSets.find? dataSet with
  | none => report (.evaluation (.unknownDataSet dataSet))
  | some f =>
    match env.projectedRow with
    | none =>
      report (.evaluation (.pathOutsideProjection (dataSet ++ "." ++ Expr.fieldName field)))
    | some row => f.readNamed deeper env.host (Expr.fieldName field) row

/-! ### Calls -/

/-- The arguments by position of the declared parameters.  Parameters are names: of two with one
name both read the later argument. -/
def boundArguments (parameters : List String) (arguments : List Value) : List Value :=
  let bound := Bindings.ofList (parameters.zip arguments)
  parameters.filterMap bound.find?

/-- Does what a function's body stands for. -/
def Function.perform (f : Function) (env : Environment) (arguments : List Value) : Run Value :=
  match f.body with
  | .builtin .print => do
    print env.sink (String.join (arguments.map Value.text))
    return .void
  | .builtin .println => do
    print env.sink (String.join (arguments.map Value.text) ++ "\n")
    return .void
  | .builtin operation => orReport (operation.apply f arguments)
  | .host key => do
    let answer := env.host key arguments
    print env.sink answer.printed
    orReport answer.result

/-- Calls a registered function.  A wrong number of arguments is told to the caller only. -/
def Function.invoke (f : Function) (env : Environment) (arguments : List Value) : Run Value :=
  match f.parameters with
  | none => f.perform env arguments
  | some parameters =>
    if parameters.length = arguments.length then
      f.perform env (boundArguments parameters arguments)
    else fail (.argumentCount f.name f.usageText)

/-- Calls a user function: its parameters are all the variables it starts with. -/
def FunctionDef.invoke (deeper : RunStatements) (f : FunctionDef) (env : Environment)
    (arguments : List Value) : Run Value :=
  if f.parameters.length = arguments.length then
    isolated (Bindings.ofList (f.parameters.zip arguments)) (deeper env.forCall f.body)
  else report (.argumentCount f.name (Function.usageOf f.name f.parameters))

def call (deeper : RunStatements) (env : Environment) (name : String) (arguments : List Value) :
    Run Value :=
  match env.functions.find? (normalizeName name) with
  | some f => f.invoke deeper env arguments
  | none =>
    match env.registry.get? name with
    | some f => f.invoke env arguments
    | none => report (.unknownFunction name)

/-! ### Results -/

/-- Goes on as a condition says, which must be a boolean. -/
def choose (condition : Value) (whenTrue whenFalse : Run Value) : Run Value :=
  match condition with
  | .boolean true => whenTrue
  | .boolean false => whenFalse
  | v => report (.typeMismatch .boolean v.type)

/-- A long from one branch of an `if` becomes a double when the other branch is of type double. -/
def widen (env : Environment) (v : Value) (other : Expr) : Run Value := do
  match v with
  | .long n =>
    if (env.scope (← get).vars).typeOf other = .double then
      return .double (Double.ofInt n.toInt)
    else return v
  | v => return v

/-- The element of a vector at a position. -/
def element (vector position : Value) : Except Error Value := do
  let elements ← vector.asVector
  let i ← position.asLong
  if i.toInt < 0 then throw (.outOfBounds i elements.length)
  match elements[i.toInt.toNat]? with
  | some v => return v
  | none => throw (.outOfBounds i elements.length)

/-- The type of a projected column: the inferred one, or else that of the first value that is not
`void`. -/
def observedType (inferred : ValueType) (values : List Value) : ValueType :=
  if inferred = .void then ((values.map Value.type).find? (· ≠ .void)).getD .string else inferred

/-- The frame that a projection makes of its rows. -/
def projectedFrame (registry : Registry) (name : String) (elements : List Expr)
    (types : List ValueType) (rows : List (List Value)) : Except Error Frame := do
  let columns := (elements.zip types).zipIdx.map fun ((e, type), i) =>
    (e.columnName, observedType type (rows.map fun row => row[i]?.getD .void))
  let empty ← columns.foldlM (fun f (column, type) => f.withColumn column type)
    ({ name, registry } : Frame)
  rows.foldlM Frame.withRow empty

/-! ### Expressions -/

namespace Expr

mutual

def evaluateWith (deeper : RunStatements) (env : Environment) : Expr → Run Value
  | literal v => pure v.toValue
  | var name => reporting (lookUp deeper env name)
  | unary op e => do orReport ((← e.evaluateWith deeper env).unary op)
  | binary (.connective op) l r => do
    let left ← l.evaluateWith deeper env
    match ← orReport (left.shortcut op) with
    | .inl v => return v
    | .inr b =>
      let right ← r.evaluateWith deeper env
      orReport (right.connective op b)
  | binary (.arithmetic op) l r => do
    let left ← l.evaluateWith deeper env
    let right ← r.evaluateWith deeper env
    orReport (left.arithmetic op right)
  | binary (.comparison op) l r => do
    let left ← l.evaluateWith deeper env
    let right ← r.evaluateWith deeper env
    orReport ((left.comparison op right).map .boolean)
  | binary (.membership op) l r => do
    let left ← l.evaluateWith deeper env
    let right ← r.evaluateWith deeper env
    orReport (left.membership op right)
  | call name arguments => do
    FrameLang.call deeper env name (← evaluateAllWith deeper env arguments)
  | ifElse c t none => do
    choose (← c.evaluateWith deeper env) (t.evaluateWith deeper env) (pure .void)
  | ifElse c t (some e) => do
    choose (← c.evaluateWith deeper env) (do widen env (← t.evaluateWith deeper env) e)
      (do widen env (← e.evaluateWith deeper env) t)
  | assign name e => do
    let v ← e.evaluateWith deeper env
    setVariable name v
    return v
  | named _ e => e.evaluateWith deeper env
  | vector elements => return .vector (← evaluateAllWith deeper env elements)
  | index v i => do
    let vector ← v.evaluateWith deeper env
    let position ← i.evaluateWith deeper env
    orReport (element vector position)
  | path dataSet field => readPath deeper env dataSet field
  | project elements filter => do
    let some name := firstDataSet? (project elements filter)
      | report (.evaluation .noDataSet)
    let some f := env.dataSets.find? name
      | report (.evaluation (.unknownDataSet name))
    let types := (((env.scope (← get).vars).inferAll elements).run {}).1
    let rows ← (List.range f.rowCount).filterMapM fun row => do
      let env := { env with projectedRow := some row }
      match filter with
      | none => return some (← evaluateAllWith deeper env elements)
      | some filter =>
        match ← filter.evaluateWith deeper env with
        | .boolean true => return some (← evaluateAllWith deeper env elements)
        | _ => return none
    newFrame (← orReport (projectedFrame env.registry name elements types rows))
  | sequence statements => evaluateStatementsWith deeper env .void statements

def evaluateAllWith (deeper : RunStatements) (env : Environment) : List Expr → Run (List Value)
  | [] => pure []
  | e :: es => do
    let v ← e.evaluateWith deeper env
    return v :: (← evaluateAllWith deeper env es)

/-- The value of the last of some statements, or the one before them if there are none. -/
def evaluateStatementsWith (deeper : RunStatements) (env : Environment) (before : Value) :
    List Expr → Run Value
  | [] => pure before
  | e :: es => do
    let v ← e.evaluateWith deeper env
    evaluateStatementsWith deeper env v es

end

section

-- Derived here, once, instead of in every proof that asks for these equations.
attribute [local simp] evaluateWith evaluateAllWith evaluateStatementsWith

end

/-- Runs statements with at most `depth` bodies and computed cells open inside each other. -/
def runDeep : Nat → RunStatements
  | 0 => fun _ _ => throw .outOfDepth
  | depth + 1 => fun env statements => evaluateStatementsWith (runDeep depth) env .void statements

end Expr

/-- Runs statements in order; the result is the value of the last. -/
def Environment.runStatements (depth : Nat) (env : Environment) (statements : List Expr) :
    Run Value :=
  Expr.evaluateStatementsWith (Expr.runDeep depth) env .void statements

/-- The value of an expression. -/
def Environment.evaluate (depth : Nat) (env : Environment) (e : Expr) : Run Value :=
  e.evaluateWith (Expr.runDeep depth) env

end FrameLang
