/-
Expressions and programs.

One type holds everything that has a value.  An assignment stands only where a statement may, a
sequence only as a branch of an `if`, and a name of its own only in front of a projected element.
That is the doing of the grammar and not of the type, because every pass treats them like any
other expression.
-/
import FrameLang.Bindings
import FrameLang.Double.Basic
import FrameLang.Long
import FrameLang.Operator
import FrameLang.Text.Case

namespace FrameLang

/-- A constant of a source text. -/
inductive Literal
  | boolean (b : Bool)
  | long (n : Long)
  | double (d : Double)
  | string (s : String)
deriving DecidableEq

def Literal.type : Literal → ValueType
  | boolean _ => .boolean
  | long _ => .long
  | double _ => .double
  | string _ => .string

inductive Expr
  | literal (value : Literal)
  | var (name : String)
  | unary (op : UnaryOp) (operand : Expr)
  | binary (op : BinaryOp) (left right : Expr)
  | call (function : String) (arguments : List Expr)
  | ifElse (condition thenBranch : Expr) (elseBranch : Option Expr)
  | assign (name : String) (value : Expr)
  /-- A projected element under a name of its own. -/
  | named (name : String) (value : Expr)
  | vector (elements : List Expr)
  | index (vector position : Expr)
  /-- A field of the current row of a data set. -/
  | path (dataSet : String) (field : List String)
  | project (elements : List Expr) (filter : Option Expr)
  | sequence (statements : List Expr)

/-- Function names are the same if they are the same in lower case. -/
def normalizeName (name : String) : String := Text.toLower name

/-- A function that a program defines. -/
structure FunctionDef where
  name : String
  parameters : List String
  body : List Expr

/-- The functions of a program under their normalized names. -/
abbrev FunctionDefs := Bindings FunctionDef

structure Program where
  functions : FunctionDefs := ∅
  statements : List Expr := []

/-- Adds a function; an earlier one of the same normalized name is forgotten. -/
def Program.define (p : Program) (f : FunctionDef) : Program :=
  { p with functions := p.functions.insert (normalizeName f.name) f }

/-! ### The data set an expression is about -/

namespace Expr

/-- The dotted name of a field. -/
def fieldName (field : List String) : String := ".".intercalate field

mutual

/-- The data set of the first path in the expression, in the order of evaluation. -/
def firstDataSet? : Expr → Option String
  | literal _ | var _ => none
  | path dataSet _ => some dataSet
  | unary _ e | assign _ e | named _ e => e.firstDataSet?
  | binary _ l r | index l r => l.firstDataSet?.or r.firstDataSet?
  | ifElse c t none => c.firstDataSet?.or t.firstDataSet?
  | ifElse c t (some e) => c.firstDataSet?.or (t.firstDataSet?.or e.firstDataSet?)
  | call _ es | vector es | sequence es => firstDataSetIn? es
  | project es none => firstDataSetIn? es
  | project es (some f) => (firstDataSetIn? es).or f.firstDataSet?

def firstDataSetIn? : List Expr → Option String
  | [] => none
  | e :: es => e.firstDataSet?.or (firstDataSetIn? es)

end

end Expr

def Program.firstDataSet? (p : Program) : Option String := Expr.firstDataSetIn? p.statements

end FrameLang
