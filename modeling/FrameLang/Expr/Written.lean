/-
Expressions as text, for messages and for the names of projected columns.

The text is close to the source but not always source: an operand is put in parentheses when, and
only when, it is a binary operation, and strings stand between double quotes as they are.
-/
import FrameLang.Double.Decimal
import FrameLang.Expr.Basic

namespace FrameLang

def boolText (b : Bool) : String := if b then "true" else "false"

def Literal.toText : Literal → String
  | boolean b => boolText b
  | long n => n.toText
  | double d => d.toText
  | string s => "\"" ++ s ++ "\""

namespace Expr

/-- The text of an operand, given the text of the expression. -/
def asOperand (e : Expr) (text : String) : String :=
  match e with
  | binary .. => "(" ++ text ++ ")"
  | _ => text

mutual

@[simp] def toText : Expr → String
  | literal v => v.toText
  | var name => name
  | unary op e =>
    let operand := e.asOperand e.toText
    match op with
    | .minus => op.symbol ++ operand
    | .not => op.symbol ++ " " ++ operand
    | .isEmpty | .isNotEmpty => operand ++ " " ++ op.symbol
  | binary op l r => l.asOperand l.toText ++ " " ++ op.symbol ++ " " ++ r.asOperand r.toText
  | call function arguments => function ++ "(" ++ ", ".intercalate (texts arguments) ++ ")"
  | ifElse c t none => "if " ++ c.toText ++ " then " ++ t.toText ++ " endif"
  | ifElse c t (some e) =>
    "if " ++ c.toText ++ " then " ++ t.toText ++ " else " ++ e.toText ++ " endif"
  | assign name e => name ++ " = " ++ e.toText
  | named name e => name ++ " : " ++ e.toText
  | vector elements => "(" ++ ", ".intercalate (texts elements) ++ ")"
  | index v i => v.asOperand v.toText ++ "[" ++ i.toText ++ "]"
  | path dataSet field => dataSet ++ String.join (field.map ("." ++ ·))
  | project elements none => "project \x7b" ++ ", ".intercalate (texts elements) ++ "\x7d"
  | project elements (some f) =>
    "project \x7b" ++ ", ".intercalate (texts elements) ++ "\x7d where " ++ f.toText
  | sequence statements => "; ".intercalate (texts statements)

@[simp] def texts : List Expr → List String
  | [] => []
  | e :: es => e.toText :: texts es

end

/-- The name that a projected element gives its column. -/
def columnName : Expr → String
  | named name _ => name
  | e => e.toText

end Expr

def FunctionDef.toText (f : FunctionDef) : String :=
  "function " ++ f.name ++ "(" ++ ", ".intercalate f.parameters ++ ")\n\x7b\n" ++
    "\n".intercalate (Expr.texts f.body) ++ "\n\x7d"

/-- The functions in the order of their normalized names, then the statements. -/
def Program.toText (p : Program) : String :=
  "\n".intercalate
    (p.functions.values.map FunctionDef.toText ++ ["\n".intercalate (Expr.texts p.statements)])

end FrameLang
