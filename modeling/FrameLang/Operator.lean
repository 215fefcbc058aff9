/-
The operators and their types.

An operator's result type is a function of its operands' types alone.  Operand types it is not
defined on give `void`, which is no type of any result, so `void` marks a misuse.
-/
import FrameLang.ValueType

namespace FrameLang

inductive UnaryOp
  | minus
  | not
  | isEmpty
  | isNotEmpty
deriving DecidableEq

inductive Arithmetic
  | add
  | subtract
  | multiply
  | divide
deriving DecidableEq

inductive Comparison
  | eq
  | ne
  | lt
  | le
  | gt
  | ge
deriving DecidableEq

inductive Connective
  | and
  | or
  | xor
deriving DecidableEq

inductive Membership
  | isIn
  | notIn
deriving DecidableEq

inductive BinaryOp
  | arithmetic (op : Arithmetic)
  | comparison (op : Comparison)
  | connective (op : Connective)
  | membership (op : Membership)
deriving DecidableEq

/-! ### Symbols -/

def UnaryOp.symbol : UnaryOp → String
  | minus => "-"
  | not => "not"
  | isEmpty => "is empty"
  | isNotEmpty => "is not empty"

def Arithmetic.symbol : Arithmetic → String
  | add => "+"
  | subtract => "-"
  | multiply => "*"
  | divide => "/"

def Comparison.symbol : Comparison → String
  | eq => "=="
  | ne => "!="
  | lt => "<"
  | le => "<="
  | gt => ">"
  | ge => ">="

def Connective.symbol : Connective → String
  | and => "and"
  | or => "or"
  | xor => "xor"

def Membership.symbol : Membership → String
  | isIn => "in"
  | notIn => "not in"

def BinaryOp.symbol : BinaryOp → String
  | arithmetic op => op.symbol
  | comparison op => op.symbol
  | connective op => op.symbol
  | membership op => op.symbol

/-! ### Meaning of a comparison -/

/-- Whether the comparison is true of two values that stand in the given order. -/
def Comparison.holds : Comparison → Ordering → Bool
  | eq, o => o == .eq
  | ne, o => o != .eq
  | lt, o => o == .lt
  | le, o => o != .gt
  | gt, o => o == .gt
  | ge, o => o != .lt

/-! ### Result types -/

def UnaryOp.resultType (op : UnaryOp) (operand : ValueType) : ValueType :=
  match op with
  | minus => if operand.isNumber then operand else .void
  | not => if operand = .boolean then .boolean else .void
  | isEmpty | isNotEmpty => if operand = .string ∨ operand = .vector then .boolean else .void

def BinaryOp.resultType (op : BinaryOp) (left right : ValueType) : ValueType :=
  match op with
  | arithmetic op =>
    if left.isNumber && right.isNumber then left.join right
    else if op = .add ∧ left = .string ∧ right = .string then .string
    else .void
  | connective _ => if left = .boolean ∧ right = .boolean then .boolean else .void
  | membership _ =>
    if right = .vector ∨ (left = .string ∧ right = .string) then .boolean else .void
  | comparison _ => if (left.isNumber && right.isNumber) ∨ left = right then .boolean else .void

end FrameLang
