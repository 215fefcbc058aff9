/-
From tokens to expressions and programs.

Every function here reads a phrase from the front of a list of tokens and returns, with what it
read, the tokens that are left and a proof that they are fewer.  That proof is what makes the
functions end, and it is why none of them needs a bound from outside.

Operators bind in ten steps, from `or` over `xor`, `and`, `not`, the comparisons, the sums, the
products, the unary minus and indexing to the phrases that need no operator.  Five of the steps
are chains of left-associative operators, and one function reads them all; `not` and the minus
stack up in front of their operand, and a comparison has at most two sides.
-/
import FrameLang.Double.Decimal
import FrameLang.Expr.Basic
import FrameLang.Syntax.Error

namespace FrameLang.Grammar

/-- A phrase and the tokens behind it, fewer than `bound`. -/
structure Parsed (α : Type) (bound : Nat) where
  value : α
  rest : List Token
  shorter : rest.length < bound

abbrev Outcome (α : Type) (bound : Nat) := Except SyntaxError (Parsed α bound)

/-! ### Phrases without expressions -/

/-- One certain token. -/
def expect (token : Token) : (ts : List Token) → Outcome Unit ts.length
  | [] => .error (.expectedToken token none)
  | t :: rest =>
    if t = token then .ok ⟨(), rest, by simp⟩ else .error (.expectedToken token (some t))

def expectName : (ts : List Token) → Outcome String ts.length
  | .name text :: rest => .ok ⟨text, rest, by simp⟩
  | ts => .error (.expectedName ts.head?)

/-- The fields of a path, each behind a dot; there may be none. -/
def fields : (ts : List Token) → Outcome (List String) (ts.length + 1)
  | .symbol .dot :: .name field :: rest => do
    let ⟨more, left, h⟩ ← fields rest
    return ⟨field :: more, left, by grind⟩
  | .symbol .dot :: rest => .error (.expectedName rest.head?)
  | ts => .ok ⟨[], ts, by simp⟩

/-- Names with commas between them, at least one. -/
def names : (ts : List Token) → Outcome (List String) ts.length
  | .name text :: .symbol .comma :: rest => do
    let ⟨more, left, h⟩ ← names rest
    return ⟨text :: more, left, by grind⟩
  | .name text :: rest => .ok ⟨[text], rest, by simp⟩
  | ts => .error (.expectedName ts.head?)

def skipSeparators (ts : List Token) : List Token := ts.dropWhile (· == .symbol .semicolon)

theorem length_skipSeparators_le (ts : List Token) : (skipSeparators ts).length ≤ ts.length :=
  (List.dropWhile_sublist _).length_le

/-- A number with a point is a double, one without is a long if it is in range. -/
def numberLiteral? (text : String) : Option Literal :=
  if text.toList.contains '.' then (Double.ofText text).toOption.map .double
  else (Long.ofText text).toOption.map .long

/-! ### Operators -/

/-- The families of left-associative operators, from loose to tight. -/
inductive Chain
  | disjunction
  | exclusion
  | conjunction
  | sum
  | product
deriving DecidableEq

/-- The operator of the family that a token stands for. -/
def Chain.operator? : Chain → Token → Option BinaryOp
  | disjunction, .keyword .or_ => some (.connective .or)
  | exclusion, .keyword .xor_ => some (.connective .xor)
  | conjunction, .keyword .and_ => some (.connective .and)
  | sum, .symbol .plus => some (.arithmetic .add)
  | sum, .symbol .minus => some (.arithmetic .subtract)
  | product, .symbol .star => some (.arithmetic .multiply)
  | product, .symbol .slash => some (.arithmetic .divide)
  | _, _ => none

/-- How many kinds of phrase a chain's operands can be without reading a token first. -/
@[simp] def Chain.height : Chain → Nat
  | disjunction => 9
  | exclusion => 8
  | conjunction => 7
  | sum => 4
  | product => 3

def comparison? : Token → Option Comparison
  | .symbol .equal => some .eq
  | .symbol .notEqual => some .ne
  | .symbol .less => some .lt
  | .symbol .greater => some .gt
  | .symbol .lessEqual => some .le
  | .symbol .greaterEqual => some .ge
  | _ => none

/-- `not` is a word or an exclamation mark. -/
def isNegation (t : Token) : Bool := t == .keyword .not_ || t == .symbol .bang

/-! ### Expressions -/

mutual

/-- A chain of operators of one family. -/
def chain (c : Chain) (ts : List Token) : Outcome Expr ts.length := do
  let ⟨first, rest, h⟩ ← operand c ts
  chainRest c ts.length first rest h
termination_by (ts.length, 2 * c.height + 1)

/-- The operators behind the chain read so far. -/
def chainRest (c : Chain) (bound : Nat) (left : Expr) (ts : List Token)
    (within : ts.length < bound) : Outcome Expr bound :=
  match ts with
  | [] => .ok ⟨left, [], within⟩
  | t :: more =>
    match c.operator? t with
    | none => .ok ⟨left, t :: more, within⟩
    | some op => do
      let ⟨right, rest, _⟩ ← operand c more
      chainRest c bound (.binary op left right) rest (by grind)
termination_by (ts.length, 0)

def operand (c : Chain) (ts : List Token) : Outcome Expr ts.length :=
  match c with
  | .disjunction => chain .exclusion ts
  | .exclusion => chain .conjunction ts
  | .conjunction => negation ts
  | .sum => chain .product ts
  | .product => negative ts
termination_by (ts.length, 2 * c.height)

def negation (ts : List Token) : Outcome Expr ts.length :=
  match ts with
  | [] => comparison []
  | t :: rest =>
    if isNegation t then do
      let ⟨e, left, _⟩ ← negation rest
      return ⟨.unary .not e, left, by grind⟩
    else comparison (t :: rest)
termination_by (ts.length, 13)

/-- A sum, alone, with a test for emptiness behind it, or compared with another sum. -/
def comparison (ts : List Token) : Outcome Expr ts.length := do
  let ⟨left, rest, h⟩ ← chain .sum ts
  match rest, h with
  | .keyword .is_ :: .keyword .not_ :: more, h =>
    let ⟨_, rest, _⟩ ← expect (.keyword .empty_) more
    return ⟨.unary .isNotEmpty left, rest, by grind⟩
  | .keyword .is_ :: more, h =>
    let ⟨_, rest, _⟩ ← expect (.keyword .empty_) more
    return ⟨.unary .isEmpty left, rest, by grind⟩
  | .keyword .in_ :: more, h =>
    have : more.length < ts.length := by grind
    let ⟨right, rest, _⟩ ← chain .sum more
    return ⟨.binary (.membership .isIn) left right, rest, by omega⟩
  | .keyword .not_ :: .keyword .in_ :: more, h =>
    have : more.length < ts.length := by grind
    let ⟨right, rest, _⟩ ← chain .sum more
    return ⟨.binary (.membership .notIn) left right, rest, by omega⟩
  | t :: more, h =>
    match comparison? t with
    | some op =>
      have : more.length < ts.length := by grind
      let ⟨right, rest, _⟩ ← chain .sum more
      return ⟨.binary (.comparison op) left right, rest, by omega⟩
    | none => return ⟨left, t :: more, h⟩
  | [], h => return ⟨left, [], h⟩
termination_by (ts.length, 12)

def negative (ts : List Token) : Outcome Expr ts.length :=
  match ts with
  | .symbol .minus :: rest => do
    let ⟨e, left, _⟩ ← negative rest
    return ⟨.unary .minus e, left, by grind⟩
  | ts => indexed ts
termination_by (ts.length, 5)

def indexed (ts : List Token) : Outcome Expr ts.length := do
  let ⟨first, rest, h⟩ ← primary ts
  indexedRest ts.length first rest h
termination_by (ts.length, 4)

/-- The indexes behind the phrase read so far. -/
def indexedRest (bound : Nat) (left : Expr) (ts : List Token) (within : ts.length < bound) :
    Outcome Expr bound :=
  match ts with
  | .symbol .leftBracket :: more => do
    let ⟨position, rest, _⟩ ← chain .disjunction more
    let ⟨_, rest, _⟩ ← expect (.symbol .rightBracket) rest
    indexedRest bound (.index left position) rest (by grind)
  | ts => .ok ⟨left, ts, within⟩
termination_by (ts.length, 0)

/-- A phrase that is complete without operators. -/
def primary (ts : List Token) : Outcome Expr ts.length :=
  match ts with
  | .number text :: rest =>
    match numberLiteral? text with
    | some v => .ok ⟨.literal v, rest, by simp⟩
    | none => .error (.invalidNumber text)
  | .string text :: rest => .ok ⟨.literal (.string text), rest, by simp⟩
  | .keyword .true_ :: rest => .ok ⟨.literal (.boolean true), rest, by simp⟩
  | .keyword .false_ :: rest => .ok ⟨.literal (.boolean false), rest, by simp⟩
  | .name name :: .symbol .dot :: rest => do
    let ⟨field, left, h⟩ ← fields (.symbol .dot :: rest)
    return ⟨.path name field, left, by grind⟩
  | .name name :: .symbol .leftParen :: .symbol .rightParen :: rest =>
    .ok ⟨.call name [], rest, by grind⟩
  | .name name :: .symbol .leftParen :: rest => do
    let ⟨arguments, left, _⟩ ← list .rightParen rest
    return ⟨.call name arguments, left, by grind⟩
  | .name name :: rest => .ok ⟨.var name, rest, by simp⟩
  | .symbol .leftParen :: .symbol .rightParen :: rest => .ok ⟨.vector [], rest, by grind⟩
  | .symbol .leftParen :: rest => do
    let ⟨first, rest', h⟩ ← chain .disjunction rest
    match rest', h with
    | .symbol .comma :: more, h =>
      have : more.length < rest.length := by grind
      let ⟨others, left, _⟩ ← list .rightParen more
      return ⟨.vector (first :: others), left, by grind⟩
    | rest', h =>
      let ⟨_, left, _⟩ ← expect (.symbol .rightParen) rest'
      return ⟨first, left, by grind⟩
  | .keyword .if_ :: rest => do
    let ⟨condition, rest', _⟩ ← chain .disjunction rest
    let ⟨_, rest', _⟩ ← expect (.keyword .then_) rest'
    let ⟨(thenBranch, terminator), rest', _⟩ ←
      block (.keyword .else_) [.keyword .endIf_] rest'
    if terminator = .keyword .else_ then
      let ⟨(elseBranch, _), left, _⟩ ← block (.keyword .endIf_) [] rest'
      return ⟨.ifElse condition (.sequence thenBranch) (some (.sequence elseBranch)), left,
        by grind⟩
    else
      return ⟨.ifElse condition (.sequence thenBranch) none, rest', by grind⟩
  | .keyword .project_ :: rest => do
    let ⟨_, rest', _⟩ ← expect (.symbol .leftBrace) rest
    let ⟨elements, rest', h⟩ ← projection rest'
    match rest', h with
    | .keyword .where_ :: more, h =>
      have : more.length < rest.length := by grind
      let ⟨filter, left, _⟩ ← chain .disjunction more
      return ⟨.project elements (some filter), left, by grind⟩
    | rest', h => return ⟨.project elements none, rest', by grind⟩
  | ts => .error (.unexpectedToken ts.head?)
termination_by (ts.length, 3)

/-- Expressions with commas between them, up to and with the symbol that closes the list. -/
def list (close : Symbol) (ts : List Token) : Outcome (List Expr) ts.length := do
  let ⟨first, rest, h⟩ ← chain .disjunction ts
  match rest, h with
  | .symbol .comma :: more, h =>
    have : more.length < ts.length := by grind
    let ⟨others, left, _⟩ ← list close more
    return ⟨first :: others, left, by omega⟩
  | rest, h =>
    let ⟨_, left, _⟩ ← expect (.symbol close) rest
    return ⟨[first], left, by omega⟩
termination_by (ts.length, 20)

/-- The elements of a projection, up to and with the closing brace. -/
def projection (ts : List Token) : Outcome (List Expr) ts.length := do
  let ⟨first, rest, h⟩ ← element ts
  match rest, h with
  | .symbol .comma :: more, h =>
    have : more.length < ts.length := by grind
    let ⟨others, left, _⟩ ← projection more
    return ⟨first :: others, left, by omega⟩
  | rest, h =>
    let ⟨_, left, _⟩ ← expect (.symbol .rightBrace) rest
    return ⟨[first], left, by omega⟩
termination_by (ts.length, 21)

def element (ts : List Token) : Outcome Expr ts.length :=
  match ts with
  | .name name :: .symbol .colon :: rest => do
    let ⟨e, left, _⟩ ← chain .disjunction rest
    return ⟨.named name e, left, by grind⟩
  | ts => chain .disjunction ts
termination_by (ts.length, 20)

def statement (ts : List Token) : Outcome Expr ts.length :=
  match ts with
  | .name name :: .symbol .assign :: rest => do
    let ⟨e, left, _⟩ ← chain .disjunction rest
    return ⟨.assign name e, left, by grind⟩
  | ts => chain .disjunction ts
termination_by (ts.length, 20)

/-- Statements up to and with one of the terminators, which is returned too. -/
def block (terminator : Token) (others : List Token) (ts : List Token) :
    Outcome (List Expr × Token) ts.length :=
  have hle := length_skipSeparators_le ts
  match hskip : skipSeparators ts with
  | [] => .error (.unfinishedBlock terminator)
  | t :: more =>
    have hlt : more.length < ts.length := by grind
    if t = terminator ∨ t ∈ others then .ok ⟨([], t), more, hlt⟩
    else do
      let ⟨first, rest, _⟩ ← statement (t :: more)
      let ⟨(statements, last), left, _⟩ ← block terminator others rest
      return ⟨(first :: statements, last), left, by grind⟩
termination_by (ts.length, 21)
decreasing_by all_goals grind

end

section

-- The equations of these functions take long to derive.  They are derived here, once, instead of
-- in every proof that asks for them.
attribute [local simp] chain chainRest operand negation comparison negative indexed indexedRest
  primary list projection element statement block

end

def expression (ts : List Token) : Outcome Expr ts.length := chain .disjunction ts

/-- An expression that is all there is, but for semicolons behind it. -/
def wholeExpression (ts : List Token) : Except SyntaxError Expr := do
  let ⟨e, rest, _⟩ ← expression ts
  match skipSeparators rest with
  | [] => return e
  | t :: _ => throw (.unexpectedToken (some t))

/-! ### Programs -/

/-- Parameter names in parentheses. -/
def parameters (ts : List Token) : Outcome (List String) ts.length := do
  let ⟨_, rest, h⟩ ← expect (.symbol .leftParen) ts
  match rest, h with
  | .symbol .rightParen :: left, h => return ⟨[], left, by grind⟩
  | rest, h =>
    let ⟨parameters, rest, _⟩ ← names rest
    let ⟨_, left, _⟩ ← expect (.symbol .rightParen) rest
    return ⟨parameters, left, by omega⟩

/-- A function definition, behind its first keyword. -/
def functionDef (ts : List Token) : Outcome FunctionDef ts.length := do
  let ⟨name, rest, _⟩ ← expectName ts
  let ⟨parameters, rest, _⟩ ← parameters rest
  let ⟨_, rest, _⟩ ← expect (.symbol .leftBrace) rest
  let ⟨(body, _), left, _⟩ ← block (.symbol .rightBrace) [] rest
  return ⟨{ name, parameters, body }, left, by omega⟩

/-- Reads functions and statements up to the end and adds them to a program. -/
def programFrom (p : Program) (ts : List Token) : Except SyntaxError Program :=
  have _hle := length_skipSeparators_le ts
  match _hskip : skipSeparators ts with
  | [] => .ok p
  | .keyword .function_ :: rest => do
    let ⟨f, left, _⟩ ← functionDef rest
    programFrom (p.define f) left
  | t :: rest => do
    let ⟨e, left, _⟩ ← statement (t :: rest)
    programFrom { p with statements := p.statements ++ [e] } left
termination_by ts.length
decreasing_by all_goals grind

def program (ts : List Token) : Except SyntaxError Program := programFrom {} ts

end FrameLang.Grammar
