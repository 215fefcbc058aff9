/-
Parsing with a cursor.

`Grammar` reads phrases off the front of a list.  The same can be done with a cursor: all tokens are
kept in one place, with an end mark behind them, and what is done next depends on the token at a
position and the one after it.  The position moves on by one token at a time; but on the last entry,
which is the end mark, moving on leaves it where it is.  So nothing in these definitions says that a
walk ends, and a loop that took the end mark for a token that it can pass would go round for ever.

Whether a walk ends is therefore part of its result, and `none` is a walk that does not.  A loop is
given a number of rounds, and one that goes round more often counts as one that does not end.

Calls within a recursion are written with a pipe, since a plain one would stay marked with its place
in the file.
-/
import FrameLang.Syntax.Grammar

namespace FrameLang

/-- A walk over tokens: it changes the position, may find an error, and may not end. -/
abbrev Walk := ExceptT SyntaxError (StateT Nat Option)

/-- Goes round a loop once more, if there are rounds left. -/
def Walk.nextRound : Nat → Walk Nat
  | 0 => fun _ => none
  | rounds + 1 => pure rounds

/-- Tokens with end marks among them, and how often a loop over them may go round. -/
structure Input where
  tokens : List (Option Token)
  rounds : Nat

namespace Input

open Grammar (Chain numberLiteral? comparison? isNegation)
open Walk (nextRound)

/-- Tokens with an end mark behind them, and nowhere else. -/
def marked (ts : List Token) (rounds : Nat) : Input := { tokens := Token.marked ts, rounds }

/-! ### Tokens -/

/-- The token at the position; the end mark is none. -/
def current (input : Input) : Walk (Option Token) := do return input.tokens[← get]?.join

/-- The token behind the current one. -/
def next (input : Input) : Walk (Option Token) := do return input.tokens[(← get) + 1]?.join

/-- Moves on by one token, but stays on the last one. -/
def advance (input : Input) : Walk Unit :=
  modify fun p => if p + 1 < input.tokens.length then p + 1 else p

def expect (input : Input) (token : Token) : Walk Unit := do
  let found ← input.current
  if found = some token then input.advance else throw (.expectedToken token found)

def expectName (input : Input) : Walk String := do
  match ← input.current with
  | some (.name text) =>
    input.advance
    return text
  | found => throw (.expectedName found)

/-! ### Loops over tokens -/

def skipSeparators (input : Input) (rounds : Nat) : Walk Unit := do
  if (← input.current) = some (.symbol .semicolon) then
    let rounds ← nextRound rounds
    input.advance
    input |>.skipSeparators rounds
partial_fixpoint

/-- The fields of a path, each behind a dot. -/
def fields (input : Input) (rounds : Nat) : Walk (List String) := do
  if (← input.current) = some (.symbol .dot) then
    let rounds ← nextRound rounds
    input.advance
    let field ← input.expectName
    return field :: (← input |>.fields rounds)
  else return []
partial_fixpoint

/-- Names with commas between them. -/
def names (input : Input) (rounds : Nat) : Walk (List String) := do
  let rounds ← nextRound rounds
  let name ← input.expectName
  if (← input.current) = some (.symbol .comma) then
    input.advance
    return name :: (← input |>.names rounds)
  else return [name]
partial_fixpoint

/-! ### Expressions -/

mutual

def chain (input : Input) (c : Chain) : Walk Expr := do
  let first ← input |>.operand c
  input |>.chainRest c first input.rounds
partial_fixpoint

def chainRest (input : Input) (c : Chain) (left : Expr) (rounds : Nat) : Walk Expr := do
  match (← input.current).bind c.operator? with
  | some op =>
    let rounds ← nextRound rounds
    input.advance
    let right ← input |>.operand c
    input |>.chainRest c (.binary op left right) rounds
  | none => return left
partial_fixpoint

def operand (input : Input) : Chain → Walk Expr
  | .disjunction => input |>.chain .exclusion
  | .exclusion => input |>.chain .conjunction
  | .conjunction => input |>.negation
  | .sum => input |>.chain .product
  | .product => input |>.negative
partial_fixpoint

def negation (input : Input) : Walk Expr := do
  if (← input.current).any isNegation then
    input.advance
    return .unary .not (← input |>.negation)
  else input |>.comparison
partial_fixpoint

def comparison (input : Input) : Walk Expr := do
  let left ← input |>.chain .sum
  let found ← input.current
  if found = some (.keyword .is_) then
    input.advance
    if (← input.current) = some (.keyword .not_) then
      input.advance
      input.expect (.keyword .empty_)
      return .unary .isNotEmpty left
    else
      input.expect (.keyword .empty_)
      return .unary .isEmpty left
  else if found = some (.keyword .in_) then
    input.advance
    return .binary (.membership .isIn) left (← input |>.chain .sum)
  else if found = some (.keyword .not_) ∧ (← input.next) = some (.keyword .in_) then
    input.advance
    input.advance
    return .binary (.membership .notIn) left (← input |>.chain .sum)
  else
    match found.bind comparison? with
    | some op =>
      input.advance
      return .binary (.comparison op) left (← input |>.chain .sum)
    | none => return left
partial_fixpoint

def negative (input : Input) : Walk Expr := do
  if (← input.current) = some (.symbol .minus) then
    input.advance
    return .unary .minus (← input |>.negative)
  else input |>.indexed
partial_fixpoint

def indexed (input : Input) : Walk Expr := do
  let first ← input |>.primary
  input |>.indexedRest first input.rounds
partial_fixpoint

def indexedRest (input : Input) (left : Expr) (rounds : Nat) : Walk Expr := do
  if (← input.current) = some (.symbol .leftBracket) then
    let rounds ← nextRound rounds
    input.advance
    let position ← input |>.chain .disjunction
    input.expect (.symbol .rightBracket)
    input |>.indexedRest (.index left position) rounds
  else return left
partial_fixpoint

def primary (input : Input) : Walk Expr := do
  match ← input.current with
  | some (.number text) =>
    input.advance
    match numberLiteral? text with
    | some v => return .literal v
    | none => throw (.invalidNumber text)
  | some (.string text) =>
    input.advance
    return .literal (.string text)
  | some (.keyword .true_) =>
    input.advance
    return .literal (.boolean true)
  | some (.keyword .false_) =>
    input.advance
    return .literal (.boolean false)
  | some (.name name) =>
    input.advance
    if (← input.current) = some (.symbol .dot) then
      return .path name (← input.fields input.rounds)
    else if (← input.current) = some (.symbol .leftParen) then
      input.advance
      let arguments ←
        if (← input.current) = some (.symbol .rightParen) then pure []
        else input |>.list input.rounds
      input.expect (.symbol .rightParen)
      return .call name arguments
    else return .var name
  | some (.symbol .leftParen) =>
    input.advance
    if (← input.current) = some (.symbol .rightParen) then
      input.advance
      return .vector []
    else
      let first ← input |>.chain .disjunction
      if (← input.current) = some (.symbol .comma) then
        input.advance
        let others ← input |>.list input.rounds
        input.expect (.symbol .rightParen)
        return .vector (first :: others)
      else
        input.expect (.symbol .rightParen)
        return first
  | some (.keyword .if_) => input |>.conditional
  | some (.keyword .project_) => input |>.projection
  | found => throw (.unexpectedToken found)
partial_fixpoint

def conditional (input : Input) : Walk Expr := do
  input.expect (.keyword .if_)
  let condition ← input |>.chain .disjunction
  input.expect (.keyword .then_)
  let thenBranch ← input |>.statements (.keyword .else_) [.keyword .endIf_] input.rounds
  let elseBranch ←
    if (← input.current) = some (.keyword .else_) then
      input.advance
      pure (some (.sequence (← input |>.statements (.keyword .endIf_) [] input.rounds)))
    else pure none
  input.expect (.keyword .endIf_)
  return .ifElse condition (.sequence thenBranch) elseBranch
partial_fixpoint

def projection (input : Input) : Walk Expr := do
  input.expect (.keyword .project_)
  input.expect (.symbol .leftBrace)
  let columns ← input |>.elements input.rounds
  input.expect (.symbol .rightBrace)
  if (← input.current) = some (.keyword .where_) then
    input.advance
    return .project columns (some (← input |>.chain .disjunction))
  else return .project columns none
partial_fixpoint

/-- Expressions with commas between them. -/
def list (input : Input) (rounds : Nat) : Walk (List Expr) := do
  let rounds ← nextRound rounds
  let first ← input |>.chain .disjunction
  if (← input.current) = some (.symbol .comma) then
    input.advance
    return first :: (← input |>.list rounds)
  else return [first]
partial_fixpoint

/-- The elements of a projection, with commas between them. -/
def elements (input : Input) (rounds : Nat) : Walk (List Expr) := do
  let rounds ← nextRound rounds
  let first ← input |>.element
  if (← input.current) = some (.symbol .comma) then
    input.advance
    return first :: (← input |>.elements rounds)
  else return [first]
partial_fixpoint

/-- An expression, which may have a name in front of it that the symbol sets apart. -/
def labelled (input : Input) (s : Symbol) (label : String → Expr → Expr) : Walk Expr := do
  match ← input.current with
  | some (.name name) =>
    if (← input.next) = some (.symbol s) then
      input.advance
      input.advance
      return label name (← input |>.chain .disjunction)
    else input |>.chain .disjunction
  | _ => input |>.chain .disjunction
partial_fixpoint

def element (input : Input) : Walk Expr := input |>.labelled .colon .named
partial_fixpoint

def statement (input : Input) : Walk Expr := input |>.labelled .assign .assign
partial_fixpoint

/-- Statements up to one of the terminators, which is left where it is. -/
def statements (input : Input) (terminator : Token) (others : List Token) (rounds : Nat) :
    Walk (List Expr) := do
  let rounds ← nextRound rounds
  input.skipSeparators input.rounds
  match ← input.current with
  | none => throw (.unfinishedBlock terminator)
  | some t =>
    if t = terminator ∨ t ∈ others then return []
    else
      let first ← input |>.statement
      return first :: (← input |>.statements terminator others rounds)
partial_fixpoint

end

/-! ### Programs -/

/-- Parameter names in parentheses. -/
def parameters (input : Input) : Walk (List String) := do
  input.expect (.symbol .leftParen)
  let parameters ←
    if (← input.current) = some (.symbol .rightParen) then pure []
    else input.names input.rounds
  input.expect (.symbol .rightParen)
  return parameters

def functionDef (input : Input) : Walk FunctionDef := do
  input.expect (.keyword .function_)
  let name ← input.expectName
  let parameters ← input.parameters
  input.expect (.symbol .leftBrace)
  let body ← input.statements (.symbol .rightBrace) [] input.rounds
  input.expect (.symbol .rightBrace)
  return { name, parameters, body }

def scriptFrom (input : Input) (p : Program) (rounds : Nat) : Walk Program := do
  let rounds ← nextRound rounds
  input.skipSeparators input.rounds
  match ← input.current with
  | none => return p
  | some t =>
    if t = .keyword .function_ then
      let f ← input.functionDef
      input |>.scriptFrom (p.define f) rounds
    else
      let e ← input.statement
      input |>.scriptFrom { p with statements := p.statements ++ [e] } rounds
partial_fixpoint

def script (input : Input) : Walk Program := input.scriptFrom {} input.rounds

/-- An expression that is all there is. -/
def single (input : Input) : Walk Expr := do
  let e ← input.chain .disjunction
  input.skipSeparators input.rounds
  match ← input.current with
  | none => return e
  | some t => throw (.unexpectedToken (some t))

end Input
end FrameLang
