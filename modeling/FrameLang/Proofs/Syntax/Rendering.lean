/-
How an expression is written down.

The grammar has eleven steps, from the phrases that hold together least to those that hold together
most.  A place for an operand demands a step: what is below it has to stand in parentheses there.
A left-associative operator demands its own step on the left and the next one on the right, and a
comparison the next one on both sides, since comparisons do not associate.

A projection with a filter is the loosest phrase of all, since the filter goes on for as long as it
can.  But where it cannot go on, the projection may do without parentheses whatever is demanded.
That is so where nothing of the phrases around it comes next: `not project {D.a} where b` negates a
projection.  And it may be so otherwise: comparisons do not associate, and a test for emptiness
takes no operand on its right, so `project {D.a} where a == b == c` compares a projection with `c`,
and `project {D.a} where a is empty + c` adds `c` to one.  So a phrase is rendered with regard to
what comes next in the phrases around it, and a filter has to spare that.

Four styles differ in what they leave open.  The minimal one has no parentheses but where they are
demanded, and one semicolon between two statements of a branch.  The grouped one has any
parentheses, and semicolons wherever they may stand or none.  In these two a projection with a
filter is the loosest phrase wherever it stands.  The separated and the free one let it do without
parentheses where the filter cannot go on; as to other parentheses and semicolons they are like the
grouped one, but in the separated one there is a semicolon between two statements.
-/
import FrameLang.Syntax.Grammar

namespace FrameLang

/-! ### Steps, demands and tokens of the operators -/

namespace UnaryOp

def level : UnaryOp → Nat
  | not => 4
  | isEmpty | isNotEmpty => 5
  | minus => 8

end UnaryOp

def Comparison.token : Comparison → Token
  | eq => .symbol .equal
  | ne => .symbol .notEqual
  | lt => .symbol .less
  | le => .symbol .lessEqual
  | gt => .symbol .greater
  | ge => .symbol .greaterEqual

namespace BinaryOp

def level : BinaryOp → Nat
  | connective .or => 1
  | connective .xor => 2
  | connective .and => 3
  | comparison _ | membership _ => 5
  | arithmetic .add | arithmetic .subtract => 6
  | arithmetic .multiply | arithmetic .divide => 7

/-- What the left operand has to hold together at least. -/
def leftDemand (op : BinaryOp) : Nat := if op.level = 5 then 6 else op.level

theorem leftDemand_pos (op : BinaryOp) : 0 < op.leftDemand := by
  unfold leftDemand level
  split <;> split <;> decide

def rightDemand (op : BinaryOp) : Nat := op.level + 1

def tokens : BinaryOp → List Token
  | connective .or => [.keyword .or_]
  | connective .xor => [.keyword .xor_]
  | connective .and => [.keyword .and_]
  | membership .isIn => [.keyword .in_]
  | membership .notIn => [.keyword .not_, .keyword .in_]
  | comparison op => [op.token]
  | arithmetic .add => [.symbol .plus]
  | arithmetic .subtract => [.symbol .minus]
  | arithmetic .multiply => [.symbol .star]
  | arithmetic .divide => [.symbol .slash]

end BinaryOp

/-- The step of an expression, where that of a projection with a filter is given. -/
def Expr.level (filtered : Nat) : Expr → Nat
  | unary op _ => op.level
  | binary op _ _ => op.level
  | index _ _ => 9
  | project _ (some _) => filtered
  | _ => 10

namespace Grammar

/-! ### What comes next -/

/-- What comes behind a phrase and belongs to a phrase around it: the step at which it binds, 0 if
nothing comes, and whether it is to be kept from the phrase. -/
structure Next where
  step : Nat
  spared : Bool := false

namespace Next

def nothing : Next := { step := 0 }

def toSpare (next : Next) : Next := { next with spared := true }

/-- At a place with the demand, an expression of the level does not take what is to be spared: no
step from the demand up to the expression does, and its own operator does not go on.  Comparisons do
not, since they do not associate. -/
def Spares (next : Next) (demand level : Nat) : Prop :=
  next.spared = true →
    next.step = 0 ∨ next.step < demand ∨ level < next.step ∨ next.step = 5 ∧ level = 5

theorem spares_nothing (demand level : Nat) : nothing.Spares demand level := fun _ => .inl rfl

theorem spares_taken (step demand level : Nat) : ({ step } : Next).Spares demand level := nofun

end Next

/-! ### Styles -/

inductive Style
  | minimal
  | grouped
  | separated
  | free
deriving DecidableEq

namespace Style

/-- The step of a projection with a filter. -/
def filtered : Style → Nat
  | minimal | grouped => 0
  | separated | free => 10

/-- How many semicolons may stand between two statements, or else in front of the first and behind
the last. -/
def Allows : Style → (between : Bool) → Nat → Prop
  | minimal, true, n => n = 1
  | minimal, false, n => n = 0
  | separated, true, n => 0 < n
  | separated, false, _ | grouped, _, _ | free, _, _ => True

end Style

/-! ### Renderings -/

/-- The token of a constant.  Numbers can be written in more than one way. -/
inductive IsConstant : Literal → Token → Prop
  | number {text : String} {v : Literal} :
      numberLiteral? text = some v → IsConstant v (.number text)
  | string {text : String} : IsConstant (.string text) (.string text)
  | true_ : IsConstant (.boolean true) (.keyword .true_)
  | false_ : IsConstant (.boolean false) (.keyword .false_)

/-- The fields of a path, each behind a dot. -/
def dotted (fields : List String) : List Token :=
  fields.flatMap fun field => [.symbol .dot, .name field]

/-- What a list is made of: only the elements of a projection may have a name, and only statements
assign. -/
inductive Role
  | argument
  | element
  | statement
deriving DecidableEq

inductive Phrase
  /-- An expression at a place with a demand and with something next. -/
  | operand (demand : Nat) (next : Next) (e : Expr)
  /-- An expression without parentheses around it. -/
  | bare (next : Next) (e : Expr)
  | item (role : Role) (e : Expr)
  /-- Items with commas between them. -/
  | list (role : Role) (es : List Expr)
  /-- Statements, behind another one if `between`. -/
  | block (between : Bool) (es : List Expr)

/-- The tokens are a rendering of the phrase. -/
inductive Renders (style : Style) : Phrase → List Token → Prop
  | bare {demand : Nat} {next : Next} {e : Expr} {ts : List Token} :
      demand ≤ e.level style.filtered → next.Spares demand (e.level 10) →
      Renders style (.bare next e) ts → Renders style (.operand demand next e) ts
  | parens {demand : Nat} {next : Next} {e : Expr} {ts : List Token} :
      (style = .minimal → e.level style.filtered < demand) → next.Spares demand 10 →
      Renders style (.operand 0 .nothing e) ts →
      Renders style (.operand demand next e)
        (.symbol .leftParen :: (ts ++ [.symbol .rightParen]))
  | constant {next : Next} {v : Literal} {t : Token} :
      IsConstant v t → Renders style (.bare next (.literal v)) [t]
  | var {next : Next} {name : String} : Renders style (.bare next (.var name)) [.name name]
  | path {next : Next} {name : String} {field : List String} :
      field ≠ [] → Renders style (.bare next (.path name field)) (.name name :: dotted field)
  | call {next : Next} {name : String} {es : List Expr} {ts : List Token} :
      Renders style (.list .argument es) ts →
      Renders style (.bare next (.call name es))
        (.name name :: .symbol .leftParen :: (ts ++ [.symbol .rightParen]))
  | vector {next : Next} {es : List Expr} {ts : List Token} :
      es.length ≠ 1 → Renders style (.list .argument es) ts →
      Renders style (.bare next (.vector es)) (.symbol .leftParen :: (ts ++ [.symbol .rightParen]))
  | ifThen {next : Next} {c : Expr} {thens : List Expr} {ts us : List Token} :
      Renders style (.operand 0 .nothing c) ts → Renders style (.block false thens) us →
      Renders style (.bare next (.ifElse c (.sequence thens) none))
        (.keyword .if_ :: (ts ++ .keyword .then_ :: (us ++ [.keyword .endIf_])))
  | ifElse {next : Next} {c : Expr} {thens elses : List Expr} {ts us vs : List Token} :
      Renders style (.operand 0 .nothing c) ts → Renders style (.block false thens) us →
      Renders style (.block false elses) vs →
      Renders style (.bare next (.ifElse c (.sequence thens) (some (.sequence elses))))
        (.keyword .if_ :: (ts ++ .keyword .then_ ::
          (us ++ .keyword .else_ :: (vs ++ [.keyword .endIf_]))))
  | project {next : Next} {es : List Expr} {ts : List Token} :
      es ≠ [] → Renders style (.list .element es) ts →
      Renders style (.bare next (.project es none))
        (.keyword .project_ :: .symbol .leftBrace :: (ts ++ [.symbol .rightBrace]))
  | filter {next : Next} {es : List Expr} {f : Expr} {ts us : List Token} :
      es ≠ [] → Renders style (.list .element es) ts →
      Renders style (.operand 0 next.toSpare f) us →
      Renders style (.bare next (.project es (some f)))
        (.keyword .project_ :: .symbol .leftBrace ::
          (ts ++ .symbol .rightBrace :: .keyword .where_ :: us))
  | index {next : Next} {v p : Expr} {ts us : List Token} :
      Renders style (.operand 9 { step := 9 } v) ts → Renders style (.operand 0 .nothing p) us →
      Renders style (.bare next (.index v p))
        (ts ++ .symbol .leftBracket :: (us ++ [.symbol .rightBracket]))
  | minus {next : Next} {e : Expr} {ts : List Token} :
      Renders style (.operand 8 next e) ts →
      Renders style (.bare next (.unary .minus e)) (.symbol .minus :: ts)
  | not {next : Next} {e : Expr} {t : Token} {ts : List Token} :
      isNegation t = true → Renders style (.operand 4 next e) ts →
      Renders style (.bare next (.unary .not e)) (t :: ts)
  | isEmpty {next : Next} {e : Expr} {ts : List Token} :
      Renders style (.operand 6 { step := 5 } e) ts →
      Renders style (.bare next (.unary .isEmpty e)) (ts ++ [.keyword .is_, .keyword .empty_])
  | isNotEmpty {next : Next} {e : Expr} {ts : List Token} :
      Renders style (.operand 6 { step := 5 } e) ts →
      Renders style (.bare next (.unary .isNotEmpty e))
        (ts ++ [.keyword .is_, .keyword .not_, .keyword .empty_])
  | binary {next : Next} {op : BinaryOp} {l r : Expr} {ts us : List Token} :
      Renders style (.operand op.leftDemand { step := op.level } l) ts →
      Renders style (.operand op.rightDemand next r) us →
      Renders style (.bare next (.binary op l r)) (ts ++ (op.tokens ++ us))
  | item {role : Role} {e : Expr} {ts : List Token} :
      Renders style (.operand 0 .nothing e) ts → Renders style (.item role e) ts
  | named {name : String} {e : Expr} {ts : List Token} :
      Renders style (.operand 0 .nothing e) ts →
      Renders style (.item .element (.named name e)) (.name name :: .symbol .colon :: ts)
  | assign {name : String} {e : Expr} {ts : List Token} :
      Renders style (.operand 0 .nothing e) ts →
      Renders style (.item .statement (.assign name e)) (.name name :: .symbol .assign :: ts)
  | noItem {role : Role} : Renders style (.list role []) []
  | lastItem {role : Role} {e : Expr} {ts : List Token} :
      Renders style (.item role e) ts → Renders style (.list role [e]) ts
  | moreItems {role : Role} {e f : Expr} {es : List Expr} {ts us : List Token} :
      Renders style (.item role e) ts → Renders style (.list role (f :: es)) us →
      Renders style (.list role (e :: f :: es)) (ts ++ .symbol .comma :: us)
  | noStatement {between : Bool} {n : Nat} :
      style.Allows false n →
      Renders style (.block between []) (List.replicate n (.symbol .semicolon))
  | statement {between : Bool} {n : Nat} {e : Expr} {es : List Expr} {ts us : List Token} :
      style.Allows between n → Renders style (.item .statement e) ts →
      Renders style (.block true es) us →
      Renders style (.block between (e :: es))
        (List.replicate n (.symbol .semicolon) ++ (ts ++ us))

end Grammar

end FrameLang
