/-
The words of the language.

A token is a name, a number or a string with its text, a keyword, or a symbol.  The spelling of a
keyword or symbol is what stands in a source text; its label is how messages name it.
-/
import FrameLang.Text.Case
import FrameLang.Text.Quoted

namespace FrameLang

inductive Keyword
  | and_ | or_ | xor_ | not_ | in_ | is_ | empty_ | if_ | then_ | else_ | endIf_ | function_
  | project_ | where_ | true_ | false_
deriving DecidableEq

namespace Keyword

def all : List Keyword :=
  [and_, or_, xor_, not_, in_, is_, empty_, if_, then_, else_, endIf_, function_, project_, where_,
    true_, false_]

def spelling : Keyword → String
  | and_ => "and"
  | or_ => "or"
  | xor_ => "xor"
  | not_ => "not"
  | in_ => "in"
  | is_ => "is"
  | empty_ => "empty"
  | if_ => "if"
  | then_ => "then"
  | else_ => "else"
  | endIf_ => "endif"
  | function_ => "function"
  | project_ => "project"
  | where_ => "where"
  | true_ => "true"
  | false_ => "false"

def label : Keyword → String
  | and_ => "And"
  | or_ => "Or"
  | xor_ => "Xor"
  | not_ => "Not"
  | in_ => "In"
  | is_ => "Is"
  | empty_ => "Empty"
  | if_ => "If"
  | then_ => "Then"
  | else_ => "Else"
  | endIf_ => "EndIf"
  | function_ => "Function"
  | project_ => "Project"
  | where_ => "Where"
  | true_ => "True"
  | false_ => "False"

/-- The keyword that a word is, in any mix of case. -/
def ofWord? (word : String) : Option Keyword :=
  let lower := Text.toLower word
  all.find? fun k => k.spelling == lower

end Keyword

inductive Symbol
  | plus | minus | star | slash
  | assign | equal | notEqual | less | greater | lessEqual | greaterEqual
  | bang | colon
  | leftParen | rightParen | leftBrace | rightBrace | leftBracket | rightBracket
  | comma | semicolon | dot
deriving DecidableEq

namespace Symbol

def spelling : Symbol → String
  | plus => "+"
  | minus => "-"
  | star => "*"
  | slash => "/"
  | assign => "="
  | equal => "=="
  | notEqual => "!="
  | less => "<"
  | greater => ">"
  | lessEqual => "<="
  | greaterEqual => ">="
  | bang => "!"
  | colon => ":"
  | leftParen => "("
  | rightParen => ")"
  | leftBrace => "\x7b"
  | rightBrace => "\x7d"
  | leftBracket => "["
  | rightBracket => "]"
  | comma => ","
  | semicolon => ";"
  | dot => "."

def label : Symbol → String
  | plus => "Plus"
  | minus => "Minus"
  | star => "Star"
  | slash => "Slash"
  | assign => "Assign"
  | equal => "Equal"
  | notEqual => "NotEqual"
  | less => "Less"
  | greater => "Greater"
  | lessEqual => "LessEqual"
  | greaterEqual => "GreaterEqual"
  | bang => "Bang"
  | colon => "Colon"
  | leftParen => "LeftParen"
  | rightParen => "RightParen"
  | leftBrace => "LeftBrace"
  | rightBrace => "RightBrace"
  | leftBracket => "LeftBracket"
  | rightBracket => "RightBracket"
  | comma => "Comma"
  | semicolon => "Semicolon"
  | dot => "Dot"

/-- The symbol that one character is. -/
def ofChar? : Char → Option Symbol
  | '+' => some plus
  | '-' => some minus
  | '*' => some star
  | '/' => some slash
  | '=' => some assign
  | '!' => some bang
  | '<' => some less
  | '>' => some greater
  | ':' => some colon
  | '(' => some leftParen
  | ')' => some rightParen
  | '{' => some leftBrace
  | '}' => some rightBrace
  | '[' => some leftBracket
  | ']' => some rightBracket
  | ',' => some comma
  | ';' => some semicolon
  | '.' => some dot
  | _ => none

/-- The symbol that a symbol and an equals sign behind it form together. -/
def withEquals? : Symbol → Option Symbol
  | assign => some equal
  | bang => some notEqual
  | less => some lessEqual
  | greater => some greaterEqual
  | _ => none

end Symbol

inductive Token
  | name (text : String)
  | number (text : String)
  | string (text : String)
  | keyword (k : Keyword)
  | symbol (s : Symbol)
deriving DecidableEq

namespace Token

def label : Token → String
  | name _ => "Identifier"
  | number _ => "Number"
  | string _ => "String"
  | keyword k => k.label
  | symbol s => s.label

/-- The token as messages show it: its label, and its text in quotes where it has one. -/
def shown : Token → String
  | name text => "Identifier(" ++ Text.quoted text ++ ")"
  | number text => "Number(" ++ Text.quoted text ++ ")"
  | string text => "String(" ++ Text.quoted text ++ ")"
  | keyword k => k.label
  | symbol s => s.label

/-- What stands at a place of a source: a token, or the end. -/
def shownOrEnd : Option Token → String
  | some t => t.shown
  | none => "Eof"

/-- Tokens with the end behind them. -/
def marked (ts : List Token) : List (Option Token) := ts.map some ++ [none]

theorem filterMap_marked (ts : List Token) : (marked ts).filterMap id = ts := by
  simp [marked, List.filterMap_map]

end Token
end FrameLang
