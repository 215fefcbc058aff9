/-
What can be wrong with a source text.
-/
import FrameLang.Syntax.Token

namespace FrameLang

inductive SyntaxError
  /-- A character that starts no token, with its place in the source. -/
  | unexpectedCharacter (c : Char) (position : Nat)
  /-- A string without its closing quote, with the place of the opening one. -/
  | unterminatedString (position : Nat)
  | unexpectedToken (found : Option Token)
  | expectedToken (expected : Token) (found : Option Token)
  | expectedName (found : Option Token)
  /-- The source ends inside a block of statements. -/
  | unfinishedBlock (terminator : Token)
  /-- A whole number beyond the range of longs. -/
  | invalidNumber (text : String)
deriving DecidableEq

def SyntaxError.message : SyntaxError → String
  | unexpectedCharacter c position =>
    String.join ["Unexpected character '", String.singleton c, "' at position ", toString position]
  | unterminatedString position =>
    String.join ["Unterminated string starting at position ", toString position]
  | unexpectedToken found => String.join ["Unexpected token: ", Token.shownOrEnd found]
  | expectedToken expected found =>
    String.join ["Expected ", expected.shown, ", found ", Token.shownOrEnd found]
  | expectedName found => String.join ["Expected identifier, found ", Token.shownOrEnd found]
  | unfinishedBlock terminator =>
    String.join ["Expected ", terminator.shown, ", found end of input"]
  | invalidNumber text => String.join ["Invalid number: ", text]

end FrameLang
