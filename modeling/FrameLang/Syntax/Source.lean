/-
Reading a source text: its tokens first, then their grammar.
-/
import FrameLang.Syntax.Grammar
import FrameLang.Syntax.Lexeme

namespace FrameLang

def Expr.ofSource (source : String) : Except SyntaxError Expr := do
  Grammar.wholeExpression (← Source.tokens source)

def Program.ofSource (source : String) : Except SyntaxError Program := do
  Grammar.program (← Source.tokens source)

end FrameLang
