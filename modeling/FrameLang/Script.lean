/-
Running source texts.

A script is checked as a whole before any of it is run, unless asked otherwise; a failed check
fails the script with its first problem.  A script may be given as a text or as a file, and a
failure says which: `ScriptFailure` is the error together with where the script came from.
-/
import FrameLang.Eval

namespace FrameLang

open Run

/-- Reads a source and reports what is wrong with it. -/
def readSource {α : Type} (read : String → Except SyntaxError α) (source : String) : Run α :=
  orReport ((read source).mapError .malformed)

namespace Environment

/-- Runs the statements of a program, which can call its functions. -/
def runProgram (depth : Nat) (env : Environment) (p : Program) : Run Value :=
  { env with functions := p.functions }.runStatements depth p.statements

/-- Fails with the first problem of a program's types. -/
def checkProgram (env : Environment) (p : Program) : Run Unit := do
  discard <| orReport ((env.scope (← get).vars).checkProgram p)

/-- Runs a script that passes the check. -/
def runScript (depth : Nat) (env : Environment) (source : String) : Run Value := do
  let p ← readSource Program.ofSource source
  env.checkProgram p
  env.runProgram depth p

/-- Runs a script without checking it. -/
def runUnchecked (depth : Nat) (env : Environment) (source : String) : Run Value := do
  env.runProgram depth (← readSource Program.ofSource source)

/-- The value of a source that is one expression. -/
def evaluateSource (depth : Nat) (env : Environment) (source : String) : Run Value := do
  env.evaluate depth (← readSource Expr.ofSource source)

end Environment

/-! ### Scripts in files -/

/-- Why a file could not be read. -/
inductive FileError
  | missing
  | denied
  | directory
  | notText
  | other (text : String)
deriving DecidableEq

def FileError.message : FileError → String
  | missing => "No such file or directory (os error 2)"
  | denied => "Permission denied (os error 13)"
  | directory => "Is a directory (os error 21)"
  | notText => "stream did not contain valid UTF-8"
  | other text => text

/-- Where a script comes from. -/
inductive Origin
  | inline (source : String)
  | file (path : String)
deriving DecidableEq

namespace Origin

def name : Origin → String
  | inline _ => "inline script"
  | file path => "script " ++ path

/-- The text of the script, given a way to read files. -/
def content {m : Type → Type} [Monad m] (readFile : String → m (Except FileError String)) :
    Origin → m (Except FileError String)
  | inline source => return .ok source
  | file path => readFile path

end Origin

inductive ScriptFailure
  | unreadable (origin : Origin) (cause : FileError)
  | failed (origin : Origin) (cause : Error)

namespace ScriptFailure

def message : ScriptFailure → String
  | unreadable origin _ => "Failed to read " ++ origin.name
  | failed origin _ => "Failed to run " ++ origin.name

def causeMessage : ScriptFailure → String
  | unreadable _ cause => cause.message
  | failed _ cause => cause.message

end ScriptFailure

/-- Runs a script from its text, if that could be read. -/
def Environment.runFrom (depth : Nat) (env : Environment) (checked : Bool) (origin : Origin)
    (content : Except FileError String) : Run (Except ScriptFailure Value) := do
  match content with
  | .error cause => return .error (.unreadable origin cause)
  | .ok source =>
    let run := if checked then env.runScript depth source else env.runUnchecked depth source
    return (← attempt run).mapError (.failed origin)

end FrameLang
