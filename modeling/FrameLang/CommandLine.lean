/-
The command line: one script to run, given by its path or as a text, and what comes of it.

Options are read in the order in which they stand.  Asking for help or for the version settles the
matter at once, and so does the first mistake.  A single hyphen is a value, any other word that
starts with one is an option, and behind two hyphens alone nothing is.
-/
import FrameLang.Frame.Access
import FrameLang.Script

namespace FrameLang.CommandLine

structure Options where
  script : Option String := none
  expression : Option String := none
  debug : Bool := false
  unchecked : Bool := false
deriving DecidableEq

/-- What a command line asks for. -/
inductive Request
  | run (options : Options)
  | help
  | version
  | mistake
deriving DecidableEq

/-! ### Reading the arguments -/

/-- What an argument leads to: going on, going on behind a value for the inline script, or the end
of reading. -/
inductive Step
  | next (options : Options)
  | needsText (options : Options)
  | stop (request : Request)

namespace Options

/-- Each option may be given once. -/
def setDebug (o : Options) : Step :=
  if o.debug then .stop .mistake else .next { o with debug := true }

def setUnchecked (o : Options) : Step :=
  if o.unchecked then .stop .mistake else .next { o with unchecked := true }

def setExpression (o : Options) (text : String) : Step :=
  if o.expression.isSome then .stop .mistake else .next { o with expression := some text }

/-- A path has at least one character. -/
def setScript (o : Options) (path : String) : Step :=
  if o.script.isSome || path.isEmpty then .stop .mistake else .next { o with script := some path }

/-- One-letter options behind one hyphen.  The one with a value takes the rest of the word. -/
def readLetters (o : Options) : List Char → Step
  | [] => .next o
  | 'd' :: rest =>
    match o.setDebug with
    | .next o => o.readLetters rest
    | step => step
  | 'h' :: _ => .stop .help
  | 'V' :: _ => .stop .version
  | ['e'] => .needsText o
  | 'e' :: '=' :: text => o.setExpression (String.ofList text)
  | 'e' :: text => o.setExpression (String.ofList text)
  | _ => .stop .mistake

/-- An option behind two hyphens, which may have a value behind an equals sign. -/
def readWord (o : Options) (name : String) (value : Option String) : Step :=
  match name, value with
  | "expr", none => .needsText o
  | "expr", some text => o.setExpression text
  | "debug", none => o.setDebug
  | "no-check", none => o.setUnchecked
  | "help", none => .stop .help
  | "version", none => .stop .version
  | _, _ => .stop .mistake

def readArgument (o : Options) (argument : String) : Step :=
  match argument.toList with
  | '-' :: '-' :: word =>
    let name := String.ofList (word.takeWhile (· != '='))
    match word.dropWhile (· != '=') with
    | '=' :: value => o.readWord name (some (String.ofList value))
    | _ => o.readWord name none
  | '-' :: letter :: letters => o.readLetters (letter :: letters)
  | _ => o.setScript argument

def finish (o : Options) : Request :=
  if o.script.isSome && o.expression.isSome then .mistake else .run o

/-- Arguments behind two hyphens alone are no options. -/
def readPlain (o : Options) : List String → Request
  | [] => o.finish
  | argument :: rest =>
    match o.setScript argument with
    | .next o => o.readPlain rest
    | _ => .mistake

/-- Whether an argument can be the value of the option in front of it. -/
def isValue (argument : String) : Bool :=
  argument == "-" || argument.toList.head? != some '-'

def read (o : Options) : List String → Request
  | [] => o.finish
  | "--" :: rest => o.readPlain rest
  | argument :: rest =>
    match o.readArgument argument with
    | .next o => o.read rest
    | .stop request => request
    | .needsText o =>
      match rest with
      | [] => .mistake
      | text :: rest =>
        if isValue text then
          match o.setExpression text with
          | .next o => o.read rest
          | _ => .mistake
        else .mistake

end Options

def Request.ofArguments (arguments : List String) : Request := Options.read {} arguments

/-! ### Running -/

/-- How the program ends: its exit code and what it wrote. -/
structure Outcome where
  code : Nat
  output : String := ""
  errors : String := ""
deriving DecidableEq

/-- The result as it is printed: nothing for `void`, a table for a frame. -/
def printedResult (depth : Nat) (host : Host) : Value → Run Unit
  | .void => return
  | .frame _ f => do
    Run.print .script ("\t".intercalate f.columnNames ++ "\n")
    for row in List.range f.rowCount do
      let cells ← (List.range f.columns.length).mapM fun column =>
        Run.attempt (f.getAt depth host row column)
      let texts := cells.map fun cell => (cell.map Value.text).toOption.getD ""
      Run.print .script ("\t".intercalate texts ++ "\n")
  | v => Run.print .script (v.text ++ "\n")

/-- Everything printed, to whichever sink, in the order of printing. -/
def allPrinted (s : Store) : String :=
  String.join (s.trace.toList.filterMap fun
    | .printed _ text => some text
    | .reported _ => none)

/-- A message with each of its lines indented. -/
def indented (text : String) : String :=
  "    " ++ String.ofList (text.toList.flatMap fun c =>
    if c == '\n' then "\n    ".toList else [c])

def failureText (f : ScriptFailure) : String :=
  "Error: " ++ f.message ++ "\n\nCaused by:\n" ++ indented f.causeMessage ++ "\n"

/-- Runs the script that the options name, whose text is at hand or could not be read. -/
def execute (depth : Nat) (options : Options) (origin : Origin)
    (content : Except FileError String) : Outcome :=
  let env : Environment := { registry := .defaults }
  let run : Run (Except ScriptFailure Unit) := do
    match ← env.runFrom depth (!options.unchecked) origin content with
    | .ok v => .ok <$> printedResult depth env.host v
    | .error e => return .error e
  match run.run.run {} with
  | (.ok (.ok ()), s) => { code := 0, output := allPrinted s, errors := s.reports }
  | (.ok (.error e), s) =>
    { code := 1, output := allPrinted s, errors := s.reports ++ failureText e }
  | (.error _, s) =>
    { code := 1, output := allPrinted s,
      errors := s.reports ++ "Error: calls are nested too deeply\n" }

/-- What a run without a script ends with. -/
def nothingToRun : Outcome :=
  { code := 1, errors := "Error: Either a script path or --expr is required\n" }

/-- Where the script that the options name comes from. -/
def Options.origin? (o : Options) : Option Origin :=
  (o.expression.map .inline).or (o.script.map .file)

def usage : String := "Usage: framescript [OPTIONS] [SCRIPT]\n"

def helpText : String :=
  String.join
    ["framescript - evaluate a script and print its result\n\n",
      usage,
      "\nArguments:\n",
      "  [SCRIPT]  Script file to run\n",
      "\nOptions:\n",
      "  -e, --expr <EXPR>  Inline script source\n",
      "  -d, --debug        Enable debug logging\n",
      "      --no-check     Skip static type inference\n",
      "  -h, --help         Print help\n",
      "  -V, --version      Print version\n"]

def versionText : String := "framescript 0.1.0\n"

/-- Carries out a command line, given a way to read files. -/
def run {m : Type → Type} [Monad m] (depth : Nat)
    (readFile : String → m (Except FileError String)) (arguments : List String) : m Outcome :=
  match Request.ofArguments arguments with
  | .help => return { code := 0, output := helpText }
  | .version => return { code := 0, output := versionText }
  | .mistake => return { code := 2, errors := usage }
  | .run options =>
    match options.origin? with
    | none => return nothingToRun
    | some origin => return execute depth options origin (← origin.content readFile)

end FrameLang.CommandLine
