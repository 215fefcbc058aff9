/-
The program: reads the command line, does the reading of files, and writes what comes out.
-/
import FrameLang.CommandLine

namespace FrameLang.CommandLine

/-- How deep calls may be nested. -/
def maxDepth : Nat := 100000

def fileError : IO.Error → FileError
  | .noFileOrDirectory .. => .missing
  | .permissionDenied .. => .denied
  | .inappropriateType .. => .directory
  | e => .other (toString e)

def readScript (path : String) : IO (Except FileError String) := do
  try
    let bytes ← IO.FS.readBinFile path
    return (String.fromUTF8? bytes).elim (.error .notText) .ok
  catch e => return .error (fileError e)

end FrameLang.CommandLine

open FrameLang.CommandLine in
def main (arguments : List String) : IO UInt32 := do
  let outcome ← run maxDepth readScript arguments
  IO.print outcome.output
  IO.eprint outcome.errors
  return outcome.code.toUInt32
