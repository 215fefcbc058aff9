/-
Runs: computations with variables, output and failure.

A run changes a store and may fail; what it changed before failing stays changed.  The store holds
the variables, the trace of everything written, and a counter that gives each new frame its
identity.  An error is reported, that is written to the trace, where it arises; `report` does both
at once.  Running out of depth is no error of a program: it stops a run from outside and is not
reported.
-/
import FrameLang.Value.Basic

namespace FrameLang

/-- Where printed text goes: scripts print to one place, and expressions over the rows of a frame
to another. -/
inductive Sink
  | script
  | rows
deriving DecidableEq

inductive Event
  | printed (sink : Sink) (text : String)
  | reported (error : Error)

structure Store where
  vars : Bindings Value := ∅
  trace : Array Event := #[]
  nextIdentity : Nat := 0

/-- Why a run ended without a result. -/
inductive Stop
  | failed (error : Error)
  | outOfDepth

abbrev Run := ExceptT Stop (StateM Store)

namespace Run

variable {α : Type}

def emit (event : Event) : Run Unit :=
  modify fun s => { s with trace := s.trace.push event }

def print (sink : Sink) (text : String) : Run Unit := emit (.printed sink text)

/-- Fails without a report. -/
def fail (error : Error) : Run α := throw (.failed error)

/-- Reports an error and fails with it. -/
def report (error : Error) : Run α := do
  emit (.reported error)
  fail error

/-- The result of a computation, or its error reported. -/
def orReport : Except Error α → Run α
  | .ok a => pure a
  | .error e => report e

def orFail : Except Error α → Run α
  | .ok a => pure a
  | .error e => fail e

/-- Reports the error of a run, which may have reported it before. -/
def reporting (run : Run α) : Run α :=
  tryCatch run fun
    | .failed e => report e
    | .outOfDepth => throw .outOfDepth

/-- The result of a run or its error, either of which is then a result. -/
def attempt (run : Run α) : Run (Except Error α) :=
  tryCatch (.ok <$> run) fun
    | .failed e => return .error e
    | .outOfDepth => throw .outOfDepth

/-- Does a run with variables of its own; the outer ones are there again when it ends, however it
ends. -/
def isolated (vars : Bindings Value) (run : Run α) : Run α := fun outer =>
  let (result, inner) := run { outer with vars }
  (result, { inner with vars := outer.vars })

def setVariable (name : String) (v : Value) : Run Unit :=
  modify fun s => { s with vars := s.vars.insert name v }

/-- A frame as a value that equals no other frame. -/
def newFrame (f : Frame) : Run Value := do
  let identity := (← get).nextIdentity
  modify fun s => { s with nextIdentity := identity + 1 }
  return .frame identity f

end Run

/-! ### What was written -/

/-- The line that a report writes. -/
def Error.reportLine (e : Error) : String := "ERROR: " ++ e.message ++ "\n"

namespace Event

def printedTo? (sink : Sink) : Event → Option String
  | printed s text => if s = sink then some text else none
  | reported _ => none

def reportLine? : Event → Option String
  | printed .. => none
  | reported e => some e.reportLine

end Event

namespace Store

def printed (s : Store) (sink : Sink) : String :=
  String.join (s.trace.toList.filterMap (·.printedTo? sink))

def reports (s : Store) : String := String.join (s.trace.toList.filterMap Event.reportLine?)

end Store
end FrameLang
