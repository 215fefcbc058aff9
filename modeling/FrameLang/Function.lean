/-
Functions that a program can call without defining them.

A registry maps normalized names to functions.  A function declares its parameters (or takes any
number of arguments), a rule for its result type, and a body.  The body is only named here: it is
one of the built-in operations, or a key under which the host of the program keeps an operation of
its own.  That way a registry is plain data, and a data frame, whose computed columns need one,
can hold it.
-/
import FrameLang.Expr.Basic

namespace FrameLang

inductive Builtin
  | print
  | println
  | startsWith
  | contains
  | toUpper
  | trim
  | substr
  | abs
  | toString
  | toDate
  | toDateTime
  | toLong
  | toDouble
  | withinDays
deriving DecidableEq

inductive FunctionBody
  | builtin (operation : Builtin)
  | host (key : String)
deriving DecidableEq

structure Function where
  name : String
  /-- The declared parameters; `none` if any arguments will do. -/
  parameters : Option (List String)
  /-- The result type for given argument types; `none` if they are wrong. -/
  resultType : List ValueType → Option ValueType := fun _ => some .void
  /-- What messages say about the right use, where the parameters do not say it all. -/
  usage : Option String := none
  body : FunctionBody

namespace Function

def isVariadic (f : Function) : Bool := f.parameters.isNone

def usageOf (name : String) (parameters : List String) : String :=
  "Usage: " ++ name ++ "(" ++ ", ".intercalate parameters ++ ")"

def usageText (f : Function) : String :=
  f.usage.getD (usageOf f.name (f.parameters.getD []))

/-- Whether a call with so many arguments can be right. -/
def takes (f : Function) (count : Nat) : Bool :=
  f.parameters.all (·.length == count)

end Function

abbrev Registry := Bindings Function

namespace Registry

def get? (r : Registry) (name : String) : Option Function := r.find? (normalizeName name)

def contains (r : Registry) (name : String) : Bool := Bindings.contains r (normalizeName name)

/-- Adds a function, in the place of one with the same normalized name. -/
def add (r : Registry) (f : Function) : Registry := r.insert (normalizeName f.name) f

/-- The declared names in ascending order. -/
def declaredNames (r : Registry) : List String :=
  (r.values.map Function.name).mergeSort (· ≤ ·)

end Registry

/-! ### The built-in functions -/

namespace Builtin

/-- The result type of a function whose arguments are all strings. -/
def ofStrings (result : ValueType) (types : List ValueType) : Option ValueType :=
  if types.all (· == .string) then some result else none

def substrType : List ValueType → Option ValueType
  | [.string, .long] => some .string
  | [.string, .long, .long] => some .string
  | _ => none

def absType : List ValueType → Option ValueType
  | [t] => if t.isNumber then some t else none
  | _ => none

def toDateType : List ValueType → Option ValueType
  | [.string] => some .date
  | [.long, .long, .long] => some .date
  | _ => none

def toDateTimeType : List ValueType → Option ValueType
  | [.string] => some .dateTime
  | types =>
    if 5 ≤ types.length ∧ types.length ≤ 7 ∧ types.all (· == .long) then some .dateTime else none

def withinDaysType : List ValueType → Option ValueType
  | [.date, .date, .long] => some .boolean
  | _ => none

def function (operation : Builtin) : Function :=
  let body := .builtin operation
  match operation with
  | print => { name := "print", parameters := none, body }
  | println => { name := "println", parameters := none, body }
  | startsWith =>
    { name := "startsWith", parameters := some ["string", "prefix"],
      resultType := ofStrings .boolean, body }
  | contains =>
    { name := "contains", parameters := some ["string", "substring"],
      resultType := ofStrings .boolean, body }
  | toUpper =>
    { name := "toUpper", parameters := some ["string"], resultType := ofStrings .string, body }
  | trim => { name := "trim", parameters := some ["string"], resultType := ofStrings .string, body }
  | substr =>
    { name := "substr", parameters := none, resultType := substrType,
      usage := some "Usage: substr(string, beginIndex[, endIndex])", body }
  | abs => { name := "abs", parameters := some ["number"], resultType := absType, body }
  | toString =>
    { name := "toString", parameters := some ["value"], resultType := fun _ => some .string, body }
  | toDate =>
    { name := "toDate", parameters := none, resultType := toDateType,
      usage := some "Usage: toDate(\"yyyy-mm-dd\") or toDate(yyyy, mm, dd)", body }
  | toDateTime =>
    { name := "toDateTime", parameters := none, resultType := toDateTimeType,
      usage := some ("Usage: toDateTime(\"yyyy-mm-ddThh:mm[:ss[.nnnn]]\") or " ++
        "toDateTime(yyyy, mm, dd, hh, mm[, ss[, nnnn]])"), body }
  | toLong =>
    { name := "toLong", parameters := some ["string"], resultType := ofStrings .long, body }
  | toDouble =>
    { name := "toDouble", parameters := some ["string"], resultType := ofStrings .double, body }
  | withinDays =>
    { name := "withinDays", parameters := some ["date1", "date2", "numberOfDays"],
      resultType := withinDaysType, body }

def all : List Builtin :=
  [print, println, startsWith, contains, toUpper, trim, substr, abs, toString, toDate, toDateTime,
    toLong, toDouble, withinDays]

end Builtin

/-- The registry of the built-in functions. -/
def Registry.defaults : Registry := Builtin.all.foldl (fun r b => r.add b.function) ∅

end FrameLang
