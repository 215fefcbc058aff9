/-
What the built-in functions compute.

Printing apart, a built-in function is a function of its arguments.  `void` arguments make most of
the functions on text answer `void`; conversions want a value of the right type.
-/
import FrameLang.Value.Basic

namespace FrameLang

open Value

namespace Builtin

def conversionError (f : Function) (input : String) (cause : ConversionError) : Error :=
  .conversion f.name input cause

/-- A question about two strings. -/
def stringTest (test : List Char → List Char → Bool) (v other : Value) : Except Error Value :=
  match v, other with
  | .void, _ | _, .void => .ok .void
  | v, other => do
    let text ← v.asString
    let part ← other.asString
    return .boolean (test text.toList part.toList)

def mapString (change : String → String) : Value → Except Error Value
  | .void => .ok .void
  | v => v.asString.map fun s => .string (change s)

/-- The text that a conversion is given; no other type will do. -/
def stringArgument (f : Function) : Value → Except Error String
  | .string s => .ok s
  | v => .error (.argumentType f.name .string v.type)

/-- A place between the characters of a text of the given length, its two ends included. -/
def textPosition (length : Nat) (n : Long) : Except Error Nat :=
  if n.toInt < 0 ∨ length < n.toInt then .error (.outOfBounds n length) else .ok n.toInt.toNat

/-- The characters from one position up to another, or to the end. -/
def slice (f : Function) (text begin : Value) (stop : Option Value) : Except Error Value := do
  if text.type = .void then return .void
  let chars := (← text.asString).toList
  let begin ← begin.asLong
  let stop ← stop.mapM Value.asLong
  let first ← textPosition chars.length begin
  let last ← stop.elim (.ok chars.length) (textPosition chars.length)
  if last < first then throw (conversionError f text.text (.reversed first last))
  return .string (String.ofList ((chars.take last).drop first))

def absoluteValue (f : Function) : Value → Except Error Value
  | .void => .ok .void
  | .long n => .ok (.long n.abs)
  | .double d => .ok (.double d.abs)
  | v => .error (.argumentType f.name .double v.type)

/-- A part of a date: a natural number of 32 bits. -/
def datePart (f : Function) (v : Value) : Except Error Nat := do
  let n ← v.asLong
  if n.toInt < 0 then throw (conversionError f n.toText (.long .tooSmall))
  if 4294967296 ≤ n.toInt then throw (conversionError f n.toText (.long .tooLarge))
  return n.toInt.toNat

def dateOfText (f : Function) (text : String) : Except Error Value :=
  match Date.ofText text with
  | .ok d => .ok (.date d)
  | .error e => .error (conversionError f text (.date e))

def dateOfParts (f : Function) (year month day : Value) : Except Error Value := do
  let year ← year.asLong
  let month ← datePart f month
  let day ← datePart f day
  match Date.ofParts? year.toInt month day with
  | some d => return .date d
  | none =>
    let number (n : Nat) := String.ofList (Text.digits n)
    throw (conversionError f (year.toText ++ "-" ++ number month ++ "-" ++ number day) .dateParts)

def dateTimeOfText (f : Function) (text : String) : Except Error Value :=
  match DateTime.ofText? text with
  | some t => .ok (.dateTime t)
  | none => .error (conversionError f text .dateTimeText)

/-- A date-time from year, month, day, hour and minute, with second and nanoseconds if given. -/
def dateTimeOfParts (f : Function) (year : Value) (parts : List Value) : Except Error Value := do
  let y ← year.asLong
  let ns ← parts.mapM (datePart f)
  let part (i : Nat) : Nat := ns[i]?.getD 0
  let t? := (Date.ofParts? y.toInt (part 0) (part 1)).bind fun d =>
    DateTime.ofParts? d (part 2) (part 3) (part 4) (part 5)
  match t? with
  | some t => return .dateTime t
  | none =>
    let input := ", ".intercalate ((year :: parts).map literalText)
    throw (conversionError f input .dateTimeParts)

def areWithin (first second days : Value) : Except Error Value := do
  let a ← first.asDate
  let b ← second.asDate
  let n ← days.asLong
  return .boolean ((b.dayNumber - a.dayNumber).natAbs ≤ n.toInt)

/-- The result of a built-in function other than a printing one, which have no result. -/
def apply (operation : Builtin) (f : Function) (arguments : List Value) : Except Error Value :=
  match operation, arguments with
  | print, _ | println, _ => .ok .void
  | startsWith, [v, part] => stringTest (fun text part => part.isPrefixOf text) v part
  | contains, [v, part] => stringTest (fun text part => occursIn part text) v part
  | toUpper, [v] => mapString Text.toUpper v
  | trim, [v] => mapString Text.trim v
  | substr, [text, first] => slice f text first none
  | substr, [text, first, last] => slice f text first (some last)
  | abs, [v] => absoluteValue f v
  | toString, [v] => .ok (.string v.text)
  | toDate, [v] => dateOfText f v.text
  | toDate, [year, month, day] => dateOfParts f year month day
  | toDateTime, [v] => dateTimeOfText f v.text
  | toDateTime, year :: parts =>
    if 4 ≤ parts.length ∧ parts.length ≤ 6 then dateTimeOfParts f year parts
    else .error (.argumentCount f.name f.usageText)
  | toLong, [v] => do
    let text ← stringArgument f v
    match Long.ofText (Text.trim text) with
    | .ok n => return .long n
    | .error e => throw (conversionError f text (.long e))
  | toDouble, [v] => do
    let text ← stringArgument f v
    match Double.ofText (Text.trim text) with
    | .ok d => return .double d
    | .error e => throw (conversionError f text (.double e))
  | withinDays, [first, second, days] => areWithin first second days
  | _, _ => .error (.argumentCount f.name f.usageText)

end Builtin
end FrameLang
