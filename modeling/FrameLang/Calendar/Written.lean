/-
Dates and times as text.

Writing is rigid: `2020-02-29`, and `2020-02-29T10:11:12` with no fraction, or one of three, six
or nine digits.  A year beyond four digits has a sign and at least as many digits.

Reading is lenient.  In front of each number blanks are skipped, a number may have fewer digits
than its width, and a signed year as many as it likes.  A number is checked for its own range
where it stands; whether the parts form a date is asked at the end of the text.
-/
import FrameLang.Calendar.DateTime
import FrameLang.Text.Digits
import FrameLang.Text.Letter

namespace FrameLang

open Text (padded digits digitsValue isBlank)

/-! ### Writing -/

def writtenYear (year : Int) : List Char :=
  if 0 ≤ year ∧ year < 10000 then padded 4 year.toNat
  else (if year < 0 then '-' else '+') :: padded 4 year.natAbs

def Date.written (d : Date) : List Char :=
  writtenYear d.year ++ '-' :: padded 2 d.month ++ '-' :: padded 2 d.day

/-- The fraction of a second, in groups of three digits. -/
def writtenFraction (nanos : Nat) : List Char :=
  if nanos = 0 then []
  else if nanos % 1000000 = 0 then '.' :: padded 3 (nanos / 1000000)
  else if nanos % 1000 = 0 then '.' :: padded 6 (nanos / 1000)
  else '.' :: padded 9 nanos

/-- A leap second is written as the second after the one it is kept with; after second 59 that is
second 60. -/
def DateTime.written (t : DateTime) : List Char :=
  t.date.written ++ 'T' :: padded 2 t.hour ++ ':' :: padded 2 t.minute ++
    ':' :: padded 2 (t.second + t.nanos / 1000000000) ++ writtenFraction (t.nanos % 1000000000)

def Date.toText (d : Date) : String := String.ofList d.written

def DateTime.toText (t : DateTime) : String := String.ofList t.written

/-! ### Reading -/

/-- Why a text is no date. -/
inductive DateReadError
  | tooShort
  | invalid
  | outOfRange
  | tooLong
deriving DecidableEq

def DateReadError.message : DateReadError → String
  | .tooShort => "premature end of input"
  | .invalid => "input contains invalid characters"
  | .outOfRange => "input is out of range"
  | .tooLong => "trailing input"

namespace Calendar

def readMark (mark : Char) : List Char → Except DateReadError (List Char)
  | [] => .error .tooShort
  | c :: rest => if c == mark then .ok rest else .error .invalid

/-- At least one digit, and at most `width` of them. -/
def readDigits (width : Nat) (cs : List Char) : Except DateReadError (Nat × List Char) :=
  let run := (cs.take width).takeWhile Char.isDigit
  if cs.isEmpty then .error .tooShort
  else if run.isEmpty then .error .invalid
  else .ok (digitsValue run, cs.drop run.length)

/-- A number of at most two digits between `low` and `high`, behind any blanks. -/
def readPart (low high : Nat) (cs : List Char) : Except DateReadError (Nat × List Char) := do
  let (n, rest) ← readDigits 2 (cs.dropWhile isBlank)
  if low ≤ n ∧ n ≤ high then return (n, rest) else throw .outOfRange

def readSignedYear : List Char → Except DateReadError (Int × List Char)
  | '-' :: rest => (readDigits rest.length rest).map fun (n, rest) => (-(n : Int), rest)
  | '+' :: rest => (readDigits rest.length rest).map fun (n, rest) => ((n : Int), rest)
  | cs => (readDigits 4 cs).map fun (n, rest) => ((n : Int), rest)

/-- A year that a 32-bit number can hold, behind any blanks. -/
def readYear (cs : List Char) : Except DateReadError (Int × List Char) := do
  let (year, rest) ← readSignedYear (cs.dropWhile isBlank)
  if -2147483648 ≤ year ∧ year < 2147483648 then return (year, rest) else throw .outOfRange

/-- The fraction of a second in nanoseconds: nothing, or a point and digits, of which the first
nine count. -/
def readFraction : List Char → Except DateReadError (Nat × List Char)
  | '.' :: rest => do
    let (n, rest') ← readDigits 9 rest
    return (n * Nat.pow 10 (9 - (rest.length - rest'.length)), rest'.dropWhile Char.isDigit)
  | cs => .ok (0, cs)

def readEnd (cs : List Char) : Except DateReadError Unit :=
  if cs.isEmpty then .ok () else .error .tooLong

def readDateParts (cs : List Char) : Except DateReadError ((Int × Nat × Nat) × List Char) := do
  let (year, cs) ← readYear cs
  let cs ← readMark '-' cs
  let (month, cs) ← readPart 1 12 cs
  let cs ← readMark '-' cs
  let (day, cs) ← readPart 1 31 cs
  return ((year, month, day), cs)

/-- A second and its nanoseconds; second 60 is the leap second after second 59. -/
def readSeconds (cs : List Char) : Except DateReadError ((Nat × Nat) × List Char) := do
  let cs ← readMark ':' cs
  let (second, cs) ← readPart 0 60 cs
  let (nanos, cs) ← readFraction cs
  return (if second = 60 then (59, 1000000000 + nanos) else (second, nanos), cs)

/-- A date and a time whose seconds are read by `seconds`. -/
def readDateTime (seconds : List Char → Except DateReadError ((Nat × Nat) × List Char))
    (cs : List Char) : Except DateReadError DateTime := do
  let ((year, month, day), cs) ← readDateParts cs
  let cs ← readMark 'T' cs
  let (hour, cs) ← readPart 0 23 cs
  let cs ← readMark ':' cs
  let (minute, cs) ← readPart 0 59 cs
  let ((second, nanos), cs) ← seconds cs
  readEnd cs
  match (Date.ofParts? year month day).bind (DateTime.ofParts? · hour minute second nanos) with
  | some t => return t
  | none => throw .outOfRange

end Calendar

open Calendar

def Date.read (cs : List Char) : Except DateReadError Date := do
  let ((year, month, day), cs) ← readDateParts cs
  readEnd cs
  match Date.ofParts? year month day with
  | some d => return d
  | none => throw .outOfRange

/-- A date-time with seconds, or else without. -/
def DateTime.read? (cs : List Char) : Option DateTime :=
  (readDateTime readSeconds cs).toOption.or
    (readDateTime (fun cs => .ok ((0, 0), cs)) cs).toOption

def Date.ofText (text : String) : Except DateReadError Date := Date.read text.toList

def DateTime.ofText? (text : String) : Option DateTime := DateTime.read? text.toList

end FrameLang
