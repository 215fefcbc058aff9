/-
Doubles in decimal.

Writing uses the fewest digits that read back as the same double.  Every finite double is a whole
number of some power of ten, and so are the ends of the interval of reals that round to it; in
that unit the search for the shortest text is a search for the coarsest power of ten with a
multiple inside the interval.  No exponent is ever written, and whole numbers of at most fifteen
digits show one decimal.

Reading accepts digits with an optional point among them, before them or after them, and an
optional exponent, and rounds the exact value once.
-/
import FrameLang.Double.Basic
import FrameLang.Text.Digits

namespace FrameLang.Double

open Text (digits digitsValue splitSign)

/-! ### Shortest digits -/

/-- The interval of reals that round to a double, with the double itself, in units of
`10 ^ -scale`.  The ends belong to it when `closed`. -/
structure Interval where
  lower : Nat
  value : Nat
  upper : Nat
  scale : Nat
  closed : Bool

def Interval.holds (i : Interval) (x : Nat) : Bool :=
  if i.closed then i.lower ≤ x && x ≤ i.upper else i.lower < x && x < i.upper

/-- The neighbours of `m * 2 ^ q` are half a unit away on both sides, but only a quarter below a
power of two; the unit here is a quarter. -/
def roundingInterval (d : Double) : Interval :=
  let m := d.significand
  let q := d.exponent - 2
  let below := if m = exponentStep ∧ d.magnitude / exponentStep ≠ 1 then 1 else 2
  let scale := (-q).toNat
  let unit := Nat.pow 2 q.toNat * Nat.pow 5 scale
  { lower := (4 * m - below) * unit, value := 4 * m * unit, upper := (4 * m + 2) * unit,
    scale, closed := m % 2 = 0 }

/-- The multiple of `10 ^ place` inside the interval that is nearest to its value, if there is
one; of two equally near the larger. -/
def Interval.onGrid? (i : Interval) (place : Nat) : Option Nat :=
  let unit := Nat.pow 10 place
  let low := i.value / unit * unit
  let high := low + unit
  match i.holds low, i.holds high with
  | true, true => some (if i.value - low < high - i.value then low / unit else high / unit)
  | true, false => some (low / unit)
  | false, true => some (high / unit)
  | false, false => none

/-- Digits and place of the coarsest decimal in the interval, searching from `place` down. -/
def Interval.coarsest (i : Interval) : Nat → Nat × Nat
  | 0 => (i.value, 0)
  | place + 1 =>
    match i.onGrid? (place + 1) with
    | some digits => (digits, place + 1)
    | none => i.coarsest place

/-- `digits * 10 ^ (place - scale)` without an exponent. -/
def positional (digits place scale : Nat) : String :=
  let text := Text.digits digits
  if scale ≤ place then String.ofList (text ++ List.replicate (place - scale) '0')
  else
    let decimals := scale - place
    let padded := List.replicate (decimals + 1 - text.length) '0' ++ text
    let whole := padded.length - decimals
    String.ofList (padded.take whole ++ '.' :: padded.drop whole)

/-- The size of a finite double when it is a whole number. -/
def whole? (d : Double) : Option Nat :=
  let shift := (-d.exponent).toNat
  if d.significand % Nat.pow 2 shift = 0 then
    some (d.significand / Nat.pow 2 shift * Nat.pow 2 d.exponent.toNat)
  else none

def magnitudeText (d : Double) : String :=
  match d.whole?.filter (· < 1000000000000000) with
  | some n => String.ofList (digits n) ++ ".0"
  | none =>
    let i := d.roundingInterval
    let (digits, place) := i.coarsest (digits i.upper).length
    positional digits place i.scale

/-- The decimal text of a double; a NaN shows no sign. -/
def toText (d : Double) : String :=
  if d.isNaN then "NaN"
  else
    let size := if d.isFinite then d.magnitudeText else "inf"
    if d.isNegative then "-" ++ size else size

/-! ### Reading -/

/-- The double nearest to `digits * 10 ^ exponent`.  Far outside the range of doubles the power of
ten is not computed. -/
def ofDecimal (negative : Bool) (digits : Nat) (exponent : Int) : Double :=
  if digits = 0 then ofParts negative 0
  else
    let size := exponent + (Text.digits digits).length
    if 320 < size then infinity negative
    else if size < -340 then ofParts negative 0
    else ofRatio negative (digits * Nat.pow 10 exponent.toNat) (Nat.pow 10 (-exponent).toNat)

/-- An exponent: nothing at all, or `e`, an optional sign and digits up to the end. -/
def exponent? : List Char → Option Int
  | [] => some 0
  | c :: rest =>
    let (negative, digits) := splitSign rest
    if c.toLower == 'e' && !digits.isEmpty && digits.all Char.isDigit then
      some (if negative then -(digitsValue digits : Int) else digitsValue digits)
    else none

/-- An unsigned number in decimal. -/
def unsigned? (negative : Bool) (cs : List Char) : Option Double :=
  let whole := cs.takeWhile Char.isDigit
  let (decimals, rest) :=
    match cs.dropWhile Char.isDigit with
    | '.' :: rest => (rest.takeWhile Char.isDigit, rest.dropWhile Char.isDigit)
    | rest => ([], rest)
  if whole.isEmpty && decimals.isEmpty then none
  else (exponent? rest).map fun e =>
    ofDecimal negative (digitsValue (whole ++ decimals)) (e - decimals.length)

/-- Why a text is no double. -/
inductive ReadError
  | empty
  | malformed
deriving DecidableEq

def ReadError.message : ReadError → String
  | .empty => "cannot parse float from empty string"
  | .malformed => "invalid float literal"

/-- The double that a text spells: decimal, or one of the names of infinity and NaN in any mix of
case, after an optional sign. -/
def ofText (text : String) : Except ReadError Double :=
  if text.isEmpty then .error .empty
  else
    let (negative, rest) := splitSign text.toList
    let word := String.ofList (rest.map Char.toLower)
    if word == "nan" then .ok (nan negative)
    else if word == "inf" || word == "infinity" then .ok (infinity negative)
    else (unsigned? negative rest).elim (.error .malformed) .ok

end FrameLang.Double
