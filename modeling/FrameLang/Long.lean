/-
Whole numbers of 64 bits.

Arithmetic wraps around at the ends of the range.  Reading a text stops at the first character
that settles the answer: a character that is no digit, or the digit with which the number leaves
the range, whichever comes first (on one character the former).
-/
import FrameLang.Text.Digits

namespace FrameLang

abbrev Long := Int64

namespace Long

def toText (n : Long) : String :=
  let size := String.ofList (Text.digits n.toInt.natAbs)
  if n.toInt < 0 then "-" ++ size else size

/-- Why a text is no long. -/
inductive ReadError
  | empty
  | invalidDigit
  | tooLarge
  | tooSmall
deriving DecidableEq

def ReadError.message : ReadError → String
  | .empty => "cannot parse integer from empty string"
  | .invalidDigit => "invalid digit found in string"
  | .tooLarge => "number too large to fit in target type"
  | .tooSmall => "number too small to fit in target type"

/-- Continues the number `n` with digits, within `limit`. -/
def readDigits (limit : Nat) (overflow : ReadError) (n : Nat) : List Char → Except ReadError Nat
  | [] => .ok n
  | c :: rest =>
    if !c.isDigit then .error .invalidDigit
    else
      let n := 10 * n + (c.toNat - 48)
      if limit < n then .error overflow else readDigits limit overflow n rest

/-- The long that a text spells: digits after an optional sign, and nothing else. -/
def ofText (text : String) : Except ReadError Long :=
  if text.isEmpty then .error .empty
  else
    let (negative, cs) := Text.splitSign text.toList
    if cs.isEmpty then .error .invalidDigit
    else if negative then
      (readDigits 9223372036854775808 .tooSmall 0 cs).map fun n => Int64.ofInt (-(n : Int))
    else (readDigits 9223372036854775807 .tooLarge 0 cs).map fun n => Int64.ofInt n

end Long
end FrameLang
