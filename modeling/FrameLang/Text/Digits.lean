/-
Natural numbers in decimal digits.
-/

namespace FrameLang.Text

/-- The number that decimal digits spell, the empty run being zero. -/
def digitsValue (cs : List Char) : Nat :=
  cs.foldl (fun n c => 10 * n + (c.toNat - 48)) 0

def digits (n : Nat) : List Char := Nat.toDigits 10 n

/-- The digits of `n` behind as many zeros as it takes to fill `width`. -/
def padded (width n : Nat) : List Char :=
  List.replicate (width - (digits n).length) '0' ++ digits n

/-- The sign in front of a number and what follows it; no sign counts as plus. -/
def splitSign : List Char → Bool × List Char
  | '-' :: rest => (true, rest)
  | '+' :: rest => (false, rest)
  | cs => (false, cs)

end FrameLang.Text
