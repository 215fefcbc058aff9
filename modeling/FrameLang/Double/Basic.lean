/-
Double precision numbers, by their bits.

A double is kept as the 64 bits of its binary64 encoding, so that two of them are the same exactly
when nothing can tell them apart.  Two weaker relations are needed beside that.  `equals` is the
equality of numbers, under which the two zeros agree and a NaN agrees with nothing.  `order` is a
line on which all encodings stand, negative NaNs first and positive ones last; sorting and the
comparison operators go by it.

Reading a fraction exactly is `ofRatio`: every other way to make a double from numbers (widening
an integer, reading a decimal) goes through it, so rounding is defined once.
-/

namespace FrameLang

structure Double where
  bits : UInt64
deriving DecidableEq, Inhabited

namespace Double

/-! ### The parts of an encoding -/

/-- The value of the sign bit, above all others. -/
def signBit : Nat := 0x8000000000000000

/-- One step of the exponent.  It is also the leading bit of a significand, which is not encoded. -/
def exponentStep : Nat := 0x10000000000000

/-- Everything but the sign bit. -/
def magnitude (d : Double) : Nat := d.bits.toNat % signBit

def isNegative (d : Double) : Bool := signBit ≤ d.bits.toNat

def ofParts (negative : Bool) (magnitude : Nat) : Double :=
  ⟨UInt64.ofNat (if negative then magnitude + signBit else magnitude)⟩

/-- The magnitude of infinity; those of NaNs are larger. -/
def infinityCode : Nat := 0x7ff0000000000000

def infinity (negative : Bool) : Double := ofParts negative infinityCode

def nan (negative : Bool) : Double := ofParts negative 0x7ff8000000000000

def isNaN (d : Double) : Bool := infinityCode < d.magnitude

def isFinite (d : Double) : Bool := d.magnitude < infinityCode

/-- A finite double is its significand times two to its exponent, up to the sign. -/
def significand (d : Double) : Nat :=
  d.magnitude % exponentStep + if d.magnitude / exponentStep = 0 then 0 else exponentStep

def exponent (d : Double) : Int := (max (d.magnitude / exponentStep) 1 : Nat) - 1075

/-! ### Comparison -/

/-- Equality of numbers: the zeros are equal, a NaN equals nothing. -/
def equals (a b : Double) : Bool :=
  !a.isNaN && !b.isNaN && (a == b || (a.magnitude == 0 && b.magnitude == 0))

/-- The place of an encoding among all encodings. -/
def order (d : Double) : Int :=
  if d.isNegative then -(d.magnitude : Int) - 1 else d.magnitude

def compare (a b : Double) : Ordering := Ord.compare a.order b.order

/-! ### Rounding a fraction -/

/-- `num / den` rounded to the nearest natural number, a half to the even neighbour. -/
def divideToEven (num den : Nat) : Nat :=
  let q := num / den
  let r := num % den
  if 2 * r < den || (2 * r == den && q % 2 == 0) then q else q + 1

/-- A whole number is not rounded. -/
theorem divideToEven_mul {q den : Nat} (hden : 0 < den) : divideToEven (q * den) den = q := by
  unfold divideToEven
  simp [Nat.mul_div_cancel _ hden, hden]

/-- The largest `e` with `2 ^ e ≤ num / den`, for positive `num` and `den`. -/
def floorLog (num den : Nat) : Int :=
  let guess : Int := (num.log2 : Int) - den.log2
  if den * Nat.pow 2 guess.toNat ≤ num * Nat.pow 2 (-guess).toNat then guess else guess - 1

/-- The double nearest to `num / den`: 53 significant bits, fewer near zero, and infinity beyond
the largest.  A significand that rounds up to the next power of two carries into the exponent,
where it belongs. -/
def ofRatio (negative : Bool) (num den : Nat) : Double :=
  if num = 0 then ofParts negative 0
  else
    let e := max (floorLog num den - 52) (-1074)
    let m := divideToEven (num * Nat.pow 2 (-e).toNat) (den * Nat.pow 2 e.toNat)
    ofParts negative (min ((e + 1074).toNat * exponentStep + m) infinityCode)

/-- The double nearest to an integer. -/
def ofInt (n : Int) : Double := ofRatio (n < 0) n.natAbs 1

/-! ### Arithmetic -/

/-- Negation changes the sign bit and nothing else, of a NaN too. -/
def neg (d : Double) : Double := ofParts (!d.isNegative) d.magnitude

def abs (d : Double) : Double := ofParts false d.magnitude

/-- A NaN operand is the result, the left one first; an operation that has no value (such as zero
by zero) gives the negative NaN. -/
def combine (op : Float → Float → Float) (a b : Double) : Double :=
  if a.isNaN then a
  else if b.isNaN then b
  else
    let result : Double := ⟨(op (Float.ofBits a.bits) (Float.ofBits b.bits)).toBits⟩
    if result.isNaN then nan true else result

instance : Neg Double := ⟨neg⟩
instance : Add Double := ⟨combine (· + ·)⟩
instance : Sub Double := ⟨combine (· - ·)⟩
instance : Mul Double := ⟨combine (· * ·)⟩
instance : Div Double := ⟨combine (· / ·)⟩

end Double
end FrameLang
