/-
The types of values.

Six of them are scalar: a data frame stores only those.
-/

namespace FrameLang

inductive ValueType
  | void
  | boolean
  | long
  | double
  | string
  | date
  | dateTime
  | vector
  | dataFrame
deriving DecidableEq, Inhabited

namespace ValueType

def all : List ValueType :=
  [void, boolean, long, double, string, date, dateTime, vector, dataFrame]

def name : ValueType → String
  | void => "VOID"
  | boolean => "BOOLEAN"
  | long => "LONG"
  | double => "DOUBLE"
  | string => "STRING"
  | date => "DATE"
  | dateTime => "DATE_TIME"
  | vector => "VECTOR"
  | dataFrame => "DATA_FRAME"

def isNumber (t : ValueType) : Bool := t == long || t == double

/-- The type that two branches have in common: their own if they agree, `double` for two different
number types, and `void` otherwise. -/
def join (a b : ValueType) : ValueType :=
  if a = b then a else if a.isNumber && b.isNumber then double else void

end ValueType

inductive ScalarType
  | boolean
  | long
  | double
  | string
  | date
  | dateTime
deriving DecidableEq

namespace ScalarType

def toValueType : ScalarType → ValueType
  | boolean => .boolean
  | long => .long
  | double => .double
  | string => .string
  | date => .date
  | dateTime => .dateTime

def ofValueType? : ValueType → Option ScalarType
  | .boolean => some boolean
  | .long => some long
  | .double => some double
  | .string => some string
  | .date => some date
  | .dateTime => some dateTime
  | .void | .vector | .dataFrame => none

theorem ofValueType?_eq_some {t : ValueType} {s : ScalarType} :
    ofValueType? t = some s ↔ t = s.toValueType := by
  cases t <;> cases s <;> simp [ofValueType?, toValueType]

end ScalarType
end FrameLang
