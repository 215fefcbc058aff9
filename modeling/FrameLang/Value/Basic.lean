/-
Values.

Every expression evaluates to one of these.  `void` is the value of what has none: a null cell, an
`if` without a branch to take.  A frame as a value carries an identity besides its contents,
because equality asks whether two names hold the same frame, not whether two frames look alike.
-/
import FrameLang.Error
import FrameLang.Frame.Basic

namespace FrameLang

inductive Value
  | void
  | boolean (b : Bool)
  | long (n : Long)
  | double (d : Double)
  | string (s : String)
  | date (d : Date)
  | dateTime (t : DateTime)
  | vector (elements : List Value)
  | frame (identity : Nat) (contents : Frame)

instance : Inhabited Value := ⟨.void⟩

def Literal.toValue : Literal → Value
  | boolean b => .boolean b
  | long n => .long n
  | double d => .double d
  | string s => .string s

namespace Value

def type : Value → ValueType
  | void => .void
  | boolean _ => .boolean
  | long _ => .long
  | double _ => .double
  | string _ => .string
  | date _ => .date
  | dateTime _ => .dateTime
  | vector _ => .vector
  | frame .. => .dataFrame

/-! ### Text -/

mutual

/-- The value as a source text would have it: strings in quotes, vectors in parentheses. -/
def literalText : Value → String
  | void => "VOID"
  | boolean b => boolText b
  | long n => n.toText
  | double d => d.toText
  | string s => "\"" ++ s ++ "\""
  | date d => d.toText
  | dateTime t => t.toText
  | vector elements => "(" ++ ", ".intercalate (literalTexts elements) ++ ")"
  | frame _ f => "DataFrame(" ++ f.name ++ ")"

def literalTexts : List Value → List String
  | [] => []
  | v :: vs => v.literalText :: literalTexts vs

end

/-- The value as it is printed: a string is shown as it is. -/
def text : Value → String
  | string s => s
  | v => v.literalText

/-! ### Contents -/

def mismatch (v : Value) (expected : ValueType) : Error := .typeMismatch expected v.type

def asBoolean : Value → Except Error Bool
  | boolean b => .ok b
  | v => .error (v.mismatch .boolean)

def asLong : Value → Except Error Long
  | long n => .ok n
  | v => .error (v.mismatch .long)

/-- The number a value is, longs widened. -/
def number? : Value → Option Double
  | double d => some d
  | long n => some (Double.ofInt n.toInt)
  | _ => none

def asDouble (v : Value) : Except Error Double :=
  v.number?.elim (.error (v.mismatch .double)) .ok

def asString : Value → Except Error String
  | string s => .ok s
  | v => .error (v.mismatch .string)

def asDate : Value → Except Error Date
  | date d => .ok d
  | v => .error (v.mismatch .date)

def asDateTime : Value → Except Error DateTime
  | dateTime t => .ok t
  | v => .error (v.mismatch .dateTime)

def asVector : Value → Except Error (List Value)
  | vector elements => .ok elements
  | v => .error (v.mismatch .vector)

def asFrame : Value → Except Error Frame
  | frame _ f => .ok f
  | v => .error (v.mismatch .dataFrame)

/-! ### Equality -/

mutual

/-- Whether two values are the same: of one type, numbers equal as numbers, vectors element by
element, and frames one and the same. -/
def same : Value → Value → Bool
  | void, void => true
  | boolean a, boolean b => a == b
  | long a, long b => a == b
  | double a, double b => a.equals b
  | string a, string b => a == b
  | date a, date b => a == b
  | dateTime a, dateTime b => a == b
  | vector a, vector b => allSame a b
  | frame a _, frame b _ => a == b
  | _, _ => false

def allSame : List Value → List Value → Bool
  | [], [] => true
  | a :: as, b :: bs => a.same b && allSame as bs
  | _, _ => false

end

/-! ### Order -/

/-- The order of two scalars of one kind, numbers of both types being of one kind. -/
def order? : Value → Value → Option Ordering
  | long a, long b => some (compare a.toInt b.toInt)
  | boolean a, boolean b => some (compare a b)
  | string a, string b => some (compare a b)
  | date a, date b => some (a.compare b)
  | dateTime a, dateTime b => some (a.compare b)
  | a, b =>
    match a.number?, b.number? with
    | some x, some y => some (x.compare y)
    | _, _ => none

def orderFor (operation : Operation) (a b : Value) : Except Error Ordering :=
  (a.order? b).elim (.error (.incompatible operation a.literalText b.literalText)) .ok

/-- The order of two sort keys: `void` comes before everything else. -/
def compareKeys : Value → Value → Except Error Ordering
  | void, void => .ok .eq
  | void, _ => .ok .lt
  | _, void => .ok .gt
  | a, b => a.orderFor .compare b

/-! ### Operators -/

/-- Arithmetic on longs, which wraps around and fails only for a division by zero. -/
def arithmeticOnLongs (op : Arithmetic) (a b : Long) : Except Error Long :=
  match op with
  | .add => .ok (a + b)
  | .subtract => .ok (a - b)
  | .multiply => .ok (a * b)
  | .divide => if b = 0 then .error .divisionByZero else .ok (a / b)

def arithmeticOnDoubles (op : Arithmetic) (a b : Double) : Double :=
  match op with
  | .add => a + b
  | .subtract => a - b
  | .multiply => a * b
  | .divide => a / b

/-- Whether values that an operator does not combine are at least of kinds it knows; if not, the
left one alone is to blame. -/
def isOperandPair (op : Arithmetic) : Value → Value → Bool
  | long _, _ | double _, _ => true
  | string _, long _ | string _, double _ | string _, string _ => op == .add
  | _, _ => false

/-- Arithmetic.  `void` takes part in nothing and gives `void`; longs stay longs among themselves
and turn into doubles beside one; strings can be added. -/
def arithmetic (op : Arithmetic) : Value → Value → Except Error Value
  | void, _ | _, void => .ok void
  | long a, long b => (arithmeticOnLongs op a b).map long
  | a, b =>
    match a.number?, b.number?, op, a, b with
    | some x, some y, op, _, _ => .ok (double (arithmeticOnDoubles op x y))
    | _, _, .add, string s, string t => .ok (string (s ++ t))
    | _, _, op, a, b =>
      let operation := .binary (.arithmetic op)
      if isOperandPair op a b then .error (.incompatible operation a.literalText b.literalText)
      else .error (.unsupported operation a.literalText)

/-- Comparison.  Only `void` equals `void`, and it has no order; vectors can only be equal or
not. -/
def comparison (op : Comparison) : Value → Value → Except Error Bool
  | void, void => .ok (op == .eq)
  | void, _ | _, void => .ok (op == .ne)
  | vector a, b =>
    match op, b with
    | .eq, vector b => .ok (allSame a b)
    | .ne, vector b => .ok (!allSame a b)
    | op, _ => .error (.unsupported (.binary (.comparison op)) (vector a).literalText)
  | frame i f, _ => .error (.unsupported (.binary (.comparison op)) (frame i f).literalText)
  | a, b => (a.orderFor (.binary (.comparison op)) b).map op.holds

/-- A value has no contents when it is `void`, the empty string or the empty vector; of other
values the question makes no sense. -/
def isEmpty? : Value → Option Bool
  | void => some true
  | string s => some s.isEmpty
  | vector elements => some elements.isEmpty
  | _ => none

/-- The unary operators; `void` has no negative and no negation. -/
def unary (op : UnaryOp) (v : Value) : Except Error Value :=
  match op, v with
  | .minus, void | .not, void => .ok void
  | .minus, long n => .ok (long (-n))
  | .minus, double d => .ok (double (-d))
  | .not, boolean b => .ok (boolean !b)
  | .isEmpty, v => (v.isEmpty?.map boolean).elim (unsupported v) .ok
  | .isNotEmpty, v => (v.isEmpty?.map (boolean !·)).elim (unsupported v) .ok
  | _, v => unsupported v
where
  unsupported (v : Value) : Except Error Value :=
    .error (.unsupported (.unary op) v.literalText)

/-- Whether `needle` stands somewhere in `text`. -/
def occursIn (needle : List Char) : List Char → Bool
  | [] => needle.isEmpty
  | c :: text => needle.isPrefixOf (c :: text) || occursIn needle text

/-- Membership of an element in a vector, or of a text in a text.  Elements that cannot be
compared with the value are not equal to it. -/
def membership (op : Membership) (v container : Value) : Except Error Value :=
  match container, v with
  | void, _ => .ok void
  | vector elements, v =>
    found (elements.any fun e => (v.comparison .eq e).toOption == some true)
  | string _, void => .ok void
  | string text, string needle => found (occursIn needle.toList text.toList)
  | container, _ => .error (.unsupported (.binary (.membership op)) container.literalText)
where
  found (isFound : Bool) : Except Error Value :=
    .ok (boolean (match op with | .isIn => isFound | .notIn => !isFound))

/-- What the left operand of a connective settles: the result, or else that the right operand
decides together with this boolean. -/
def shortcut (op : Connective) (left : Value) : Except Error (Value ⊕ Bool) :=
  match op, left with
  | _, void => .ok (.inl void)
  | .and, boolean false => .ok (.inl (boolean false))
  | .or, boolean true => .ok (.inl (boolean true))
  | _, boolean b => .ok (.inr b)
  | op, v => .error (.unsupported (.binary (.connective op)) v.literalText)

/-- What a connective gives when its left operand does not settle it. -/
def connective (op : Connective) (left : Bool) : Value → Except Error Value
  | void => .ok void
  | boolean right =>
    .ok (boolean (match op with
      | .and => left && right
      | .or => left || right
      | .xor => left ^^ right))
  | v => .error (.unsupported (.binary (.connective op)) v.literalText)

end Value
end FrameLang
