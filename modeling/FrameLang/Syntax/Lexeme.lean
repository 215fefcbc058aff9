/-
From a source text to its tokens.

Between tokens stand blanks and comments, which run from two slashes to the end of the line.  What
starts a token decides how far it goes: a word as long as letters, numerals and underscores
follow, a number over one point at most and only if a digit comes behind it, a string to the next
quote of its kind that has no backslash in front.

Each part is a function on the characters that are left, returning what is left after it; `lexeme`
never returns more than it was given, which is why `tokens` ends.
-/
import FrameLang.Syntax.Error
import FrameLang.Text.Letter

namespace FrameLang.Source

open Text (isLetter isNumeral isBlank)

/-- The characters that a word may go on with. -/
def isWordPart (c : Char) : Bool := isLetter c || isNumeral c || c == '_'

def isWordStart (c : Char) : Bool := isLetter c || c == '_'

/-- The text after the end of the current line. -/
def afterLine : List Char → List Char
  | [] => []
  | c :: rest => if c == '\n' then rest else afterLine rest

/-- The content of a string that `quote` closes, and the text after it. -/
def stringBody? (quote : Char) : List Char → Option (List Char × List Char)
  | [] => none
  | [c] => if c == quote then some ([], []) else none
  | c :: next :: rest =>
    if c == quote then some ([], next :: rest)
    else if c == '\\' && next == quote then
      (stringBody? quote rest).map fun (body, left) => (quote :: body, left)
    else (stringBody? quote (next :: rest)).map fun (body, left) => (c :: body, left)

/-- The digits of a number and the text after it. -/
def numberBody (cs : List Char) : List Char × List Char :=
  let whole := cs.takeWhile Char.isDigit
  match cs.dropWhile Char.isDigit with
  | '.' :: d :: rest =>
    if d.isDigit then
      (whole ++ '.' :: (d :: rest).takeWhile Char.isDigit, (d :: rest).dropWhile Char.isDigit)
    else (whole, '.' :: d :: rest)
  | rest => (whole, rest)

/-- A word is a keyword or a name. -/
def wordToken (word : String) : Token :=
  match Keyword.ofWord? word with
  | some k => .keyword k
  | none => .name word

/-- A symbol takes a following equals sign with it where the two form one. -/
def symbolToken (s : Symbol) (rest : List Char) : Symbol × List Char :=
  match s.withEquals?, rest with
  | some t, '=' :: rest => (t, rest)
  | _, _ => (s, rest)

/-- The token that starts with `c`, and the text after it.  An error is told its place. -/
def lexeme (c : Char) (rest : List Char) : Except (Nat → SyntaxError) (Token × List Char) :=
  if let some s := Symbol.ofChar? c then
    let (s, left) := symbolToken s rest
    .ok (.symbol s, left)
  else if c.toNat == 0x22 || c.toNat == 0x27 then
    match stringBody? c rest with
    | some (body, left) => .ok (.string (String.ofList body), left)
    | none => .error .unterminatedString
  else if isWordStart c then
    .ok (wordToken (String.ofList (c :: rest.takeWhile isWordPart)), rest.dropWhile isWordPart)
  else if c.isDigit then
    let (body, left) := numberBody (c :: rest)
    .ok (.number (String.ofList body), left)
  else .error (.unexpectedCharacter c)

/-! ### Nothing is returned that was not there -/

theorem length_dropWhile_le {α : Type} (p : α → Bool) (l : List α) :
    (l.dropWhile p).length ≤ l.length :=
  (List.dropWhile_sublist p).length_le

theorem length_afterLine_le (cs : List Char) : (afterLine cs).length ≤ cs.length := by
  induction cs with
  | nil => exact Nat.le_refl _
  | cons c rest ih => grind [afterLine]

theorem length_of_stringBody? {quote : Char} {cs body left : List Char}
    (h : stringBody? quote cs = some (body, left)) : left.length < cs.length := by
  fun_induction stringBody? quote cs generalizing body left <;> grind [Option.map_eq_some_iff]

theorem length_numberBody_lt {c : Char} (h : c.isDigit) (rest : List Char) :
    (numberBody (c :: rest)).2.length < (c :: rest).length := by
  have hle := length_dropWhile_le Char.isDigit rest
  have hdrop : (c :: rest).dropWhile Char.isDigit = rest.dropWhile Char.isDigit := by simp [h]
  unfold numberBody
  rw [hdrop]
  split
  · rename_i d more heq
    have := length_dropWhile_le Char.isDigit (d :: more)
    rw [heq] at hle
    split <;> grind
  · grind

theorem length_symbolToken_le (s : Symbol) (rest : List Char) :
    (symbolToken s rest).2.length ≤ rest.length := by
  unfold symbolToken
  split <;> simp

theorem length_of_lexeme {c : Char} {rest left : List Char} {t : Token}
    (h : lexeme c rest = .ok (t, left)) : left.length ≤ rest.length := by
  unfold lexeme at h
  split at h
  · rename_i s _
    have := length_symbolToken_le s rest
    grind
  · split at h
    · split at h
      · rename_i hbody
        have := length_of_stringBody? hbody
        grind
      · cases h
    · split at h
      · have := length_dropWhile_le isWordPart rest
        grind
      · split at h
        · rename_i hdigit
          have := length_numberBody_lt hdigit rest
          grind
        · cases h

/-! ### The whole text -/

/-- The tokens of the last characters of a source that has `size` of them, with the end mark. -/
def markedFrom (size : Nat) : List Char → Except SyntaxError (List (Option Token))
  | [] => .ok [none]
  | c :: rest =>
    if isBlank c then markedFrom size rest
    else if c == '/' && rest.head? == some '/' then markedFrom size (afterLine rest)
    else
      match _h : lexeme c rest with
      | .ok (token, left) => (markedFrom size left).map (some token :: ·)
      | .error failure => .error (failure (size - (c :: rest).length))
termination_by cs => cs.length
decreasing_by
  · simp
  · have := length_afterLine_le rest
    grind
  · have := length_of_lexeme _h
    grind

/-- The tokens of a source with the end mark. -/
def markedTokens (source : String) : Except SyntaxError (List (Option Token)) :=
  markedFrom source.toList.length source.toList

/-- The tokens of a source without the end mark. -/
def tokens (source : String) : Except SyntaxError (List Token) :=
  (markedTokens source).map (·.filterMap id)

end FrameLang.Source
