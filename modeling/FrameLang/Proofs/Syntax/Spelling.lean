/-
Lexing undoes spelling.

A token can be spelled in several ways: a keyword in any mix of case, a string between either kind
of quote.  Between tokens stand gaps of blanks and comments.  If every gap between two tokens starts
with a blank, nothing that follows a token can be taken for a part of it, and so the tokens that
were spelled are the tokens that are read.

What has to be known of characters is that no blank is a letter or a numeral, and that a word comes
out as a keyword in lower case only if it is that keyword already, but for the case of its letters.
The latter is not obvious, since letters beyond ASCII have lower cases too: that of the Kelvin sign
is a plain k.  It is the only one, and no keyword has a k.
-/
import FrameLang.Syntax.Lexeme
import Mathlib

namespace FrameLang

/-! ### Classes of characters -/

namespace Text

theorem withinBounds_eq_foldl (bounds : Array Nat) (code : Nat) : withinBounds bounds code =
    bounds.toList.foldl (fun inside b => if b ≤ code then !inside else inside) false :=
  (Array.foldl_toList _).symm

/-- All blanks, by their codes. -/
def blankCodes : List Nat :=
  List.range' 9 5 ++ List.range' 0x2000 11 ++
    [0x20, 0x85, 0xa0, 0x1680, 0x2028, 0x2029, 0x202f, 0x205f, 0x3000]

theorem isBlank_iff {c : Char} : isBlank c = true ↔ c.toNat ∈ blankCodes := by
  simp only [isBlank, blankCodes, List.mem_append, List.mem_range'_1, Bool.or_eq_true,
    Bool.and_eq_true, decide_eq_true_eq, beq_iff_eq, List.mem_cons, List.not_mem_nil, or_false]
  omega

theorem toNat_ofNat {n : Nat} (h : (Char.ofNat n).toNat ≠ 0) : (Char.ofNat n).toNat = n := by
  unfold Char.ofNat at *
  split
  · rfl
  · rename_i hvalid
    rw [dif_neg hvalid] at h
    exact absurd rfl h

theorem toNat_of_isLower {c : Char} (h : c.isLower = true) : 97 ≤ c.toNat ∧ c.toNat ≤ 122 := by
  simpa [Char.isLower, Char.le_def, UInt32.le_iff_toNat_le] using h

/-- All codes beyond ASCII but one have their lower case there too. -/
theorem le_shiftCase_lowerRuns {n : Nat} (h : 128 ≤ n) :
    128 ≤ shiftCase lowerRuns n ∨ shiftCase lowerRuns n = 'k'.toNat := by
  have hruns : ∀ run ∈ lowerRuns.toList,
      (128 : Int) ≤ run.1 + run.2.2.2 ∨ run.1 = run.2.1 ∧ run.1 + run.2.2.2 = 'k'.toNat := by
    decide +kernel
  unfold shiftCase
  split
  · rename_i first last step shift hfind
    have hmem := Array.mem_of_find?_eq_some hfind
    have hcode := Array.find?_some hfind
    simp only [Bool.and_eq_true, decide_eq_true_eq] at hcode
    rcases hruns _ hmem.val with hle | ⟨hlast, hk⟩
    · left
      dsimp only at hle ⊢
      omega
    · right
      dsimp only at hlast hk ⊢
      omega
  · exact Or.inl h

/-- A letter that a keyword may have. -/
def IsPlainLetter (c : Char) : Prop := c.isLower = true ∧ c ≠ 'k'

/-- The dotted capital I is the one character whose lower case is a sequence. -/
theorem lookup_lowerSequences {n : Nat} {codes : List Nat}
    (h : lowerSequences.lookup n = some codes) : n = 0x130 ∧ codes = [0x69, 0x307] := by
  unfold lowerSequences List.lookup at h
  split at h
  · rename_i heq
    exact ⟨eq_of_beq heq, (Option.some.inj h).symm⟩
  · cases h

theorem exists_mem_lowerChar {c : Char} (hc : 128 ≤ c.toNat) :
    ∃ d ∈ lowerChar c, ¬IsPlainLetter d := by
  unfold lowerChar mapCase
  rw [if_neg (by omega)]
  split
  · rename_i codes hcodes
    obtain ⟨-, rfl⟩ := lookup_lowerSequences hcodes
    exact ⟨Char.ofNat 0x307, by simp, fun h => absurd h.1 (by decide)⟩
  · refine ⟨_, List.mem_singleton_self _, fun ⟨hlower, hk⟩ => ?_⟩
    have hbounds := toNat_of_isLower hlower
    have hcode := toNat_ofNat (n := shiftCase lowerRuns c.toNat) (by omega)
    rcases le_shiftCase_lowerRuns hc with hle | heq
    · omega
    · rw [heq] at hk
      exact hk rfl

theorem toLower_eq_self {c : Char} (hc : 128 ≤ c.toNat) : c.toLower = c := by
  unfold Char.toLower
  rw [dif_neg]
  rintro ⟨-, h⟩
  have hle : c.toNat ≤ 90 := by simpa [Char.le_def, UInt32.le_iff_toNat_le] using h
  omega

/-- What has only plain letters in lower case has only plain letters. -/
theorem lowerAfter_eq_iff {before cs word : List Char} (hword : ∀ d ∈ word, IsPlainLetter d) :
    lowerAfter before cs = word ↔ cs.map Char.toLower = word := by
  induction cs generalizing before word with
  | nil => rfl
  | cons c rest ih =>
      rw [lowerAfter, List.map_cons]
      by_cases hc : c.toNat < 128
      · have hsigma : (c == 'Σ') = false := by
          refine beq_eq_false_iff_ne.mpr ?_
          rintro rfl
          exact absurd hc (by decide)
        rw [hsigma, if_neg Bool.false_ne_true, lowerChar, if_pos hc]
        cases word with
        | nil => simp
        | cons d word =>
            rw [List.singleton_append, List.cons_eq_cons, List.cons_eq_cons,
              ih fun d hd => hword d (List.mem_cons_of_mem _ hd)]
      · have hbeyond : 128 ≤ c.toNat := Nat.le_of_not_lt hc
        constructor
        · rintro rfl
          obtain ⟨d, hd, hplain⟩ : ∃ d ∈ (if c == 'Σ' then
              [if facesCased before && !facesCased rest then 'ς' else 'σ'] else lowerChar c),
              ¬IsPlainLetter d := by
            split
            · exact ⟨_, List.mem_singleton_self _, fun h => absurd h.1 (by split <;> decide)⟩
            · exact exists_mem_lowerChar hbeyond
          exact absurd (hword d (List.mem_append_left _ hd)) hplain
        · rintro rfl
          have hplain := hword _ List.mem_cons_self
          rw [toLower_eq_self hbeyond] at hplain
          have := toNat_of_isLower hplain.1
          omega

end Text

/-! ### Keywords -/

namespace Keyword

/-- The characters are those of the keyword, in any mix of case. -/
def IsSpelledBy (k : Keyword) (cs : List Char) : Prop :=
  cs.map Char.toLower = k.spelling.toList

theorem isPlainLetter_of_mem_spelling {k : Keyword} :
    ∀ d ∈ k.spelling.toList, Text.IsPlainLetter d := by
  unfold Text.IsPlainLetter
  cases k <;> simp [spelling, Char.isLower]

theorem find?_all (k : Keyword) : all.find? (·.spelling == k.spelling) = some k := by
  cases k <;> simp [all, spelling]

/-- **A word is a keyword if it spells it**, and then it is no other. -/
theorem ofWord?_eq_some_iff {k : Keyword} {cs : List Char} :
    ofWord? (String.ofList cs) = some k ↔ k.IsSpelledBy cs := by
  have hlower : Text.toLower (String.ofList cs) = k.spelling ↔ k.IsSpelledBy cs := by
    unfold Text.toLower IsSpelledBy
    rw [← Text.lowerAfter_eq_iff isPlainLetter_of_mem_spelling, String.toList_ofList,
      ← String.toList_inj, String.toList_ofList]
  rw [← hlower]
  unfold ofWord?
  constructor
  · intro h
    have hfound := List.find?_some h
    exact (eq_of_beq hfound).symm
  · intro h
    rw [h]
    exact find?_all k

end Keyword

namespace Source

open Text (isBlank isLetter isNumeral)

/-! ### Characters apart -/

theorem isAlpha_of_toLower {c : Char} (h : c.toLower.isLower = true) : c.isAlpha = true := by
  by_cases hc : c.isUpper = true
  · simp [Char.isAlpha, hc]
  · have hself : c.toLower = c := by
      unfold Char.toLower
      rw [dif_neg]
      simpa [Char.isUpper, Char.le_def, UInt32.le_iff_toNat_le] using hc
    rw [hself] at h
    simp [Char.isAlpha, h]

theorem isLetter_of_isAlpha {c : Char} (h : c.isAlpha = true) : isLetter c = true := by
  have hascii : c.toNat < 128 := by
    simp [Char.isAlpha, Char.isUpper, Char.isLower, UInt32.le_iff_toNat_le] at h
    omega
  unfold isLetter
  rw [if_pos hascii, h]

theorem isWordPart_of_isWordStart {c : Char} (h : isWordStart c = true) : isWordPart c = true := by
  unfold isWordStart at h
  unfold isWordPart
  grind

theorem toNat_of_isDigit {c : Char} (h : c.isDigit = true) : 48 ≤ c.toNat ∧ c.toNat ≤ 57 := by
  simpa [Char.isDigit, UInt32.le_iff_toNat_le] using h

theorem isWordPart_of_isDigit {c : Char} (h : c.isDigit = true) : isWordPart c = true := by
  have hcode := toNat_of_isDigit h
  unfold isWordPart isNumeral
  rw [if_pos (by omega), h]
  simp

theorem isWordStart_of_isDigit {c : Char} (h : c.isDigit = true) : isWordStart c = false := by
  have hcode := toNat_of_isDigit h
  have halpha : c.isAlpha = false := by
    simp [Char.isAlpha, Char.isUpper, Char.isLower, UInt32.le_iff_toNat_le]
    omega
  unfold isWordStart isLetter
  rw [if_pos (by omega), halpha, Bool.false_or, beq_eq_false_iff_ne]
  rintro rfl
  exact absurd hcode (by decide)

theorem isWordPart_of_isBlank {c : Char} (h : isBlank c = true) : isWordPart c = false := by
  have hcodes : ∀ code ∈ Text.blankCodes, isWordPart (Char.ofNat code) = false := by
    unfold isWordPart isLetter isNumeral
    simp only [Text.withinBounds_eq_foldl]
    decide +kernel
  rw [← Char.ofNat_toNat c]
  exact hcodes _ (Text.isBlank_iff.mp h)

theorem isBlank_of_isWordPart {c : Char} (h : isWordPart c = true) : isBlank c = false := by
  cases hblank : isBlank c with
  | false => rfl
  | true => rw [isWordPart_of_isBlank hblank] at h; cases h

theorem isDigit_of_isBlank {c : Char} (h : isBlank c = true) : c.isDigit = false := by
  cases hdigit : c.isDigit with
  | false => rfl
  | true => rw [isBlank_of_isWordPart (isWordPart_of_isDigit hdigit)] at h; cases h

theorem ofChar?_of_isWordPart {c : Char} (h : isWordPart c = true) : Symbol.ofChar? c = none := by
  unfold Symbol.ofChar?
  split <;> first | rfl | cases h

/-! ### How tokens are spelled -/

/-- The words that are no keyword in any mix of case. -/
def IsName (cs : List Char) : Prop :=
  (∃ c rest, cs = c :: rest ∧ isWordStart c = true ∧ ∀ d ∈ rest, isWordPart d = true) ∧
    ∀ k : Keyword, ¬k.IsSpelledBy cs

def IsDigits (cs : List Char) : Prop := cs ≠ [] ∧ ∀ c ∈ cs, c.isDigit = true

/-- Digits, and there may be a point and more digits behind them. -/
def IsNumber (cs : List Char) : Prop :=
  IsDigits cs ∨ ∃ whole fraction, cs = whole ++ '.' :: fraction ∧ IsDigits whole ∧ IsDigits fraction

/-- Either kind of quote. -/
def IsQuote (c : Char) : Prop := c.toNat = 0x22 ∨ c.toNat = 0x27

instance (c : Char) : Decidable (IsQuote c) := inferInstanceAs (Decidable (_ ∨ _))

/-- The content of a string as it stands between quotes of one kind. -/
def escaped (quote : Char) (cs : List Char) : List Char :=
  cs.flatMap fun c => if c = quote then ['\\', c] else [c]

/-- The characters are a spelling of the token.  A name that is a keyword, a number that is not made
of digits and a string with a backslash at its end have none. -/
def IsSpelling (cs : List Char) : Token → Prop
  | .name text => IsName cs ∧ cs = text.toList
  | .number text => IsNumber cs ∧ cs = text.toList
  | .string text => text.toList.getLast? ≠ some '\\' ∧
      ∃ quote, IsQuote quote ∧ cs = quote :: (escaped quote text.toList ++ [quote])
  | .keyword k => k.IsSpelledBy cs
  | .symbol s => cs = s.spelling.toList

/-! ### How they are put together -/

/-- Blanks and comments that go to the end of a line. -/
inductive IsGap : List Char → Prop
  | nil : IsGap []
  | blank {c : Char} {rest : List Char} : isBlank c = true → IsGap rest → IsGap (c :: rest)
  | comment {line rest : List Char} :
      '\n' ∉ line → IsGap rest → IsGap ('/' :: '/' :: (line ++ '\n' :: rest))

/-- A gap that starts with a blank. -/
def IsSeparator (cs : List Char) : Prop := ∃ c rest, cs = c :: rest ∧ isBlank c = true ∧ IsGap rest

/-- Spellings of all the tokens with a separator between any two. -/
inductive IsSpaced : List Token → List Char → Prop
  | nil : IsSpaced [] []
  | single {t : Token} {cs : List Char} : IsSpelling cs t → IsSpaced [t] cs
  | cons {t u : Token} {ts : List Token} {cs gap rest : List Char} :
      IsSpelling cs t → IsSeparator gap → IsSpaced (u :: ts) rest →
      IsSpaced (t :: u :: ts) (cs ++ (gap ++ rest))

/-- The token does not go on with what comes next: no word goes on with a letter, a numeral or an
underscore, no number with a digit, or with its first point and a digit behind it, no symbol with an
equals sign that would make another one of it, and behind a slash comes no second one. -/
def Stops : Token → List Char → Prop
  | .name _, rest | .keyword _, rest => ∀ c ∈ rest.head?, isWordPart c = false
  | .number text, rest => (∀ c ∈ rest.head?, c.isDigit = false) ∧
      ('.' ∉ text.toList → ∀ d more, rest = '.' :: d :: more → d.isDigit = false)
  | .string _, _ => True
  | .symbol s, rest =>
      (s.withEquals? ≠ none → rest.head? ≠ some '=') ∧ (s = .slash → rest.head? ≠ some '/')

/-- Nothing that could still belong to a token comes next. -/
def IsEnd (rest : List Char) : Prop := ∀ c ∈ rest.head?, isBlank c = true

theorem isEnd_nil : IsEnd [] := fun _ h => nomatch h

/-- Every token stops at an end. -/
theorem IsEnd.stops {rest : List Char} (h : IsEnd rest) (t : Token) : Stops t rest := by
  have hne (d : Char) (hd : isBlank d = false) : rest.head? ≠ some d := by
    intro hhead
    rw [h d hhead] at hd
    cases hd
  cases t with
  | name | keyword => exact fun c hc => isWordPart_of_isBlank (h c hc)
  | number text =>
      refine ⟨fun c hc => isDigit_of_isBlank (h c hc), fun _ d more heq => ?_⟩
      exact absurd (congrArg List.head? heq) (hne '.' rfl)
  | string => trivial
  | symbol s => exact ⟨fun _ => hne '=' rfl, fun _ => hne '/' rfl⟩

theorem IsSeparator.isEnd {gap : List Char} (h : IsSeparator gap) (rest : List Char) :
    IsEnd (gap ++ rest) := by
  obtain ⟨c, gap, rfl, hblank, -⟩ := h
  intro d hd
  obtain rfl : c = d := Option.some.inj hd
  exact hblank

theorem IsSeparator.isGap {gap : List Char} (h : IsSeparator gap) : IsGap gap := by
  obtain ⟨c, gap, rfl, hblank, hgap⟩ := h
  exact .blank hblank hgap

/-! ### A spelled token is read -/

section Lexeme

variable {rest : List Char}

/-- What has the property throughout is taken as a whole, up to the first that has it not. -/
theorem takeWhile_append_of_head {p : Char → Bool} {cs : List Char} (hcs : ∀ c ∈ cs, p c = true)
    (hrest : ∀ c ∈ rest.head?, p c = false) :
    (cs ++ rest).takeWhile p = cs ∧ (cs ++ rest).dropWhile p = rest := by
  rw [List.takeWhile_append_of_pos hcs, List.dropWhile_append_of_pos hcs]
  cases rest with
  | nil => simp
  | cons c rest =>
      have hc := hrest c rfl
      simp [hc]

theorem not_isQuote_of_isWordPart {c : Char} (h : isWordPart c = true) : ¬IsQuote c := by
  rw [← Char.ofNat_toNat c] at h
  rintro (hcode | hcode) <;> rw [hcode] at h <;> cases h

theorem symbolToken_eq {s : Symbol} (h : s.withEquals? ≠ none → rest.head? ≠ some '=') :
    symbolToken s rest = (s, rest) := by
  unfold symbolToken
  split
  · rename_i hequals
    exact absurd rfl (h (by rw [hequals]; nofun))
  · rfl

theorem lexeme_symbol (s : Symbol) (h : s.withEquals? ≠ none → rest.head? ≠ some '=') :
    ∃ c cs, s.spelling.toList = c :: cs ∧ lexeme c (cs ++ rest) = .ok (.symbol s, rest) := by
  have hplain {c : Char} (hs : Symbol.ofChar? c = some s) :
      lexeme c rest = .ok (.symbol s, rest) := by
    simp only [lexeme, hs, symbolToken_eq h]
  cases s
  case equal | notEqual | lessEqual | greaterEqual => exact ⟨_, _, rfl, rfl⟩
  all_goals exact ⟨_, _, rfl, hplain rfl⟩

theorem escaped_cons (quote c : Char) (cs : List Char) : escaped quote (c :: cs) =
    (if c = quote then ['\\', c] else [c]) ++ escaped quote cs := by
  simp [escaped]

/-- No content starts like the end of the string. -/
theorem head_escaped {quote : Char} (hquote : quote ≠ '\\') {cs : List Char} (hcs : cs ≠ []) :
    ∃ next more, escaped quote cs = next :: more ∧ next ≠ quote := by
  cases cs with
  | nil => exact absurd rfl hcs
  | cons c cs =>
      rw [escaped_cons]
      by_cases hc : c = quote
      · rw [if_pos hc]
        exact ⟨_, _, rfl, hquote.symm⟩
      · rw [if_neg hc]
        exact ⟨_, _, rfl, hc⟩

/-- What closes the string is the first quote that has no backslash in front: the backslashes of
the content stand in front of none. -/
theorem stringBody?_escaped {quote : Char} (hquote : quote ≠ '\\') {cs : List Char}
    (hlast : cs.getLast? ≠ some '\\') :
    stringBody? quote (escaped quote cs ++ quote :: rest) = some (cs, rest) := by
  induction cs with
  | nil => cases rest <;> simp [escaped, stringBody?]
  | cons c cs ih =>
      have hread : stringBody? quote (escaped quote cs ++ quote :: rest) = some (cs, rest) := by
        refine ih fun h => hlast ?_
        rw [List.getLast?_cons, h, Option.getD_some]
      rw [escaped_cons]
      by_cases hc : c = quote
      · subst hc
        simp [stringBody?, hquote.symm, hread]
      · rw [if_neg hc]
        cases cs with
        | nil =>
            -- A backslash here would stand in front of the quote that closes the string.
            have hc' : c ≠ '\\' := fun h => hlast (by rw [h]; rfl)
            simp [escaped, stringBody?, hc, hc', ← hread]
        | cons d cs =>
            obtain ⟨next, more, heq, hnext⟩ := head_escaped hquote (List.cons_ne_nil d cs)
            rw [heq] at hread ⊢
            simp only [List.cons_append, List.nil_append] at hread ⊢
            simp [stringBody?, hc, hnext, hread]

theorem numberBody_of_isNumber {cs : List Char} (hcs : IsNumber cs)
    (h : Stops (.number (String.ofList cs)) rest) : numberBody (cs ++ rest) = (cs, rest) := by
  obtain ⟨hrest, hpoint⟩ := h
  rw [String.toList_ofList] at hpoint
  rcases hcs with ⟨-, hdigits⟩ | ⟨whole, fraction, rfl, ⟨-, hwhole⟩, hne, hfraction⟩
  · obtain ⟨htake, hdrop⟩ := takeWhile_append_of_head hdigits hrest
    have hnone : '.' ∉ cs := fun hmem => absurd (hdigits _ hmem) (by decide)
    unfold numberBody
    rw [htake, hdrop]
    split
    · rename_i d more
      rw [hpoint hnone d more rfl, if_neg Bool.false_ne_true]
    · rfl
  · obtain ⟨d, fraction, rfl⟩ := List.exists_cons_of_ne_nil hne
    obtain ⟨htake, hdrop⟩ := takeWhile_append_of_head hfraction hrest
    unfold numberBody
    rw [List.append_assoc, List.takeWhile_append_of_pos hwhole,
      List.dropWhile_append_of_pos hwhole]
    simp only [List.cons_append] at htake hdrop ⊢
    have hpoint : ('.'.isDigit) = false := rfl
    simp [hpoint, hfraction d List.mem_cons_self, htake, hdrop]

theorem lexeme_string {quote : Char} (hquote : IsQuote quote) {text : String}
    (hlast : text.toList.getLast? ≠ some '\\') :
    lexeme quote (escaped quote text.toList ++ quote :: rest) = .ok (.string text, rest) := by
  have hne : quote ≠ '\\' := by
    rintro rfl
    exact absurd hquote (by decide)
  have hsymbol : Symbol.ofChar? quote = none := by
    rw [← Char.ofNat_toNat quote]
    rcases hquote with h | h <;> rw [h] <;> rfl
  unfold IsQuote at hquote
  simp [lexeme, hsymbol, hquote, stringBody?_escaped hne hlast]

/-- A word, which is a keyword or a name. -/
theorem lexeme_word {c : Char} {cs : List Char} (hstart : isWordStart c = true)
    (hcs : ∀ d ∈ cs, isWordPart d = true) (hrest : ∀ d ∈ rest.head?, isWordPart d = false) :
    lexeme c (cs ++ rest) = .ok (wordToken (String.ofList (c :: cs)), rest) := by
  have hpart := isWordPart_of_isWordStart hstart
  have hquote := not_isQuote_of_isWordPart hpart
  unfold IsQuote at hquote
  obtain ⟨htake, hdrop⟩ := takeWhile_append_of_head hcs hrest
  simp [lexeme, ofChar?_of_isWordPart hpart, hquote, hstart, htake, hdrop]

theorem IsNumber.isDigit_head {c : Char} {cs : List Char} (h : IsNumber (c :: cs)) :
    c.isDigit = true := by
  rcases h with ⟨-, hdigits⟩ | ⟨whole, fraction, heq, ⟨hne, hwhole⟩, -⟩
  · exact hdigits c List.mem_cons_self
  · obtain ⟨d, whole, rfl⟩ := List.exists_cons_of_ne_nil hne
    obtain ⟨rfl, -⟩ := List.cons.inj heq
    exact hwhole c List.mem_cons_self

theorem lexeme_number {c : Char} {cs : List Char} (hcs : IsNumber (c :: cs))
    (h : Stops (.number (String.ofList (c :: cs))) rest) :
    lexeme c (cs ++ rest) = .ok (.number (String.ofList (c :: cs)), rest) := by
  have hdigit := hcs.isDigit_head
  have hpart := isWordPart_of_isDigit hdigit
  have hquote := not_isQuote_of_isWordPart hpart
  have hbody : numberBody (c :: (cs ++ rest)) = (c :: cs, rest) := numberBody_of_isNumber hcs h
  unfold IsQuote at hquote
  simp [lexeme, ofChar?_of_isWordPart hpart, hquote, isWordStart_of_isDigit hdigit, hdigit, hbody]

theorem isLetter_of_isSpelledBy {k : Keyword} {cs : List Char} (h : k.IsSpelledBy cs) :
    cs ≠ [] ∧ ∀ c ∈ cs, isLetter c = true := by
  constructor
  · rintro rfl
    cases k <;> simp [Keyword.IsSpelledBy, Keyword.spelling] at h
  · intro c hc
    have hplain := Keyword.isPlainLetter_of_mem_spelling (k := k) c.toLower
      (h ▸ List.mem_map_of_mem hc)
    exact isLetter_of_isAlpha (isAlpha_of_toLower hplain.1)

/-- A spelled token is read with nothing of what follows if it stops there, and it does not start
like a gap. -/
theorem lexeme_of_isSpelling {t : Token} {cs : List Char} (hcs : IsSpelling cs t)
    (h : Stops t rest) : ∃ c tail, cs = c :: tail ∧ isBlank c = false ∧
      (c = '/' → (tail ++ rest).head? ≠ some '/') ∧ lexeme c (tail ++ rest) = .ok (t, rest) := by
  have hslash {c : Char} (hc : isWordPart c = true) : c ≠ '/' := by
    rintro rfl
    cases hc
  cases t with
  | name text =>
      obtain ⟨⟨⟨c, tail, rfl, hstart, htail⟩, hkeyword⟩, heq⟩ := hcs
      have hpart := isWordPart_of_isWordStart hstart
      have hword : wordToken (String.ofList (c :: tail)) = .name text := by
        unfold wordToken
        cases hk : Keyword.ofWord? (String.ofList (c :: tail)) with
        | none => rw [heq, String.ofList_toList]
        | some k => exact absurd (Keyword.ofWord?_eq_some_iff.mp hk) (hkeyword k)
      exact ⟨c, tail, rfl, isBlank_of_isWordPart hpart, fun h => absurd h (hslash hpart),
        hword ▸ lexeme_word hstart htail h⟩
  | number text =>
      obtain ⟨hnumber, rfl⟩ := hcs
      cases hcs : text.toList with
      | nil =>
          rw [hcs] at hnumber
          rcases hnumber with ⟨hne, -⟩ | ⟨whole, fraction, heq, -⟩
          · exact absurd rfl hne
          · exact absurd heq.symm (by simp)
      | cons c tail =>
          rw [hcs] at hnumber
          have hpart := isWordPart_of_isDigit hnumber.isDigit_head
          have htext : String.ofList (c :: tail) = text := by rw [← hcs, String.ofList_toList]
          have hread := lexeme_number hnumber (htext ▸ h)
          rw [htext] at hread
          exact ⟨c, tail, rfl, isBlank_of_isWordPart hpart, fun h => absurd h (hslash hpart), hread⟩
  | string text =>
      obtain ⟨hlast, quote, hquote, rfl⟩ := hcs
      have hblank : isBlank quote = false := by
        rw [← Char.ofNat_toNat quote]
        rcases hquote with h | h <;> rw [h] <;> rfl
      have hne : quote ≠ '/' := by
        rintro rfl
        exact absurd hquote (by decide)
      refine ⟨quote, _, rfl, hblank, fun h => absurd h hne, ?_⟩
      rw [List.append_assoc]
      exact lexeme_string hquote hlast
  | keyword k =>
      obtain ⟨hne, hletters⟩ := isLetter_of_isSpelledBy hcs
      have hstart {d : Char} (hd : d ∈ cs) : isWordStart d = true := by
        rw [isWordStart, hletters d hd, Bool.true_or]
      have hword : wordToken (String.ofList cs) = .keyword k := by
        rw [wordToken, Keyword.ofWord?_eq_some_iff.mpr hcs]
      obtain ⟨c, tail, rfl⟩ := List.exists_cons_of_ne_nil hne
      have hpart := isWordPart_of_isWordStart (hstart List.mem_cons_self)
      exact ⟨c, tail, rfl, isBlank_of_isWordPart hpart, fun h => absurd h (hslash hpart),
        hword ▸ lexeme_word (hstart List.mem_cons_self)
          (fun d hd => isWordPart_of_isWordStart (hstart (List.mem_cons_of_mem c hd))) h⟩
  | symbol s =>
      obtain ⟨hequals, hslash⟩ := h
      obtain ⟨c, tail, hspelling, hread⟩ := lexeme_symbol s hequals
      obtain rfl : cs = s.spelling.toList := hcs
      have hstart : isBlank c = false ∧ (c = '/' → tail = [] ∧ s = .slash) := by
        cases s <;> obtain ⟨rfl, rfl⟩ := List.cons.inj hspelling <;> decide
      -- Two slashes would begin a comment, but behind a slash comes no other one.
      refine ⟨c, tail, hspelling, hstart.1, fun hc => ?_, hread⟩
      obtain ⟨rfl, hs⟩ := hstart.2 hc
      exact hslash hs

end Lexeme

/-! ### A whole text is read -/

theorem afterLine_append {line : List Char} (h : '\n' ∉ line) (rest : List Char) :
    afterLine (line ++ '\n' :: rest) = rest := by
  induction line with
  | nil => rfl
  | cons c line ih =>
      rw [List.mem_cons, not_or] at h
      have hc : (c == '\n') = false := beq_eq_false_iff_ne.mpr (Ne.symm h.1)
      rw [List.cons_append, afterLine, hc, if_neg Bool.false_ne_true]
      exact ih h.2

variable {size : Nat}

theorem markedFrom_gap {gap : List Char} (h : IsGap gap) (rest : List Char) :
    markedFrom size (gap ++ rest) = markedFrom size rest := by
  induction h with
  | nil => rfl
  | blank hc _ ih =>
      rw [List.cons_append, markedFrom, if_pos hc]
      exact ih
  | @comment line gap hline _ ih =>
      have hslashed : '\n' ∉ '/' :: line := by simpa using hline
      have hskip : afterLine ('/' :: (line ++ '\n' :: (gap ++ rest))) = gap ++ rest :=
        afterLine_append hslashed (gap ++ rest)
      simp only [List.cons_append, List.append_assoc]
      rw [markedFrom, if_neg (by decide), if_pos (by simp), hskip]
      exact ih

theorem markedFrom_spelling {t : Token} {cs rest : List Char} (hcs : IsSpelling cs t)
    (h : Stops t rest) :
    markedFrom size (cs ++ rest) = (markedFrom size rest).map (some t :: ·) := by
  obtain ⟨c, tail, rfl, hblank, hslash, hread⟩ := lexeme_of_isSpelling hcs h
  rw [List.cons_append, markedFrom, hblank, if_neg Bool.false_ne_true,
    if_neg (by simpa using hslash)]
  split
  · rename_i heq
    rw [hread] at heq
    obtain ⟨rfl, rfl⟩ := Prod.mk.inj (Except.ok.inj heq)
    rfl
  · rename_i heq
    rw [hread] at heq
    cases heq

/-- What is spelled in front of a separator, or of nothing, is read. -/
theorem markedFrom_of_isSpaced {ts : List Token} {text after : List Char}
    (htext : IsSpaced ts text) (hafter : after = [] ∨ IsSeparator after) :
    markedFrom size (text ++ after) = .ok (Token.marked ts) := by
  have hgap : IsGap after := hafter.elim (fun h => h ▸ .nil) (·.isGap)
  have hnothing : markedFrom size after = .ok [none] := by
    rw [← List.append_nil after, markedFrom_gap hgap, markedFrom]
  induction htext with
  | nil => exact hnothing
  | single hcs =>
      have hend : IsEnd after := by
        rcases hafter with rfl | h
        · exact isEnd_nil
        · simpa using h.isEnd []
      rw [markedFrom_spelling hcs (hend.stops _), hnothing]
      rfl
  | cons hcs hbetween _ ih =>
      rw [List.append_assoc, List.append_assoc,
        markedFrom_spelling hcs ((hbetween.isEnd _).stops _), markedFrom_gap hbetween.isGap, ih]
      rfl

/-- **Lexing undoes spelling.**  However the tokens are spelled, and whatever blanks and comments
stand between them, in front and behind, as long as every such gap starts with a blank: exactly
these tokens are read, and the end mark behind them. -/
theorem tokens_of_isSpaced {ts : List Token} {before text after : List Char}
    (hbefore : before = [] ∨ IsSeparator before) (htext : IsSpaced ts text)
    (hafter : after = [] ∨ IsSeparator after) :
    markedTokens (String.ofList (before ++ (text ++ after))) = .ok (Token.marked ts) := by
  have hgap : IsGap before := hbefore.elim (fun h => h ▸ .nil) (·.isGap)
  rw [markedTokens, String.toList_ofList, markedFrom_gap hgap,
    markedFrom_of_isSpaced htext hafter]

/-- A keyword in mixed case, a comment next to a slash, both kinds of quotes with one of them and a
backslash inside, and a point that is none of the number's. -/
theorem tokens_of_isSpaced_mixed :
    markedTokens " iF\t//half\n / \"a\\\\\"b\" 'it\\'s' . 1.50 _e1 " =
      .ok (Token.marked [.keyword .if_, .symbol .slash, .string "a\\\"b", .string "it's",
        .symbol .dot, .number "1.50", .name "_e1"]) := by
  have hspace : IsSeparator [' '] := ⟨' ', [], rfl, rfl, .nil⟩
  have hcomment : IsSeparator ('\t' :: '/' :: '/' :: (['h', 'a', 'l', 'f'] ++ '\n' :: [' '])) :=
    ⟨'\t', _, rfl, rfl, .comment (by decide) (.blank rfl .nil)⟩
  have hif : IsSpelling ['i', 'F'] (.keyword .if_) := by
    simp [IsSpelling, Keyword.IsSpelledBy, Keyword.spelling]
  have hdouble : IsSpelling (Char.ofNat 0x22 :: (['a', '\\', '\\', Char.ofNat 0x22, 'b'] ++
      [Char.ofNat 0x22])) (.string "a\\\"b") :=
    ⟨by simp, Char.ofNat 0x22, by decide, by simp [escaped]⟩
  have hsingle : IsSpelling (Char.ofNat 0x27 :: (['i', 't', '\\', Char.ofNat 0x27, 's'] ++
      [Char.ofNat 0x27])) (.string "it's") :=
    ⟨by simp, Char.ofNat 0x27, by decide, by simp [escaped]⟩
  have hnumber : IsSpelling ['1', '.', '5', '0'] (.number "1.50") :=
    ⟨.inr ⟨['1'], ['5', '0'], rfl, by simp [IsDigits], by simp [IsDigits]⟩, by simp⟩
  have hname : IsSpelling ['_', 'e', '1'] (.name "_e1") := by
    refine ⟨⟨⟨'_', ['e', '1'], rfl, rfl, by simpa using ⟨rfl, rfl⟩⟩, fun k h => ?_⟩, by simp⟩
    cases k <;> simp [Keyword.IsSpelledBy, Keyword.spelling] at h
  have hslash : IsSpelling ['/'] (.symbol .slash) := by simp [IsSpelling, Symbol.spelling]
  have hdot : IsSpelling ['.'] (.symbol .dot) := by simp [IsSpelling, Symbol.spelling]
  have htext := IsSpaced.cons hif hcomment (.cons hslash hspace (.cons hdouble hspace
    (.cons hsingle hspace (.cons hdot hspace (.cons hnumber hspace (.single hname))))))
  have hread := tokens_of_isSpaced (.inr hspace) htext (.inr hspace)
  simp only [List.cons_append, List.nil_append] at hread
  exact hread

end Source

end FrameLang
