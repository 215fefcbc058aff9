/-
Nothing of a source is lost.

A source that can be read is made of spellings of its tokens, in their order, with gaps of blanks
and comments in front of each and behind the last.  A gap may be empty.  What keeps two tokens
apart then is that the first one stops: it does not go on with what comes next.  The end of the
source is no token of its own; it is the end of the list.

That is all there is to say about reading: a text is read as some tokens exactly when it is laid out
like that.  In one direction no character is dropped or read twice, and in the other nothing that is
laid out is refused.  Three readers have to be inverted for it, those of strings, numbers and words,
and each takes as much as it can.
-/
import FrameLang.Proofs.Syntax.Spelling

namespace FrameLang

/-! ### The characters of symbols -/

namespace Symbol

theorem spelling_of_ofChar? {c : Char} {s : Symbol} (h : ofChar? c = some s) :
    s.spelling.toList = [c] := by
  unfold ofChar? at h
  split at h <;> cases h <;> rfl

theorem spelling_of_withEquals? {s t : Symbol} (h : s.withEquals? = some t) :
    t.spelling.toList = s.spelling.toList ++ ['='] ∧ t.withEquals? = none ∧ t ≠ .slash := by
  cases s <;> cases h <;> exact ⟨rfl, rfl, nofun⟩

end Symbol

namespace Source

open Text (isBlank)

/-! ### What a reader takes -/

theorem head_dropWhile {p : Char → Bool} {cs : List Char} :
    ∀ c ∈ (cs.dropWhile p).head?, p c = false := by
  intro c hc
  have hnot := List.head?_dropWhile_not p cs
  rw [Option.mem_def.mp hc] at hnot
  simpa using hnot

/-- A string is read up to the quote that closes it, and what is read is escaped there. -/
theorem eq_escaped_of_stringBody? {quote : Char} (hquote : quote ≠ '\\')
    {cs body left : List Char} (h : stringBody? quote cs = some (body, left)) :
    cs = escaped quote body ++ quote :: left ∧ body.getLast? ≠ some '\\' := by
  induction cs using stringBody?.induct quote generalizing body left with
  | case1 => simp [stringBody?] at h
  | case2 c hc =>
      obtain rfl : c = quote := by simpa using hc
      obtain ⟨rfl, rfl⟩ : [] = body ∧ [] = left := by simpa [stringBody?] using h
      exact ⟨rfl, by simp⟩
  | case3 c hc => simp [stringBody?, hc] at h
  | case4 c next rest hc =>
      obtain rfl : c = quote := by simpa using hc
      obtain ⟨rfl, rfl⟩ : [] = body ∧ next :: rest = left := by simpa [stringBody?] using h
      exact ⟨rfl, by simp⟩
  | case5 c next rest hc hescape ih =>
      obtain ⟨rfl, rfl⟩ : c = '\\' ∧ next = quote := by simpa using hescape
      rw [stringBody?, if_neg hc, if_pos hescape, Option.map_eq_some_iff] at h
      obtain ⟨⟨inner, after⟩, hinner, heq⟩ := h
      obtain ⟨rfl, rfl⟩ := Prod.mk.inj heq
      obtain ⟨hrest, hlast⟩ := ih hinner
      refine ⟨by rw [escaped_cons, if_pos rfl, hrest]; rfl, ?_⟩
      rw [List.getLast?_cons]
      cases hend : inner.getLast? with
      | none => simpa using hquote
      | some d => rwa [hend] at hlast
  | case6 c next rest hc hescape ih =>
      have hraw : c ≠ quote := by simpa using hc
      rw [stringBody?, if_neg hc, if_neg hescape, Option.map_eq_some_iff] at h
      obtain ⟨⟨inner, after⟩, hinner, heq⟩ := h
      obtain ⟨rfl, rfl⟩ := Prod.mk.inj heq
      obtain ⟨hrest, hlast⟩ := ih hinner
      refine ⟨by rw [escaped_cons, if_neg hraw, hrest]; rfl, ?_⟩
      rw [List.getLast?_cons]
      cases hend : inner.getLast? with
      | none =>
          -- A backslash in front of the closing quote would have been read with it.
          obtain rfl : inner = [] := List.getLast?_eq_none_iff.mp hend
          have hnext : next = quote := (List.cons.inj hrest).1
          intro hlast
          obtain rfl : c = '\\' := Option.some.inj hlast
          exact hescape (by simp [hnext])
      | some d => rwa [hend] at hlast

/-- A number goes on behind a point if a digit is there, and else ends where its digits do. -/
theorem numberBody_cases (cs : List Char) :
    (∃ d more, cs.dropWhile Char.isDigit = '.' :: d :: more ∧ d.isDigit = true ∧
      numberBody cs = (cs.takeWhile Char.isDigit ++ '.' :: (d :: more).takeWhile Char.isDigit,
        (d :: more).dropWhile Char.isDigit)) ∨
    (∀ d more, cs.dropWhile Char.isDigit = '.' :: d :: more → d.isDigit = false) ∧
      numberBody cs = (cs.takeWhile Char.isDigit, cs.dropWhile Char.isDigit) := by
  unfold numberBody
  split
  · rename_i d more hdrop
    by_cases hd : d.isDigit = true
    · exact Or.inl ⟨d, more, hdrop, hd, if_pos hd⟩
    · refine Or.inr ⟨fun e rest heq => ?_, (if_neg hd).trans (by rw [hdrop])⟩
      rw [hdrop] at heq
      obtain ⟨rfl, -⟩ := List.cons.inj (List.cons.inj heq).2
      simpa using hd
  · rename_i hnone
    exact Or.inr ⟨fun d more heq => absurd heq (hnone d more), rfl⟩

/-- Of a text that starts with a digit the longest number is read. -/
theorem isNumber_of_numberBody {c : Char} (hc : c.isDigit = true) {rest body left : List Char}
    (h : numberBody (c :: rest) = (body, left)) :
    c :: rest = body ++ left ∧ IsNumber body ∧ Stops (.number (String.ofList body)) left := by
  have hwhole : IsDigits ((c :: rest).takeWhile Char.isDigit) :=
    ⟨by simp [hc], fun d hd => List.mem_takeWhile_imp hd⟩
  have hsplit : (c :: rest).takeWhile Char.isDigit ++ (c :: rest).dropWhile Char.isDigit =
      c :: rest := List.takeWhile_append_dropWhile
  rcases numberBody_cases (c :: rest) with ⟨d, more, hdrop, hd, hbody⟩ | ⟨hpoint, hbody⟩
  · obtain ⟨rfl, rfl⟩ := Prod.mk.inj (h.symm.trans hbody)
    have hfraction : IsDigits ((d :: more).takeWhile Char.isDigit) :=
      ⟨by simp [hd], fun e he => List.mem_takeWhile_imp he⟩
    refine ⟨?_, Or.inr ⟨_, _, rfl, hwhole, hfraction⟩, head_dropWhile, fun hnone => ?_⟩
    · rw [List.append_assoc, List.cons_append, List.takeWhile_append_dropWhile, ← hdrop, hsplit]
    · exact absurd (by simp) hnone
  · obtain ⟨rfl, rfl⟩ := Prod.mk.inj (h.symm.trans hbody)
    exact ⟨hsplit.symm, Or.inl hwhole, head_dropWhile, fun _ => hpoint⟩

theorem isSpelling_of_symbolToken {c : Char} {s t : Symbol} {rest left : List Char}
    (hc : Symbol.ofChar? c = some s) (hslash : c = '/' → rest.head? ≠ some '/')
    (h : symbolToken s rest = (t, left)) :
    ∃ tail, rest = tail ++ left ∧ IsSpelling (c :: tail) (.symbol t) ∧ Stops (.symbol t) left := by
  have hspelling := Symbol.spelling_of_ofChar? hc
  unfold symbolToken at h
  split at h
  · rename_i u more hequals
    obtain ⟨rfl, rfl⟩ := Prod.mk.inj h
    obtain ⟨hu, hnone, hne⟩ := Symbol.spelling_of_withEquals? hequals
    refine ⟨['='], rfl, ?_, fun hsome => absurd hnone hsome, fun heq => absurd heq hne⟩
    rw [IsSpelling, hu, hspelling]
    rfl
  · rename_i hplain
    obtain ⟨rfl, rfl⟩ := Prod.mk.inj h
    refine ⟨[], rfl, hspelling.symm, fun hsome hhead => ?_, fun heq => ?_⟩
    · obtain ⟨u, hu⟩ := Option.ne_none_iff_exists'.mp hsome
      obtain ⟨more, rfl⟩ := List.head?_eq_some_iff.mp hhead
      exact hplain u more hu rfl
    · subst heq
      exact hslash (List.cons.inj hspelling).1.symm

/-- Of a text that starts like a word the longest one is read, as a keyword if it is one. -/
theorem isSpelling_of_wordToken {c : Char} (hc : isWordStart c = true) (rest : List Char) :
    IsSpelling (c :: rest.takeWhile isWordPart)
        (wordToken (String.ofList (c :: rest.takeWhile isWordPart))) ∧
      Stops (wordToken (String.ofList (c :: rest.takeWhile isWordPart)))
        (rest.dropWhile isWordPart) := by
  have hparts : ∀ d ∈ rest.takeWhile isWordPart, isWordPart d = true :=
    fun d hd => List.mem_takeWhile_imp hd
  have hstops : ∀ d ∈ (rest.dropWhile isWordPart).head?, isWordPart d = false := head_dropWhile
  unfold wordToken
  cases hword : Keyword.ofWord? (String.ofList (c :: rest.takeWhile isWordPart)) with
  | some k => exact ⟨Keyword.ofWord?_eq_some_iff.mp hword, hstops⟩
  | none =>
      refine ⟨⟨⟨⟨c, _, rfl, hc, hparts⟩, fun k hk => ?_⟩, String.toList_ofList.symm⟩, hstops⟩
      rw [Keyword.ofWord?_eq_some_iff.mpr hk] at hword
      cases hword

/-- What is read as a token is a spelling of it, and the token stops there. -/
theorem isSpelling_of_lexeme {c : Char} {rest left : List Char} {t : Token}
    (hslash : c = '/' → rest.head? ≠ some '/') (h : lexeme c rest = .ok (t, left)) :
    ∃ tail, rest = tail ++ left ∧ IsSpelling (c :: tail) t ∧ Stops t left := by
  unfold lexeme at h
  split at h
  · rename_i s hs
    obtain ⟨rfl, rfl⟩ := Prod.mk.inj (Except.ok.inj h)
    exact isSpelling_of_symbolToken hs hslash rfl
  · split at h
    · rename_i hcode
      have hquote : IsQuote c := by simpa [IsQuote] using hcode
      split at h
      · rename_i body after hbody
        obtain ⟨rfl, rfl⟩ := Prod.mk.inj (Except.ok.inj h)
        have hne : c ≠ '\\' := by
          rintro rfl
          exact absurd hquote (by decide)
        obtain ⟨hrest, hlast⟩ := eq_escaped_of_stringBody? hne hbody
        refine ⟨escaped c body ++ [c], by simp [hrest], ⟨?_, c, hquote, ?_⟩, trivial⟩
        · rwa [String.toList_ofList]
        · rw [String.toList_ofList]
      · cases h
    · split at h
      · rename_i hstart
        obtain ⟨rfl, rfl⟩ := Prod.mk.inj (Except.ok.inj h)
        exact ⟨_, List.takeWhile_append_dropWhile.symm, isSpelling_of_wordToken hstart rest⟩
      · split at h
        · rename_i hdigit
          cases hbody : numberBody (c :: rest) with
          | mk body after =>
              rw [hbody] at h
              obtain ⟨rfl, rfl⟩ := Prod.mk.inj (Except.ok.inj h)
              obtain ⟨hrest, hnumber, hstops⟩ := isNumber_of_numberBody hdigit hbody
              cases body with
              | nil => exact absurd hnumber (by simp [IsNumber, IsDigits])
              | cons d tail =>
                  obtain ⟨rfl, rfl⟩ := List.cons.inj hrest
                  exact ⟨tail, rfl, ⟨hnumber, String.toList_ofList.symm⟩, hstops⟩
        · cases h

/-! ### Gaps and tokens in turn -/

/-- A gap up to the end of the source, where a comment need not end in a line break. -/
def IsLastGap (cs : List Char) : Prop :=
  IsGap cs ∨ ∃ gap line, cs = gap ++ '/' :: '/' :: line ∧ IsGap gap ∧ '\n' ∉ line

/-- The source is a gap, the spelling of a token that stops there, and so on up to a last gap. -/
inductive IsLaidOut : List Token → List Char → Prop
  | nil {gap : List Char} : IsLastGap gap → IsLaidOut [] gap
  | cons {t : Token} {ts : List Token} {gap cs rest : List Char} :
      IsGap gap → IsSpelling cs t → Stops t rest → IsLaidOut ts rest →
      IsLaidOut (t :: ts) (gap ++ (cs ++ rest))

theorem IsGap.append {gap rest : List Char} (hgap : IsGap gap) (hrest : IsGap rest) :
    IsGap (gap ++ rest) := by
  induction hgap with
  | nil => exact hrest
  | blank hc _ ih => exact .blank hc ih
  | comment hline _ ih =>
      simp only [List.cons_append, List.append_assoc]
      exact .comment hline ih

theorem IsGap.appendLast {gap rest : List Char} (hgap : IsGap gap) (hrest : IsLastGap rest) :
    IsLastGap (gap ++ rest) := by
  rcases hrest with hrest | ⟨before, line, rfl, hbefore, hline⟩
  · exact Or.inl (hgap.append hrest)
  · exact Or.inr ⟨gap ++ before, line, by rw [List.append_assoc], hgap.append hbefore, hline⟩

/-- There need not be a gap in front of a token. -/
theorem IsLaidOut.token {t : Token} {ts : List Token} {cs rest : List Char}
    (hcs : IsSpelling cs t) (hstops : Stops t rest) (h : IsLaidOut ts rest) :
    IsLaidOut (t :: ts) (cs ++ rest) :=
  .cons .nil hcs hstops h

/-- A gap in front makes the first gap longer. -/
theorem IsLaidOut.behind {ts : List Token} {gap cs : List Char} (h : IsLaidOut ts cs)
    (hgap : IsGap gap) : IsLaidOut ts (gap ++ cs) := by
  cases h with
  | nil hlast => exact .nil (hgap.appendLast hlast)
  | cons hfirst hcs hstops hrest =>
      rw [← List.append_assoc]
      exact .cons (hgap.append hfirst) hcs hstops hrest

/-- A line break is the end of the line, or there is none and nothing is left. -/
theorem afterLine_cases (cs : List Char) :
    (∃ line, cs = line ++ '\n' :: afterLine cs ∧ '\n' ∉ line) ∨
      ('\n' ∉ cs ∧ afterLine cs = []) := by
  induction cs with
  | nil => exact Or.inr ⟨List.not_mem_nil, rfl⟩
  | cons c rest ih =>
      by_cases hc : c = '\n'
      · subst hc
        exact Or.inl ⟨[], rfl, List.not_mem_nil⟩
      · have hnot : ¬(c == '\n') = true := by simpa using hc
        rw [afterLine, if_neg hnot]
        rcases ih with ⟨line, hline, hmem⟩ | ⟨hmem, hnil⟩
        · exact Or.inl ⟨c :: line, by rw [List.cons_append, ← hline], by simp [hmem, Ne.symm hc]⟩
        · exact Or.inr ⟨by simp [hmem, Ne.symm hc], hnil⟩

variable {size : Nat}

/-! ### Reading -/

/-- What is laid out is read: a gap, a token that stops, and what is laid out behind it. -/
theorem markedFrom_of_isLaidOut {cs : List Char} {ts : List Token} (h : IsLaidOut ts cs) :
    markedFrom size cs = .ok (Token.marked ts) := by
  induction h with
  | nil hgap =>
      rcases hgap with hgap | ⟨gap, line, rfl, hgap, hline⟩
      · have hall : markedFrom size (_ ++ []) = markedFrom size [] := markedFrom_gap hgap []
        rw [List.append_nil] at hall
        rw [hall, markedFrom]
        rfl
      · have hnil : afterLine ('/' :: line) = [] := by
          rcases afterLine_cases line with ⟨before, heq, -⟩ | ⟨-, hnil⟩
          · rw [heq] at hline
            exact absurd (by simp) hline
          · exact hnil
        rw [markedFrom_gap hgap, markedFrom, if_neg (by decide), if_pos (by simp), hnil, markedFrom]
        rfl
  | cons hgap hcs hstops _ ih =>
      rw [markedFrom_gap hgap, markedFrom_spelling hcs hstops, ih]
      rfl

theorem eq_nil_of_isLaidOut {ts : List Token} (h : IsLaidOut ts []) : ts = [] := by
  have hread : markedFrom 0 [] = .ok (Token.marked ts) := markedFrom_of_isLaidOut h
  rw [markedFrom] at hread
  have hmarked : Token.marked [] = Token.marked ts := Except.ok.inj hread
  rw [← Token.filterMap_marked ts, ← hmarked, Token.filterMap_marked]

/-- A comment goes up to the next line, or else there is no token behind it. -/
theorem IsLaidOut.comment {ts : List Token} {cs : List Char} (h : IsLaidOut ts (afterLine cs)) :
    IsLaidOut ts ('/' :: '/' :: cs) := by
  rcases afterLine_cases cs with ⟨line, hline, hmem⟩ | ⟨hmem, hnil⟩
  · have hgap : IsGap ('/' :: '/' :: (line ++ '\n' :: [])) := .comment hmem .nil
    have hall := h.behind hgap
    rw [List.cons_append, List.cons_append, List.append_assoc] at hall
    rw [hline]
    exact hall
  · rw [hnil] at h
    obtain rfl := eq_nil_of_isLaidOut h
    exact .nil (Or.inr ⟨[], cs, rfl, .nil, hmem⟩)

/-- What is read is laid out, and has one end mark, which is behind all tokens. -/
theorem exists_of_markedFrom {cs : List Char} {entries : List (Option Token)}
    (h : markedFrom size cs = .ok entries) : ∃ ts, entries = Token.marked ts ∧ IsLaidOut ts cs := by
  induction hlength : cs.length using Nat.strong_induction_on generalizing cs entries with
  | _ n ih =>
      subst hlength
      cases cs with
      | nil =>
          rw [markedFrom] at h
          cases h
          exact ⟨[], rfl, .nil (Or.inl .nil)⟩
      | cons c rest =>
          rw [markedFrom] at h
          by_cases hblank : isBlank c = true
          · rw [if_pos hblank] at h
            obtain ⟨ts, rfl, hrest⟩ := ih _ (Nat.lt_succ_self _) h rfl
            exact ⟨ts, rfl, hrest.behind (.blank hblank .nil)⟩
          · rw [if_neg hblank] at h
            by_cases hcomment : (c == '/' && rest.head? == some '/') = true
            · rw [if_pos hcomment] at h
              obtain ⟨rfl, hhead⟩ : c = '/' ∧ rest.head? = some '/' := by simpa using hcomment
              obtain ⟨rest, rfl⟩ := List.head?_eq_some_iff.mp hhead
              have hle : (afterLine ('/' :: rest)).length ≤ ('/' :: rest).length :=
                length_afterLine_le _
              obtain ⟨ts, rfl, hafter⟩ := ih _ (Nat.lt_succ_of_le hle) h rfl
              exact ⟨ts, rfl, IsLaidOut.comment hafter⟩
            · rw [if_neg hcomment] at h
              have hslash : c = '/' → rest.head? ≠ some '/' := by simpa using hcomment
              split at h
              · rename_i t left hlexeme
                obtain ⟨tail, rfl, hcs, hstops⟩ := isSpelling_of_lexeme hslash hlexeme
                have hlt : left.length < (c :: (tail ++ left)).length := by
                  rw [List.length_cons, List.length_append]
                  omega
                cases hleft : markedFrom size left with
                | error e =>
                    rw [hleft] at h
                    cases h
                | ok others =>
                    rw [hleft] at h
                    cases h
                    obtain ⟨us, rfl, hus⟩ := ih _ hlt hleft rfl
                    exact ⟨t :: us, rfl, .token hcs hstops hus⟩
              · cases h

theorem tokens_of_marked {source : String} {ts : List Token}
    (h : markedTokens source = .ok (Token.marked ts)) : tokens source = .ok ts := by
  rw [tokens, h]
  exact congrArg Except.ok (Token.filterMap_marked ts)

theorem tokens_of_isLaidOut {source : String} {ts : List Token}
    (h : IsLaidOut ts source.toList) : tokens source = .ok ts :=
  tokens_of_marked (markedFrom_of_isLaidOut h)

/-- The end mark is there once, behind all tokens. -/
theorem markedTokens_eq_ok_iff {source : String} {entries : List (Option Token)} :
    markedTokens source = .ok entries ↔
      ∃ ts, entries = Token.marked ts ∧ tokens source = .ok ts := by
  constructor
  · intro h
    obtain ⟨ts, rfl, -⟩ := exists_of_markedFrom h
    exact ⟨ts, rfl, tokens_of_marked h⟩
  · rintro ⟨ts, rfl, h⟩
    cases hmarked : markedTokens source with
    | error e =>
        rw [tokens, hmarked] at h
        cases h
    | ok entries =>
        obtain ⟨us, rfl, -⟩ := exists_of_markedFrom hmarked
        rw [tokens_of_marked hmarked] at h
        rw [Except.ok.inj h]

theorem isLaidOut_of_tokens {source : String} {ts : List Token} (h : tokens source = .ok ts) :
    IsLaidOut ts source.toList := by
  obtain ⟨us, hus, hlaid⟩ := exists_of_markedFrom (markedTokens_eq_ok_iff.mpr ⟨ts, rfl, h⟩)
  rwa [← Token.filterMap_marked ts, hus, Token.filterMap_marked]

theorem getLast?_of_isLaidOut {cs : List Char} {ts : List Token} (h : IsLaidOut ts cs)
    {text : String} (htext : .string text ∈ ts) : text.toList.getLast? ≠ some '\\' := by
  induction h with
  | nil => cases htext
  | cons _ hcs _ _ ih =>
      rcases List.mem_cons.mp htext with rfl | hmem
      · exact hcs.1
      · exact ih hmem

/-- **Nothing of a source is lost.**  What is read of a source is some tokens and one end mark,
behind all of them.  A source is read as some tokens exactly when it consists of their spellings
and of blanks and comments between them, in front and behind, and every token stops where it does.
No string among them ends in a backslash. -/
theorem tokens_eq_ok_iff {source : String} :
    (∀ entries, markedTokens source = .ok entries ↔
      ∃ ts, entries = Token.marked ts ∧ tokens source = .ok ts) ∧
    ∀ ts, tokens source = .ok ts ↔ IsLaidOut ts source.toList ∧
      ∀ text, .string text ∈ ts → text.toList.getLast? ≠ some '\\' := by
  refine ⟨fun entries => markedTokens_eq_ok_iff, fun ts => ⟨fun h => ?_, fun h => ?_⟩⟩
  · have hlaid := isLaidOut_of_tokens h
    exact ⟨hlaid, fun _ => getLast?_of_isLaidOut hlaid⟩
  · exact tokens_of_isLaidOut h.1

end Source

end FrameLang
