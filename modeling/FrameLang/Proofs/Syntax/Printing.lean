/-
Printed expressions read back.

An expression is printed with parentheses around operands that are binary operations and around no
others.  Everything else is left to the steps of the grammar, and they do not always agree: what is
negated or tested for emptiness falls apart as an operand of arithmetic, of a comparison or of a
test, and what has a minus in front falls apart where it is indexed.  `Faithful` leaves these out,
and every expression that has no text in the language at all.

The text of a faithful expression is a rendering of it, with more parentheses than needed, and it is
laid out as the tokens of the rendering.  What comes behind an expression in a text is a blank or a
symbol that no token goes on with, which is all that the induction has to know of it.
-/
import FrameLang.Expr.Written
import FrameLang.Proofs.Syntax.Inversion
import FrameLang.Proofs.Syntax.Layout
import FrameLang.Proofs.Syntax.Numerals
import FrameLang.Syntax.Source

namespace FrameLang

namespace Source

/-! ### Tokens in a row -/

/-- Words, numbers and strings stop here. -/
def IsBoundary (rest : List Char) : Prop := ∀ c ∈ rest.head?, isWordPart c = false ∧ c ≠ '.'

theorem isBoundary_cons {c : Char} (hc : isWordPart c = false ∧ c ≠ '.') (rest : List Char) :
    IsBoundary (c :: rest) := by
  intro d hd
  obtain rfl : c = d := Option.some.inj hd
  exact hc

theorem isBoundary_symbol {s : Symbol} (hs : s ≠ .dot) (rest : List Char) :
    IsBoundary (s.spelling.toList ++ rest) := by
  cases s with
  | dot => exact absurd rfl hs
  | _ => exact isBoundary_cons ⟨rfl, by decide⟩ _

/-- The tokens are laid out as these characters, whatever boundary comes behind. -/
def Writes (cs : List Char) (ts : List Token) : Prop :=
  ∀ us rest, IsBoundary rest → IsLaidOut us rest → IsLaidOut (ts ++ us) (cs ++ rest)

/-- Without the quote there is nothing to escape. -/
theorem escaped_eq_self {quote : Char} {cs : List Char} (h : ∀ c ∈ cs, c ≠ quote) :
    escaped quote cs = cs := by
  induction cs with
  | nil => rfl
  | cons c cs ih =>
      rw [escaped_cons, if_neg (h c List.mem_cons_self),
        ih fun d hd => h d (List.mem_cons_of_mem c hd)]
      rfl

theorem isSpelling_keyword (k : Keyword) : IsSpelling k.spelling.toList (.keyword k) := by
  cases k with
  | _ => rfl

theorem isSpelling_symbol (s : Symbol) : IsSpelling s.spelling.toList (.symbol s) := rfl

theorem IsBoundary.stops {rest : List Char} (h : IsBoundary rest) {t : Token}
    (ht : ∀ s, t ≠ .symbol s) : Stops t rest := by
  cases t with
  | name | keyword => exact fun c hc => (h c hc).1
  | number text =>
      refine ⟨fun c hc => ?_, fun _ d more heq => ?_⟩
      · by_contra hdigit
        have hpart := isWordPart_of_isDigit (by simpa using hdigit)
        rw [(h c hc).1] at hpart
        cases hpart
      · subst heq
        exact absurd rfl (h '.' rfl).2
  | string => trivial
  | symbol s => exact absurd rfl (ht s)

variable {cs ds : List Char} {ts us : List Token} {t : Token}

theorem writes_nil : Writes [] [] := fun _ _ _ h => h

theorem writes_token (hcs : IsSpelling cs t) (ht : ∀ s, t ≠ .symbol s) : Writes cs [t] :=
  fun _ _ hrest hus => .token hcs (hrest.stops ht) hus

theorem Writes.space (h : Writes cs ts) : Writes (' ' :: cs) ts := by
  intro vs rest hrest hvs
  have hblank : IsGap [' '] := .blank rfl .nil
  exact (h vs rest hrest hvs).behind hblank

/-- Every token can be written in front of a space. -/
theorem Writes.spaced (h : Writes cs ts) (hds : IsSpelling ds t) :
    Writes (ds ++ ' ' :: cs) (t :: ts) := by
  intro vs rest hrest hvs
  have hend : IsEnd (' ' :: (cs ++ rest)) := by
    intro c hc
    obtain rfl : ' ' = c := Option.some.inj hc
    rfl
  rw [List.append_assoc]
  exact .token hds (hend.stops t) (h.space vs rest hrest hvs)

/-- Most symbols can be written in front of anything. -/
theorem Writes.symbol (h : Writes cs ts) {s : Symbol} (hs : s.withEquals? = none ∧ s ≠ .slash) :
    Writes (s.spelling.toList ++ cs) (.symbol s :: ts) := by
  intro vs rest hrest hvs
  have hstops : Stops (.symbol s) (cs ++ rest) :=
    ⟨fun hsome => absurd hs.1 hsome, fun hslash => absurd hslash hs.2⟩
  rw [List.append_assoc]
  exact .token (isSpelling_symbol s) hstops (h vs rest hrest hvs)

theorem Writes.append (h : Writes cs ts) (hds : Writes ds us)
    (hstart : ∀ rest, IsBoundary (ds ++ rest)) : Writes (cs ++ ds) (ts ++ us) := by
  intro vs rest hrest hvs
  rw [List.append_assoc, List.append_assoc]
  exact h (us ++ vs) (ds ++ rest) (hstart rest) (hds vs rest hrest hvs)

theorem Writes.appendSpace (h : Writes cs ts) (hds : Writes ds us) :
    Writes (cs ++ ' ' :: ds) (ts ++ us) :=
  h.append hds.space fun _ => isBoundary_cons ⟨rfl, by decide⟩ _

theorem Writes.appendSymbol (h : Writes cs ts) (hds : Writes ds us) {s : Symbol}
    (hs : s.withEquals? = none ∧ s ≠ .slash) (hdot : s ≠ .dot) :
    Writes (cs ++ (s.spelling.toList ++ ds)) (ts ++ .symbol s :: us) := by
  refine h.append (hds.symbol hs) fun rest => ?_
  rw [List.append_assoc]
  exact isBoundary_symbol hdot _

theorem Writes.parens (h : Writes cs ts) :
    Writes ('(' :: (cs ++ [')'])) (.symbol .leftParen :: (ts ++ [.symbol .rightParen])) := by
  have hinner := h.appendSymbol writes_nil (s := .rightParen) ⟨rfl, nofun⟩ nofun
  exact hinner.symbol ⟨rfl, nofun⟩

theorem Writes.operator (h : Writes cs ts) (op : BinaryOp) :
    Writes (op.symbol.toList ++ ' ' :: cs) (op.tokens ++ ts) := by
  rcases op with (_ | _ | _ | _) | (_ | _ | _ | _ | _ | _) | (_ | _ | _) | (_ | _)
  · exact h.spaced (isSpelling_symbol .plus)
  · exact h.spaced (isSpelling_symbol .minus)
  · exact h.spaced (isSpelling_symbol .star)
  · exact h.spaced (isSpelling_symbol .slash)
  · exact h.spaced (isSpelling_symbol .equal)
  · exact h.spaced (isSpelling_symbol .notEqual)
  · exact h.spaced (isSpelling_symbol .less)
  · exact h.spaced (isSpelling_symbol .lessEqual)
  · exact h.spaced (isSpelling_symbol .greater)
  · exact h.spaced (isSpelling_symbol .greaterEqual)
  · exact h.spaced (isSpelling_keyword .and_)
  · exact h.spaced (isSpelling_keyword .or_)
  · exact h.spaced (isSpelling_keyword .xor_)
  · exact h.spaced (isSpelling_keyword .in_)
  · exact (h.spaced (isSpelling_keyword .in_)).spaced (isSpelling_keyword .not_)

/-- A name goes on with nothing that a dot and another name could be mistaken for. -/
theorem writes_dotted {name : String} (hname : IsName name.toList) {field : List String}
    (hfield : ∀ f ∈ field, IsName f.toList) :
    Writes (name ++ String.join (field.map ("." ++ ·))).toList
      (.name name :: Grammar.dotted field) := by
  induction field generalizing name with
  | nil =>
      rw [List.map_nil, String.join_nil, String.append_empty]
      exact writes_token ⟨hname, rfl⟩ nofun
  | cons f fs ih =>
      intro vs rest hrest hvs
      have htail := (ih (hfield f List.mem_cons_self)
        fun g hg => hfield g (List.mem_cons_of_mem _ hg)).symbol (s := .dot) ⟨rfl, nofun⟩
      have hspelling : IsSpelling name.toList (.name name) := ⟨hname, rfl⟩
      have hstops (more : List Char) : Stops (.name name) ('.' :: more) := by
        intro c hc
        obtain rfl : '.' = c := Option.some.inj hc
        rfl
      have hdot : Symbol.dot.spelling.toList = ['.'] := rfl
      have hall := IsLaidOut.token hspelling (hstops _) (htail vs rest hrest hvs)
      simpa [hdot, String.append_assoc, Grammar.dotted] using hall

end Source

namespace Expr

open Grammar Source

/-! ### Expressions that their text determines -/

/-- A negation or a test for emptiness. -/
def IsLoose : Expr → Prop
  | unary op _ => op ≠ .minus
  | _ => False

/-- The expressions whose text is source of the language and falls apart nowhere. -/
inductive Faithful : Expr → Prop
  | boolean {b : Bool} : Faithful (.literal (.boolean b))
  | long {n : Long} : 0 ≤ n.toInt → Faithful (.literal (.long n))
  | string {s : String} :
      (∀ c ∈ s.toList, c ≠ '\x22') → s.toList.getLast? ≠ some '\\' →
      Faithful (.literal (.string s))
  | var {name : String} : IsName name.toList → Faithful (.var name)
  | path {dataSet : String} {field : List String} :
      IsName dataSet.toList → field ≠ [] → (∀ f ∈ field, IsName f.toList) →
      Faithful (.path dataSet field)
  | call {function : String} {arguments : List Expr} :
      IsName function.toList → (∀ e ∈ arguments, Faithful e) → Faithful (.call function arguments)
  | vector {elements : List Expr} :
      elements.length ≠ 1 → (∀ e ∈ elements, Faithful e) → Faithful (.vector elements)
  | index {v i : Expr} :
      (∀ op x, v ≠ .unary op x) → Faithful v → Faithful i → Faithful (.index v i)
  | connective {op : Connective} {l r : Expr} :
      Faithful l → Faithful r → Faithful (.binary (.connective op) l r)
  | binary {op : BinaryOp} {l r : Expr} :
      (∀ c, op ≠ .connective c) → Faithful l → ¬l.IsLoose → Faithful r → ¬r.IsLoose →
      Faithful (.binary op l r)
  | not {e : Expr} : Faithful e → Faithful (.unary .not e)
  | unary {op : UnaryOp} {e : Expr} :
      op ≠ .not → Faithful e → ¬e.IsLoose → Faithful (.unary op e)

/-- The step of an expression as an operand, where a binary operation stands in parentheses. -/
def operandLevel : Expr → Nat
  | binary .. => 10
  | e => e.level 0

variable {e : Expr}

namespace Faithful

theorem nine_le_operandLevel (h : e.Faithful) (hunary : ∀ op x, e ≠ .unary op x) :
    9 ≤ e.operandLevel := by
  cases h with
  | not | unary => exact absurd rfl (hunary _ _)
  | _ => simp [operandLevel, level]

theorem four_le_operandLevel (h : e.Faithful) : 4 ≤ e.operandLevel := by
  by_cases hunary : ∃ op x, e = .unary op x
  · obtain ⟨op, x, rfl⟩ := hunary
    cases op with
    | _ => simp [operandLevel, level, UnaryOp.level]
  · exact (nine_le_operandLevel h fun op x heq => hunary ⟨op, x, heq⟩).trans' (by decide)

theorem eight_le_operandLevel (h : e.Faithful) (hloose : ¬e.IsLoose) : 8 ≤ e.operandLevel := by
  by_cases hunary : ∃ op x, e = .unary op x
  · obtain ⟨op, x, rfl⟩ := hunary
    obtain rfl : op = .minus := by simpa [IsLoose] using hloose
    exact le_rfl
  · exact (nine_le_operandLevel h fun op x heq => hunary ⟨op, x, heq⟩).trans' (by decide)

end Faithful

/-! ### Their text -/

/-- A rendering of the phrase is laid out as the text. -/
def HasText (phrase : Phrase) (text : String) : Prop :=
  ∃ ts, Renders .separated phrase ts ∧ Writes text.toList ts

/-- The expression has its text whatever comes next.  No filter has to spare that. -/
def Prints (e : Expr) : Prop := ∀ step, HasText (.bare { step } e) e.toText

theorem hasText_whole (h : e.Prints) : HasText (.operand 0 .nothing e) e.toText := by
  obtain ⟨ts, hrender, hwrites⟩ := h 0
  exact ⟨ts, .bare (Nat.zero_le _) (Next.spares_nothing _ _) hrender, hwrites⟩

theorem hasText_operand (h : e.Prints) {demand : Nat} (hdemand : demand ≤ e.operandLevel)
    (step : Nat) : HasText (.operand demand { step } e) (e.asOperand e.toText) := by
  have hlevel := level_le_level e (Nat.zero_le 10)
  cases e with
  | binary op l r =>
      obtain ⟨ts, hrender, hwrites⟩ := hasText_whole h
      refine ⟨_, .parens nofun (Next.spares_taken _ _ _) hrender, ?_⟩
      have hparens : (asOperand (.binary op l r) (toText (.binary op l r))).toList =
          '(' :: ((toText (.binary op l r)).toList ++ [')']) := by
        simp only [asOperand, String.toList_append]
        rfl
      rw [hparens]
      exact hwrites.parens
  | _ =>
      obtain ⟨ts, hrender, hwrites⟩ := h step
      exact ⟨ts, .bare (Nat.le_trans hdemand hlevel) (Next.spares_taken _ _ _) hrender, hwrites⟩

theorem hasText_list {es : List Expr} (h : ∀ e ∈ es, e.Prints) :
    HasText (.list .argument es) (", ".intercalate (texts es)) := by
  induction es with
  | nil => exact ⟨[], .noItem, writes_nil⟩
  | cons e es ih =>
      obtain ⟨ts, hrender, hwrites⟩ := hasText_whole (h e List.mem_cons_self)
      obtain ⟨us, hrenders, hwrite⟩ := ih fun f hf => h f (List.mem_cons_of_mem _ hf)
      cases es with
      | nil =>
          refine ⟨ts, .lastItem (.item hrender), ?_⟩
          rwa [texts, texts, String.intercalate_singleton]
      | cons f es =>
          refine ⟨_, .moreItems (.item hrender) hrenders, ?_⟩
          have htext : (", ".intercalate (texts (e :: f :: es))).toList =
              e.toText.toList ++ (',' :: ' ' :: (", ".intercalate (texts (f :: es))).toList) := by
            rw [texts, texts, String.intercalate_cons_cons, String.toList_append,
              String.toList_append, List.append_assoc]
            rfl
          rw [htext]
          exact hwrites.appendSymbol hwrite.space (s := .comma) ⟨rfl, nofun⟩ nofun

theorem prints_long {n : Long} (h : 0 ≤ n.toInt) :
    Prints (.literal (.long n)) := by
  have hnumber : IsNumber n.toText.toList := by
    rw [Long.toText_eq h, String.toList_ofList]
    exact Or.inl ⟨Nat.toDigits_ne_nil, Long.isDigit_of_mem_digits⟩
  exact fun _ => ⟨_, .constant (isConstant_long h), writes_token ⟨hnumber, rfl⟩ nofun⟩

theorem prints_string {s : String} (hquote : ∀ c ∈ s.toList, c ≠ '\x22')
    (hlast : s.toList.getLast? ≠ some '\\') :
    Prints (.literal (.string s)) := by
  have hspelling : IsSpelling (Literal.toText (.string s)).toList (.string s) := by
    refine ⟨hlast, '\x22', Or.inl rfl, ?_⟩
    rw [escaped_eq_self hquote, Literal.toText, String.toList_append, String.toList_append]
    rfl
  exact fun _ => ⟨_, .constant .string, writes_token hspelling nofun⟩

theorem prints_boolean (b : Bool) : Prints (.literal (.boolean b)) := by
  cases b with
  | true => exact fun _ => ⟨_, .constant .true_, writes_token (isSpelling_keyword .true_) nofun⟩
  | false => exact fun _ => ⟨_, .constant .false_, writes_token (isSpelling_keyword .false_) nofun⟩

theorem prints_call {function : String} {arguments : List Expr}
    (hname : IsName function.toList) (h : ∀ e ∈ arguments, e.Prints) :
    Prints (.call function arguments) := by
  obtain ⟨ts, hrender, hwrites⟩ := hasText_list h
  refine fun _ => ⟨_, .call hrender, ?_⟩
  have hfunction : Writes function.toList [.name function] := writes_token ⟨hname, rfl⟩ nofun
  have hclosed := hwrites.appendSymbol writes_nil (s := .rightParen) ⟨rfl, nofun⟩ nofun
  have hall := hfunction.appendSymbol hclosed (s := .leftParen) ⟨rfl, nofun⟩ nofun
  simp only [toText, String.toList_append, List.append_assoc]
  exact hall

theorem prints_vector {elements : List Expr} (hlength : elements.length ≠ 1)
    (h : ∀ e ∈ elements, e.Prints) : Prints (.vector elements) := by
  obtain ⟨ts, hrender, hwrites⟩ := hasText_list h
  refine fun _ => ⟨_, .vector hlength hrender, ?_⟩
  simp only [toText, String.toList_append]
  exact hwrites.parens

theorem prints_index {v i : Expr} (hv : v.Prints) (hlevel : 9 ≤ v.operandLevel) (hi : i.Prints) :
    Prints (.index v i) := by
  obtain ⟨ts, hrenderv, hwritesv⟩ := hasText_operand hv hlevel 9
  obtain ⟨us, hrenderi, hwritesi⟩ := hasText_whole hi
  refine fun _ => ⟨_, .index hrenderv hrenderi, ?_⟩
  have hposition := hwritesi.appendSymbol writes_nil (s := .rightBracket) ⟨rfl, nofun⟩ nofun
  have hall := hwritesv.appendSymbol hposition (s := .leftBracket) ⟨rfl, nofun⟩ nofun
  rw [toText]
  simp only [String.toList_append, List.append_assoc]
  exact hall

theorem prints_binary {op : BinaryOp} {l r : Expr} (hl : l.Prints)
    (hleft : op.leftDemand ≤ l.operandLevel) (hr : r.Prints)
    (hright : op.rightDemand ≤ r.operandLevel) : Prints (.binary op l r) := by
  intro step
  obtain ⟨ts, hrenderl, hwritesl⟩ := hasText_operand hl hleft op.level
  obtain ⟨us, hrenderr, hwritesr⟩ := hasText_operand hr hright step
  refine ⟨_, .binary hrenderl hrenderr, ?_⟩
  have hall := hwritesl.appendSpace (hwritesr.operator op)
  rw [toText]
  simp only [String.toList_append, List.append_assoc]
  exact hall

theorem prints_minus {x : Expr} (h : x.Prints) (hlevel : 8 ≤ x.operandLevel) :
    Prints (.unary .minus x) := by
  intro step
  obtain ⟨ts, hrender, hwrites⟩ := hasText_operand h hlevel step
  refine ⟨_, .minus hrender, ?_⟩
  simp only [toText, String.toList_append]
  exact hwrites.symbol ⟨rfl, nofun⟩

theorem prints_not {x : Expr} (h : x.Prints) (hlevel : 4 ≤ x.operandLevel) :
    Prints (.unary .not x) := by
  intro step
  obtain ⟨ts, hrender, hwrites⟩ := hasText_operand h hlevel step
  refine ⟨_, .not (t := .keyword .not_) rfl hrender, ?_⟩
  simp only [toText, String.toList_append, List.append_assoc]
  exact hwrites.spaced (isSpelling_keyword .not_)

theorem prints_isEmpty {x : Expr} (h : x.Prints) (hlevel : 6 ≤ x.operandLevel) :
    Prints (.unary .isEmpty x) ∧ Prints (.unary .isNotEmpty x) := by
  obtain ⟨ts, hrender, hwrites⟩ := hasText_operand h hlevel 5
  have hempty : Writes _ [.keyword .empty_] := writes_token (isSpelling_keyword .empty_) nofun
  constructor
  · refine fun step => ⟨_, .isEmpty hrender, ?_⟩
    have hall := hwrites.appendSpace (hempty.spaced (isSpelling_keyword .is_))
    simp only [toText, String.toList_append, List.append_assoc]
    exact hall
  · refine fun step => ⟨_, .isNotEmpty hrender, ?_⟩
    have hall := hwrites.appendSpace
      ((hempty.spaced (isSpelling_keyword .not_)).spaced (isSpelling_keyword .is_))
    simp only [toText, String.toList_append, List.append_assoc]
    exact hall

namespace Faithful

theorem prints (h : e.Faithful) : e.Prints := by
  induction h with
  | boolean => exact prints_boolean _
  | long hn => exact prints_long hn
  | string hquote hlast => exact prints_string hquote hlast
  | var hname => exact fun _ => ⟨_, .var, writes_token ⟨hname, rfl⟩ nofun⟩
  | path hname hne hfield => exact fun _ => ⟨_, .path hne, writes_dotted hname hfield⟩
  | call hname _ ih => exact prints_call hname ih
  | vector hlength _ ih => exact prints_vector hlength ih
  | index hunary hv _ ihv ihi => exact prints_index ihv (hv.nine_le_operandLevel hunary) ihi
  | @connective op l r hl hr ihl ihr =>
      have hdemands : BinaryOp.leftDemand (.connective op) ≤ 4 ∧
          BinaryOp.rightDemand (.connective op) ≤ 4 := by
        cases op with
        | _ => decide
      exact prints_binary ihl (hdemands.1.trans hl.four_le_operandLevel) ihr
        (hdemands.2.trans hr.four_le_operandLevel)
  | @binary op l r hop hl hlloose hr hrloose ihl ihr =>
      have hlevel := level_le_seven op
      have hdemands : op.leftDemand ≤ 8 ∧ op.rightDemand ≤ 8 := by
        unfold BinaryOp.leftDemand BinaryOp.rightDemand
        split
        · omega
        · omega
      have hleft := hl.eight_le_operandLevel hlloose
      have hright := hr.eight_le_operandLevel hrloose
      exact prints_binary ihl (hdemands.1.trans hleft) ihr (hdemands.2.trans hright)
  | not hx ih => exact prints_not ih hx.four_le_operandLevel
  | @unary op x hop hx hloose ih =>
      have hlevel := hx.eight_le_operandLevel hloose
      cases op with
      | not => exact absurd rfl hop
      | minus => exact prints_minus ih hlevel
      | isEmpty => exact (prints_isEmpty ih (hlevel.trans' (by decide))).1
      | isNotEmpty => exact (prints_isEmpty ih (hlevel.trans' (by decide))).2

theorem columnName_eq (h : e.Faithful) : e.columnName = e.toText := by
  cases h with
  | _ => rfl

theorem ofSource_eq (h : e.Faithful) : ofSource e.toText = .ok e := by
  obtain ⟨ts, hrender, hwrites⟩ := hasText_whole h.prints
  have hlaid := hwrites [] [] nofun (.nil (Or.inl .nil))
  rw [List.append_nil, List.append_nil] at hlaid
  unfold ofSource
  rw [tokens_of_isLaidOut hlaid]
  exact wholeExpression_of_renders separates_separated hrender

end Faithful

/-- **Printed expressions read back.**  The text of a faithful expression is read as that expression
again.  So no two of them have the same text, and columns that are named after two of them have
different names. -/
theorem ofSource_toText (h : e.Faithful) :
    ofSource e.toText = .ok e ∧ ∀ f : Expr, f.Faithful → f.columnName = e.columnName → f = e := by
  refine ⟨h.ofSource_eq, fun f hf hname => ?_⟩
  rw [hf.columnName_eq, h.columnName_eq] at hname
  have hread := hf.ofSource_eq
  rw [hname, h.ofSource_eq] at hread
  exact (Except.ok.inj hread).symm

/-- Of the operands only the sum is in parentheses; the minus belongs to the path alone. -/
theorem ofSource_toText_negated :
    ofSource "not ((-D.age + 2) < xs[0])" = .ok (.unary .not (.binary (.comparison .lt)
        (.binary (.arithmetic .add) (.unary .minus (.path "D" ["age"])) (.literal (.long 2)))
        (.index (.var "xs") (.literal (.long 0))))) ∧
      ∀ f : Expr, f.Faithful → f.columnName = "not ((-D.age + 2) < xs[0])" →
        f = .unary .not (.binary (.comparison .lt)
          (.binary (.arithmetic .add) (.unary .minus (.path "D" ["age"])) (.literal (.long 2)))
          (.index (.var "xs") (.literal (.long 0)))) := by
  have hD : IsName "D".toList := by
    refine ⟨⟨'D', [], rfl, rfl, by simp⟩, fun k h => ?_⟩
    cases k <;> simp [Keyword.IsSpelledBy, Keyword.spelling] at h
  have hage : IsName "age".toList := by
    refine ⟨⟨'a', ['g', 'e'], rfl, rfl, by simpa using ⟨rfl, rfl⟩⟩, fun k h => ?_⟩
    cases k <;> simp [Keyword.IsSpelledBy, Keyword.spelling] at h
  have hxs : IsName "xs".toList := by
    refine ⟨⟨'x', ['s'], rfl, rfl, fun c hc => ?_⟩, fun k h => ?_⟩
    · obtain rfl : c = 's' := by simpa using hc
      rfl
    · cases k <;> simp [Keyword.IsSpelledBy, Keyword.spelling] at h
  have hpath : Faithful (.path "D" ["age"]) := .path hD (by decide) (by simpa using hage)
  have hsum : Faithful (.binary (.arithmetic .add) (.unary .minus (.path "D" ["age"]))
      (.literal (.long 2))) :=
    .binary (by simp) (.unary (by decide) hpath id) (fun hloose => hloose rfl)
      (.long (by decide)) id
  have hindex : Faithful (.index (.var "xs") (.literal (.long 0))) :=
    .index (by simp) (.var hxs) (.long (by decide))
  have hless : Faithful (.binary (.comparison .lt)
      (.binary (.arithmetic .add) (.unary .minus (.path "D" ["age"])) (.literal (.long 2)))
      (.index (.var "xs") (.literal (.long 0)))) :=
    .binary (by simp) hsum id hindex id
  have htext : toText (.unary .not (.binary (.comparison .lt)
      (.binary (.arithmetic .add) (.unary .minus (.path "D" ["age"])) (.literal (.long 2)))
      (.index (.var "xs") (.literal (.long 0))))) = "not ((-D.age + 2) < xs[0])" := by
    cbv
  have hread := ofSource_toText (.not hless)
  rw [(Faithful.not hless).columnName_eq, htext] at hread
  exact hread

end Expr

end FrameLang
