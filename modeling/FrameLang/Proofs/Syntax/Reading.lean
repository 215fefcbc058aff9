/-
What the functions of the grammar read.

A function of the grammar returns its phrase with a proof about the tokens behind it.  Here the
proof is put away, so that two facts remain of a success: what was read, and what is left.  For
each function one lemma says when it succeeds and with which two, in terms of the functions that it
calls.
-/
import FrameLang.Proofs.Syntax.Rendering
import Mathlib.Data.List.TakeWhile

namespace FrameLang.Grammar

variable {α β : Type} {m n : Nat}

/-- The phrase is read, and the tokens behind it are left. -/
def Reads (o : Outcome α n) (a : α) (rest : List Token) : Prop := ∃ h, o = .ok ⟨a, rest, h⟩

theorem Reads.length_lt {o : Outcome α n} {a : α} {rest : List Token} (h : Reads o a rest) :
    rest.length < n :=
  h.1

/-- What is read is determined. -/
theorem Reads.unique {o : Outcome α n} {a b : α} {rest left : List Token} (ha : Reads o a rest)
    (hb : Reads o b left) : a = b ∧ rest = left := by
  obtain ⟨h, rfl⟩ := ha
  obtain ⟨h', heq⟩ := hb
  cases heq
  exact ⟨rfl, rfl⟩

@[simp] theorem reads_ok {a b : α} {rest left : List Token} {h : rest.length < n} :
    Reads (.ok ⟨a, rest, h⟩ : Outcome α n) b left ↔ b = a ∧ left = rest := by
  constructor
  · rintro ⟨h', heq⟩
    cases heq
    exact ⟨rfl, rfl⟩
  · rintro ⟨rfl, rfl⟩
    exact ⟨h, rfl⟩

@[simp] theorem reads_pure {a b : α} {rest left : List Token} {h : rest.length < n} :
    Reads (pure ⟨a, rest, h⟩ : Outcome α n) b left ↔ b = a ∧ left = rest :=
  reads_ok

@[simp] theorem reads_error {e : SyntaxError} {a : α} {rest : List Token} :
    ¬Reads (.error e : Outcome α n) a rest :=
  nofun

theorem reads_bind {o : Outcome α m} {k : Parsed α m → Outcome β n} {b : β} {left : List Token} :
    Reads (o >>= k) b left ↔ ∃ a rest, Reads o a rest ∧ ∀ h, Reads (k ⟨a, rest, h⟩) b left := by
  constructor
  · intro hk
    cases o with
    | error e => exact absurd hk reads_error
    | ok p => exact ⟨p.value, p.rest, ⟨p.shorter, rfl⟩, fun _ => hk⟩
  · rintro ⟨a, rest, ⟨h, rfl⟩, hk⟩
    exact hk h

/-- A length that is at hand need not be asked for. -/
theorem reads_and_forall {o : Outcome α m} {a : α} {rest : List Token} {p : Prop} :
    (Reads o a rest ∧ ∀ _ : rest.length < m, p) ↔ Reads o a rest ∧ p :=
  and_congr_right fun h => ⟨fun hp => hp h.length_lt, fun hp _ => hp⟩

/-! ### Phrases without expressions -/

theorem reads_expect {t : Token} {ts : List Token} {u : Unit} {rest : List Token} :
    Reads (expect t ts) u rest ↔ ts = t :: rest := by
  cases ts with
  | nil => simp [expect]
  | cons s more =>
      rw [expect]
      split
      · rename_i heq
        simp [heq, eq_comm]
      · rename_i hne
        simp [hne]

theorem dotted_cons (f : String) (fs : List String) :
    dotted (f :: fs) = .symbol .dot :: .name f :: dotted fs :=
  rfl

theorem reads_fields {ts : List Token} {fs : List String} {rest : List Token} :
    Reads (fields ts) fs rest ↔ ts = dotted fs ++ rest ∧ rest.head? ≠ some (.symbol .dot) := by
  induction ts using fields.induct generalizing fs rest with
  | case1 field ts ih =>
      rw [fields]
      simp only [reads_bind, reads_pure, reads_and_forall, exists_eq_right_right']
      simp only [ih]
      constructor
      · rintro ⟨more, ⟨rfl, hend⟩, rfl⟩
        exact ⟨rfl, hend⟩
      · rintro ⟨heq, hend⟩
        cases fs with
        | nil =>
            obtain rfl : _ = rest := heq
            exact absurd rfl hend
        | cons f fs =>
            simp only [dotted_cons, List.cons_append, List.cons.injEq, true_and,
              Token.name.injEq] at heq
            obtain ⟨rfl, rfl⟩ := heq
            exact ⟨fs, ⟨rfl, hend⟩, rfl⟩
  | case2 ts hname =>
      rw [fields]
      · simp only [reads_error, false_iff, not_and]
        rintro heq hend
        cases fs with
        | nil =>
            obtain rfl : _ = rest := heq
            exact hend rfl
        | cons f fs => exact hname f _ (List.cons.inj heq).2
      · exact hname
  | case3 ts hname hdot =>
      rw [fields]
      · rw [reads_ok]
        constructor
        · rintro ⟨rfl, rfl⟩
          refine ⟨rfl, fun hhead => ?_⟩
          obtain ⟨more, rfl⟩ := List.head?_eq_some_iff.mp hhead
          exact hdot more rfl
        · rintro ⟨rfl, hend⟩
          cases fs with
          | nil => exact ⟨rfl, rfl⟩
          | cons f fs => exact absurd rfl (hname f (dotted fs ++ rest))
      · exact hname
      · exact hdot

/-! ### Operators -/

theorem comparison?_eq_some_iff {t : Token} {op : Comparison} :
    comparison? t = some op ↔ t = op.token := by
  constructor
  · intro h
    unfold comparison? at h
    split at h <;> cases h <;> rfl
  · rintro rfl
    cases op <;> rfl

namespace Chain

def level : Chain → Nat
  | disjunction => 1
  | exclusion => 2
  | conjunction => 3
  | sum => 6
  | product => 7

theorem level_lt (c : Chain) : c.level < 10 := by
  cases c <;> decide

theorem operator?_eq_some_iff {c : Chain} {t : Token} {op : BinaryOp} :
    c.operator? t = some op ↔ op.tokens = [t] ∧ op.level = c.level := by
  constructor
  · intro h
    unfold operator? at h
    split at h <;> cases h <;> exact ⟨rfl, rfl⟩
  · rintro ⟨ht, hlevel⟩
    rcases op with (_ | _ | _ | _) | _ | (_ | _ | _) | (_ | _) <;>
      obtain ⟨rfl, -⟩ := List.cons.inj ht <;> cases c <;> first | rfl | cases hlevel

/-- The operators of the families have one token each. -/
theorem exists_operator? {c : Chain} {op : BinaryOp} (h : op.level = c.level) :
    ∃ t, op.tokens = [t] ∧ c.operator? t = some op := by
  suffices ∃ t, op.tokens = [t] from
    this.imp fun t ht => ⟨ht, operator?_eq_some_iff.mpr ⟨ht, h⟩⟩
  rcases op with (_ | _ | _ | _) | _ | (_ | _ | _) | (_ | _) <;>
    first | exact ⟨_, rfl⟩ | (cases c <;> cases h)

end Chain

/-! ### Operands -/

/-- The function that reads an operand for a place with a demand. -/
def phraseAt : Nat → (ts : List Token) → Outcome Expr ts.length
  | 0 | 1 => chain .disjunction
  | 2 => chain .exclusion
  | 3 => chain .conjunction
  | 4 => negation
  | 5 => comparison
  | 6 => chain .sum
  | 7 => chain .product
  | 8 => negative
  | 9 => indexed
  | _ => primary

theorem operand_eq (c : Chain) (ts : List Token) : operand c ts = phraseAt (c.level + 1) ts := by
  cases c <;> rw [operand] <;> rfl

theorem reads_chain {c : Chain} {ts : List Token} {e : Expr} {rest : List Token} :
    Reads (chain c ts) e rest ↔ ∃ first mid, Reads (operand c ts) first mid ∧
      ∀ h, Reads (chainRest c ts.length first mid h) e rest := by
  rw [chain, reads_bind]

theorem reads_chainRest_operator {c : Chain} {bound : Nat} {left : Expr} {t : Token}
    {ts : List Token} {h : (t :: ts).length < bound} {op : BinaryOp} {e : Expr} {rest : List Token}
    (hop : c.operator? t = some op) :
    Reads (chainRest c bound left (t :: ts) h) e rest ↔ ∃ right mid,
      Reads (operand c ts) right mid ∧
      ∀ h, Reads (chainRest c bound (.binary op left right) mid h) e rest := by
  rw [chainRest]
  simp only [hop, reads_bind]
  refine exists_congr fun right => exists_congr fun mid => and_congr_right fun hread => ?_
  exact ⟨fun hrest _ => hrest hread.length_lt, fun hrest _ => hrest _⟩

theorem reads_chainRest_end {c : Chain} {bound : Nat} {left : Expr} {ts : List Token}
    {h : ts.length < bound} {e : Expr} {rest : List Token}
    (hend : ∀ t ∈ ts.head?, c.operator? t = none) :
    Reads (chainRest c bound left ts h) e rest ↔ e = left ∧ rest = ts := by
  cases ts with
  | nil => rw [chainRest, reads_ok]
  | cons t ts =>
      rw [chainRest]
      simp only [hend t rfl, reads_ok]

theorem reads_negation_not {t : Token} {ts : List Token} {e : Expr} {rest : List Token}
    (ht : isNegation t = true) :
    Reads (negation (t :: ts)) e rest ↔ ∃ x, Reads (negation ts) x rest ∧ e = .unary .not x := by
  rw [negation, if_pos ht]
  simp only [reads_bind, reads_pure, reads_and_forall, exists_eq_right_right']

theorem reads_negation_comparison {ts : List Token} {e : Expr} {rest : List Token}
    (hts : ∀ t ∈ ts.head?, isNegation t = false) :
    Reads (negation ts) e rest ↔ Reads (comparison ts) e rest := by
  cases ts with
  | nil => rw [negation]
  | cons t more => rw [negation, hts t rfl, if_neg Bool.false_ne_true]

/-- How tightly the next tokens bind to an expression in front of them: 0 if they do not. -/
def grip : List Token → Nat
  | .keyword .or_ :: _ => 1
  | .keyword .xor_ :: _ => 2
  | .keyword .and_ :: _ => 3
  | .keyword .is_ :: _ | .keyword .in_ :: _ | .keyword .not_ :: .keyword .in_ :: _
  | .symbol .equal :: _ | .symbol .notEqual :: _ | .symbol .less :: _ | .symbol .lessEqual :: _
  | .symbol .greater :: _ | .symbol .greaterEqual :: _ => 5
  | .symbol .plus :: _ | .symbol .minus :: _ => 6
  | .symbol .star :: _ | .symbol .slash :: _ => 7
  | .symbol .leftBracket :: _ => 9
  | .symbol .dot :: _ | .symbol .leftParen :: _ | .keyword .where_ :: _ => 10
  | _ => 0

theorem grip_tokens (op : BinaryOp) (ts : List Token) : grip (op.tokens ++ ts) = op.level := by
  rcases op with (_ | _ | _ | _) | (_ | _ | _ | _ | _ | _) | (_ | _ | _) | (_ | _) <;> rfl

theorem grip_eq_five {ts : List Token} (h : grip ts = 5) :
    (∃ more, ts = .keyword .is_ :: more) ∨ (∃ more, ts = .keyword .in_ :: more) ∨
      (∃ more, ts = .keyword .not_ :: .keyword .in_ :: more) ∨
      ∃ (op : Comparison) (more : List Token), ts = op.token :: more := by
  unfold grip at h
  split at h
  case h_4 => exact .inl ⟨_, rfl⟩
  case h_5 => exact .inr (.inl ⟨_, rfl⟩)
  case h_6 => exact .inr (.inr (.inl ⟨_, rfl⟩))
  case h_7 => exact .inr (.inr (.inr ⟨.eq, _, rfl⟩))
  case h_8 => exact .inr (.inr (.inr ⟨.ne, _, rfl⟩))
  case h_9 => exact .inr (.inr (.inr ⟨.lt, _, rfl⟩))
  case h_10 => exact .inr (.inr (.inr ⟨.le, _, rfl⟩))
  case h_11 => exact .inr (.inr (.inr ⟨.gt, _, rfl⟩))
  case h_12 => exact .inr (.inr (.inr ⟨.ge, _, rfl⟩))
  all_goals cases h

theorem level_le_seven (op : BinaryOp) : op.level ≤ 7 := by
  unfold BinaryOp.level
  split <;> decide

/-- What stands behind the left side of a comparison and belongs to it. -/
inductive Compares (left : Expr) : List Token → Expr → List Token → Prop
  | isEmpty {rest : List Token} :
      Compares left (.keyword .is_ :: .keyword .empty_ :: rest) (.unary .isEmpty left) rest
  | isNotEmpty {rest : List Token} :
      Compares left (.keyword .is_ :: .keyword .not_ :: .keyword .empty_ :: rest)
        (.unary .isNotEmpty left) rest
  | binary (op : BinaryOp) {right : Expr} {more rest : List Token} :
      op.level = 5 → Reads (chain .sum more) right rest →
      Compares left (op.tokens ++ more) (.binary op left right) rest
  | nothing {rest : List Token} : grip rest ≠ 5 → Compares left rest left rest

theorem reads_comparison {ts : List Token} {e : Expr} {rest : List Token} :
    Reads (comparison ts) e rest ↔
      ∃ left mid, Reads (chain .sum ts) left mid ∧ Compares left mid e rest := by
  rw [comparison, reads_bind]
  refine exists_congr fun left => exists_congr fun mid => and_congr_right fun hread => ?_
  rw [forall_prop_of_true hread.length_lt]
  dsimp only
  constructor
  · intro h
    split at h
    all_goals try simp only [reads_bind, reads_pure, reads_and_forall, exists_eq_right_right'] at h
    all_goals try simp only [reads_expect] at h
    case h_1 =>
      obtain ⟨_, rfl, rfl⟩ := h
      exact .isNotEmpty
    case h_2 =>
      obtain ⟨_, rfl, rfl⟩ := h
      exact .isEmpty
    case h_3 =>
      obtain ⟨right, hright, rfl⟩ := h
      exact .binary (.membership .isIn) rfl hright
    case h_4 =>
      obtain ⟨right, hright, rfl⟩ := h
      exact .binary (.membership .notIn) rfl hright
    case h_5 =>
      split at h
      · rename_i op hop
        obtain rfl := comparison?_eq_some_iff.mp hop
        simp only [reads_bind, reads_pure, reads_and_forall, exists_eq_right_right'] at h
        obtain ⟨right, hright, rfl⟩ := h
        exact .binary (.comparison op) rfl hright
      · -- No operator stands there, and none of the words that begin one.
        rename_i his hin hnotIn _ hnone
        obtain ⟨rfl, rfl⟩ := reads_pure.mp h
        refine .nothing fun hgrip => ?_
        rcases grip_eq_five hgrip with ⟨_, heq⟩ | ⟨_, heq⟩ | ⟨_, heq⟩ | ⟨op, _, heq⟩ <;>
          obtain ⟨rfl, rfl⟩ := List.cons.inj heq
        · exact his rfl
        · exact hin rfl
        · exact hnotIn _ hread.length_lt HEq.rfl rfl rfl
        · rw [comparison?_eq_some_iff.mpr rfl] at hnone
          cases hnone
    case h_6 =>
      obtain ⟨rfl, rfl⟩ := h
      exact .nothing (by decide)
  · intro h
    cases h with
    | isEmpty | isNotEmpty =>
        simp only [reads_bind, reads_pure, reads_and_forall, exists_eq_right_right']
        simp only [reads_expect]
        exact ⟨(), by simp⟩
    | @binary op right more _ hlevel hright =>
        have hcompared : ∃ x, Reads (chain .sum more) x rest ∧
            Expr.binary op left right = .binary op left x := ⟨right, hright, rfl⟩
        rcases op with (_ | _ | _ | _) | (_ | _ | _ | _ | _ | _) | (_ | _ | _) | (_ | _)
        case arithmetic.add | arithmetic.subtract | arithmetic.multiply | arithmetic.divide |
            connective.and | connective.or | connective.xor => cases hlevel
        all_goals
          simp only [BinaryOp.tokens, Comparison.token, List.cons_append, List.nil_append,
            comparison?, reads_bind, reads_pure, reads_and_forall, exists_eq_right_right']
          exact hcompared
    | nothing hgrip =>
        split
        · exact absurd rfl hgrip
        · exact absurd rfl hgrip
        · exact absurd rfl hgrip
        · exact absurd rfl hgrip
        · split
          · rename_i hop
            obtain rfl := comparison?_eq_some_iff.mp hop
            exact absurd (grip_tokens (.comparison _) _) hgrip
          · exact reads_pure.mpr ⟨rfl, rfl⟩
        · exact reads_pure.mpr ⟨rfl, rfl⟩

theorem reads_negative_minus {ts : List Token} {e : Expr} {rest : List Token} :
    Reads (negative (.symbol .minus :: ts)) e rest ↔
      ∃ x, Reads (negative ts) x rest ∧ e = .unary .minus x := by
  rw [negative]
  simp only [reads_bind, reads_pure, reads_and_forall, exists_eq_right_right']

theorem reads_negative_indexed {ts : List Token} {e : Expr} {rest : List Token}
    (hts : ts.head? ≠ some (.symbol .minus)) :
    Reads (negative ts) e rest ↔ Reads (indexed ts) e rest := by
  rw [negative]
  rintro more rfl
  exact hts rfl

theorem reads_indexed {ts : List Token} {e : Expr} {rest : List Token} :
    Reads (indexed ts) e rest ↔ ∃ first mid, Reads (primary ts) first mid ∧
      ∀ h, Reads (indexedRest ts.length first mid h) e rest := by
  rw [indexed, reads_bind]

theorem reads_indexedRest_bracket {bound : Nat} {left : Expr} {ts : List Token}
    {h : (.symbol .leftBracket :: ts).length < bound} {e : Expr} {rest : List Token} :
    Reads (indexedRest bound left (.symbol .leftBracket :: ts) h) e rest ↔ ∃ position mid,
      Reads (chain .disjunction ts) position (.symbol .rightBracket :: mid) ∧
      ∀ h, Reads (indexedRest bound (.index left position) mid h) e rest := by
  rw [indexedRest]
  simp only [reads_bind]
  simp only [reads_expect]
  constructor
  · rintro ⟨position, _, hread, h⟩
    obtain ⟨_, mid, rfl, h⟩ := h hread.length_lt
    exact ⟨position, mid, hread, fun _ => h (by simp)⟩
  · rintro ⟨position, mid, hread, h⟩
    exact ⟨position, _, hread, fun _ => ⟨(), mid, rfl, fun _ => h _⟩⟩

theorem reads_indexedRest_end {bound : Nat} {left : Expr} {ts : List Token}
    {h : ts.length < bound} {e : Expr} {rest : List Token}
    (hts : ts.head? ≠ some (.symbol .leftBracket)) :
    Reads (indexedRest bound left ts h) e rest ↔ e = left ∧ rest = ts := by
  rw [indexedRest, reads_ok]
  rintro more _ rfl
  exact absurd rfl hts

/-! ### Lists and blocks -/

/-- Behind the first item of a list stand a comma and the other items, or the closing symbol. -/
def GoesOn (close : Symbol) (others : (ts : List Token) → Outcome (List Expr) ts.length)
    (first : Expr) (ts : List Token) (es : List Expr) (rest : List Token) : Prop :=
  (∃ more fs, ts = .symbol .comma :: more ∧ Reads (others more) fs rest ∧ es = first :: fs) ∨
    ts = .symbol close :: rest ∧ es = [first]

theorem reads_list {close : Symbol} (hclose : close ≠ .comma) {ts : List Token} {es : List Expr}
    {rest : List Token} :
    Reads (list close ts) es rest ↔ ∃ first mid, Reads (chain .disjunction ts) first mid ∧
      GoesOn close (list close) first mid es rest := by
  rw [list, reads_bind]
  refine exists_congr fun first => exists_congr fun mid => and_congr_right fun hread => ?_
  rw [forall_prop_of_true hread.length_lt]
  unfold GoesOn
  dsimp only
  split
  · simp only [reads_bind, reads_pure, reads_and_forall, exists_eq_right_right']
    simp [hclose.symm]
  · rename_i hcomma
    simp only [reads_bind, reads_pure, reads_and_forall, exists_eq_right_right']
    simp only [reads_expect]
    constructor
    · rintro ⟨_, h⟩
      exact Or.inr h
    · rintro (⟨more, _, rfl, -⟩ | h)
      · exact absurd HEq.rfl (hcomma more hread.length_lt rfl)
      · exact ⟨(), h⟩

theorem reads_projection {ts : List Token} {es : List Expr} {rest : List Token} :
    Reads (projection ts) es rest ↔ ∃ first mid, Reads (element ts) first mid ∧
      GoesOn .rightBrace projection first mid es rest := by
  rw [projection, reads_bind]
  refine exists_congr fun first => exists_congr fun mid => and_congr_right fun hread => ?_
  rw [forall_prop_of_true hread.length_lt]
  unfold GoesOn
  dsimp only
  split
  · simp only [reads_bind, reads_pure, reads_and_forall, exists_eq_right_right']
    simp
  · rename_i hcomma
    simp only [reads_bind, reads_pure, reads_and_forall, exists_eq_right_right']
    simp only [reads_expect]
    constructor
    · rintro ⟨_, h⟩
      exact Or.inr h
    · rintro (⟨more, _, rfl, -⟩ | h)
      · exact absurd HEq.rfl (hcomma more hread.length_lt rfl)
      · exact ⟨(), h⟩

theorem reads_element_named {name : String} {ts : List Token} {e : Expr} {rest : List Token} :
    Reads (element (.name name :: .symbol .colon :: ts)) e rest ↔
      ∃ x, Reads (chain .disjunction ts) x rest ∧ e = .named name x := by
  rw [element]
  simp only [reads_bind, reads_pure, reads_and_forall, exists_eq_right_right']

theorem reads_element_plain {ts : List Token} {e : Expr} {rest : List Token}
    (hts : ∀ name more, ts ≠ .name name :: .symbol .colon :: more) :
    Reads (element ts) e rest ↔ Reads (chain .disjunction ts) e rest := by
  rw [element]
  exact hts

theorem reads_statement_assign {name : String} {ts : List Token} {e : Expr} {rest : List Token} :
    Reads (statement (.name name :: .symbol .assign :: ts)) e rest ↔
      ∃ x, Reads (chain .disjunction ts) x rest ∧ e = .assign name x := by
  rw [statement]
  simp only [reads_bind, reads_pure, reads_and_forall, exists_eq_right_right']

theorem reads_statement_plain {ts : List Token} {e : Expr} {rest : List Token}
    (hts : ∀ name more, ts ≠ .name name :: .symbol .assign :: more) :
    Reads (statement ts) e rest ↔ Reads (chain .disjunction ts) e rest := by
  rw [statement]
  exact hts

theorem exists_separators (ts : List Token) :
    ∃ n, ts = List.replicate n (.symbol .semicolon) ++ skipSeparators ts := by
  refine ⟨(ts.takeWhile (· == .symbol .semicolon)).length, ?_⟩
  have hall : ∀ t ∈ ts.takeWhile (· == .symbol .semicolon), t = .symbol .semicolon := fun t ht =>
    by simpa using List.mem_takeWhile_imp ht
  rw [← List.eq_replicate_of_mem hall]
  exact List.takeWhile_append_dropWhile.symm

theorem reads_block_end {terminator : Token} {others ts more : List Token} {t : Token}
    {es : List Expr} {last : Token} {rest : List Token} (hts : skipSeparators ts = t :: more)
    (ht : t = terminator ∨ t ∈ others) :
    Reads (block terminator others ts) (es, last) rest ↔ es = [] ∧ last = t ∧ rest = more := by
  rw [block]
  dsimp only
  split
  · rename_i hnil
    rw [hnil] at hts
    cases hts
  · rename_i heq
    rw [heq] at hts
    obtain ⟨rfl, rfl⟩ := List.cons.inj hts
    rw [if_pos ht, reads_ok, Prod.mk.injEq, and_assoc]

theorem reads_block_statement {terminator : Token} {others ts more : List Token} {t : Token}
    {es : List Expr} {last : Token} {rest : List Token} (hts : skipSeparators ts = t :: more)
    (ht : ¬(t = terminator ∨ t ∈ others)) :
    Reads (block terminator others ts) (es, last) rest ↔ ∃ first mid fs,
      Reads (statement (t :: more)) first mid ∧
      Reads (block terminator others mid) (fs, last) rest ∧ es = first :: fs := by
  rw [block]
  dsimp only
  split
  · rename_i hnil
    rw [hnil] at hts
    cases hts
  · rename_i heq
    rw [heq] at hts
    obtain ⟨rfl, rfl⟩ := List.cons.inj hts
    rw [if_neg ht]
    simp only [reads_bind, reads_pure, reads_and_forall, exists_eq_right_right']
    simp only [Prod.exists, Prod.mk.injEq]
    constructor
    · rintro ⟨first, mid, hfirst, fs, _, hblock, rfl, rfl⟩
      exact ⟨first, mid, fs, hfirst, hblock, rfl⟩
    · rintro ⟨first, mid, fs, hfirst, hblock, rfl⟩
      exact ⟨first, mid, hfirst, fs, last, hblock, rfl, rfl⟩

theorem not_reads_block_nil {terminator : Token} {others ts : List Token} {es : List Expr}
    {last : Token} {rest : List Token} (hts : skipSeparators ts = []) :
    ¬Reads (block terminator others ts) (es, last) rest := by
  rw [block]
  dsimp only
  split
  · exact reads_error
  · rename_i heq
    rw [heq] at hts
    cases hts

/-! ### Primary phrases -/

section Primary

variable {name : String} {ts : List Token} {e : Expr} {rest : List Token}

theorem reads_primary_constant {v : Literal} {t : Token} (ht : IsConstant v t) :
    Reads (primary (t :: ts)) e rest ↔ e = .literal v ∧ rest = ts := by
  cases ht with
  | number hnumber =>
      rw [primary]
      simp only [hnumber, reads_ok]
  | string | true_ | false_ => rw [primary, reads_ok]

theorem reads_primary_path :
    Reads (primary (.name name :: .symbol .dot :: ts)) e rest ↔
      ∃ fs, Reads (fields (.symbol .dot :: ts)) fs rest ∧ e = .path name fs := by
  rw [primary]
  simp only [reads_bind, reads_pure, reads_and_forall, exists_eq_right_right']

theorem reads_primary_noArguments :
    Reads (primary (.name name :: .symbol .leftParen :: .symbol .rightParen :: ts)) e rest ↔
      e = .call name [] ∧ rest = ts := by
  rw [primary, reads_ok]

theorem reads_primary_call (hts : ts.head? ≠ some (.symbol .rightParen)) :
    Reads (primary (.name name :: .symbol .leftParen :: ts)) e rest ↔
      ∃ es, Reads (list .rightParen ts) es rest ∧ e = .call name es := by
  rw [primary]
  · simp only [reads_bind, reads_pure, reads_and_forall, exists_eq_right_right']
  · rintro more rfl
    exact hts rfl

theorem reads_primary_var (hdot : ts.head? ≠ some (.symbol .dot))
    (hparen : ts.head? ≠ some (.symbol .leftParen)) :
    Reads (primary (.name name :: ts)) e rest ↔ e = .var name ∧ rest = ts := by
  rw [primary, reads_ok]
  · rintro more rfl
    exact hdot rfl
  · rintro more rfl
    exact hparen rfl
  · rintro more rfl
    exact hparen rfl

theorem reads_primary_noElements :
    Reads (primary (.symbol .leftParen :: .symbol .rightParen :: ts)) e rest ↔
      e = .vector [] ∧ rest = ts := by
  rw [primary, reads_ok]

theorem reads_primary_paren (hts : ts.head? ≠ some (.symbol .rightParen)) :
    Reads (primary (.symbol .leftParen :: ts)) e rest ↔
      ∃ first mid, Reads (chain .disjunction ts) first mid ∧
        ((∃ more es, mid = .symbol .comma :: more ∧ Reads (list .rightParen more) es rest ∧
            e = .vector (first :: es)) ∨
          mid = .symbol .rightParen :: rest ∧ e = first) := by
  rw [primary]
  · rw [reads_bind]
    refine exists_congr fun first => exists_congr fun mid => and_congr_right fun hread => ?_
    rw [forall_prop_of_true hread.length_lt]
    dsimp only
    split
    · simp only [reads_bind, reads_pure, reads_and_forall, exists_eq_right_right']
      simp
    · rename_i hcomma
      simp only [reads_bind, reads_pure, reads_and_forall, exists_eq_right_right']
      simp only [reads_expect]
      constructor
      · rintro ⟨_, h⟩
        exact Or.inr h
      · rintro (⟨more, _, rfl, -⟩ | h)
        · exact absurd HEq.rfl (hcomma more hread.length_lt rfl)
        · exact ⟨(), h⟩
  · rintro more rfl
    exact hts rfl

theorem reads_primary_if :
    Reads (primary (.keyword .if_ :: ts)) e rest ↔
      ∃ c us thens last vs, Reads (chain .disjunction ts) c (.keyword .then_ :: us) ∧
        Reads (block (.keyword .else_) [.keyword .endIf_] us) (thens, last) vs ∧
        ((last = .keyword .else_ ∧ ∃ elses last',
            Reads (block (.keyword .endIf_) [] vs) (elses, last') rest ∧
            e = .ifElse c (.sequence thens) (some (.sequence elses))) ∨
          last ≠ .keyword .else_ ∧ rest = vs ∧ e = .ifElse c (.sequence thens) none) := by
  rw [primary]
  simp only [reads_bind]
  simp only [reads_expect]
  constructor
  · rintro ⟨c, us, hc, h⟩
    obtain ⟨_, us, rfl, h⟩ := h hc.length_lt
    obtain ⟨⟨thens, last⟩, vs, hthens, h⟩ := h (by simp)
    refine ⟨c, us, thens, last, vs, hc, hthens, ?_⟩
    replace h := h hthens.length_lt
    split at h
    · rename_i hlast
      simp only [reads_bind, reads_pure, reads_and_forall, exists_eq_right_right'] at h
      obtain ⟨⟨elses, last'⟩, helses, rfl⟩ := h
      exact Or.inl ⟨hlast, elses, last', helses, rfl⟩
    · rename_i hlast
      rw [reads_pure] at h
      exact Or.inr ⟨hlast, h.2, h.1⟩
  · rintro ⟨c, us, thens, last, vs, hc, hthens, h⟩
    refine ⟨c, _, hc, fun _ => ⟨(), us, rfl, fun _ => ⟨(thens, last), vs, hthens, fun _ => ?_⟩⟩⟩
    rcases h with ⟨rfl, elses, last', helses, rfl⟩ | ⟨hlast, rfl, rfl⟩
    · simp only [if_pos, reads_bind, reads_pure, reads_and_forall, exists_eq_right_right']
      exact ⟨(elses, last'), helses, rfl⟩
    · rw [if_neg hlast, reads_pure]
      exact ⟨rfl, rfl⟩

theorem reads_primary_project :
    Reads (primary (.keyword .project_ :: ts)) e rest ↔
      ∃ us es mid, ts = .symbol .leftBrace :: us ∧ Reads (projection us) es mid ∧
        ((∃ more f, mid = .keyword .where_ :: more ∧ Reads (chain .disjunction more) f rest ∧
            e = .project es (some f)) ∨
          mid.head? ≠ some (.keyword .where_) ∧ rest = mid ∧ e = .project es none) := by
  rw [primary]
  simp only [reads_bind]
  simp only [reads_expect]
  constructor
  · rintro ⟨_, us, rfl, h⟩
    obtain ⟨es, mid, hes, h⟩ := h (by simp)
    refine ⟨us, es, mid, rfl, hes, ?_⟩
    replace h := h hes.length_lt
    split at h
    · simp only [reads_bind, reads_pure, reads_and_forall, exists_eq_right_right'] at h
      obtain ⟨f, hf, rfl⟩ := h
      exact Or.inl ⟨_, f, rfl, hf, rfl⟩
    · rename_i hwhere
      rw [reads_pure] at h
      refine Or.inr ⟨fun hhead => ?_, h.2, h.1⟩
      obtain ⟨more, rfl⟩ := List.head?_eq_some_iff.mp hhead
      exact hwhere more hes.length_lt rfl HEq.rfl
  · rintro ⟨us, es, mid, rfl, hes, h⟩
    refine ⟨(), us, rfl, fun _ => ⟨es, mid, hes, fun _ => ?_⟩⟩
    rcases h with ⟨more, f, rfl, hf, rfl⟩ | ⟨hwhere, rfl, rfl⟩
    · simp only [reads_bind, reads_pure, reads_and_forall, exists_eq_right_right']
      exact ⟨f, hf, rfl⟩
    · split
      · exact absurd rfl hwhere
      · rw [reads_pure]
        exact ⟨rfl, rfl⟩

end Primary

/-! ### The whole -/

theorem wholeExpression_eq_ok_iff {ts : List Token} {e : Expr} :
    wholeExpression ts = .ok e ↔
      ∃ rest, Reads (chain .disjunction ts) e rest ∧ skipSeparators rest = [] := by
  unfold wholeExpression expression
  cases hread : chain .disjunction ts with
  | error failure => simp [Reads, bind, Except.bind]
  | ok p =>
      obtain ⟨x, rest, hlt⟩ := p
      simp only [reads_ok, bind, Except.bind]
      split
      · rename_i hnil
        constructor
        · intro h
          obtain rfl : x = e := Except.ok.inj h
          exact ⟨rest, ⟨rfl, rfl⟩, hnil⟩
        · rintro ⟨_, ⟨rfl, rfl⟩, -⟩
          rfl
      · rename_i hcons
        constructor
        · intro h
          cases h
        · rintro ⟨_, ⟨rfl, rfl⟩, hnil⟩
          rw [hnil] at hcons
          cases hcons

end FrameLang.Grammar
