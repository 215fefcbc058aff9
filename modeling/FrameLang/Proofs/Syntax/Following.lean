/-
Walks that follow the grammar.

A walk is looked at where it begins.  What is to be said of it is how it ends: at which position,
which is never behind the end mark nor in front of where it began, and with which result.  `Follows`
says that the grammar, given the tokens from there on, has the same phrase and leaves the same
tokens, or has the same error; and walks that follow the grammar can be put together as the parts of
the grammar are (`Follows.bind`).

Two kinds of walk stop earlier than the grammar does.  A list is read without the symbol that closes
it, and statements are read without their terminator.  For these it is said what is left to do.
-/
import FrameLang.Proofs.Syntax.Cursor

namespace FrameLang.Input

open Grammar (Chain Outcome Parsed)
open Walk (nextRound)

variable {α β γ : Type} {all ts rest : List Token} {rounds p q m n : Nat}

/-! ### Positions -/

/-- These tokens, and then the end mark, stand behind the position. -/
structure At (all : List Token) (p : Nat) (ts : List Token) : Prop where
  le : p ≤ all.length
  drop : all.drop p = ts

namespace At

theorem length (h : At all p ts) : p + ts.length = all.length := by
  have hle := h.le
  rw [← h.drop, List.length_drop]
  omega

theorem succ {t : Token} (h : At all p (t :: ts)) : At all (p + 1) ts where
  le := by
    have hlength := h.length
    rw [List.length_cons] at hlength
    omega
  drop := by rw [← List.tail_drop, h.drop, List.tail_cons]

theorem current_eq (h : At all p ts) : (marked all rounds).tokens[p]?.join = ts.head? := by
  rw [← h.drop, List.head?_drop, marked, Token.marked]
  rcases Nat.lt_or_eq_of_le h.le with hlt | rfl
  · rw [List.getElem?_append_left (by simpa using hlt), List.getElem?_map,
      List.getElem?_eq_getElem hlt]
    rfl
  · simp

theorem next_eq (h : At all p ts) : (marked all rounds).tokens[p + 1]?.join = ts.tail.head? := by
  cases ts with
  | cons t ts => exact h.succ.current_eq
  | nil =>
      have hlength := h.length
      rw [List.getElem?_eq_none]
      · rfl
      · simp [marked, Token.marked, ← hlength]

theorem lt_rounds (hrounds : all.length < rounds) (h : At all p ts) :
    ts.length < rounds := by
  have hlength := h.length
  omega

end At

theorem head?_ne {t : Token} (h : ∀ more, ts ≠ t :: more) : ts.head? ≠ some t := fun hhead => by
  obtain ⟨more, heq⟩ := List.head?_eq_some_iff.mp hhead
  exact h more heq

/-! ### Steps of a walk -/

theorem bind_ok {w : Walk α} {a : α} (h : w p = some (.ok a, q)) (f : α → Walk β) :
    (w >>= f) p = f a q := by
  change (w p).bind _ = _
  rw [h]
  rfl

theorem bind_error {w : Walk α} {e : SyntaxError} (h : w p = some (.error e, q)) (f : α → Walk β) :
    (w >>= f) p = some (.error e, q) := by
  change (w p).bind _ = _
  rw [h]
  rfl

theorem current_bind (h : At all p ts) (f : Option Token → Walk α) :
    (current (marked all rounds) >>= f) p = f ts.head? p := by
  rw [← h.current_eq]
  rfl

theorem next_bind (h : At all p ts) (f : Option Token → Walk α) :
    (next (marked all rounds) >>= f) p = f ts.tail.head? p := by
  rw [← h.next_eq]
  rfl

theorem advance_eq {t : Token} (h : At all p (t :: ts)) :
    advance (marked all rounds) p = some (.ok (), p + 1) := by
  have hlt : p + 1 < (marked all rounds).tokens.length := by
    have hlength := h.length
    rw [List.length_cons] at hlength
    rw [marked, Token.marked, List.length_append, List.length_map, List.length_singleton]
    omega
  have hmove : (if p + 1 < (marked all rounds).tokens.length then p + 1 else p) = p + 1 :=
    if_pos hlt
  exact congrArg (fun q => some (Except.ok (), q)) hmove

theorem advance_bind {t : Token} (h : At all p (t :: ts)) (f : Unit → Walk α) :
    (advance (marked all rounds) >>= f) p = f () (p + 1) :=
  bind_ok (advance_eq h) f

/-- How a walk from a position ends, if it does: not further back, and not beyond the end mark. -/
inductive Ends (all : List Token) (p : Nat) (run : Option (Except SyntaxError α × Nat))
    (ok : α → Nat → Prop) (error : SyntaxError → Prop) : Prop
  | ok {a : α} {q : Nat} : run = some (.ok a, q) → p ≤ q → q ≤ all.length → ok a q →
      Ends all p run ok error
  | error {e : SyntaxError} {q : Nat} : run = some (.error e, q) → p ≤ q → q ≤ all.length →
      error e → Ends all p run ok error

namespace Ends

variable {run : Option (Except SyntaxError α × Nat)} {ok : α → Nat → Prop}
  {ok' : β → Nat → Prop} {error error' : SyntaxError → Prop}

theorem of_le (h : Ends all q run ok error) (hpq : p ≤ q) : Ends all p run ok error := by
  cases h with
  | ok hrun hle hend hok => exact .ok hrun (Nat.le_trans hpq hle) hend hok
  | error hrun hle hend herror => exact .error hrun (Nat.le_trans hpq hle) hend herror

theorem bind {w : Walk α} {f : α → Walk β} (hw : Ends all p (w p) ok error)
    (hok : ∀ a q, p ≤ q → q ≤ all.length → ok a q → Ends all q (f a q) ok' error')
    (herror : ∀ e, error e → error' e) : Ends all p ((w >>= f) p) ok' error' := by
  cases hw with
  | ok hrun hle hend ha =>
      rw [bind_ok hrun]
      exact (hok _ _ hle hend ha).of_le hle
  | error hrun hle hend he => exact .error (bind_error hrun f) hle hend (herror _ he)

end Ends

/-- The walk ends with the grammar's error, or without one, and then in the way that `post` tells
from what the grammar has. -/
def Matches (all : List Token) (post : Except SyntaxError β → α → Nat → Prop) (p : Nat)
    (run : Option (Except SyntaxError α × Nat)) (g : Except SyntaxError β) : Prop :=
  Ends all p run (post g) fun e => g = .error e

/-- The walk ends as the grammar has it: with its phrase and in front of the tokens that it leaves,
or with its error. -/
abbrev Follows (all : List Token) (p : Nat) (run : Option (Except SyntaxError α × Nat))
    (g : Outcome α n) : Prop :=
  Matches all (fun g a q => ∃ rest h, At all q rest ∧ g = .ok ⟨a, rest, h⟩) p run g

theorem Matches.of_le {post : Except SyntaxError β → α → Nat → Prop}
    {run : Option (Except SyntaxError α × Nat)} {g : Except SyntaxError β}
    (h : Matches all post q run g) (hpq : p ≤ q) : Matches all post p run g :=
  Ends.of_le h hpq

theorem follows_pure (h : At all p rest) {a : α} (hlt : rest.length < n) :
    Follows all p ((pure a : Walk α) p) (.ok ⟨a, rest, hlt⟩ : Outcome α n) :=
  .ok rfl (Nat.le_refl _) h.le ⟨rest, hlt, h, rfl⟩

theorem matches_throw {post : Except SyntaxError β → α → Nat → Prop} (hle : p ≤ all.length)
    (e : SyntaxError) : Matches all post p ((throw e : Walk α) p) (.error e) :=
  .error rfl (Nat.le_refl _) hle rfl

/-- What comes behind a phrase goes on where the phrase ended. -/
theorem Follows.bind {w : Walk α} {f : α → Walk β} {g : Outcome α m}
    {k : Parsed α m → Except SyntaxError γ} {post : Except SyntaxError γ → β → Nat → Prop}
    (hw : Follows all p (w p) g)
    (hf : ∀ a q rest h, At all q rest → Matches all post q (f a q) (k ⟨a, rest, h⟩)) :
    Matches all post p ((w >>= f) p) (g >>= k) := by
  refine Ends.bind hw ?_ ?_
  · rintro a q - - ⟨rest, h, hrest, rfl⟩
    exact hf a q rest h hrest
  · rintro e rfl
    rfl

theorem Follows.error_bind {w : Walk α} {e : SyntaxError}
    (hw : Follows all p (w p) (.error e : Outcome α m)) {f : α → Walk β} :
    Follows all p ((w >>= f) p) (.error e : Outcome β n) :=
  Ends.bind hw (fun _ _ _ _ ⟨_, _, _, hok⟩ => nomatch hok) fun _ he => by cases he; rfl

theorem matches_advance {t : Token} (h : At all p (t :: ts)) {f : Unit → Walk α}
    {post : Except SyntaxError β → α → Nat → Prop} {g : Except SyntaxError β}
    (hf : Matches all post (p + 1) (f () (p + 1)) g) :
    Matches all post p ((advance (marked all rounds) >>= f) p) g := by
  rw [advance_bind h]
  exact hf.of_le (Nat.le_succ p)

/-! ### Tokens -/

theorem expect_bind {t : Token} (hat : At all p (t :: ts)) (f : Unit → Walk α) :
    (expect (marked all rounds) t >>= f) p = f () (p + 1) := by
  refine bind_ok ?_ f
  rw [expect, current_bind hat, List.head?_cons, if_pos rfl, advance_eq hat]

theorem expectName_bind {text : String} (hat : At all p (.name text :: ts)) (f : String → Walk α) :
    (expectName (marked all rounds) >>= f) p = f text (p + 1) := by
  refine bind_ok ?_ f
  rw [expectName, current_bind hat, List.head?_cons]
  dsimp only
  rw [advance_bind hat]
  rfl

theorem follows_expect (hat : At all p ts) (t : Token) :
    Follows all p (expect (marked all rounds) t p) (Grammar.expect t ts) := by
  rw [expect, current_bind hat]
  cases ts with
  | nil => exact matches_throw hat.le _
  | cons s rest =>
      rw [List.head?_cons, Grammar.expect]
      by_cases hs : s = t
      · rw [if_pos hs, if_pos (congrArg some hs), advance_eq hat]
        exact .ok rfl (Nat.le_succ p) hat.succ.le ⟨rest, by simp, hat.succ, rfl⟩
      · rw [if_neg hs, if_neg (fun h => hs (Option.some.inj h))]
        exact matches_throw hat.le _

theorem follows_expectName (hat : At all p ts) :
    Follows all p (expectName (marked all rounds) p) (Grammar.expectName ts) := by
  rw [expectName, current_bind hat]
  cases ts with
  | nil => exact matches_throw hat.le _
  | cons t rest =>
      cases t with
      | name text =>
          rw [List.head?_cons, Grammar.expectName]
          dsimp only
          rw [advance_bind hat]
          exact (follows_pure hat.succ (by simp)).of_le (Nat.le_succ p)
      | number | string | keyword | symbol => exact matches_throw hat.le _

/-! ### Loops over tokens -/

theorem nextRound_bind {r : Nat} (hr : n < r) (f : Nat → Walk α) :
    (nextRound r >>= f) = f (r - 1) := by
  cases r with
  | zero => exact absurd hr (Nat.not_lt_zero n)
  | succ r => exact pure_bind r f

theorem ends_skipSeparators {r : Nat} (hat : At all p ts) (hr : ts.length < r) :
    Ends all p (skipSeparators (marked all rounds) r p)
      (fun _ q => At all q (Grammar.skipSeparators ts)) fun _ => False := by
  induction ts generalizing p r with
  | nil =>
      rw [skipSeparators, current_bind hat]
      exact .ok rfl (Nat.le_refl _) hat.le hat
  | cons t ts ih =>
      rw [skipSeparators, current_bind hat, List.head?_cons]
      by_cases ht : t = .symbol .semicolon
      · have hskip : Grammar.skipSeparators (t :: ts) = Grammar.skipSeparators ts := by
          simp [Grammar.skipSeparators, ht]
        rw [if_pos (congrArg some ht), nextRound_bind hr, advance_bind hat, hskip]
        exact (ih hat.succ (Nat.lt_pred_of_succ_lt hr)).of_le (Nat.le_succ p)
      · have hskip : Grammar.skipSeparators (t :: ts) = t :: ts := by
          simp [Grammar.skipSeparators, ht]
        rw [if_neg (fun h => ht (Option.some.inj h)), hskip]
        exact .ok rfl (Nat.le_refl _) hat.le hat

/-- A separator in the place of the end mark is one that a cursor stays on for ever. -/
theorem skipSeparators_unmarked {input : Input} (hlast : p + 1 = input.tokens.length)
    (hseparator : input.tokens[p]? = some (some (.symbol .semicolon))) (r : Nat) :
    input.skipSeparators r p = none := by
  have hcurrent (f : Option Token → Walk Unit) :
      (input.current >>= f) p = f (some (.symbol .semicolon)) p := by
    change f input.tokens[p]?.join p = _
    rw [hseparator]
    rfl
  have hstay (f : Unit → Walk Unit) : (input.advance >>= f) p = f () p := by
    change f () (if p + 1 < input.tokens.length then p + 1 else p) = _
    rw [if_neg (by omega)]
  induction r with
  | zero =>
      rw [skipSeparators, hcurrent, if_pos rfl]
      rfl
  | succ r ih =>
      rw [skipSeparators, hcurrent, if_pos rfl]
      exact (hstay fun _ => input.skipSeparators r).trans ih

theorem matches_skipSeparators {r : Nat} (hat : At all p ts) (hr : ts.length < r)
    {f : Unit → Walk α} {post : Except SyntaxError β → α → Nat → Prop} {g : Except SyntaxError β}
    (hf : ∀ q, At all q (Grammar.skipSeparators ts) → Matches all post q (f () q) g) :
    Matches all post p ((skipSeparators (marked all rounds) r >>= f) p) g :=
  Ends.bind (ends_skipSeparators hat hr) (fun _ q _ _ h => hf q h) nofun

theorem follows_fields {r : Nat} (hat : At all p ts) (hr : ts.length < r) :
    Follows all p (fields (marked all rounds) r p) (Grammar.fields ts) := by
  induction ts using Grammar.fields.induct generalizing p r with
  | case1 field ts ih =>
      rw [fields, current_bind hat, List.head?_cons, if_pos rfl, nextRound_bind hr,
        advance_bind hat, expectName_bind hat.succ, Grammar.fields]
      have hr' : ts.length < r - 1 := by simp at hr; omega
      refine ((ih hat.succ.succ hr').bind ?_).of_le (by omega)
      intro more q rest h hrest
      exact follows_pure hrest _
  | case2 ts hname =>
      have hfields : Grammar.fields (.symbol .dot :: ts) = .error (.expectedName ts.head?) := by
        rw [Grammar.fields]
        exact hname
      have hfound : Grammar.expectName ts = .error (.expectedName ts.head?) := by
        rw [Grammar.expectName]
        exact hname
      rw [fields, current_bind hat, List.head?_cons, if_pos rfl, nextRound_bind hr,
        advance_bind hat, hfields]
      exact (hfound ▸ follows_expectName hat.succ).error_bind.of_le (Nat.le_succ p)
  | case3 ts hname hdot =>
      have hfields : Grammar.fields ts = .ok ⟨[], ts, by simp⟩ := by
        rw [Grammar.fields]
        · exact hname
        · exact hdot
      rw [fields, current_bind hat, if_neg (head?_ne hdot), hfields]
      exact follows_pure hat _

theorem follows_names {r : Nat} (hat : At all p ts) (hr : ts.length < r) :
    Follows all p (names (marked all rounds) r p) (Grammar.names ts) := by
  induction ts using Grammar.names.induct generalizing p r with
  | case1 name ts ih =>
      rw [names, nextRound_bind hr, expectName_bind hat, current_bind hat.succ, List.head?_cons,
        if_pos rfl, advance_bind hat.succ, Grammar.names]
      have hr' : ts.length < r - 1 := by simp at hr; omega
      refine ((ih hat.succ.succ hr').bind ?_).of_le (by omega)
      intro more q rest h hrest
      exact follows_pure hrest _
  | case2 name ts hcomma =>
      have hnames : Grammar.names (.name name :: ts) = .ok ⟨[name], ts, by simp⟩ := by
        rw [Grammar.names]
        exact hcomma
      rw [names, nextRound_bind hr, expectName_bind hat, current_bind hat.succ,
        if_neg (head?_ne hcomma), hnames]
      exact (follows_pure hat.succ _).of_le (Nat.le_succ p)
  | case3 ts hcomma hname =>
      have hnames : Grammar.names ts = .error (.expectedName ts.head?) := by
        rw [Grammar.names]
        · exact hcomma
        · exact hname
      have hfound : Grammar.expectName ts = .error (.expectedName ts.head?) := by
        rw [Grammar.expectName]
        exact hname
      rw [names, nextRound_bind hr, hnames]
      exact (hfound ▸ follows_expectName hat).error_bind

/-! ### Lists and statements -/

/-- How a list ends: what is left to do is to find the token that closes it, and doing so gives what
the grammar has for the list and that token. -/
abbrev Closes (all : List Token) (rounds : Nat) (close : Token) (p : Nat)
    (run : Option (Except SyntaxError (List Expr) × Nat)) (g : Outcome (List Expr) n) : Prop :=
  Matches all (fun g es q =>
    Follows all q ((expect (marked all rounds) close >>= fun _ => pure es) q) g) p run g

/-- How statements end: in front of a terminator, which the grammar takes too. -/
abbrev Terminates (all : List Token) (terminator : Token) (others : List Token) (p : Nat)
    (run : Option (Except SyntaxError (List Expr) × Nat)) (g : Outcome (List Expr × Token) n) :
    Prop :=
  Matches all (fun g es q => ∃ t rest h, At all q (t :: rest) ∧ (t = terminator ∨ t ∈ others) ∧
    g = .ok ⟨(es, t), rest, h⟩) p run g

/-- What comes behind the closing token goes on from a walk that only finds it. -/
theorem expect_pure_bind (close : Token) (a : α) (f : α → Walk β) :
    ((expect (marked all rounds) close >>= fun _ => pure a) >>= f) =
      expect (marked all rounds) close >>= fun _ => f a := by
  rw [bind_assoc]
  rfl

theorem closes_last {close : Token} (hat : At all p ts) {e : Expr}
    {k : Parsed Unit ts.length → Outcome (List Expr) n}
    (hk : ∀ rest h, ∃ h', k ⟨(), rest, h⟩ = .ok ⟨[e], rest, h'⟩) :
    Closes all rounds close p ((pure [e] : Walk (List Expr)) p)
      (Grammar.expect close ts >>= k) := by
  refine .ok rfl (Nat.le_refl _) hat.le ((follows_expect hat close).bind fun _ q rest h hrest => ?_)
  obtain ⟨h', heq⟩ := hk rest h
  rw [heq]
  exact follows_pure hrest h'

theorem closes_cons {close : Token} {w : Walk (List Expr)} {g : Outcome (List Expr) m}
    (hw : Closes all rounds close p (w p) g) {e : Expr}
    {k : Parsed (List Expr) m → Outcome (List Expr) n}
    (hk : ∀ es rest h, ∃ h', k ⟨es, rest, h⟩ = .ok ⟨e :: es, rest, h'⟩) :
    Closes all rounds close p ((w >>= fun es => pure (e :: es)) p) (g >>= k) := by
  refine Ends.bind hw (fun es q _ hle hes => .ok rfl (Nat.le_refl _) hle ?_) fun e he => ?_
  · have hcons : Follows all q (((expect (marked all rounds) close >>= fun _ => pure es) >>=
        fun es => pure (e :: es)) q) (g >>= k) := by
      refine hes.bind fun es' q' rest h hrest => ?_
      obtain ⟨h', heq⟩ := hk es' rest h
      rw [heq]
      exact follows_pure hrest h'
    rw [expect_pure_bind] at hcons
    exact hcons
  · rw [he]
    rfl

/-- A list is closed where a phrase behind it goes on. -/
theorem Closes.bind {close : Token} {w : Walk (List Expr)} {g : Outcome (List Expr) m}
    (hw : Closes all rounds close p (w p) g) {f : List Expr → Walk β}
    {k : Parsed (List Expr) m → Outcome β n}
    (hf : ∀ es q rest h, At all q rest → Follows all q (f es q) (k ⟨es, rest, h⟩)) :
    Follows all p ((w >>= fun es => expect (marked all rounds) close >>= fun _ => f es) p)
      (g >>= k) := by
  refine Ends.bind hw (fun es q _ hle hes => ?_) fun e he => ?_
  · rw [← expect_pure_bind close es f]
    exact hes.bind hf
  · rw [he]
    rfl

/-- What comes behind statements goes on in front of their terminator. -/
theorem Terminates.bind {terminator : Token} {others : List Token} {w : Walk (List Expr)}
    {f : List Expr → Walk β} {g : Outcome (List Expr × Token) m}
    {k : Parsed (List Expr × Token) m → Except SyntaxError γ}
    {post : Except SyntaxError γ → β → Nat → Prop}
    (hw : Terminates all terminator others p (w p) g)
    (hf : ∀ es t q rest h, At all q (t :: rest) → t = terminator ∨ t ∈ others →
      Matches all post q (f es q) (k ⟨(es, t), rest, h⟩)) :
    Matches all post p ((w >>= f) p) (g >>= k) := by
  refine Ends.bind hw ?_ ?_
  · rintro es q - - ⟨t, rest, h, hrest, ht, rfl⟩
    exact hf es t q rest h hrest ht
  · rintro e rfl
    rfl

end FrameLang.Input
