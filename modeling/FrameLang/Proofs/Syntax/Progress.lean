/-
A cursor gets on.

Wherever a walk begins, it follows the grammar.  As the grammar leaves fewer tokens than it is
given, a walk that finds a phrase has moved forward; and as it leaves tokens that are there, no walk
passes the end mark.

Both are proved at once, by induction on the number of tokens in front of the walk (`Faithful`):
each walk goes as its parts go, and a part that begins later has fewer tokens in front of it.  A
loop has enough rounds if it has more of them than there are such tokens, since a round takes one of
the former and at least one of the latter.
-/
import FrameLang.Proofs.Syntax.Following
import FrameLang.Proofs.Syntax.Layout
import FrameLang.Proofs.Syntax.Parts

namespace FrameLang.Input

open Grammar (Chain Outcome Parsed)

variable {α : Type} {all ts rest : List Token} {rounds p q m n : Nat}

/-! ### Expressions -/

/-- Walks follow the grammar in front of fewer than `n` tokens. -/
structure Faithful (all : List Token) (rounds n : Nat) : Prop where
  chain {p : Nat} {ts : List Token} (hat : At all p ts) (hlt : ts.length < n) (c : Chain) :
    Follows all p (chain (marked all rounds) c p) (Grammar.chain c ts)
  chainRest {p : Nat} {ts : List Token} (hat : At all p ts) (hlt : ts.length < n) (c : Chain)
      (left : Expr) {r : Nat} (hr : ts.length < r) {bound : Nat} (within : ts.length < bound) :
    Follows all p (chainRest (marked all rounds) c left r p)
      (Grammar.chainRest c bound left ts within)
  operand {p : Nat} {ts : List Token} (hat : At all p ts) (hlt : ts.length < n) (c : Chain) :
    Follows all p (operand (marked all rounds) c p) (Grammar.operand c ts)
  negation {p : Nat} {ts : List Token} (hat : At all p ts) (hlt : ts.length < n) :
    Follows all p (negation (marked all rounds) p) (Grammar.negation ts)
  negative {p : Nat} {ts : List Token} (hat : At all p ts) (hlt : ts.length < n) :
    Follows all p (negative (marked all rounds) p) (Grammar.negative ts)
  indexedRest {p : Nat} {ts : List Token} (hat : At all p ts) (hlt : ts.length < n)
      (left : Expr) {r : Nat} (hr : ts.length < r) {bound : Nat} (within : ts.length < bound) :
    Follows all p (indexedRest (marked all rounds) left r p)
      (Grammar.indexedRest bound left ts within)
  list {p : Nat} {ts : List Token} (hat : At all p ts) (hlt : ts.length < n) {r : Nat}
      (hr : ts.length < r) (close : Symbol) :
    Closes all rounds (.symbol close) p (list (marked all rounds) r p) (Grammar.list close ts)
  elements {p : Nat} {ts : List Token} (hat : At all p ts) (hlt : ts.length < n) {r : Nat}
      (hr : ts.length < r) :
    Closes all rounds (.symbol .rightBrace) p (elements (marked all rounds) r p)
      (Grammar.projection ts)
  statements {p : Nat} {ts : List Token} (hat : At all p ts) (hlt : ts.length < n) {r : Nat}
      (hr : ts.length < r) (terminator : Token) (others : List Token) :
    Terminates all terminator others p (statements (marked all rounds) terminator others r p)
      (Grammar.block terminator others ts)

section Expressions

variable (ih : Faithful all rounds ts.length)

include ih

theorem follows_chainRest (hat : At all p ts) (c : Chain) (left : Expr) {r : Nat}
    (hr : ts.length < r) {bound : Nat} (within : ts.length < bound) :
    Follows all p (chainRest (marked all rounds) c left r p)
      (Grammar.chainRest c bound left ts within) := by
  cases ts with
  | nil =>
      rw [chainRest, Grammar.chainRest, current_bind hat]
      exact follows_pure hat within
  | cons t more =>
      rw [chainRest, Grammar.chainRest, current_bind hat, List.head?_cons, Option.bind_some]
      cases c.operator? t with
      | none => exact follows_pure hat within
      | some op =>
          dsimp only
          rw [nextRound_bind hr]
          refine matches_advance hat ?_
          refine (ih.operand hat.succ (by simp) c).bind fun right q rest h hrest => ?_
          rw [List.length_cons] at hr
          exact ih.chainRest hrest (by simp; omega) c _ (by omega) _

theorem follows_indexedRest (hat : At all p ts) (left : Expr) {r : Nat} (hr : ts.length < r)
    {bound : Nat} (within : ts.length < bound) :
    Follows all p (indexedRest (marked all rounds) left r p)
      (Grammar.indexedRest bound left ts within) := by
  rw [indexedRest, current_bind hat]
  by_cases hbracket : ts.head? = some (.symbol .leftBracket)
  · obtain ⟨more, rfl⟩ := List.head?_eq_some_iff.mp hbracket
    rw [if_pos hbracket, nextRound_bind hr, Grammar.indexedRest]
    refine matches_advance hat ?_
    refine (ih.chain hat.succ (by simp) .disjunction).bind fun position q rest h hrest => ?_
    refine (follows_expect hrest _).bind fun _ q' rest' h' hrest' => ?_
    rw [List.length_cons] at hr
    exact ih.indexedRest hrest' (by simp; omega) _ (by omega) _
  · have hend : Grammar.indexedRest bound left ts within = .ok ⟨left, ts, within⟩ := by
      rw [Grammar.indexedRest]
      rintro more _ rfl
      exact absurd rfl hbracket
    rw [if_neg hbracket, hend]
    exact follows_pure hat within

/-! ### Lists, statements and elements -/

theorem closes_list {r : Nat} (hr : ts.length < r)
    (hfirst : Follows all p (chain (marked all rounds) .disjunction p)
      (Grammar.chain .disjunction ts)) (close : Symbol) :
    Closes all rounds (.symbol close) p (list (marked all rounds) r p) (Grammar.list close ts) := by
  rw [list, nextRound_bind hr, Grammar.list]
  refine hfirst.bind fun first q rest h hrest => ?_
  dsimp only
  split
  · rename_i more h
    rw [current_bind hrest, List.head?_cons, if_pos rfl]
    refine matches_advance hrest ?_
    exact closes_cons (ih.list hrest.succ (by grind) (by grind) close) fun _ _ _ => ⟨_, rfl⟩
  · rename_i hcomma
    have hhead : rest.head? ≠ some (.symbol .comma) := head?_ne fun left heq =>
      hcomma left (heq ▸ h) heq (proof_irrel_heq _ _)
    rw [current_bind hrest, if_neg hhead]
    exact closes_last hrest fun _ _ => ⟨_, rfl⟩

theorem closes_elements {r : Nat} (hr : ts.length < r)
    (hfirst : Follows all p (element (marked all rounds) p) (Grammar.element ts)) :
    Closes all rounds (.symbol .rightBrace) p (elements (marked all rounds) r p)
      (Grammar.projection ts) := by
  rw [elements, nextRound_bind hr, Grammar.projection]
  refine hfirst.bind fun first q rest h hrest => ?_
  dsimp only
  split
  · rename_i more h
    rw [current_bind hrest, List.head?_cons, if_pos rfl]
    refine matches_advance hrest ?_
    exact closes_cons (ih.elements hrest.succ (by grind) (by grind)) fun _ _ _ => ⟨_, rfl⟩
  · rename_i hcomma
    have hhead : rest.head? ≠ some (.symbol .comma) := head?_ne fun left heq =>
      hcomma left (heq ▸ h) heq (proof_irrel_heq _ _)
    rw [current_bind hrest, if_neg hhead]
    exact closes_last hrest fun _ _ => ⟨_, rfl⟩

theorem terminates_statements (hat : At all p ts) (hrounds : all.length < rounds) {r : Nat}
    (hr : ts.length < r)
    (hstatement : ∀ {q us}, At all q us → us.length ≤ ts.length →
      Follows all q (statement (marked all rounds) q) (Grammar.statement us))
    (terminator : Token) (others : List Token) :
    Terminates all terminator others p (statements (marked all rounds) terminator others r p)
      (Grammar.block terminator others ts) := by
  rw [statements, nextRound_bind hr, Grammar.block]
  refine matches_skipSeparators hat (hat.lt_rounds hrounds) fun q hskipped => ?_
  have hshorter := Grammar.length_skipSeparators_le ts
  dsimp only
  split
  · rename_i hskip
    rw [hskip] at hskipped
    rw [current_bind hskipped]
    exact matches_throw hskipped.le _
  · rename_i t more hskip
    rw [hskip] at hskipped hshorter
    rw [current_bind hskipped, List.head?_cons]
    have hmore : more.length < ts.length := Nat.lt_of_succ_le hshorter
    dsimp only
    split
    · rename_i ht
      exact .ok rfl le_rfl hskipped.le ⟨t, more, hmore, hskipped, ht, rfl⟩
    · refine (hstatement hskipped hshorter).bind fun first q' rest h hrest => ?_
      have hrest' : rest.length < ts.length := by omega
      refine (ih.statements hrest hrest' (r := r - 1) (by omega) terminator others).bind ?_
      intro es t' q'' left h' hleft ht'
      exact .ok rfl le_rfl hleft.le ⟨t', left, h'.trans hrest', hleft, ht', rfl⟩

theorem follows_labelled (hat : At all p ts)
    (hexpression : Follows all p (chain (marked all rounds) .disjunction p)
      (Grammar.chain .disjunction ts)) {s : Symbol} {label : String → Expr → Expr}
    {g : Outcome Expr ts.length}
    (hplain : (∀ name more, ts ≠ .name name :: .symbol s :: more) →
      g = Grammar.chain .disjunction ts)
    (hlabel : ∀ name more, ts = .name name :: .symbol s :: more →
      ∃ k, g = Grammar.chain .disjunction more >>= k ∧
        ∀ e rest h, ∃ h', k ⟨e, rest, h⟩ = .ok ⟨label name e, rest, h'⟩) :
    Follows all p (labelled (marked all rounds) s label p) g := by
  rw [labelled, current_bind hat]
  cases ts with
  | nil =>
      rw [hplain nofun]
      exact hexpression
  | cons t more =>
      cases t with
      | name text =>
          rw [List.head?_cons]
          dsimp only
          rw [next_bind hat, List.tail_cons]
          by_cases hsymbol : more.head? = some (.symbol s)
          · obtain ⟨more, rfl⟩ := List.head?_eq_some_iff.mp hsymbol
            obtain ⟨k, hg, hk⟩ := hlabel text more rfl
            rw [if_pos hsymbol, hg]
            refine matches_advance hat (matches_advance hat.succ ?_)
            refine (ih.chain hat.succ.succ (by grind) .disjunction).bind fun e q rest h hrest => ?_
            obtain ⟨h', heq⟩ := hk e rest h
            rw [heq]
            exact follows_pure hrest h'
          · rw [if_neg hsymbol, hplain]
            · exact hexpression
            · rintro _ more heq
              cases heq
              exact hsymbol rfl
      | number | string | keyword | symbol =>
          rw [hplain nofun]
          exact hexpression

theorem follows_element (hat : At all p ts)
    (hexpression : Follows all p (chain (marked all rounds) .disjunction p)
      (Grammar.chain .disjunction ts)) :
    Follows all p (element (marked all rounds) p) (Grammar.element ts) := by
  rw [element]
  refine follows_labelled ih hat hexpression (fun hplain => ?_) ?_
  · rw [Grammar.element]
    exact hplain
  · rintro name more rfl
    rw [Grammar.element]
    exact ⟨_, rfl, fun _ _ _ => ⟨_, rfl⟩⟩

theorem follows_statement (hat : At all p ts)
    (hexpression : Follows all p (chain (marked all rounds) .disjunction p)
      (Grammar.chain .disjunction ts)) :
    Follows all p (statement (marked all rounds) p) (Grammar.statement ts) := by
  rw [statement]
  refine follows_labelled ih hat hexpression (fun hplain => ?_) ?_
  · rw [Grammar.statement]
    exact hplain
  · rintro name more rfl
    rw [Grammar.statement]
    exact ⟨_, rfl, fun _ _ _ => ⟨_, rfl⟩⟩

/-- What may stand behind the left side of a comparison. -/
theorem follows_comparison (hsum : Follows all p (chain (marked all rounds) .sum p)
      (Grammar.chain .sum ts)) :
    Follows all p (comparison (marked all rounds) p) (Grammar.comparison ts) := by
  rw [comparison, Grammar.comparison]
  refine hsum.bind fun left q rest h hrest => ?_
  dsimp only
  split
  case h_1 more h =>
    rw [current_bind hrest, List.head?_cons, if_pos rfl]
    refine matches_advance hrest ?_
    rw [current_bind hrest.succ, List.head?_cons, if_pos rfl]
    refine matches_advance hrest.succ ?_
    exact (follows_expect hrest.succ.succ _).bind fun _ q' rest h hrest => follows_pure hrest _
  case h_2 more within hnot =>
    have hhead : more.head? ≠ some (.keyword .not_) := head?_ne fun left heq =>
      hnot left (heq ▸ within) (proof_irrel_heq _ _) heq
    rw [current_bind hrest, List.head?_cons, if_pos rfl]
    refine matches_advance hrest ?_
    rw [current_bind hrest.succ, if_neg hhead]
    exact (follows_expect hrest.succ _).bind fun _ q' rest h hrest => follows_pure hrest _
  case h_3 more h =>
    rw [current_bind hrest, List.head?_cons, if_neg (by decide), if_pos rfl]
    refine matches_advance hrest ?_
    exact (ih.chain hrest.succ (by grind) .sum).bind fun right q' rest h hrest =>
      follows_pure hrest _
  case h_4 more h =>
    rw [current_bind hrest, List.head?_cons, if_neg (by decide), if_neg (by decide),
      next_bind hrest, List.tail_cons, List.head?_cons, if_pos ⟨rfl, rfl⟩]
    refine matches_advance hrest (matches_advance hrest.succ ?_)
    exact (ih.chain hrest.succ.succ (by grind) .sum).bind fun right q' rest h hrest =>
      follows_pure hrest _
  case h_5 t more within _ his hin hnotIn =>
    have hne {s : Token} (hs : t ≠ s) : some t ≠ some s := fun heq => hs (Option.some.inj heq)
    have hboth : ¬(some t = some (.keyword .not_) ∧ more.head? = some (.keyword .in_)) := by
      rintro ⟨ht, hmore⟩
      obtain ⟨left, rfl⟩ := List.head?_eq_some_iff.mp hmore
      obtain rfl := Option.some.inj ht
      exact hnotIn left within (proof_irrel_heq _ _) rfl rfl
    rw [current_bind hrest, List.head?_cons, if_neg (hne his), if_neg (hne hin), next_bind hrest,
      List.tail_cons, if_neg hboth, Option.bind_some]
    cases Grammar.comparison? t with
    | none => exact follows_pure hrest h
    | some op =>
        refine matches_advance hrest ?_
        exact (ih.chain hrest.succ (by grind) .sum).bind fun right q' rest h hrest =>
          follows_pure hrest _
  case h_6 h =>
    rw [current_bind hrest]
    exact follows_pure hrest h

theorem follows_negation (hat : At all p ts)
    (hcomparison : Follows all p (comparison (marked all rounds) p) (Grammar.comparison ts)) :
    Follows all p (negation (marked all rounds) p) (Grammar.negation ts) := by
  cases ts with
  | nil =>
      rw [negation, Grammar.negation, current_bind hat]
      exact hcomparison
  | cons t more =>
      rw [negation, Grammar.negation, current_bind hat, List.head?_cons, Option.any_some]
      split
      · refine matches_advance hat ?_
        exact (ih.negation hat.succ (by simp)).bind fun e q rest h hrest => follows_pure hrest _
      · exact hcomparison

theorem follows_negative (hat : At all p ts)
    (hindexed : Follows all p (indexed (marked all rounds) p) (Grammar.indexed ts)) :
    Follows all p (negative (marked all rounds) p) (Grammar.negative ts) := by
  rw [negative, current_bind hat]
  by_cases hminus : ts.head? = some (.symbol .minus)
  · obtain ⟨more, rfl⟩ := List.head?_eq_some_iff.mp hminus
    rw [if_pos hminus, Grammar.negative]
    refine matches_advance hat ?_
    exact (ih.negative hat.succ (by simp)).bind fun e q rest h hrest => follows_pure hrest _
  · have hplain : Grammar.negative ts = Grammar.indexed ts := by
      rw [Grammar.negative]
      rintro more rfl
      exact hminus rfl
    rw [if_neg hminus, hplain]
    exact hindexed

theorem follows_indexed (hrounds : all.length < rounds)
    (hprimary : Follows all p (primary (marked all rounds) p) (Grammar.primary ts)) :
    Follows all p (indexed (marked all rounds) p) (Grammar.indexed ts) := by
  rw [indexed, Grammar.indexed]
  exact hprimary.bind fun first q rest h hrest =>
    ih.indexedRest hrest h first (hrest.lt_rounds hrounds) h

theorem follows_chain (hrounds : all.length < rounds) {c : Chain}
    (hoperand : Follows all p (operand (marked all rounds) c p) (Grammar.operand c ts)) :
    Follows all p (chain (marked all rounds) c p) (Grammar.chain c ts) := by
  rw [chain, Grammar.chain]
  exact hoperand.bind fun first q rest h hrest =>
    ih.chainRest hrest h c first (hrest.lt_rounds hrounds) h

end Expressions

/-! ### Phrases without operators -/

section Primary

variable (hrounds : all.length < rounds)

include hrounds

/-- A variable, a path or a call. -/
theorem follows_primary_name {name : String} {more : List Token}
    (ih : Faithful all rounds (more.length + 1)) (hat : At all p (.name name :: more)) :
    Follows all p (primary (marked all rounds) p) (Grammar.primary (.name name :: more)) := by
  rw [primary, current_bind hat, List.head?_cons]
  dsimp only
  refine matches_advance hat ?_
  rw [current_bind hat.succ]
  by_cases hdot : more.head? = some (.symbol .dot)
  · obtain ⟨more, rfl⟩ := List.head?_eq_some_iff.mp hdot
    rw [if_pos hdot, Grammar.primary]
    refine (follows_fields hat.succ (hat.succ.lt_rounds hrounds)).bind fun fs q rest h hrest => ?_
    exact follows_pure hrest _
  rw [if_neg hdot, current_bind hat.succ]
  by_cases hparen : more.head? = some (.symbol .leftParen)
  · obtain ⟨more, rfl⟩ := List.head?_eq_some_iff.mp hparen
    rw [if_pos hparen]
    refine matches_advance hat.succ ?_
    rw [current_bind hat.succ.succ]
    by_cases hclose : more.head? = some (.symbol .rightParen)
    · obtain ⟨more, rfl⟩ := List.head?_eq_some_iff.mp hclose
      rw [if_pos hclose, pure_bind, expect_bind hat.succ.succ, Grammar.primary]
      exact (follows_pure hat.succ.succ.succ _).of_le (Nat.le_succ _)
    · rw [if_neg hclose]
      have hcall : Grammar.primary (.name name :: .symbol .leftParen :: more) =
          Grammar.list .rightParen more >>= fun d =>
            .ok ⟨.call name d.value, d.rest, by have := d.shorter; grind⟩ := by
        rw [Grammar.primary]
        · rfl
        · rintro left rfl
          exact hclose rfl
      rw [hcall]
      exact Closes.bind (ih.list hat.succ.succ (by grind) (hat.succ.succ.lt_rounds hrounds)
        .rightParen) fun es q rest h hrest => follows_pure hrest _
  · have hvar : Grammar.primary (.name name :: more) = .ok ⟨.var name, more, by simp⟩ := by
      rw [Grammar.primary]
      all_goals
        rintro left rfl
        first | exact hdot rfl | exact hparen rfl
    rw [if_neg hparen, hvar]
    exact follows_pure hat.succ _

/-- A vector, or an expression in parentheses. -/
theorem follows_primary_paren {more : List Token} (ih : Faithful all rounds (more.length + 1))
    (hat : At all p (.symbol .leftParen :: more)) :
    Follows all p (primary (marked all rounds) p)
      (Grammar.primary (.symbol .leftParen :: more)) := by
  rw [primary, current_bind hat, List.head?_cons]
  dsimp only
  refine matches_advance hat ?_
  rw [current_bind hat.succ]
  by_cases hclose : more.head? = some (.symbol .rightParen)
  · obtain ⟨more, rfl⟩ := List.head?_eq_some_iff.mp hclose
    rw [if_pos hclose, Grammar.primary]
    exact matches_advance hat.succ (follows_pure hat.succ.succ _)
  · rw [if_neg hclose, Grammar.primary]
    · refine (ih.chain hat.succ (by simp) .disjunction).bind fun first q rest h hrest => ?_
      dsimp only
      split
      · rename_i more' h
        rw [current_bind hrest, List.head?_cons, if_pos rfl]
        refine matches_advance hrest ?_
        exact Closes.bind (ih.list hrest.succ (by grind) (hrest.succ.lt_rounds hrounds)
          .rightParen) fun es q rest h hrest => follows_pure hrest _
      · rename_i hcomma
        have hhead : rest.head? ≠ some (.symbol .comma) := head?_ne fun left heq =>
          hcomma left (heq ▸ h) heq (proof_irrel_heq _ _)
        rw [current_bind hrest, if_neg hhead]
        exact (follows_expect hrest _).bind fun _ q rest h hrest => follows_pure hrest _
    · rintro left rfl
      exact hclose rfl

theorem follows_conditional {more : List Token} (ih : Faithful all rounds (more.length + 1))
    (hat : At all p (.keyword .if_ :: more)) :
    Follows all p (conditional (marked all rounds) p)
      (Grammar.primary (.keyword .if_ :: more)) := by
  rw [conditional, expect_bind hat, Grammar.primary]
  refine Matches.of_le ?_ (Nat.le_succ p)
  refine (ih.chain hat.succ (by simp) .disjunction).bind fun condition q rest h hrest => ?_
  refine (follows_expect hrest _).bind fun _ q rest h hrest => ?_
  refine (ih.statements hrest (by grind) (hrest.lt_rounds hrounds) _ _).bind ?_
  rintro thenBranch t q rest h hrest ht
  rw [current_bind hrest, List.head?_cons]
  simp only [pure_bind]
  by_cases helse : t = .keyword .else_
  · rw [if_pos (congrArg some helse), if_pos helse]
    refine matches_advance hrest ?_
    refine (ih.statements hrest.succ (by grind) (hrest.succ.lt_rounds hrounds) _ _).bind ?_
    rintro elseBranch t q rest h hrest ht
    obtain rfl : t = .keyword .endIf_ := by simpa using ht
    rw [expect_bind hrest]
    exact (follows_pure hrest.succ _).of_le (Nat.le_succ q)
  · obtain rfl : t = .keyword .endIf_ := by simpa [helse] using ht
    rw [if_neg (by decide), if_neg (by decide), expect_bind hrest]
    exact (follows_pure hrest.succ _).of_le (Nat.le_succ q)

theorem follows_projection {more : List Token} (ih : Faithful all rounds (more.length + 1))
    (hat : At all p (.keyword .project_ :: more)) :
    Follows all p (projection (marked all rounds) p)
      (Grammar.primary (.keyword .project_ :: more)) := by
  rw [projection, expect_bind hat, Grammar.primary]
  refine Matches.of_le ?_ (Nat.le_succ p)
  refine (follows_expect hat.succ _).bind fun _ q rest h hrest => ?_
  refine Closes.bind (ih.elements hrest (by grind) (hrest.lt_rounds hrounds)) ?_
  intro columns q rest h hrest
  dsimp only
  split
  · rename_i more' h
    rw [current_bind hrest, List.head?_cons, if_pos rfl]
    refine matches_advance hrest ?_
    exact (ih.chain hrest.succ (by grind) .disjunction).bind fun filter q rest h hrest =>
      follows_pure hrest _
  · rename_i hwhere
    have hhead : rest.head? ≠ some (.keyword .where_) := head?_ne fun left heq =>
      hwhere left (heq ▸ h) heq (proof_irrel_heq _ _)
    rw [current_bind hrest, if_neg hhead]
    exact follows_pure hrest _

theorem follows_primary (ih : Faithful all rounds ts.length) (hat : At all p ts) :
    Follows all p (primary (marked all rounds) p) (Grammar.primary ts) := by
  cases ts with
  | nil =>
      rw [primary, current_bind hat, Grammar.primary]
      · exact matches_throw hat.le _
      all_goals simp
  | cons t more =>
      cases t with
      | name name => exact follows_primary_name hrounds ih hat
      | number text =>
          rw [primary, current_bind hat, List.head?_cons, Grammar.primary]
          refine matches_advance hat ?_
          cases Grammar.numberLiteral? text with
          | some v => exact follows_pure hat.succ _
          | none => exact matches_throw hat.succ.le _
      | string text =>
          rw [primary, current_bind hat, List.head?_cons, Grammar.primary]
          exact matches_advance hat (follows_pure hat.succ _)
      | keyword k =>
          rw [primary, current_bind hat, List.head?_cons]
          cases k with
          | true_ | false_ =>
              rw [Grammar.primary]
              exact matches_advance hat (follows_pure hat.succ _)
          | if_ => exact follows_conditional hrounds ih hat
          | project_ => exact follows_projection hrounds ih hat
          | _ =>
              rw [Grammar.primary]
              · exact matches_throw hat.le _
              all_goals simp
      | symbol s =>
          by_cases hparen : s = .leftParen
          · subst hparen
            exact follows_primary_paren hrounds ih hat
          · rw [primary, current_bind hat, List.head?_cons, Grammar.primary]
            · cases s with
              | leftParen => exact absurd rfl hparen
              | _ => exact matches_throw hat.le _
            all_goals simp [hparen]

end Primary

/-! ### All at once -/

section Step

variable (hrounds : all.length < rounds) (ih : Faithful all rounds ts.length)
  (hat : At all p ts)

include hrounds ih hat

theorem follows_operand (c : Chain) :
    Follows all p (operand (marked all rounds) c p) (Grammar.operand c ts) := by
  have hproduct : Follows all p (operand (marked all rounds) .product p)
      (Grammar.operand .product ts) := by
    rw [operand, Grammar.operand]
    exact follows_negative ih hat (follows_indexed ih hrounds (follows_primary hrounds ih hat))
  have hsum : Follows all p (operand (marked all rounds) .sum p) (Grammar.operand .sum ts) := by
    rw [operand, Grammar.operand]
    exact follows_chain ih hrounds hproduct
  have hconjunction : Follows all p (operand (marked all rounds) .conjunction p)
      (Grammar.operand .conjunction ts) := by
    rw [operand, Grammar.operand]
    exact follows_negation ih hat (follows_comparison ih (follows_chain ih hrounds hsum))
  have hexclusion : Follows all p (operand (marked all rounds) .exclusion p)
      (Grammar.operand .exclusion ts) := by
    rw [operand, Grammar.operand]
    exact follows_chain ih hrounds hconjunction
  cases c with
  | disjunction =>
      rw [operand, Grammar.operand]
      exact follows_chain ih hrounds hexclusion
  | exclusion => exact hexclusion
  | conjunction => exact hconjunction
  | sum => exact hsum
  | product => exact hproduct

end Step

/-- **Walks follow the grammar**, with as many rounds as there are tokens and the end mark. -/
theorem faithful (hrounds : all.length < rounds) (n : Nat) :
    Faithful all rounds n := by
  induction n using Nat.strong_induction_on with
  | _ n ih =>
      have hoperand {p : Nat} {ts : List Token} (hat : At all p ts) (hlt : ts.length < n)
          (c : Chain) : Follows all p (operand (marked all rounds) c p) (Grammar.operand c ts) :=
        follows_operand hrounds (ih _ hlt) hat c
      have hchain {p : Nat} {ts : List Token} (hat : At all p ts) (hlt : ts.length < n)
          (c : Chain) : Follows all p (chain (marked all rounds) c p) (Grammar.chain c ts) :=
        follows_chain (ih _ hlt) hrounds (hoperand hat hlt c)
      exact {
        chain := hchain
        chainRest := fun hat hlt => follows_chainRest (ih _ hlt) hat
        operand := hoperand
        negation := fun hat hlt => by
          have hnegation := hoperand hat hlt .conjunction
          rw [operand, Grammar.operand] at hnegation
          exact hnegation
        negative := fun hat hlt => by
          have hnegative := hoperand hat hlt .product
          rw [operand, Grammar.operand] at hnegative
          exact hnegative
        indexedRest := fun hat hlt => follows_indexedRest (ih _ hlt) hat
        list := fun hat hlt _ hr => closes_list (ih _ hlt) hr (hchain hat hlt .disjunction)
        elements := fun hat hlt _ hr => closes_elements (ih _ hlt) hr
          (follows_element (ih _ hlt) hat (hchain hat hlt .disjunction))
        statements := fun hat hlt _ hr => terminates_statements (ih _ hlt) hat hrounds hr
          fun hat hle => follows_statement (ih _ (hle.trans_lt hlt)) hat
            (hchain hat (hle.trans_lt hlt) .disjunction) }

/-! ### Programs -/

/-- The walk ends with what the grammar has. -/
abbrev Finds (all : List Token) (p : Nat) (run : Option (Except SyntaxError α × Nat))
    (g : Except SyntaxError α) : Prop :=
  Matches all (fun g a _ => g = .ok a) p run g

section Programs

variable (hrounds : all.length < rounds)

include hrounds

theorem faithful_at (ts : List Token) : Faithful all rounds (ts.length + 1) :=
  faithful hrounds _

theorem follows_parameters (hat : At all p ts) :
    Follows all p (parameters (marked all rounds) p) (Grammar.parameters ts) := by
  rw [parameters, Grammar.parameters]
  refine (follows_expect hat _).bind fun _ q rest h hrest => ?_
  dsimp only
  split
  · rename_i left h
    rw [current_bind hrest, List.head?_cons, if_pos rfl, pure_bind, expect_bind hrest]
    exact (follows_pure hrest.succ _).of_le (Nat.le_succ q)
  · rename_i hclose
    have hhead : rest.head? ≠ some (.symbol .rightParen) := head?_ne fun left heq =>
      hclose left (heq ▸ h) heq (proof_irrel_heq _ _)
    rw [current_bind hrest, if_neg hhead]
    refine (follows_names hrest (hrest.lt_rounds hrounds)).bind fun ns q rest h hrest => ?_
    exact (follows_expect hrest _).bind fun _ q rest h hrest => follows_pure hrest _

theorem follows_functionDef (hat : At all p (.keyword .function_ :: ts)) :
    Follows all p (functionDef (marked all rounds) p) (Grammar.functionDef ts) := by
  rw [functionDef, expect_bind hat, Grammar.functionDef]
  refine Matches.of_le ?_ (Nat.le_succ p)
  refine (follows_expectName hat.succ).bind fun name q rest h hrest => ?_
  refine (follows_parameters hrounds hrest).bind fun ps q rest h hrest => ?_
  refine (follows_expect hrest _).bind fun _ q rest h hrest => ?_
  refine ((faithful_at hrounds rest).statements hrest (Nat.lt_succ_self _)
    (hrest.lt_rounds hrounds) _ _).bind ?_
  intro body t q rest h hrest ht
  obtain rfl : t = .symbol .rightBrace := by simpa using ht
  rw [expect_bind hrest]
  exact (follows_pure hrest.succ _).of_le (Nat.le_succ q)

theorem follows_statement_at (hat : At all p ts) :
    Follows all p (statement (marked all rounds) p) (Grammar.statement ts) :=
  follows_statement (faithful hrounds _) hat
    ((faithful_at hrounds ts).chain hat (Nat.lt_succ_self _) .disjunction)

theorem finds_scriptFrom (hat : At all p ts) {r : Nat} (hr : ts.length < r) (program : Program) :
    Finds all p (scriptFrom (marked all rounds) program r p)
      (Grammar.programFrom program ts) := by
  induction hn : ts.length using Nat.strong_induction_on generalizing p ts r program with
  | _ n ih =>
      subst hn
      rw [scriptFrom, nextRound_bind hr]
      refine matches_skipSeparators hat (hat.lt_rounds hrounds) fun q hskipped => ?_
      have hshorter := Grammar.length_skipSeparators_le ts
      rw [current_bind hskipped]
      cases hskip : Grammar.skipSeparators ts with
      | nil =>
          rw [Grammar.programFrom_end hskip]
          exact .ok rfl le_rfl hskipped.le rfl
      | cons t more =>
          rw [hskip] at hskipped hshorter
          rw [List.length_cons] at hshorter
          rw [List.head?_cons]
          dsimp only
          by_cases hfunction : t = .keyword .function_
          · subst hfunction
            rw [if_pos rfl, Grammar.programFrom_function hskip]
            refine (follows_functionDef hrounds hskipped).bind fun f q rest h hrest => ?_
            exact ih rest.length (by omega) hrest (by omega) _ rfl
          · rw [if_neg hfunction, Grammar.programFrom_statement hskip hfunction]
            refine (follows_statement_at hrounds hskipped).bind fun e q rest h hrest => ?_
            rw [List.length_cons] at h
            exact ih rest.length (by omega) hrest (by omega) _ rfl

theorem finds_script (hat : At all p ts) :
    Finds all p (script (marked all rounds) p) (Grammar.program ts) := by
  rw [script, Grammar.program]
  exact finds_scriptFrom hrounds hat (hat.lt_rounds hrounds) {}

theorem finds_single (hat : At all p ts) :
    Finds all p (single (marked all rounds) p) (Grammar.wholeExpression ts) := by
  rw [single, Grammar.wholeExpression, Grammar.expression]
  refine ((faithful_at hrounds ts).chain hat (Nat.lt_succ_self _) .disjunction).bind ?_
  intro e q rest h hrest
  refine matches_skipSeparators hrest (hrest.lt_rounds hrounds) fun q' hskipped => ?_
  rw [current_bind hskipped]
  dsimp only
  cases hskip : Grammar.skipSeparators rest with
  | nil => exact .ok rfl le_rfl hskipped.le rfl
  | cons t more => exact matches_throw hskipped.le _

end Programs

/-! ### Every walk -/

/-- The tokens end in an end mark, and there is no other. -/
structure EndsOnce (input : Input) : Prop where
  last : input.tokens.getLast? = some none
  only : none ∉ input.tokens.dropLast

theorem reduceOption_marked (ts : List Token) (rounds : Nat) :
    (marked ts rounds).tokens.reduceOption = ts :=
  Token.filterMap_marked ts

theorem EndsOnce.exists_marked {input : Input} (h : EndsOnce input) :
    ∃ ts, input = marked ts input.rounds := by
  have htokens : input.tokens.dropLast ∈ Set.range (List.map some) := by
    rw [Set.range_list_map]
    exact fun t ht => Option.ne_none_iff_exists.mp fun hnone => h.only (hnone ▸ ht)
  obtain ⟨ts, hts⟩ := htokens
  exact ⟨ts, by rw [marked, Token.marked, hts, List.dropLast_append_getLast? none h.last]⟩

theorem endsOnce_marked (ts : List Token) (rounds : Nat) : EndsOnce (marked ts rounds) where
  last := by simp [marked, Token.marked]
  only := by simp [marked, Token.marked]

/-- What is read of a source ends once. -/
theorem endsOnce_of_markedTokens {source : String} {entries : List (Option Token)}
    (h : Source.markedTokens source = .ok entries) (rounds : Nat) :
    EndsOnce { tokens := entries, rounds } := by
  obtain ⟨ts, rfl, -⟩ := Source.markedTokens_eq_ok_iff.mp h
  exact endsOnce_marked ts rounds

theorem length_marked (ts : List Token) (rounds : Nat) :
    (marked ts rounds).tokens.length = ts.length + 1 := by
  simp [marked, Token.marked]

/-- The walk ends, no further back than it began and no further than the last token. -/
def Returns (input : Input) (w : Walk α) (p : Nat) : Prop :=
  ∃ result q, w p = some (result, q) ∧ p ≤ q ∧ q < input.tokens.length

/-- The walk ends in this range, and it has moved on unless it has found an error. -/
def Progresses (input : Input) (w : Walk α) (p : Nat) : Prop :=
  ∃ result q, w p = some (result, q) ∧ p ≤ q ∧ q < input.tokens.length ∧
    ∀ a, result = .ok a → p < q

theorem Ends.returns {w : Walk α} {ok : α → Nat → Prop} {error : SyntaxError → Prop}
    (h : Ends all p (w p) ok error) : Returns (marked all rounds) w p := by
  unfold Returns
  rw [length_marked]
  cases h with
  | ok hrun hle hend _ => exact ⟨_, _, hrun, hle, Nat.lt_succ_of_le hend⟩
  | error hrun hle hend _ => exact ⟨_, _, hrun, hle, Nat.lt_succ_of_le hend⟩

/-- Moving on stays in front of the end, and at the end it stays there. -/
theorem returns_advance (hat : At all p ts) :
    Returns (marked all rounds) (advance (marked all rounds)) p := by
  have hle := hat.le
  have hmove : advance (marked all rounds) p =
      some (.ok (), if p + 1 < (marked all rounds).tokens.length then p + 1 else p) := rfl
  refine ⟨_, _, hmove, ?_⟩
  rw [length_marked]
  split
  · omega
  · omega

/-- Fewer tokens are left than there were, and so the position is further on. -/
theorem Follows.progresses {w : Walk α} {g : Outcome α n} (h : Follows all p (w p) g)
    (hat : At all p ts) (hn : n ≤ ts.length) : Progresses (marked all rounds) w p := by
  unfold Progresses
  rw [length_marked]
  cases h with
  | ok hrun hle hend hok =>
      obtain ⟨rest, hrest, hat', -⟩ := hok
      refine ⟨_, _, hrun, hle, Nat.lt_succ_of_le hend, fun _ _ => ?_⟩
      have hbefore := hat.length
      have hbehind := hat'.length
      omega
  | error hrun hle hend _ =>
      exact ⟨_, _, hrun, hle, Nat.lt_succ_of_le hend, nofun⟩

/-- A phrase that another token begins is not there. -/
theorem progresses_expect_bind (hat : At all p ts) {t : Token} (h : ts.head? ≠ some t)
    (f : Unit → Walk α) :
    Progresses (marked all rounds) (expect (marked all rounds) t >>= f) p := by
  have herror : expect (marked all rounds) t p = some (.error (.expectedToken t ts.head?), p) := by
    rw [expect, current_bind hat, if_neg h]
    rfl
  refine ⟨_, _, bind_error herror f, le_rfl, ?_, fun a ha => absurd ha (by simp)⟩
  rw [length_marked]
  exact Nat.lt_succ_of_le hat.le

/-- The walks that look for an expression or a statement. -/
inductive Phrase
  | statement
  | element
  | chain (c : Chain)
  | operand (c : Chain)
  | negation
  | comparison
  | negative
  | indexed
  | primary
  | conditional
  | projection

def Phrase.walk (input : Input) : Phrase → Walk Expr
  | statement => input.statement
  | element => input.element
  | chain c => input.chain c
  | operand c => input.operand c
  | negation => input.negation
  | comparison => input.comparison
  | negative => input.negative
  | indexed => input.indexed
  | primary => input.primary
  | conditional => input.conditional
  | projection => input.projection

section Walks

variable (hrounds : all.length < rounds) (hat : At all p ts)

include hrounds hat

theorem progresses_phrase (phrase : Phrase) :
    Progresses (marked all rounds) (phrase.walk (marked all rounds)) p := by
  have ih : Faithful all rounds ts.length := faithful hrounds _
  have hoperand := follows_operand hrounds ih hat
  have hchain (c : Chain) := follows_chain ih hrounds (hoperand c)
  cases phrase with
  | statement => exact (follows_statement_at hrounds hat).progresses hat le_rfl
  | element => exact (follows_element ih hat (hchain .disjunction)).progresses hat le_rfl
  | chain c => exact (hchain c).progresses hat le_rfl
  | operand c => exact (hoperand c).progresses hat le_rfl
  | negation =>
      exact (follows_negation ih hat (follows_comparison ih (hchain .sum))).progresses hat le_rfl
  | comparison => exact (follows_comparison ih (hchain .sum)).progresses hat le_rfl
  | negative =>
      exact (follows_negative ih hat (follows_indexed ih hrounds
        (follows_primary hrounds ih hat))).progresses hat le_rfl
  | indexed =>
      exact (follows_indexed ih hrounds (follows_primary hrounds ih hat)).progresses hat le_rfl
  | primary => exact (follows_primary hrounds ih hat).progresses hat le_rfl
  | conditional =>
      by_cases hif : ts.head? = some (.keyword .if_)
      · obtain ⟨more, rfl⟩ := List.head?_eq_some_iff.mp hif
        exact (follows_conditional hrounds ih hat).progresses hat le_rfl
      · rw [Phrase.walk, conditional]
        exact progresses_expect_bind hat hif _
  | projection =>
      by_cases hproject : ts.head? = some (.keyword .project_)
      · obtain ⟨more, rfl⟩ := List.head?_eq_some_iff.mp hproject
        exact (follows_projection hrounds ih hat).progresses hat le_rfl
      · rw [Phrase.walk, projection]
        exact progresses_expect_bind hat hproject _

theorem progresses_functionDef :
    Progresses (marked all rounds) (functionDef (marked all rounds)) p := by
  by_cases hfunction : ts.head? = some (.keyword .function_)
  · obtain ⟨more, rfl⟩ := List.head?_eq_some_iff.mp hfunction
    exact (follows_functionDef hrounds hat).progresses hat (Nat.le_succ _)
  · exact progresses_expect_bind hat hfunction _

end Walks

/-- All walks from a position end, and those that look for something move on when they find it. -/
structure WalksEnd (input : Input) (p : Nat) : Prop where
  advance : Returns input input.advance p
  expect (t : Token) : Progresses input (input.expect t) p
  expectName : Progresses input input.expectName p
  phrase (phrase : Phrase) : Progresses input (phrase.walk input) p
  parameters : Progresses input input.parameters p
  functionDef : Progresses input input.functionDef p
  skipSeparators : Returns input (input.skipSeparators input.rounds) p
  fields : Returns input (input.fields input.rounds) p
  names : Returns input (input.names input.rounds) p
  chainRest (c : Chain) (left : Expr) : Returns input (input.chainRest c left input.rounds) p
  indexedRest (left : Expr) : Returns input (input.indexedRest left input.rounds) p
  list : Returns input (input.list input.rounds) p
  elements : Returns input (input.elements input.rounds) p
  statements (terminator : Token) (others : List Token) :
    Returns input (input.statements terminator others input.rounds) p
  script : Returns input input.script p
  single : Returns input input.single p

theorem walksEnd (hrounds : all.length < rounds) (hat : At all p ts) :
    WalksEnd (marked all rounds) p := by
  have ih := faithful_at hrounds ts
  have hlt : ts.length < ts.length + 1 := Nat.lt_succ_self _
  have hr : ts.length < rounds := hat.lt_rounds hrounds
  exact {
    advance := returns_advance hat
    expect := fun t => (follows_expect hat t).progresses hat le_rfl
    expectName := (follows_expectName hat).progresses hat le_rfl
    phrase := progresses_phrase hrounds hat
    parameters := (follows_parameters hrounds hat).progresses hat le_rfl
    functionDef := progresses_functionDef hrounds hat
    skipSeparators := (ends_skipSeparators hat hr).returns
    fields := Ends.returns (follows_fields hat hr)
    names := Ends.returns (follows_names hat hr)
    chainRest := fun c left => Ends.returns (ih.chainRest hat hlt c left hr hlt)
    indexedRest := fun left => Ends.returns (ih.indexedRest hat hlt left hr hlt)
    list := Ends.returns (ih.list hat hlt hr .rightParen)
    elements := Ends.returns (ih.elements hat hlt hr)
    statements := fun terminator others =>
      Ends.returns (ih.statements hat hlt hr terminator others)
    script := Ends.returns (finds_script hrounds hat)
    single := Ends.returns (finds_single hrounds hat) }

theorem Finds.exists_eq {w : Walk α} {g : Except SyntaxError α} (h : Finds all p (w p) g) :
    ∃ q < (marked all rounds).tokens.length, w p = some (g, q) := by
  rw [length_marked]
  cases h with
  | ok hrun _ hend hg => exact ⟨_, Nat.lt_succ_of_le hend, hg ▸ hrun⟩
  | error hrun _ hend hg => exact ⟨_, Nat.lt_succ_of_le hend, hg ▸ hrun⟩

theorem current_eq_none_iff (hat : At all p ts) :
    current (marked all rounds) p = some (.ok none, p) ↔
      p + 1 = (marked all rounds).tokens.length := by
  have hcurrent : current (marked all rounds) p = some (.ok ts.head?, p) := by
    rw [← hat.current_eq]
    rfl
  rw [hcurrent, length_marked, ← hat.length]
  cases ts with
  | nil => simp
  | cons t ts => simp

/-- **A parser with a cursor makes progress.**  Only the last token reads as the end mark.  From
every position each walk ends, not behind it and not beyond the last token, and those for a phrase,
an element or a function have moved on if they found one.  No loop goes round more often than there
are tokens, and a whole program or expression always has the result that the grammar gives it. -/
theorem every_walk_ends {input : Input} (hend : EndsOnce input)
    (hrounds : input.tokens.length ≤ input.rounds) :
    (∀ p < input.tokens.length,
      (input.current p = some (.ok none, p) ↔ p + 1 = input.tokens.length) ∧ WalksEnd input p) ∧
    (∃ q < input.tokens.length,
      input.script 0 = some (Grammar.program input.tokens.reduceOption, q)) ∧
    ∃ q < input.tokens.length,
      input.single 0 = some (Grammar.wholeExpression input.tokens.reduceOption, q) := by
  obtain ⟨ts, hts⟩ := hend.exists_marked
  generalize input.rounds = rounds at hts hrounds
  subst hts
  rw [length_marked] at hrounds
  rw [reduceOption_marked]
  have hstart : At ts 0 ts := ⟨Nat.zero_le _, List.drop_zero⟩
  refine ⟨fun p hp => ?_, (finds_script hrounds hstart).exists_eq,
    (finds_single hrounds hstart).exists_eq⟩
  rw [length_marked] at hp
  have hat : At ts p (ts.drop p) := ⟨Nat.le_of_lt_succ hp, rfl⟩
  exact ⟨current_eq_none_iff hat, walksEnd hrounds hat⟩

/-- A call that breaks off behind a comma. -/
theorem every_walk_ends_truncated :
    let input : Input :=
      { tokens := [some (.name "f"), some (.symbol .leftParen), some (.number "1"),
          some (.symbol .comma), none]
        rounds := 5 }
    EndsOnce input ∧ input.tokens.length ≤ input.rounds ∧
      ∃ q < 5, input.script 0 = some (.error (.unexpectedToken none), q) := by
  intro input
  have hend : EndsOnce input := ⟨rfl, by decide⟩
  have hread : Grammar.program input.tokens.reduceOption = .error (.unexpectedToken none) := by
    cbv
  obtain ⟨-, hscript, -⟩ := every_walk_ends hend (le_refl 5)
  rw [hread] at hscript
  exact ⟨hend, le_rfl, hscript⟩

end FrameLang.Input
