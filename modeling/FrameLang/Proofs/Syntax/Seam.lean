/-
A semicolon stops every phrase.

No function of the grammar goes on past a semicolon, nor does one care whether a semicolon comes
next or nothing.  So what is read of some tokens is also read where a semicolon and any other tokens
follow, and only the tokens that are left are more.  The functions that look two tokens ahead need
the same thought twice, as the semicolon may be either of the two.

Every function reads its operands from fewer tokens than it has or hands the same tokens on to the
next tighter function, so the induction is on the number of tokens, and within a step the functions
are taken from the tightest to the loosest.
-/
import FrameLang.Proofs.Syntax.Acceptance
import FrameLang.Proofs.Syntax.Parts

namespace FrameLang.Grammar

variable {α : Type} {ts us : List Token}

/-- Tokens with a semicolon and other tokens behind them. -/
def seam (ts us : List Token) : List Token := ts ++ .symbol .semicolon :: us

@[simp] theorem seam_nil : seam [] us = .symbol .semicolon :: us := rfl

@[simp] theorem seam_cons {t : Token} : seam (t :: ts) us = t :: seam ts us := rfl

/-- What can be read can also be read in front of a semicolon. -/
def Stable (us : List Token) (reader : (ts : List Token) → Outcome α ts.length)
    (ts : List Token) : Prop :=
  ∀ a rest, Reads (reader ts) a rest → Reads (reader (seam ts us)) a (seam rest us)

/-! ### Looking ahead -/

theorem forall_head?_seam {P : Token → Prop} (hP : P (.symbol .semicolon))
    (h : ∀ t ∈ ts.head?, P t) : ∀ t ∈ (seam ts us).head?, P t := by
  cases ts with
  | nil =>
      intro t ht
      obtain rfl : Token.symbol .semicolon = t := Option.some.inj ht
      exact hP
  | cons s ts => exact h

theorem head?_seam_ne {t : Token} (ht : t ≠ .symbol .semicolon) (h : ts.head? ≠ some t) :
    (seam ts us).head? ≠ some t := by
  intro hhead
  have hne : ∀ s ∈ ts.head?, s ≠ t := by
    rintro s hs rfl
    exact h hs
  exact forall_head?_seam (P := (· ≠ t)) ht.symm hne t hhead rfl

/-- Two tokens that do not stand in front do not do so because of the semicolon. -/
theorem seam_ne_pair {t u : Token} (ht : t ≠ .symbol .semicolon) (hu : u ≠ .symbol .semicolon)
    (h : ∀ more, ts ≠ t :: u :: more) (more : List Token) : seam ts us ≠ t :: u :: more := by
  intro heq
  cases ts with
  | nil => exact ht (List.cons.inj heq).1.symm
  | cons s ts =>
      obtain ⟨rfl, htail⟩ := List.cons.inj heq
      cases ts with
      | nil => exact hu (List.cons.inj htail).1.symm
      | cons r ts =>
          obtain ⟨rfl, -⟩ := List.cons.inj htail
          exact h ts rfl

theorem grip_seam_ne_five (h : grip ts ≠ 5) : grip (seam ts us) ≠ 5 := by
  intro hgrip
  cases ts with
  | nil => cases hgrip
  | cons t ts =>
      rw [seam_cons] at hgrip
      rcases grip_eq_five hgrip with ⟨_, heq⟩ | ⟨_, heq⟩ | ⟨_, heq⟩ | ⟨op, _, heq⟩
      · obtain ⟨rfl, -⟩ := List.cons.inj heq
        exact h rfl
      · obtain ⟨rfl, -⟩ := List.cons.inj heq
        exact h rfl
      · obtain ⟨rfl, htail⟩ := List.cons.inj heq
        cases ts with
        | nil => cases htail
        | cons u ts =>
            obtain ⟨rfl, -⟩ := List.cons.inj htail
            exact h rfl
      · obtain ⟨rfl, -⟩ := List.cons.inj heq
        exact h (grip_tokens (.comparison op) ts)

theorem skipSeparators_of_ne {t : Token} (ht : t ≠ .symbol .semicolon) (ts : List Token) :
    skipSeparators (t :: ts) = t :: ts :=
  List.dropWhile_cons_of_neg (by simpa using ht)

theorem skipSeparators_seam {t : Token} {more : List Token} (h : skipSeparators ts = t :: more) :
    skipSeparators (seam ts us) = t :: seam more us := by
  induction ts with
  | nil => cases h
  | cons s ts ih =>
      by_cases hs : s = .symbol .semicolon
      · subst hs
        exact ih h
      · rw [skipSeparators_of_ne hs] at h
        obtain ⟨rfl, rfl⟩ := List.cons.inj h
        exact skipSeparators_of_ne hs _

theorem skipSeparators_seam_nil (h : skipSeparators ts = []) :
    skipSeparators (seam ts us) = skipSeparators us := by
  induction ts with
  | nil => rfl
  | cons s ts ih =>
      by_cases hs : s = .symbol .semicolon
      · subst hs
        exact ih h
      · rw [skipSeparators_of_ne hs] at h
        cases h

/-! ### Names -/

theorem stable_fields {fs : List String} {rest : List Token} (h : Reads (fields ts) fs rest) :
    Reads (fields (seam ts us)) fs (seam rest us) := by
  obtain ⟨rfl, hend⟩ := reads_fields.mp h
  exact reads_fields.mpr ⟨List.append_assoc .., head?_seam_ne (by decide) hend⟩

/-! ### Lists -/

theorem stable_items {close : Symbol} {n : Nat}
    {itemAt : (ts : List Token) → Outcome Expr ts.length}
    {listAt : (ts : List Token) → Outcome (List Expr) ts.length}
    (hlist : ∀ {ts es rest}, Reads (listAt ts) es rest ↔
      ∃ first mid, Reads (itemAt ts) first mid ∧ GoesOn close listAt first mid es rest)
    (hitem : ∀ {ts : List Token}, ts.length < n → Stable us itemAt ts) (hts : ts.length < n) :
    Stable us listAt ts := by
  induction hlength : ts.length using Nat.strong_induction_on generalizing ts with
  | _ k ih =>
      subst hlength
      intro es rest h
      obtain ⟨first, mid, hfirst, hmore⟩ := hlist.mp h
      refine hlist.mpr ⟨first, seam mid us, hitem hts _ _ hfirst, ?_⟩
      rcases hmore with ⟨more, fs, rfl, hrest, rfl⟩ | ⟨rfl, rfl⟩
      · have hlt : more.length < ts.length := Nat.lt_of_succ_lt hfirst.length_lt
        exact Or.inl ⟨seam more us, fs, rfl, ih _ hlt (hlt.trans hts) rfl _ _ hrest, rfl⟩
      · exact Or.inr ⟨rfl, rfl⟩

section Below

/-! ### If it is so of fewer tokens -/

variable {n : Nat} (below : ∀ ts : List Token, ts.length < n → ∀ demand ≤ 10,
  Stable us (phraseAt demand) ts)

include below

theorem stable_disjunction (hts : ts.length < n) : Stable us (chain .disjunction) ts :=
  below ts hts 0 (by decide)

theorem stable_element (hts : ts.length < n) : Stable us element ts := by
  intro e rest h
  by_cases hname : ∃ name more, ts = .name name :: .symbol .colon :: more
  · obtain ⟨name, more, rfl⟩ := hname
    obtain ⟨x, hx, rfl⟩ := reads_element_named.mp h
    have hmore : more.length < n := by
      simp only [List.length_cons] at hts
      omega
    exact reads_element_named.mpr ⟨x, stable_disjunction below hmore _ _ hx, rfl⟩
  · have hplain (name : String) (more : List Token) : ts ≠ .name name :: .symbol .colon :: more :=
      fun heq => hname ⟨name, more, heq⟩
    refine (reads_element_plain fun name => ?_).mpr
      (stable_disjunction below hts _ _ ((reads_element_plain hplain).mp h))
    exact seam_ne_pair nofun (by decide) (hplain name)

theorem stable_statement (hts : ts.length < n) : Stable us statement ts := by
  intro e rest h
  by_cases hname : ∃ name more, ts = .name name :: .symbol .assign :: more
  · obtain ⟨name, more, rfl⟩ := hname
    obtain ⟨x, hx, rfl⟩ := reads_statement_assign.mp h
    have hmore : more.length < n := by
      simp only [List.length_cons] at hts
      omega
    exact reads_statement_assign.mpr ⟨x, stable_disjunction below hmore _ _ hx, rfl⟩
  · have hplain (name : String) (more : List Token) : ts ≠ .name name :: .symbol .assign :: more :=
      fun heq => hname ⟨name, more, heq⟩
    refine (reads_statement_plain fun name => ?_).mpr
      (stable_disjunction below hts _ _ ((reads_statement_plain hplain).mp h))
    exact seam_ne_pair nofun (by decide) (hplain name)

theorem stable_list (hts : ts.length < n) : Stable us (list .rightParen) ts :=
  stable_items (reads_list (by decide)) (stable_disjunction below) hts

theorem stable_projection (hts : ts.length < n) : Stable us projection ts :=
  stable_items reads_projection (stable_element below) hts

theorem stable_block {terminator : Token} {others : List Token} (hts : ts.length < n) :
    Stable us (block terminator others) ts := by
  induction hlength : ts.length using Nat.strong_induction_on generalizing ts with
  | _ k ih =>
      subst hlength
      rintro ⟨es, last⟩ rest h
      cases hskip : skipSeparators ts with
      | nil => exact absurd h (not_reads_block_nil hskip)
      | cons t more =>
          by_cases ht : t = terminator ∨ t ∈ others
          · obtain ⟨rfl, rfl, rfl⟩ := (reads_block_end hskip ht).mp h
            exact (reads_block_end (skipSeparators_seam hskip) ht).mpr ⟨rfl, rfl, rfl⟩
          · obtain ⟨first, mid, fs, hfirst, hrest, rfl⟩ := (reads_block_statement hskip ht).mp h
            have hle := length_skipSeparators_le ts
            rw [hskip] at hle
            have hlt := hfirst.length_lt.trans_le hle
            refine (reads_block_statement (skipSeparators_seam hskip) ht).mpr
              ⟨first, seam mid us, fs, ?_, ih _ hlt (hlt.trans hts) rfl _ _ hrest, rfl⟩
            exact stable_statement below (hle.trans_lt hts) _ _ hfirst

theorem stable_if (hts : ts.length < n) {e : Expr} {rest : List Token}
    (h : Reads (primary (.keyword .if_ :: ts)) e rest) :
    Reads (primary (.keyword .if_ :: seam ts us)) e (seam rest us) := by
  obtain ⟨c, vs, thens, last, ws, hc, hthens, hlast⟩ := reads_primary_if.mp h
  have hvs := (Nat.lt_of_succ_lt hc.length_lt).trans hts
  have hws := hthens.length_lt.trans hvs
  refine reads_primary_if.mpr ⟨c, seam vs us, thens, last, seam ws us,
    stable_disjunction below hts _ _ hc, stable_block below hvs _ _ hthens, ?_⟩
  rcases hlast with ⟨rfl, elses, last', helses, rfl⟩ | ⟨hne, rfl, rfl⟩
  · exact Or.inl ⟨rfl, elses, last', stable_block below hws _ _ helses, rfl⟩
  · exact Or.inr ⟨hne, rfl, rfl⟩

theorem stable_project (hts : ts.length < n) {e : Expr} {rest : List Token}
    (h : Reads (primary (.keyword .project_ :: ts)) e rest) :
    Reads (primary (.keyword .project_ :: seam ts us)) e (seam rest us) := by
  obtain ⟨vs, es, mid, rfl, hes, hmid⟩ := reads_primary_project.mp h
  have hvs := Nat.lt_of_succ_lt hts
  refine reads_primary_project.mpr
    ⟨seam vs us, es, seam mid us, rfl, stable_projection below hvs _ _ hes, ?_⟩
  rcases hmid with ⟨more, f, rfl, hf, rfl⟩ | ⟨hwhere, rfl, rfl⟩
  · have hmore := (Nat.lt_of_succ_lt hes.length_lt).trans hvs
    exact Or.inl ⟨seam more us, f, rfl, stable_disjunction below hmore _ _ hf, rfl⟩
  · exact Or.inr ⟨head?_seam_ne nofun hwhere, rfl, rfl⟩

theorem stable_paren (hts : ts.length < n) (hparen : ts.head? ≠ some (.symbol .rightParen))
    {e : Expr} {rest : List Token} (h : Reads (primary (.symbol .leftParen :: ts)) e rest) :
    Reads (primary (.symbol .leftParen :: seam ts us)) e (seam rest us) := by
  obtain ⟨first, mid, hfirst, hmid⟩ := (reads_primary_paren hparen).mp h
  refine (reads_primary_paren (head?_seam_ne (by decide) hparen)).mpr
    ⟨first, seam mid us, stable_disjunction below hts _ _ hfirst, ?_⟩
  rcases hmid with ⟨more, es, rfl, hes, rfl⟩ | ⟨rfl, rfl⟩
  · have hmore := (Nat.lt_of_succ_lt hfirst.length_lt).trans hts
    exact Or.inl ⟨seam more us, es, rfl, stable_list below hmore _ _ hes, rfl⟩
  · exact Or.inr ⟨rfl, rfl⟩

theorem stable_primary (hts : ts.length ≤ n) : Stable us primary ts := by
  intro e rest h
  have hread := h
  rw [primary.eq_def] at h
  split at h
  · split at h
    · obtain ⟨rfl, rfl⟩ := reads_ok.mp h
      exact (reads_primary_constant (.number ‹_›)).mpr ⟨rfl, rfl⟩
    · exact absurd h reads_error
  case h_2 | h_3 | h_4 =>
    obtain ⟨rfl, rfl⟩ := reads_ok.mp h
    exact (reads_primary_constant (by constructor)).mpr ⟨rfl, rfl⟩
  case h_5 =>
    obtain ⟨fs, hfs, rfl⟩ := reads_primary_path.mp hread
    exact reads_primary_path.mpr ⟨fs, stable_fields hfs, rfl⟩
  case h_6 =>
    obtain ⟨rfl, rfl⟩ := reads_ok.mp h
    exact reads_primary_noArguments.mpr ⟨rfl, rfl⟩
  case h_7 more hparen =>
    obtain ⟨es, hes, rfl⟩ := (reads_primary_call (head?_ne hparen)).mp hread
    exact (reads_primary_call (head?_seam_ne (by decide) (head?_ne hparen))).mpr
      ⟨es, stable_list below (Nat.lt_of_succ_lt hts) _ _ hes, rfl⟩
  case h_8 hdot _ hparen =>
    obtain ⟨rfl, rfl⟩ := reads_ok.mp h
    exact (reads_primary_var (head?_seam_ne (by decide) (head?_ne hdot))
      (head?_seam_ne (by decide) (head?_ne hparen))).mpr ⟨rfl, rfl⟩
  case h_9 =>
    obtain ⟨rfl, rfl⟩ := reads_ok.mp h
    exact reads_primary_noElements.mpr ⟨rfl, rfl⟩
  case h_10 hparen => exact stable_paren below hts (head?_ne hparen) hread
  case h_11 => exact stable_if below hts hread
  case h_12 => exact stable_project below hts hread
  case h_13 => exact absurd h reads_error

theorem stable_indexedRest {bound larger : Nat} {left : Expr} {within : ts.length < bound}
    {within' : (seam ts us).length < larger} (hts : ts.length < n) {e : Expr} {rest : List Token}
    (h : Reads (indexedRest bound left ts within) e rest) :
    Reads (indexedRest larger left (seam ts us) within') e (seam rest us) := by
  induction hlength : ts.length using Nat.strong_induction_on generalizing ts left with
  | _ k ih =>
      subst hlength
      by_cases hhead : ts.head? = some (.symbol .leftBracket)
      · obtain ⟨more, rfl⟩ := List.head?_eq_some_iff.mp hhead
        obtain ⟨position, mid, hposition, hrest⟩ := reads_indexedRest_bracket.mp h
        have hmid := hposition.length_lt
        simp only [List.length_cons] at hmid hts within
        refine reads_indexedRest_bracket.mpr ⟨position, seam mid us, ?_, fun hwithin => ?_⟩
        · exact stable_disjunction below (by omega) _ _ hposition
        · exact ih _ (by simp; omega) (by omega) (hrest (by omega)) rfl
      · obtain ⟨rfl, rfl⟩ := (reads_indexedRest_end hhead).mp h
        exact (reads_indexedRest_end (head?_seam_ne (by decide) hhead)).mpr ⟨rfl, rfl⟩

theorem stable_chainRest {c : Chain} {bound larger : Nat} {left : Expr}
    {within : ts.length < bound} {within' : (seam ts us).length < larger} (hts : ts.length < n)
    {e : Expr} {rest : List Token} (h : Reads (chainRest c bound left ts within) e rest) :
    Reads (chainRest c larger left (seam ts us) within') e (seam rest us) := by
  induction hlength : ts.length using Nat.strong_induction_on generalizing ts left with
  | _ k ih =>
      subst hlength
      by_cases hhead : ∀ t ∈ ts.head?, c.operator? t = none
      · obtain ⟨rfl, rfl⟩ := (reads_chainRest_end hhead).mp h
        have hsemicolon : c.operator? (.symbol .semicolon) = none := by
          cases c <;> rfl
        exact (reads_chainRest_end (forall_head?_seam hsemicolon hhead)).mpr ⟨rfl, rfl⟩
      · obtain ⟨t, more, op, rfl, hop⟩ := exists_operator hhead
        obtain ⟨right, mid, hright, hrest⟩ := (reads_chainRest_operator hop).mp h
        have hmid := hright.length_lt
        simp only [List.length_cons] at hts within
        rw [operand_eq] at hright
        refine (reads_chainRest_operator hop).mpr ⟨right, seam mid us, ?_, fun hwithin => ?_⟩
        · rw [operand_eq]
          exact below _ (by omega) _ c.level_lt _ _ hright
        · exact ih _ (by simp; omega) (by omega) (hrest (by omega)) rfl

theorem stable_indexed (hts : ts.length ≤ n) : Stable us indexed ts := by
  intro e rest h
  obtain ⟨first, mid, hfirst, hrest⟩ := reads_indexed.mp h
  have hmid := hfirst.length_lt
  exact reads_indexed.mpr ⟨first, seam mid us, stable_primary below hts _ _ hfirst,
    fun _ => stable_indexedRest below (hmid.trans_le hts) (hrest hmid)⟩

theorem stable_negative (hts : ts.length ≤ n) : Stable us negative ts := by
  intro e rest h
  by_cases hhead : ts.head? = some (.symbol .minus)
  · obtain ⟨more, rfl⟩ := List.head?_eq_some_iff.mp hhead
    obtain ⟨x, hx, rfl⟩ := reads_negative_minus.mp h
    exact reads_negative_minus.mpr ⟨x, below _ hts 8 (by decide) _ _ hx, rfl⟩
  · exact (reads_negative_indexed (head?_seam_ne (by decide) hhead)).mpr
      (stable_indexed below hts _ _ ((reads_negative_indexed hhead).mp h))

theorem stable_chain {c : Chain} (hts : ts.length ≤ n) (hoperand : Stable us (operand c) ts) :
    Stable us (chain c) ts := by
  intro e rest h
  obtain ⟨first, mid, hfirst, hrest⟩ := reads_chain.mp h
  have hmid := hfirst.length_lt
  exact reads_chain.mpr ⟨first, seam mid us, hoperand _ _ hfirst,
    fun _ => stable_chainRest below (hmid.trans_le hts) (hrest hmid)⟩

theorem stable_comparison (hts : ts.length ≤ n) (hsum : Stable us (chain .sum) ts) :
    Stable us comparison ts := by
  intro e rest h
  obtain ⟨left, mid, hleft, hcompares⟩ := reads_comparison.mp h
  refine reads_comparison.mpr ⟨left, seam mid us, hsum _ _ hleft, ?_⟩
  have hmid := hleft.length_lt
  cases hcompares with
  | isEmpty => exact .isEmpty
  | isNotEmpty => exact .isNotEmpty
  | @binary op right more _ hlevel hright =>
      have hmore : more.length < n := by
        simp only [List.length_append] at hmid hts
        omega
      have hseam : seam (op.tokens ++ more) us = op.tokens ++ seam more us :=
        List.append_assoc ..
      rw [hseam]
      exact .binary op hlevel (below more hmore 6 (by decide) _ _ hright)
  | nothing hgrip => exact .nothing (grip_seam_ne_five hgrip)

theorem stable_negation (hts : ts.length ≤ n) (hcomparison : Stable us comparison ts) :
    Stable us negation ts := by
  intro e rest h
  by_cases hhead : ∀ t ∈ ts.head?, isNegation t = false
  · exact (reads_negation_comparison (forall_head?_seam rfl hhead)).mpr
      (hcomparison _ _ ((reads_negation_comparison hhead).mp h))
  · cases ts with
    | nil => exact absurd nofun hhead
    | cons t ts =>
        have ht : isNegation t = true := by simpa using hhead
        obtain ⟨x, hx, rfl⟩ := (reads_negation_not ht).mp h
        exact (reads_negation_not ht).mpr ⟨x, below _ hts 4 (by decide) _ _ hx, rfl⟩

/-- From the tightest function to the loosest, each one on the same tokens. -/
theorem stable_of_below (hts : ts.length ≤ n) {demand : Nat} (hdemand : demand ≤ 10) :
    Stable us (phraseAt demand) ts := by
  have hnegative := stable_negative below hts
  have hproduct : Stable us (chain .product) ts :=
    stable_chain below hts fun e rest => by simpa only [operand] using hnegative e rest
  have hsum : Stable us (chain .sum) ts :=
    stable_chain below hts fun e rest => by simpa only [operand] using hproduct e rest
  have hnegation := stable_negation below hts (stable_comparison below hts hsum)
  have hconjunction : Stable us (chain .conjunction) ts :=
    stable_chain below hts fun e rest => by simpa only [operand] using hnegation e rest
  have hexclusion : Stable us (chain .exclusion) ts :=
    stable_chain below hts fun e rest => by simpa only [operand] using hconjunction e rest
  have hdisjunction : Stable us (chain .disjunction) ts :=
    stable_chain below hts fun e rest => by simpa only [operand] using hexclusion e rest
  interval_cases demand
  exacts [hdisjunction, hdisjunction, hexclusion, hconjunction, hnegation,
    stable_comparison below hts hsum, hsum, hproduct, hnegative, stable_indexed below hts,
    stable_primary below hts]

end Below

/-! ### All tokens -/

theorem stable_phraseAt {demand : Nat} (hdemand : demand ≤ 10) (ts : List Token) :
    Stable us (phraseAt demand) ts := by
  induction hlength : ts.length using Nat.strong_induction_on generalizing ts demand with
  | _ n ih =>
      subst hlength
      exact stable_of_below (fun vs hvs _ hd => ih _ hvs hd vs rfl) le_rfl hdemand

/-! ### Programs -/

theorem stable_names (ts : List Token) : Stable us names ts := by
  induction ts using names.induct with
  | case1 text ts ih =>
      intro ns rest h
      obtain ⟨more, hmore, rfl⟩ := reads_names_comma.mp h
      exact reads_names_comma.mpr ⟨more, ih _ _ hmore, rfl⟩
  | case2 text ts hcomma =>
      intro ns rest h
      obtain ⟨rfl, rfl⟩ := (reads_names_last (head?_ne hcomma)).mp h
      exact (reads_names_last (head?_seam_ne (by decide) (head?_ne hcomma))).mpr ⟨rfl, rfl⟩
  | case3 ts hcons hname =>
      intro ns rest h
      rw [names] at h
      · exact absurd h reads_error
      · exact hcons
      · exact hname

theorem stable_parameters (ts : List Token) : Stable us parameters ts := by
  intro ps rest h
  obtain ⟨more, rfl, hmore⟩ := reads_parameters.mp h
  refine reads_parameters.mpr ⟨seam more us, rfl, ?_⟩
  rcases hmore with ⟨rfl, rfl⟩ | ⟨hparen, hnames⟩
  · exact Or.inl ⟨rfl, rfl⟩
  · exact Or.inr ⟨head?_seam_ne (by decide) hparen, stable_names more _ _ hnames⟩

theorem stable_functionDef (ts : List Token) : Stable us functionDef ts := by
  intro f rest h
  obtain ⟨name, more, ps, vs, body, last, rfl, hps, hbody, rfl⟩ := reads_functionDef.mp h
  exact reads_functionDef.mpr ⟨name, seam more us, ps, seam vs us, body, last, rfl,
    stable_parameters more _ _ hps,
    stable_block (fun ts _ _ hd => stable_phraseAt hd ts) (Nat.lt_succ_self _) _ _ hbody, rfl⟩

/-- The parts of some tokens come before the parts of the tokens behind the semicolon. -/
theorem readsParts_seam {parts others : List Part} (hts : ReadsParts ts parts)
    (hus : ReadsParts us others) : ReadsParts (seam ts us) (parts ++ others) := by
  induction hts with
  | nil hskip =>
      have hseam : skipSeparators (seam _ us) = skipSeparators us := skipSeparators_seam_nil hskip
      cases hus with
      | nil hnil => exact .nil (hseam.trans hnil)
      | function hcons hf hrest => exact .function (hseam.trans hcons) hf hrest
      | statement hcons hne he hrest => exact .statement (hseam.trans hcons) hne he hrest
  | function hskip hf _ ih =>
      exact .function (skipSeparators_seam hskip) (stable_functionDef _ _ _ hf) ih
  | statement hskip hne he _ ih =>
      refine .statement (skipSeparators_seam hskip) hne ?_ ih
      exact stable_statement (fun ts _ _ hd => stable_phraseAt hd ts) (Nat.lt_succ_self _) _ _ he

end FrameLang.Grammar
