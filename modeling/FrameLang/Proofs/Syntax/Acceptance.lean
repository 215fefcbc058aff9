/-
The grammar accepts only what it returns.

Whatever expression is read, the tokens in front of those that are left are a rendering of it, in
the free style: nothing is skipped, read twice or moved.  And what is left was spared: the
functions take all that they can, and a filter that ends in the midst of other phrases has not left
them anything that it could have taken.

Every function reads its operands from fewer tokens than it has or hands the same tokens on to the
next tighter function.  So the induction is on the number of tokens, and within a step the functions
are taken from the tightest to the loosest.
-/
import FrameLang.Proofs.Syntax.Inversion
import Mathlib

namespace FrameLang.Grammar

/-! ### What is next -/

namespace Next

/-- With less to be spared, or with nothing next. -/
def Loosens (next looser : Next) : Prop :=
  looser.step = 0 ∨ looser.step = next.step ∧ (looser.spared = true → next.spared = true)

variable {next looser : Next}

theorem Loosens.spares (h : next.Loosens looser) {demand level : Nat}
    (hspares : next.Spares demand level) : looser.Spares demand level := by
  intro hspared
  obtain hzero | ⟨hstep, himp⟩ := h
  · exact .inl hzero
  · rw [hstep]
    exact hspares (himp hspared)

theorem Loosens.toSpare (h : next.Loosens looser) : next.toSpare.Loosens looser.toSpare :=
  h.imp_right fun hstep => ⟨hstep.1, fun _ => rfl⟩

end Next

/-- What is shown of a phrase with something next. -/
def IsLoosened (style : Style) : Phrase → List Token → Prop
  | .operand demand next e, ts => ∀ looser, next.Loosens looser →
      Renders style (.operand demand looser e) ts
  | .bare next e, ts => ∀ looser, next.Loosens looser → Renders style (.bare looser e) ts
  | _, _ => True

theorem isLoosened_of_renders {style : Style} {phrase : Phrase} {ts : List Token}
    (h : Renders style phrase ts) : IsLoosened style phrase ts := by
  induction h with
  | bare hlevel hspares _ ih => exact fun next h => .bare hlevel (h.spares hspares) (ih next h)
  | parens hlevel hspares hinner _ =>
      exact fun next h => .parens hlevel (h.spares hspares) hinner
  | constant hv => exact fun _ _ => .constant hv
  | var => exact fun _ _ => .var
  | path hfield => exact fun _ _ => .path hfield
  | call hes _ => exact fun _ _ => .call hes
  | vector hlength hes _ => exact fun _ _ => .vector hlength hes
  | ifThen hc ht _ _ => exact fun _ _ => .ifThen hc ht
  | ifElse hc ht he _ _ _ => exact fun _ _ => .ifElse hc ht he
  | project hne hes _ => exact fun _ _ => .project hne hes
  | filter hne hes _ _ ihf => exact fun next h => .filter hne hes (ihf _ h.toSpare)
  | index hv hp _ _ => exact fun _ _ => .index hv hp
  | minus _ ih => exact fun next h => .minus (ih next h)
  | not ht _ ih => exact fun next h => .not ht (ih next h)
  | isEmpty he _ => exact fun _ _ => .isEmpty he
  | isNotEmpty he _ => exact fun _ _ => .isNotEmpty he
  | binary hl _ _ ihr => exact fun next h => .binary hl (ihr next h)
  | _ => trivial

theorem Renders.loosen {style : Style} {demand : Nat} {next looser : Next} {e : Expr}
    {ts : List Token} (h : Renders style (.operand demand next e) ts)
    (hnext : next.Loosens looser) : Renders style (.operand demand looser e) ts :=
  isLoosened_of_renders h looser hnext

/-- Where more is demanded, less would do, unless what is to be spared binds in between. -/
theorem Renders.weaken {demand weaker : Nat} {next : Next} {e : Expr} {ts : List Token}
    (h : Renders .free (.operand demand next e) ts) (hle : weaker ≤ demand)
    (hspared : next.spared = true → next.step = 0 ∨ next.step < weaker ∨ demand ≤ next.step) :
    Renders .free (.operand weaker next e) ts := by
  have hspares : ∀ {level}, next.Spares demand level → next.Spares weaker level := by
    intro level h htrue
    have hdemand := h htrue
    have hbetween := hspared htrue
    omega
  cases h with
  | bare hlevel hnext hbare => exact .bare (hle.trans hlevel) (hspares hnext) hbare
  | parens _ hnext hinner => exact .parens nofun (hspares hnext) hinner

/-- The step at which the tokens would go on with a phrase in front of them. -/
def ahead (ts : List Token) : Nat := if grip ts = 10 then 0 else grip ts

theorem ahead_lt (ts : List Token) : ahead ts < 10 := by
  unfold ahead grip
  split <;> decide

/-- No function reads operators at these steps but in front of its operand. -/
theorem ahead_ne (ts : List Token) : ahead ts ≠ 4 ∧ ahead ts ≠ 8 := by
  unfold ahead grip
  split <;> decide

namespace Next

/-- Tokens that are left behind a phrase have been spared. -/
def left (ts : List Token) : Next := { step := ahead ts, spared := true }

/-- Tokens behind the operand of a step, which may go on with it. -/
def behind (step : Nat) (ts : List Token) : Next :=
  { step := ahead ts, spared := ahead ts ≠ step }

theorem behind_eq_left {step : Nat} {ts : List Token} (h : ahead ts ≠ step) :
    behind step ts = left ts := by
  simp [behind, left, h]

theorem behind_eq {step : Nat} {ts : List Token} (h : ahead ts = step) :
    behind step ts = { step } := by
  simp [behind, h]

theorem loosens_behind (step : Nat) (ts : List Token) : (left ts).Loosens (behind step ts) :=
  .inr ⟨rfl, fun _ => rfl⟩

theorem loosens_nothing (next : Next) : next.Loosens .nothing := .inl rfl

theorem loosens_taken (next : Next) : next.Loosens { step := next.step } :=
  .inr ⟨rfl, fun hspared => absurd hspared Bool.false_ne_true⟩

/-- An expression of a step spares what does not go on with it. -/
theorem spares_behind (step : Nat) (ts : List Token) : (behind step ts).Spares step step := by
  intro hspared
  have hne : ahead ts ≠ step := of_decide_eq_true hspared
  change ahead ts = 0 ∨ ahead ts < step ∨ step < ahead ts ∨ _
  omega

theorem spares_left {step : Nat} {ts : List Token} (h : ahead ts ≠ step) :
    (left ts).Spares step step :=
  behind_eq_left h ▸ spares_behind step ts

theorem spares_primary (ts : List Token) (level : Nat) : (left ts).Spares 10 level :=
  fun _ => .inr (.inl (ahead_lt ts))

end Next

/-- An operand of one step is one of the step below. -/
theorem Renders.behind {demand : Nat} {e : Expr} {ts us : List Token}
    (h : Renders .free (.operand (demand + 1) (.left ts) e) us) :
    Renders .free (.operand demand (.behind demand ts) e) us := by
  refine (h.loosen (Next.loosens_behind demand ts)).weaken (Nat.le_succ _) fun hspared => ?_
  have hne : ahead ts ≠ demand := of_decide_eq_true hspared
  change ahead ts = 0 ∨ ahead ts < demand ∨ demand + 1 ≤ ahead ts
  omega

/-! ### What is accounted for -/

/-- The tokens in front of the rest are a rendering. -/
def Accounts (ts : List Token) (phrase : Phrase) (rest : List Token) : Prop :=
  ∃ us, ts = us ++ rest ∧ Renders .free phrase us

/-- The tokens in front of the rest are a rendering at a demand, which has spared the rest. -/
def AccountsAt (demand : Nat) (ts : List Token) (e : Expr) (rest : List Token) : Prop :=
  Accounts ts (.operand demand (.left rest) e) rest

theorem AccountsAt.looser {demand : Nat} {e : Expr} {ts rest : List Token}
    (h : AccountsAt (demand + 1) ts e rest) (hrest : ahead rest ≠ demand) :
    AccountsAt demand ts e rest := by
  obtain ⟨us, hus, hrender⟩ := h
  exact ⟨us, hus, Next.behind_eq_left hrest ▸ hrender.behind⟩

theorem AccountsAt.unasked {e : Expr} {ts rest : List Token} (h : AccountsAt 1 ts e rest) :
    AccountsAt 0 ts e rest := by
  obtain ⟨us, hus, hrender⟩ := h
  exact ⟨us, hus, hrender.weaken (Nat.zero_le 1) fun _ => by omega⟩

theorem AccountsAt.whole {e : Expr} {ts rest : List Token} (h : AccountsAt 0 ts e rest) :
    Accounts ts (.operand 0 .nothing e) rest := by
  obtain ⟨us, hus, hrender⟩ := h
  exact ⟨us, hus, hrender.loosen (Next.loosens_nothing _)⟩

theorem Accounts.item {role : Role} {e : Expr} {ts rest : List Token}
    (h : Accounts ts (.operand 0 .nothing e) rest) : Accounts ts (.item role e) rest := by
  obtain ⟨us, hus, hrender⟩ := h
  exact ⟨us, hus, .item hrender⟩

/-- The items of a list are accounted for if each one is. -/
theorem accounts_items {role : Role} {close : Symbol}
    {n : Nat} {itemAt : (ts : List Token) → Outcome Expr ts.length}
    {listAt : (ts : List Token) → Outcome (List Expr) ts.length}
    (hlist : ∀ {ts es rest}, Reads (listAt ts) es rest →
      ∃ first mid, Reads (itemAt ts) first mid ∧ GoesOn close listAt first mid es rest)
    (hitem : ∀ {ts : List Token}, ts.length < n → ∀ {e rest}, Reads (itemAt ts) e rest →
      Accounts ts (.item role e) rest)
    {ts : List Token} (hts : ts.length < n) {es : List Expr} {rest : List Token}
    (h : Reads (listAt ts) es rest) :
    es ≠ [] ∧ Accounts ts (.list role es) (.symbol close :: rest) := by
  induction hlength : ts.length using Nat.strong_induction_on generalizing ts es with
  | _ k ih =>
      subst hlength
      obtain ⟨first, mid, hfirst, hmore⟩ := hlist h
      have hmid := hfirst.length_lt
      obtain ⟨us, rfl, hus⟩ := hitem hts hfirst
      rcases hmore with ⟨more, fs, rfl, hrest, rfl⟩ | ⟨rfl, rfl⟩
      · have hlt : more.length < (us ++ .symbol .comma :: more).length :=
          (Nat.lt_succ_self _).trans hmid
        obtain ⟨hne, vs, rfl, hvs⟩ := ih _ hlt (hlt.trans hts) hrest rfl
        obtain ⟨f, fs, rfl⟩ := List.exists_cons_of_ne_nil hne
        exact ⟨List.cons_ne_nil _ _, us ++ .symbol .comma :: vs, by simp, .moreItems hus hvs⟩
      · exact ⟨List.cons_ne_nil _ _, us, rfl, .lastItem hus⟩

theorem head?_ne {t : Token} {ts : List Token} (h : ∀ more, ts = t :: more → False) :
    ts.head? ≠ some t := fun hhead =>
  (List.head?_eq_some_iff.mp hhead).elim h

theorem exists_operator {c : Chain} {ts : List Token}
    (h : ¬∀ t ∈ ts.head?, c.operator? t = none) :
    ∃ t more op, ts = t :: more ∧ c.operator? t = some op := by
  cases ts with
  | nil => exact absurd nofun h
  | cons t more =>
      cases hop : c.operator? t with
      | none => exact absurd (fun s hs => Option.some.inj hs ▸ hop) h
      | some op => exact ⟨t, more, op, rfl, hop⟩

theorem ahead_tokens (op : BinaryOp) (ts : List Token) : ahead (op.tokens ++ ts) = op.level := by
  have hlevel := level_le_seven op
  unfold ahead
  rw [grip_tokens]
  exact if_neg (by omega)

theorem ahead_of_operator? {c : Chain} {t : Token} {op : BinaryOp} (h : c.operator? t = some op)
    (ts : List Token) : ahead (t :: ts) = c.level := by
  obtain ⟨htokens, hlevel⟩ := Chain.operator?_eq_some_iff.mp h
  rw [← hlevel, ← ahead_tokens op ts, htokens]
  rfl

theorem ahead_ne_level {c : Chain} {ts : List Token}
    (h : ∀ t ∈ ts.head?, c.operator? t = none) : ahead ts ≠ c.level := by
  intro hahead
  unfold ahead grip at hahead
  split at hahead <;> split at hahead <;> cases c <;> cases hahead <;> cases h _ rfl

theorem head?_of_ahead_nine {ts : List Token} (h : ahead ts = 9) :
    ts.head? = some (.symbol .leftBracket) := by
  unfold ahead grip at h
  split at h <;> split at h <;> first | rfl | cases h

theorem demands_of_chain {c : Chain} {op : BinaryOp} (h : op.level = c.level) :
    op.leftDemand = c.level ∧ op.rightDemand = c.level + 1 := by
  unfold BinaryOp.leftDemand BinaryOp.rightDemand
  rw [h]
  cases c <;> exact ⟨rfl, rfl⟩

section Below

/-! ### If it is so of fewer tokens -/

variable {n : Nat} (below : ∀ ts : List Token, ts.length < n → ∀ demand ≤ 10, ∀ e rest,
  Reads (phraseAt demand ts) e rest → AccountsAt demand ts e rest)

include below

theorem accounts_disjunction {ts : List Token} (hts : ts.length < n) {e : Expr} {rest : List Token}
    (h : Reads (chain .disjunction ts) e rest) : Accounts ts (.operand 0 .nothing e) rest :=
  AccountsAt.whole (below ts hts 0 (by decide) e rest h)

theorem accounts_element {ts : List Token} (hts : ts.length < n) {e : Expr} {rest : List Token}
    (h : Reads (element ts) e rest) : Accounts ts (.item .element e) rest := by
  by_cases hname : ∃ name more, ts = .name name :: .symbol .colon :: more
  · obtain ⟨name, more, rfl⟩ := hname
    obtain ⟨x, hx, rfl⟩ := reads_element_named.mp h
    obtain ⟨us, rfl, hus⟩ := accounts_disjunction below (by simp at hts; omega) hx
    exact ⟨_, rfl, .named hus⟩
  · obtain ⟨us, rfl, hus⟩ := accounts_disjunction below hts
      ((reads_element_plain fun name more heq => hname ⟨name, more, heq⟩).mp h)
    exact ⟨us, rfl, .item hus⟩

theorem accounts_statement {ts : List Token} (hts : ts.length < n) {e : Expr} {rest : List Token}
    (h : Reads (statement ts) e rest) : Accounts ts (.item .statement e) rest := by
  by_cases hname : ∃ name more, ts = .name name :: .symbol .assign :: more
  · obtain ⟨name, more, rfl⟩ := hname
    obtain ⟨x, hx, rfl⟩ := reads_statement_assign.mp h
    obtain ⟨us, rfl, hus⟩ := accounts_disjunction below (by simp at hts; omega) hx
    exact ⟨_, rfl, .assign hus⟩
  · obtain ⟨us, rfl, hus⟩ := accounts_disjunction below hts
      ((reads_statement_plain fun name more heq => hname ⟨name, more, heq⟩).mp h)
    exact ⟨us, rfl, .item hus⟩

theorem accounts_list {ts : List Token} (hts : ts.length < n) {es : List Expr} {rest : List Token}
    (h : Reads (list .rightParen ts) es rest) :
    es ≠ [] ∧ Accounts ts (.list .argument es) (.symbol .rightParen :: rest) :=
  accounts_items (reads_list (by decide)).mp
    (fun hts _ _ hread => (accounts_disjunction below hts hread).item) hts h

theorem accounts_projection {ts : List Token} (hts : ts.length < n) {es : List Expr}
    {rest : List Token} (h : Reads (projection ts) es rest) :
    es ≠ [] ∧ Accounts ts (.list .element es) (.symbol .rightBrace :: rest) :=
  accounts_items reads_projection.mp (fun hts _ _ => accounts_element below hts) hts h

theorem accounts_block {terminator : Token} {others ts : List Token} (hts : ts.length < n)
    {between : Bool} {es : List Expr} {last : Token} {rest : List Token}
    (h : Reads (block terminator others ts) (es, last) rest) :
    (last = terminator ∨ last ∈ others) ∧ Accounts ts (.block between es) (last :: rest) := by
  induction hlength : ts.length using Nat.strong_induction_on generalizing ts es between with
  | _ k ih =>
      subst hlength
      obtain ⟨separators, hsplit⟩ := exists_separators ts
      cases hskip : skipSeparators ts with
      | nil => exact absurd h (not_reads_block_nil hskip)
      | cons t more =>
          rw [hskip] at hsplit
          by_cases ht : t = terminator ∨ t ∈ others
          · obtain ⟨rfl, rfl, rfl⟩ := (reads_block_end hskip ht).mp h
            exact ⟨ht, _, hsplit, .noStatement trivial⟩
          · obtain ⟨first, mid, fs, hfirst, hrest, rfl⟩ := (reads_block_statement hskip ht).mp h
            have hle := length_skipSeparators_le ts
            rw [hskip] at hle
            have hmid := hfirst.length_lt
            obtain ⟨us, hus, hrender⟩ := accounts_statement below (hle.trans_lt hts) hfirst
            obtain ⟨hlast, vs, rfl, hvs⟩ :=
              ih _ (hmid.trans_le hle) ((hmid.trans_le hle).trans hts) hrest rfl
            refine ⟨hlast, List.replicate separators (.symbol .semicolon) ++ (us ++ vs), ?_, ?_⟩
            · rw [hsplit, hus, List.append_assoc, List.append_assoc]
            · exact .statement trivial hrender hvs

theorem accounts_call {name : String} {ts : List Token} (hts : ts.length < n)
    (hparen : ts.head? ≠ some (.symbol .rightParen)) {e : Expr} {rest : List Token}
    (h : Reads (primary (.name name :: .symbol .leftParen :: ts)) e rest) :
    AccountsAt 10 (.name name :: .symbol .leftParen :: ts) e rest := by
  obtain ⟨es, hes, rfl⟩ := (reads_primary_call hparen).mp h
  obtain ⟨-, us, rfl, hus⟩ := accounts_list below hts hes
  exact ⟨_, by simp, .bare le_rfl (Next.spares_primary _ _) (.call hus)⟩

theorem accounts_paren {ts : List Token} (hts : ts.length < n)
    (hparen : ts.head? ≠ some (.symbol .rightParen)) {e : Expr} {rest : List Token}
    (h : Reads (primary (.symbol .leftParen :: ts)) e rest) :
    AccountsAt 10 (.symbol .leftParen :: ts) e rest := by
  obtain ⟨first, mid, hfirst, hmid⟩ := (reads_primary_paren hparen).mp h
  have hlt := hfirst.length_lt
  obtain ⟨us, rfl, hus⟩ := accounts_disjunction below hts hfirst
  rcases hmid with ⟨more, es, rfl, hes, rfl⟩ | ⟨rfl, rfl⟩
  · obtain ⟨hne, vs, rfl, hvs⟩ := accounts_list below ((Nat.lt_of_succ_lt hlt).trans hts) hes
    obtain ⟨f, es, rfl⟩ := List.exists_cons_of_ne_nil hne
    refine ⟨.symbol .leftParen :: ((us ++ .symbol .comma :: vs) ++ [.symbol .rightParen]), by simp,
      .bare le_rfl (Next.spares_primary _ _) (.vector (by simp) (.moreItems (.item hus) hvs))⟩
  · exact ⟨_, by simp, .parens nofun (Next.spares_primary _ _) hus⟩

theorem accounts_if {ts : List Token} (hts : ts.length < n) {e : Expr} {rest : List Token}
    (h : Reads (primary (.keyword .if_ :: ts)) e rest) :
    AccountsAt 10 (.keyword .if_ :: ts) e rest := by
  obtain ⟨c, us, thens, last, vs, hc, hthens, hlast⟩ := reads_primary_if.mp h
  have hus := Nat.lt_of_succ_lt hc.length_lt
  have hvs := hthens.length_lt
  obtain ⟨cs, rfl, hcs⟩ := accounts_disjunction below hts hc
  obtain ⟨hterminator, bs, rfl, hbs⟩ := accounts_block below (hus.trans hts) hthens
  rcases hlast with ⟨rfl, elses, last', helses, rfl⟩ | ⟨hne, rfl, rfl⟩
  · obtain ⟨hend, ds, rfl, hds⟩ := accounts_block below (hvs.trans (hus.trans hts)) helses
    obtain rfl : last' = .keyword .endIf_ := by simpa using hend
    exact ⟨_, by simp, .bare le_rfl (Next.spares_primary _ _) (.ifElse hcs hbs hds)⟩
  · obtain rfl : last = .keyword .endIf_ := by simpa [hne] using hterminator
    exact ⟨_, by simp, .bare le_rfl (Next.spares_primary _ _) (.ifThen hcs hbs)⟩

theorem accounts_project {ts : List Token} (hts : ts.length < n) {e : Expr} {rest : List Token}
    (h : Reads (primary (.keyword .project_ :: ts)) e rest) :
    AccountsAt 10 (.keyword .project_ :: ts) e rest := by
  obtain ⟨us, es, mid, rfl, hes, hmid⟩ := reads_primary_project.mp h
  have hus := Nat.lt_of_succ_lt hts
  have hlt := hes.length_lt
  obtain ⟨hne, vs, rfl, hvs⟩ := accounts_projection below hus hes
  rcases hmid with ⟨more, f, rfl, hf, rfl⟩ | ⟨-, rfl, rfl⟩
  · obtain ⟨ws, rfl, hws⟩ :=
      below _ ((Nat.lt_of_succ_lt hlt).trans hus) 0 (by decide) _ _ hf
    exact ⟨_, by simp, .bare le_rfl (Next.spares_primary _ _) (.filter hne hvs hws)⟩
  · exact ⟨_, by simp, .bare le_rfl (Next.spares_primary _ _) (.project hne hvs)⟩

theorem accounts_primary {ts : List Token} (hts : ts.length ≤ n) {e : Expr} {rest : List Token}
    (h : Reads (primary ts) e rest) : AccountsAt 10 ts e rest := by
  have hread := h
  rw [primary.eq_def] at h
  split at h
  · split at h
    · obtain ⟨rfl, rfl⟩ := reads_ok.mp h
      exact ⟨[_], rfl, .bare le_rfl (Next.spares_primary _ _) (.constant (.number ‹_›))⟩
    · exact absurd h reads_error
  case h_2 | h_3 | h_4 =>
    obtain ⟨rfl, rfl⟩ := reads_ok.mp h
    exact ⟨[_], rfl, .bare le_rfl (Next.spares_primary _ _) (.constant (by constructor))⟩
  case h_5 =>
    obtain ⟨fs, hfs, rfl⟩ := reads_primary_path.mp hread
    obtain ⟨heq, hend⟩ := reads_fields.mp hfs
    rw [heq]
    refine ⟨_ :: dotted fs, rfl, .bare le_rfl (Next.spares_primary _ _) (.path ?_)⟩
    rintro rfl
    obtain rfl : _ = rest := heq
    exact hend rfl
  case h_6 =>
    obtain ⟨rfl, rfl⟩ := reads_ok.mp h
    exact ⟨[_, _, _], rfl, .bare le_rfl (Next.spares_primary _ _) (.call .noItem)⟩
  case h_7 more hparen =>
    exact accounts_call below (Nat.lt_of_succ_lt hts) (head?_ne hparen) hread
  case h_8 =>
    obtain ⟨rfl, rfl⟩ := reads_ok.mp h
    exact ⟨[_], rfl, .bare le_rfl (Next.spares_primary _ _) .var⟩
  case h_9 =>
    obtain ⟨rfl, rfl⟩ := reads_ok.mp h
    exact ⟨[_, _], rfl, .bare le_rfl (Next.spares_primary _ _) (.vector (by simp) .noItem)⟩
  case h_10 hparen =>
    exact accounts_paren below hts (head?_ne hparen) hread
  case h_11 => exact accounts_if below hts hread
  case h_12 => exact accounts_project below hts hread
  case h_13 => exact absurd h reads_error

theorem accounts_indexedRest {bound : Nat} {left : Expr} {ts : List Token}
    {within : ts.length < bound} (hts : ts.length < n) {e : Expr} {rest : List Token}
    (h : Reads (indexedRest bound left ts within) e rest) :
    ∃ us, ts = us ++ rest ∧ ∀ ls, Renders .free (.operand 9 (.behind 9 ts) left) ls →
      Renders .free (.operand 9 (.left rest) e) (ls ++ us) := by
  induction hlength : ts.length using Nat.strong_induction_on generalizing ts left with
  | _ k ih =>
      subst hlength
      by_cases hhead : ts.head? = some (.symbol .leftBracket)
      · obtain ⟨more, rfl⟩ := List.head?_eq_some_iff.mp hhead
        obtain ⟨position, mid, hposition, hrest⟩ := reads_indexedRest_bracket.mp h
        have hmid := hposition.length_lt
        simp only [List.length_cons] at hmid hts within
        obtain ⟨us, rfl, hus⟩ := accounts_disjunction below (by omega) hposition
        obtain ⟨vs, rfl, hvs⟩ := ih _ (by simp; omega) (by omega) (hrest (by omega)) rfl
        refine ⟨.symbol .leftBracket :: (us ++ .symbol .rightBracket :: vs), by simp, ?_⟩
        -- What is indexed next is all that has been read so far.
        intro ls hls
        have hindex := hvs _ (.bare le_rfl (Next.spares_behind 9 _) (.index hls hus))
        simpa using hindex
      · obtain ⟨rfl, rfl⟩ := (reads_indexedRest_end hhead).mp h
        have hahead : ahead rest ≠ 9 := fun hnine => hhead (head?_of_ahead_nine hnine)
        rw [Next.behind_eq_left hahead]
        exact ⟨[], rfl, fun ls hls => by rwa [List.append_nil]⟩

theorem accounts_chainRest {c : Chain} {bound : Nat} {left : Expr} {ts : List Token}
    {within : ts.length < bound} (hts : ts.length < n) {e : Expr} {rest : List Token}
    (h : Reads (chainRest c bound left ts within) e rest) :
    ∃ us, ts = us ++ rest ∧
      ∀ ls, Renders .free (.operand c.level (.behind c.level ts) left) ls →
        Renders .free (.operand c.level (.left rest) e) (ls ++ us) := by
  induction hlength : ts.length using Nat.strong_induction_on generalizing ts left with
  | _ k ih =>
      subst hlength
      by_cases hhead : ∀ t ∈ ts.head?, c.operator? t = none
      · obtain ⟨rfl, rfl⟩ := (reads_chainRest_end hhead).mp h
        rw [Next.behind_eq_left (ahead_ne_level hhead)]
        exact ⟨[], rfl, fun ls hls => by rwa [List.append_nil]⟩
      · obtain ⟨t, more, op, rfl, hop⟩ := exists_operator hhead
        obtain ⟨right, mid, hright, hrest⟩ := (reads_chainRest_operator hop).mp h
        have hmid := hright.length_lt
        simp only [List.length_cons] at hts within
        rw [operand_eq] at hright
        obtain ⟨htokens, hlevel⟩ := Chain.operator?_eq_some_iff.mp hop
        obtain ⟨us, rfl, hus⟩ := below _ (by omega) _ c.level_lt _ _ hright
        have hshorter : mid.length < (t :: (us ++ mid)).length := by
          rw [List.length_cons, List.length_append]
          omega
        obtain ⟨vs, rfl, hvs⟩ := ih _ hshorter (by omega) (hrest (by omega)) rfl
        refine ⟨t :: (us ++ vs), by simp, fun ls hls => ?_⟩
        obtain ⟨hl, hr⟩ := demands_of_chain hlevel
        rw [Next.behind_eq (ahead_of_operator? hop _), ← hlevel] at hls
        have hright := hus.loosen (Next.loosens_behind c.level _)
        have hbinary : Renders .free (.bare (.behind c.level (vs ++ rest)) (.binary op left right))
            (ls ++ (op.tokens ++ us)) := .binary (hl ▸ hlevel ▸ hls) (hr ▸ hright)
        have hspares := Next.spares_behind c.level (vs ++ rest)
        have hall := hvs _ (.bare hlevel.ge (hlevel.symm ▸ hspares) hbinary)
        rw [htokens] at hall
        simpa using hall

theorem accounts_chain {c : Chain} {ts : List Token} (hts : ts.length ≤ n)
    (hoperand : ∀ {e rest}, Reads (operand c ts) e rest → AccountsAt (c.level + 1) ts e rest)
    {e : Expr} {rest : List Token} (h : Reads (chain c ts) e rest) :
    AccountsAt c.level ts e rest := by
  obtain ⟨first, mid, hfirst, hmore⟩ := reads_chain.mp h
  have hmid := hfirst.length_lt
  obtain ⟨us, hus, hleft⟩ := hoperand hfirst
  obtain ⟨vs, rfl, hvs⟩ := accounts_chainRest below (hmid.trans_le hts) (hmore hmid)
  exact ⟨us ++ vs, by rw [hus, List.append_assoc], hvs us hleft.behind⟩

theorem accounts_indexed {ts : List Token} (hts : ts.length ≤ n) {e : Expr} {rest : List Token}
    (h : Reads (indexed ts) e rest) : AccountsAt 9 ts e rest := by
  obtain ⟨first, mid, hfirst, hmore⟩ := reads_indexed.mp h
  have hmid := hfirst.length_lt
  obtain ⟨us, hus, hleft⟩ := accounts_primary below hts hfirst
  obtain ⟨vs, rfl, hvs⟩ := accounts_indexedRest below (hmid.trans_le hts) (hmore hmid)
  exact ⟨us ++ vs, by rw [hus, List.append_assoc], hvs us hleft.behind⟩

theorem accounts_negative {ts : List Token} (hts : ts.length ≤ n) {e : Expr} {rest : List Token}
    (h : Reads (negative ts) e rest) : AccountsAt 8 ts e rest := by
  by_cases hhead : ts.head? = some (.symbol .minus)
  · obtain ⟨more, rfl⟩ := List.head?_eq_some_iff.mp hhead
    obtain ⟨x, hx, rfl⟩ := reads_negative_minus.mp h
    obtain ⟨us, rfl, hus⟩ := below _ hts 8 (by decide) _ _ hx
    exact ⟨_, rfl, .bare le_rfl (Next.spares_left (ahead_ne rest).2) (.minus hus)⟩
  · have hindexed := accounts_indexed below hts ((reads_negative_indexed hhead).mp h)
    exact hindexed.looser (ahead_ne rest).2

theorem accounts_comparison {ts : List Token} (hts : ts.length ≤ n)
    (hsum : ∀ {e rest}, Reads (chain .sum ts) e rest → AccountsAt 6 ts e rest)
    {e : Expr} {rest : List Token} (h : Reads (comparison ts) e rest) :
    AccountsAt 5 ts e rest := by
  obtain ⟨left, mid, hleft, hcompares⟩ := reads_comparison.mp h
  have hmid := hleft.length_lt
  obtain ⟨us, rfl, hus⟩ := hsum hleft
  have hspares : (Next.left rest).Spares 5 5 := fun _ => by omega
  cases hcompares with
  | isEmpty =>
      exact ⟨us ++ [_, _], by simp,
        .bare le_rfl hspares (.isEmpty (hus.loosen (Next.loosens_taken _)))⟩
  | isNotEmpty =>
      exact ⟨us ++ [_, _, _], by simp,
        .bare le_rfl hspares (.isNotEmpty (hus.loosen (Next.loosens_taken _)))⟩
  | @binary op right more _ hlevel hright =>
      have hmore : more.length < n := by
        simp only [List.length_append] at hmid hts
        omega
      obtain ⟨vs, rfl, hvs⟩ := below more hmore 6 (by decide) right rest hright
      obtain ⟨hl, hr⟩ : op.leftDemand = 6 ∧ op.rightDemand = 6 := by
        simp [BinaryOp.leftDemand, BinaryOp.rightDemand, hlevel]
      have hus : Renders .free (.operand 6 { step := op.level } left) us :=
        ahead_tokens op _ ▸ hus.loosen (Next.loosens_taken _)
      exact ⟨us ++ (op.tokens ++ vs), by simp,
        .bare hlevel.ge (hlevel.symm ▸ hspares) (.binary (hl ▸ hus) (hr ▸ hvs))⟩
  | nothing hgrip =>
      refine AccountsAt.looser ⟨us, rfl, hus⟩ ?_
      unfold ahead
      split <;> omega

theorem accounts_negation {ts : List Token} (hts : ts.length ≤ n)
    (hcomparison : ∀ {e rest}, Reads (comparison ts) e rest → AccountsAt 5 ts e rest)
    {e : Expr} {rest : List Token} (h : Reads (negation ts) e rest) :
    AccountsAt 4 ts e rest := by
  by_cases hhead : ∀ t ∈ ts.head?, isNegation t = false
  · exact (hcomparison ((reads_negation_comparison hhead).mp h)).looser (ahead_ne rest).1
  · cases ts with
    | nil => exact absurd nofun hhead
    | cons t ts =>
        have ht : isNegation t = true := by simpa using hhead
        obtain ⟨x, hx, rfl⟩ := (reads_negation_not ht).mp h
        obtain ⟨us, rfl, hus⟩ := below _ hts 4 (by decide) _ _ hx
        exact ⟨_, rfl, .bare le_rfl (Next.spares_left (ahead_ne rest).1) (.not ht hus)⟩

/-- From the tightest function to the loosest, each one on the same tokens. -/
theorem accounts_of_below {ts : List Token} (hts : ts.length ≤ n) {demand : Nat}
    (hdemand : demand ≤ 10) {e : Expr} {rest : List Token} (h : Reads (phraseAt demand ts) e rest) :
    AccountsAt demand ts e rest := by
  have hproduct {e rest} (h : Reads (chain .product ts) e rest) : AccountsAt 7 ts e rest :=
    accounts_chain below hts (by rw [operand]; exact accounts_negative below hts) h
  have hsum {e rest} (h : Reads (chain .sum ts) e rest) : AccountsAt 6 ts e rest :=
    accounts_chain below hts (by rw [operand]; exact hproduct) h
  have hcomparison {e rest} (h : Reads (comparison ts) e rest) : AccountsAt 5 ts e rest :=
    accounts_comparison below hts hsum h
  have hnegation {e rest} (h : Reads (negation ts) e rest) : AccountsAt 4 ts e rest :=
    accounts_negation below hts hcomparison h
  have hconjunction {e rest} (h : Reads (chain .conjunction ts) e rest) :
      AccountsAt 3 ts e rest :=
    accounts_chain below hts (by rw [operand]; exact hnegation) h
  have hexclusion {e rest} (h : Reads (chain .exclusion ts) e rest) : AccountsAt 2 ts e rest :=
    accounts_chain below hts (by rw [operand]; exact hconjunction) h
  have hdisjunction {e rest} (h : Reads (chain .disjunction ts) e rest) :
      AccountsAt 1 ts e rest :=
    accounts_chain below hts (by rw [operand]; exact hexclusion) h
  -- A demand of nothing is met by a disjunction, as the grammar has no looser function.
  interval_cases demand
  exacts [(hdisjunction h).unasked, hdisjunction h, hexclusion h, hconjunction h,
    hnegation h, hcomparison h, hsum h, hproduct h, accounts_negative below hts h,
    accounts_indexed below hts h, accounts_primary below hts h]

end Below

/-! ### All tokens -/

/-- What is read of any tokens, at any demand, is accounted for. -/
theorem accounts_of_reads {ts : List Token} {demand : Nat} (hdemand : demand ≤ 10) {e : Expr}
    {rest : List Token} (h : Reads (phraseAt demand ts) e rest) : AccountsAt demand ts e rest := by
  induction hlength : ts.length using Nat.strong_induction_on generalizing ts demand e rest with
  | _ n ih =>
      subst hlength
      exact accounts_of_below (fun us hus _ hd _ _ hread => ih _ hus hd hread rfl) le_rfl hdemand h

/-- An accepted list of tokens is a rendering of what is returned and semicolons behind it. -/
theorem exists_rendering {ts : List Token} {e : Expr} (h : wholeExpression ts = .ok e) :
    ∃ us n, ts = us ++ List.replicate n (.symbol .semicolon) ∧
      Renders .free (.operand 0 .nothing e) us := by
  obtain ⟨rest, hread, hrest⟩ := wholeExpression_eq_ok_iff.mp h
  obtain ⟨us, rfl, hus⟩ := (accounts_of_reads (Nat.zero_le 10) hread).whole
  obtain ⟨n, hn⟩ := exists_separators rest
  rw [hrest, List.append_nil] at hn
  subst hn
  exact ⟨us, n, rfl, hus⟩

/-- **What is accepted is a rendering of what is returned**, with any number of semicolons behind
it.  The rendering is one of nothing else, if semicolons separate the statements in it. -/
theorem renders_of_wholeExpression {ts : List Token} {e : Expr} (h : wholeExpression ts = .ok e) :
    ∃ us n, ts = us ++ List.replicate n (.symbol .semicolon) ∧
      Renders .free (.operand 0 .nothing e) us ∧
      ∀ other, Renders .separated (.operand 0 .nothing other) us → other = e := by
  obtain ⟨us, n, rfl, hus⟩ := exists_rendering h
  refine ⟨us, n, rfl, hus, fun other hother => ?_⟩
  have hback := wholeExpression_append_of_renders separates_separated hother n
  exact Except.ok.inj (hback.symm.trans h)

/-- Without a semicolon between two statements, with one in front, with a number that starts with
zeros and with parentheses that are not needed. -/
theorem renders_of_wholeExpression_branch :
    ∃ us n, ([.symbol .bang, .keyword .if_, .name "a", .keyword .then_, .symbol .semicolon,
        .name "x", .symbol .assign, .number "007", .name "b", .keyword .endIf_, .symbol .equal,
        .symbol .leftParen, .name "c", .symbol .rightParen, .symbol .semicolon] : List Token) =
          us ++ List.replicate n (.symbol .semicolon) ∧
      Renders .free (.operand 0 .nothing (.unary .not (.binary (.comparison .eq)
        (.ifElse (.var "a") (.sequence [.assign "x" (.literal (.long 7)), .var "b"]) none)
        (.var "c")))) us ∧
      ∀ other, Renders .separated (.operand 0 .nothing other) us →
        other = .unary .not (.binary (.comparison .eq)
          (.ifElse (.var "a") (.sequence [.assign "x" (.literal (.long 7)), .var "b"]) none)
          (.var "c")) :=
  renders_of_wholeExpression (by cbv)

/-! ### Filters without parentheses -/

theorem leftParen_mem_of_filter {demand : Nat} {next : Next} {es : List Expr} {f : Expr}
    {ts : List Token} (hdemand : 0 < demand)
    (h : Renders .grouped (.operand demand next (.project es (some f))) ts) :
    .symbol .leftParen ∈ ts := by
  cases h with
  | bare hlevel _ _ => exact absurd hlevel (Nat.not_le_of_lt hdemand)
  | parens _ _ _ => exact List.mem_cons_self

theorem leftParen_mem_of_operand {op : BinaryOp} {l r : Expr} {ts : List Token}
    (h : Renders .grouped (.operand 0 .nothing (.binary op l r)) ts)
    (hfilter : (∃ es f, l = .project es (some f)) ∨ ∃ es f, r = .project es (some f)) :
    .symbol .leftParen ∈ ts := by
  cases h with
  | parens _ _ _ => exact List.mem_cons_self
  | bare _ _ hbare =>
      cases hbare with
      | binary hl hr =>
          obtain ⟨es, f, rfl⟩ | ⟨es, f, rfl⟩ := hfilter
          · exact List.mem_append_left _ (leftParen_mem_of_filter op.leftDemand_pos hl)
          · have hmem := leftParen_mem_of_filter (Nat.succ_pos _) hr
            exact List.mem_append_right _ (List.mem_append_right _ hmem)

/-- The tokens are accepted, but not as a rendering in which a projection with a filter is the
loosest phrase. -/
def Ungrouped (ts : List Token) : Prop :=
  ∃ e, wholeExpression ts = .ok e ∧
    ¬∃ us n, ts = us ++ List.replicate n (.symbol .semicolon) ∧
      Renders .grouped (.operand 0 .nothing e) us

theorem ungrouped_of_operand {ts : List Token} {op : BinaryOp} {l r : Expr}
    (hread : wholeExpression ts = .ok (.binary op l r))
    (hfilter : (∃ es f, l = .project es (some f)) ∨ ∃ es f, r = .project es (some f))
    (hnone : .symbol .leftParen ∉ ts) : Ungrouped ts := by
  refine ⟨_, hread, ?_⟩
  rintro ⟨us, n, rfl, hus⟩
  exact hnone (List.mem_append_left _ (leftParen_mem_of_operand hus hfilter))

/-- `project {D.x} where`, with the filter to come. -/
def projecting : List Token :=
  [.keyword .project_, .symbol .leftBrace, .name "D", .symbol .dot, .name "x", .symbol .rightBrace,
    .keyword .where_]

/-- A projection with a filter stands without parentheses behind an operator, and in front of one
that the filter cannot take: a comparison behind a comparison, or any behind a test for
emptiness. -/
theorem ungrouped_filters :
    Ungrouped ([.name "a", .symbol .plus] ++ projecting ++ [.name "b"]) ∧
      Ungrouped (projecting ++
        [.name "a", .symbol .equal, .name "b", .symbol .equal, .name "c"]) ∧
      Ungrouped (projecting ++
        [.name "a", .keyword .is_, .keyword .empty_, .symbol .plus, .name "b"]) := by
  let filtered (f : Expr) : Expr := .project [.path "D" ["x"]] (some f)
  have hlast : wholeExpression ([.name "a", .symbol .plus] ++ projecting ++ [.name "b"]) =
      .ok (.binary (.arithmetic .add) (.var "a") (filtered (.var "b"))) := by cbv
  have hcompared : wholeExpression
      (projecting ++ [.name "a", .symbol .equal, .name "b", .symbol .equal, .name "c"]) =
      .ok (.binary (.comparison .eq)
        (filtered (.binary (.comparison .eq) (.var "a") (.var "b"))) (.var "c")) := by cbv
  have htested : wholeExpression
      (projecting ++ [.name "a", .keyword .is_, .keyword .empty_, .symbol .plus, .name "b"]) =
      .ok (.binary (.arithmetic .add) (filtered (.unary .isEmpty (.var "a"))) (.var "b")) := by cbv
  exact ⟨ungrouped_of_operand hlast (.inr ⟨_, _, rfl⟩) (by decide),
    ungrouped_of_operand hcompared (.inl ⟨_, _, rfl⟩) (by decide),
    ungrouped_of_operand htested (.inl ⟨_, _, rfl⟩) (by decide)⟩

end FrameLang.Grammar
