/-
The grammar reads back what is rendered.

An expression at a place with a demand is read by the function for that demand, whatever comes
behind it, as long as nothing there binds to it more tightly than the place demands.  The function
may not be done then: a chain of operators goes on with the next operator of its family, and indexes
with the next bracket.  That is why the statement of the induction does not say what the function
returns, but that it returns what going on from the expression returns.
-/
import FrameLang.Proofs.Syntax.Reading

namespace FrameLang.Grammar

/-! ### What a phrase starts with -/

/-- The token can start a phrase for a demand. -/
def opens (demand : Nat) : Token → Bool
  | .name _ | .number _ | .string _ | .keyword .true_ | .keyword .false_ | .keyword .if_
  | .keyword .project_ | .symbol .leftParen => true
  | .symbol .minus => demand ≤ 8
  | .keyword .not_ | .symbol .bang => demand ≤ 4
  | _ => false

theorem opens_of_le {demand weaker : Nat} {t : Token} (h : opens demand t = true)
    (hle : weaker ≤ demand) : opens weaker t = true := by
  unfold opens at *
  split <;> simp_all <;> omega

/-- The tokens start like a phrase for a demand. -/
def Opens (demand : Nat) (ts : List Token) : Prop :=
  ∃ t more, ts = t :: more ∧ opens demand t = true

theorem Opens.weaken {demand weaker : Nat} {ts : List Token} (h : Opens demand ts)
    (hle : weaker ≤ demand) : Opens weaker ts := by
  obtain ⟨t, more, rfl, ht⟩ := h
  exact ⟨t, more, rfl, opens_of_le ht hle⟩

theorem Opens.not_isNegation {demand : Nat} {ts : List Token} (h : Opens demand ts)
    (hdemand : 4 < demand) : ∀ t ∈ ts.head?, isNegation t = false := by
  obtain ⟨t, more, rfl, ht⟩ := h
  rintro _ ⟨⟩
  refine Bool.eq_false_iff.mpr fun hnot => ?_
  simp only [isNegation, Bool.or_eq_true, beq_iff_eq] at hnot
  rcases hnot with rfl | rfl <;> exact absurd (of_decide_eq_true ht) (by omega)

/-- No phrase starts with what is no opening token. -/
theorem Opens.head?_ne {demand : Nat} {ts : List Token} (h : Opens demand ts) {t : Token}
    (ht : opens demand t = false) : ts.head? ≠ some t := by
  obtain ⟨s, more, rfl, hs⟩ := h
  rintro ⟨⟩
  rw [ht] at hs
  cases hs

theorem opens_primary {ts : List Token} {e : Expr} {rest : List Token}
    (h : Reads (primary ts) e rest) : Opens 10 ts := by
  rw [primary.eq_def] at h
  split at h
  case h_13 => exact absurd h reads_error
  all_goals exact ⟨_, _, rfl, rfl⟩

theorem opens_indexed {ts : List Token} {e : Expr} {rest : List Token}
    (h : Reads (indexed ts) e rest) : Opens 10 ts := by
  obtain ⟨first, mid, hfirst, -⟩ := reads_indexed.mp h
  exact opens_primary hfirst

theorem opens_negative {ts : List Token} {e : Expr} {rest : List Token}
    (h : Reads (negative ts) e rest) : Opens 8 ts := by
  by_cases hhead : ts.head? = some (.symbol .minus)
  · obtain ⟨more, rfl⟩ := List.head?_eq_some_iff.mp hhead
    exact ⟨_, _, rfl, rfl⟩
  · exact (opens_indexed ((reads_negative_indexed hhead).mp h)).weaken (by decide)

theorem opens_chain {c : Chain} {demand : Nat} {ts : List Token} {e : Expr} {rest : List Token}
    (h : Reads (chain c ts) e rest)
    (hoperand : ∀ {e rest}, Reads (operand c ts) e rest → Opens demand ts) : Opens demand ts := by
  obtain ⟨first, mid, hfirst, -⟩ := reads_chain.mp h
  exact hoperand hfirst

theorem opens_comparison {ts : List Token} {e : Expr} {rest : List Token}
    (h : Reads (comparison ts) e rest) : Opens 8 ts := by
  obtain ⟨left, mid, hleft, -⟩ := reads_comparison.mp h
  -- A sum begins with a product, and that with what may have a minus in front.
  refine opens_chain hleft fun h => ?_
  rw [operand] at h
  refine opens_chain h fun h => ?_
  rw [operand] at h
  exact opens_negative h

theorem opens_negation {ts : List Token} {e : Expr} {rest : List Token}
    (h : Reads (negation ts) e rest) : Opens 4 ts := by
  by_cases hhead : ∀ t ∈ ts.head?, isNegation t = false
  · exact (opens_comparison ((reads_negation_comparison hhead).mp h)).weaken (by decide)
  · cases ts with
    | nil => exact absurd nofun hhead
    | cons t ts =>
        have ht : isNegation t = true := by simpa using hhead
        refine ⟨t, ts, rfl, ?_⟩
        simp only [isNegation, Bool.or_eq_true, beq_iff_eq] at ht
        rcases ht with rfl | rfl <;> rfl

theorem opens_disjunction {ts : List Token} {e : Expr} {rest : List Token}
    (h : Reads (chain .disjunction ts) e rest) : Opens 4 ts := by
  refine opens_chain h fun h => ?_
  rw [operand] at h
  refine opens_chain h fun h => ?_
  rw [operand] at h
  refine opens_chain h fun h => ?_
  rw [operand] at h
  exact opens_negation h

/-! ### Going on from what was read -/

/-- Going on from an expression with the next tokens, the function for a demand returns another one
and leaves the rest. -/
inductive Extends : Nat → Expr → List Token → Expr → List Token → Prop
  | chain {c : Chain} {left e : Expr} {ts rest : List Token} :
      (∀ bound h, Reads (chainRest c bound left ts h) e rest) → Extends c.level left ts e rest
  | index {left e : Expr} {ts rest : List Token} :
      (∀ bound h, Reads (indexedRest bound left ts h) e rest) → Extends 9 left ts e rest
  | stop {demand : Nat} {left : Expr} {ts : List Token} :
      grip ts = 0 ∨ grip ts ≠ demand → Extends demand left ts left ts

theorem Chain.level_injective {c d : Chain} (h : c.level = d.level) : c = d := by
  cases c <;> cases d <;> first | rfl | cases h

theorem grip_of_operator? {c : Chain} {t : Token} {op : BinaryOp} (h : c.operator? t = some op)
    (ts : List Token) : grip (t :: ts) = c.level := by
  obtain ⟨htokens, hlevel⟩ := Chain.operator?_eq_some_iff.mp h
  rw [← hlevel, ← grip_tokens op ts, htokens]
  rfl

theorem Extends.reads_chainRest {c : Chain} {left e : Expr} {ts rest : List Token}
    (h : Extends c.level left ts e rest) :
    ∀ bound h, Reads (chainRest c bound left ts h) e rest := by
  have hpos : c.level ≠ 0 ∧ c.level ≠ 9 := by cases c <;> decide
  generalize hlevel : c.level = demand at h
  cases h with
  | chain h => exact Chain.level_injective hlevel ▸ h
  | index h => exact absurd hlevel hpos.2
  | stop hgrip =>
      intro bound h
      refine (reads_chainRest_end fun t ht => ?_).mpr ⟨rfl, rfl⟩
      cases hop : c.operator? t with
      | none => rfl
      | some op =>
          obtain ⟨more, rfl⟩ := List.head?_eq_some_iff.mp ht
          have := grip_of_operator? hop more
          omega

theorem Extends.reads_indexedRest {left e : Expr} {ts rest : List Token}
    (h : Extends 9 left ts e rest) : ∀ bound h, Reads (indexedRest bound left ts h) e rest := by
  generalize hlevel : 9 = demand at h
  cases h with
  | @chain c => cases c <;> cases hlevel
  | index h => exact h
  | stop hgrip =>
      intro bound h
      refine (reads_indexedRest_end fun hhead => ?_).mpr ⟨rfl, rfl⟩
      obtain ⟨more, rfl⟩ := List.head?_eq_some_iff.mp hhead
      simp only [grip] at hgrip
      omega

/-- Only chains and indexes go on. -/
theorem Extends.eq_of_stop {demand : Nat} {left e : Expr} {ts rest : List Token}
    (h : Extends demand left ts e rest) (hdemand : demand ∈ [0, 4, 5, 8, 10]) :
    e = left ∧ rest = ts ∧ (grip ts = 0 ∨ grip ts ≠ demand) := by
  cases h with
  | @chain c => cases c <;> simp [Chain.level] at hdemand
  | index => simp at hdemand
  | stop hgrip => exact ⟨rfl, rfl, hgrip⟩

/-- A function of the grammar reads as the next tighter one and goes on from there. -/
theorem reads_looser {demand : Nat} (hdemand : demand < 10) {ts mid rest : List Token}
    {left e : Expr} (h : Reads (phraseAt (demand + 1) ts) left mid)
    (hext : Extends demand left mid e rest) : Reads (phraseAt demand ts) e rest := by
  have hchain (c : Chain) (h : Reads (operand c ts) left mid)
      (hext : Extends c.level left mid e rest) : Reads (chain c ts) e rest :=
    reads_chain.mpr ⟨left, mid, h, hext.reads_chainRest _⟩
  match demand, hdemand, h, hext with
  | 0, _, h, hext =>
      obtain ⟨rfl, rfl, -⟩ := hext.eq_of_stop (by decide)
      exact h
  | 1, _, h, hext => exact hchain .disjunction (operand_eq _ _ ▸ h) hext
  | 2, _, h, hext => exact hchain .exclusion (operand_eq _ _ ▸ h) hext
  | 3, _, h, hext => exact hchain .conjunction (operand_eq _ _ ▸ h) hext
  | 4, _, h, hext =>
      obtain ⟨rfl, rfl, -⟩ := hext.eq_of_stop (by decide)
      exact (reads_negation_comparison ((opens_comparison h).not_isNegation (by decide))).mpr h
  | 5, _, h, hext =>
      obtain ⟨rfl, rfl, hgrip⟩ := hext.eq_of_stop (by decide)
      exact reads_comparison.mpr ⟨_, _, h, .nothing (by omega)⟩
  | 6, _, h, hext => exact hchain .sum (operand_eq _ _ ▸ h) hext
  | 7, _, h, hext => exact hchain .product (operand_eq _ _ ▸ h) hext
  | 8, _, h, hext =>
      obtain ⟨rfl, rfl, -⟩ := hext.eq_of_stop (by decide)
      exact (reads_negative_indexed ((opens_indexed h).head?_ne rfl)).mpr h
  | 9, _, h, hext => exact reads_indexed.mpr ⟨_, _, h, hext.reads_indexedRest _⟩

/-- The functions between two demands do not take what does not bind at their steps. -/
theorem reads_weaken {demand weaker : Nat} (hdemand : demand ≤ 10) (hle : weaker ≤ demand)
    {ts rest : List Token} {e : Expr} (h : Reads (phraseAt demand ts) e rest)
    (hrest : grip rest = 0 ∨ grip rest < weaker ∨ demand ≤ grip rest) :
    Reads (phraseAt weaker ts) e rest := by
  induction hle using Nat.decreasingInduction with
  | self => exact h
  | of_succ k hk ih => exact reads_looser (by omega) (ih (by omega)) (.stop (by omega))

/-! ### Expressions at a demand -/

/-- The tokens may stand where something is next: they do not bind, or do as it does. -/
def Next.Admits (next : Next) (rest : List Token) : Prop :=
  grip rest = 0 ∨ grip rest = next.step ∧ grip rest < 10

/-- If behind the tokens there is what is next, the function for the demand reads the expression.
It leaves what is to be spared, and goes on with what is not, as long as that binds no more tightly
than is demanded. -/
structure ReadsBack (next : Next) (demand : Nat) (e : Expr) (ts : List Token) : Prop where
  spares {rest : List Token} (hspared : next.spared = true) (hrest : next.Admits rest) :
    Reads (phraseAt demand (ts ++ rest)) e rest
  goesOn {rest left : List Token} {x : Expr} (hspared : next.spared = false)
    (hrest : next.Admits rest) (hgrip : grip rest ≤ demand) (hext : Extends demand e rest x left) :
    Reads (phraseAt demand (ts ++ rest)) x left

/-- What does not bind so tightly is left in any case. -/
theorem ReadsBack.reads {next : Next} {demand : Nat} {e : Expr} {ts : List Token}
    (h : ReadsBack next demand e ts) {rest : List Token} (hrest : next.Admits rest)
    (hgrip : next.spared = false → grip rest = 0 ∨ grip rest < demand) :
    Reads (phraseAt demand (ts ++ rest)) e rest := by
  cases hspared : next.spared with
  | true => exact h.spares hspared hrest
  | false =>
      have hloose := hgrip hspared
      exact h.goesOn hspared hrest (by omega) (.stop (by omega))

theorem ReadsBack.looser {next : Next} {demand : Nat} {e : Expr} {ts : List Token}
    (h : ReadsBack next (demand + 1) e ts) (hdemand : demand < 10)
    (hspared : next.spared = true → next.step = 0 ∨ next.step ≠ demand) :
    ReadsBack next demand e ts where
  spares := by
    intro rest htrue hrest
    have hne := hspared htrue
    refine reads_looser hdemand (h.spares htrue hrest) (.stop ?_)
    unfold Next.Admits at hrest
    omega
  goesOn := fun hfalse hrest hgrip hext => reads_looser hdemand
    (h.reads hrest fun _ => .inr (Nat.lt_succ_of_le hgrip)) hext

/-- The functions between two demands leave what does not bind at their steps. -/
theorem ReadsBack.weaken {next : Next} {demand weaker : Nat} {e : Expr} {ts : List Token}
    (h : ReadsBack next demand e ts) (hdemand : demand ≤ 10) (hle : weaker ≤ demand)
    (hspared : next.spared = true → next.step = 0 ∨ next.step < weaker ∨ demand ≤ next.step) :
    ReadsBack next weaker e ts := by
  induction hle using Nat.decreasingInduction with
  | self => exact h
  | of_succ k hk ih =>
      refine (ih fun htrue => ?_).looser (by omega) fun htrue => ?_
      · have := hspared htrue
        omega
      · have := hspared htrue
        omega

/-- At some demands a function is done when it has read its expression. -/
theorem readsBack_of_reads {next : Next} {demand : Nat} {e : Expr} {ts : List Token}
    (hdemand : demand ∈ [0, 4, 5, 8, 10])
    (h : ∀ rest, next.Admits rest → (next.spared = false → grip rest = 0 ∨ grip rest < demand) →
      Reads (phraseAt demand (ts ++ rest)) e rest) : ReadsBack next demand e ts where
  spares := fun hspared hrest => h _ hrest fun hfalse => by
    rw [hspared] at hfalse
    cases hfalse
  goesOn := by
    intro rest left x _ hrest hgrip hext
    obtain ⟨rfl, rfl, hne⟩ := hext.eq_of_stop hdemand
    exact h _ hrest fun _ => hne.imp_right (Nat.lt_of_le_of_ne hgrip)

/-! ### One expression of operands -/

section Operands

variable {next : Next}

theorem readsBack_minus {e : Expr} {ts : List Token} (h : ReadsBack next 8 e ts) :
    ReadsBack next 8 (.unary .minus e) (.symbol .minus :: ts) :=
  readsBack_of_reads (by decide) fun _ hrest hgrip =>
    reads_negative_minus.mpr ⟨e, h.reads hrest hgrip, rfl⟩

theorem readsBack_not {e : Expr} {t : Token} {ts : List Token} (ht : isNegation t = true)
    (h : ReadsBack next 4 e ts) : ReadsBack next 4 (.unary .not e) (t :: ts) :=
  readsBack_of_reads (by decide) fun _ hrest hgrip =>
    (reads_negation_not ht).mpr ⟨e, h.reads hrest hgrip, rfl⟩

/-- What stands in front of a comparison, or of a test for emptiness. -/
theorem reads_compared {e : Expr} {ts rest : List Token} (h : ReadsBack { step := 5 } 6 e ts)
    (hrest : grip rest = 5) : Reads (chain .sum (ts ++ rest)) e rest :=
  h.reads (.inr ⟨hrest, by omega⟩) fun _ => .inr (by omega)

theorem readsBack_isEmpty {e : Expr} {ts : List Token} (h : ReadsBack { step := 5 } 6 e ts) :
    ReadsBack next 5 (.unary .isEmpty e) (ts ++ [.keyword .is_, .keyword .empty_]) :=
  readsBack_of_reads (by decide) fun rest _ _ => by
    rw [List.append_assoc]
    exact reads_comparison.mpr ⟨e, _, reads_compared h rfl, .isEmpty⟩

theorem readsBack_isNotEmpty {e : Expr} {ts : List Token} (h : ReadsBack { step := 5 } 6 e ts) :
    ReadsBack next 5 (.unary .isNotEmpty e)
      (ts ++ [.keyword .is_, .keyword .not_, .keyword .empty_]) :=
  readsBack_of_reads (by decide) fun rest _ _ => by
    rw [List.append_assoc]
    exact reads_comparison.mpr ⟨e, _, reads_compared h rfl, .isNotEmpty⟩

theorem readsBack_compared {op : BinaryOp} (hop : op.level = 5) {l r : Expr} {ts us : List Token}
    (hl : ReadsBack { step := 5 } 6 l ts) (hr : ReadsBack next 6 r us) :
    ReadsBack next 5 (.binary op l r) (ts ++ (op.tokens ++ us)) :=
  readsBack_of_reads (by decide) fun rest hrest hgrip => by
    have hright : Reads (chain .sum (us ++ rest)) r rest :=
      hr.reads hrest fun hspared => (hgrip hspared).imp_right Nat.lt_succ_of_lt
    rw [List.append_assoc, List.append_assoc]
    exact reads_comparison.mpr ⟨l, _, reads_compared hl ((grip_tokens op _).trans hop),
      .binary op hop hright⟩

/-- The left operand is read with the operator behind it, and the chain goes on from there. -/
theorem reads_chained {c : Chain} {op : BinaryOp} (hop : op.level = c.level) {l r x : Expr}
    {ts us rest left : List Token} (hl : ReadsBack { step := c.level } c.level l ts)
    (hr : Reads (phraseAt (c.level + 1) (us ++ rest)) r rest)
    (hext : Extends c.level (.binary op l r) rest x left) :
    Reads (phraseAt c.level (ts ++ (op.tokens ++ us) ++ rest)) x left := by
  obtain ⟨t, ht, hoperator⟩ := Chain.exists_operator? hop
  rw [← operand_eq] at hr
  -- The operator binds as tightly as the chain, so the left operand does not end in front of it.
  rw [ht, List.append_assoc]
  have hgrip := grip_of_operator? hoperator (us ++ rest)
  refine hl.goesOn rfl (.inr ⟨hgrip, hgrip.trans_lt c.level_lt⟩) hgrip.le
    (.chain fun bound h => ?_)
  exact (reads_chainRest_operator hoperator).mpr ⟨r, rest, hr, hext.reads_chainRest bound⟩

theorem readsBack_chained {c : Chain} {op : BinaryOp} (hop : op.level = c.level) {l r : Expr}
    {ts us : List Token} (hl : ReadsBack { step := c.level } c.level l ts)
    (hr : ReadsBack next (c.level + 1) r us)
    (hspared : next.spared = true → next.step = 0 ∨ next.step ≠ c.level) :
    ReadsBack next c.level (.binary op l r) (ts ++ (op.tokens ++ us)) where
  spares := by
    intro rest htrue hrest
    have hne := hspared htrue
    refine reads_chained hop hl (hr.spares htrue hrest) (.stop ?_)
    unfold Next.Admits at hrest
    omega
  goesOn := fun _ hrest hgrip hext =>
    reads_chained hop hl (hr.reads hrest fun _ => .inr (Nat.lt_succ_of_le hgrip)) hext

theorem reads_index {v p x : Expr} {ts us rest left : List Token}
    (hv : ReadsBack { step := 9 } 9 v ts) (hp : ReadsBack .nothing 0 p us)
    (hext : Extends 9 (.index v p) rest x left) :
    Reads (phraseAt 9 (ts ++ .symbol .leftBracket :: (us ++ [.symbol .rightBracket]) ++ rest))
      x left := by
  have hposition : Reads (chain .disjunction (us ++ .symbol .rightBracket :: rest)) p
      (.symbol .rightBracket :: rest) := hp.reads (.inl rfl) fun _ => .inl rfl
  rw [List.append_assoc, List.cons_append, List.append_assoc]
  refine hv.goesOn rfl (.inr ⟨rfl, Nat.lt_succ_self 9⟩) le_rfl (.index fun bound h => ?_)
  exact reads_indexedRest_bracket.mpr ⟨p, rest, hposition, hext.reads_indexedRest bound⟩

theorem readsBack_index {v p : Expr} {ts us : List Token} (hv : ReadsBack { step := 9 } 9 v ts)
    (hp : ReadsBack .nothing 0 p us)
    (hspared : next.spared = true → next.step = 0 ∨ next.step ≠ 9) :
    ReadsBack next 9 (.index v p)
      (ts ++ .symbol .leftBracket :: (us ++ [.symbol .rightBracket])) where
  spares := by
    intro rest htrue hrest
    have hne := hspared htrue
    refine reads_index hv hp (.stop ?_)
    unfold Next.Admits at hrest
    omega
  goesOn := fun _ _ _ hext => reads_index hv hp hext

end Operands

/-! ### Primary phrases -/

section Primary

variable {next : Next}

theorem readsBack_primary {e : Expr} {ts : List Token}
    (h : ∀ rest, grip rest < 10 → Reads (primary (ts ++ rest)) e rest) : ReadsBack next 10 e ts :=
  readsBack_of_reads (by decide) fun rest hrest _ => h rest (by
    unfold Next.Admits at hrest
    omega)

theorem head?_ne_of_grip {rest : List Token} (h : grip rest < 10) {t : Token}
    (ht : ∀ more, grip (t :: more) = 10) : rest.head? ≠ some t := fun hhead => by
  obtain ⟨more, rfl⟩ := List.head?_eq_some_iff.mp hhead
  rw [ht more] at h
  exact Nat.lt_irrefl 10 h

theorem readsBack_constant {v : Literal} {t : Token} (ht : IsConstant v t) :
    ReadsBack next 10 (.literal v) [t] :=
  readsBack_primary fun _ _ => (reads_primary_constant ht).mpr ⟨rfl, rfl⟩

theorem readsBack_var (name : String) : ReadsBack next 10 (.var name) [.name name] :=
  readsBack_primary fun _ hrest => (reads_primary_var
    (head?_ne_of_grip hrest fun _ => rfl) (head?_ne_of_grip hrest fun _ => rfl)).mpr ⟨rfl, rfl⟩

theorem readsBack_path {name : String} {field : List String} (hfield : field ≠ []) :
    ReadsBack next 10 (.path name field) (.name name :: dotted field) :=
  readsBack_primary fun rest hrest => by
    obtain ⟨f, fs, rfl⟩ := List.exists_cons_of_ne_nil hfield
    exact reads_primary_path.mpr ⟨f :: fs,
      reads_fields.mpr ⟨rfl, head?_ne_of_grip hrest fun _ => rfl⟩, rfl⟩

theorem readsBack_parens {e : Expr} {ts : List Token} (h : ReadsBack .nothing 0 e ts) :
    ReadsBack next 10 e (.symbol .leftParen :: (ts ++ [.symbol .rightParen])) :=
  readsBack_primary fun rest _ => by
    have hread : Reads (chain .disjunction (ts ++ .symbol .rightParen :: rest)) e
        (.symbol .rightParen :: rest) := h.reads (.inl rfl) fun _ => .inl rfl
    rw [List.cons_append, List.append_assoc]
    exact (reads_primary_paren ((opens_disjunction hread).head?_ne rfl)).mpr
      ⟨e, _, hread, .inr ⟨rfl, rfl⟩⟩

theorem opens_list {ts : List Token} {es : List Expr} {rest : List Token}
    (h : Reads (list .rightParen ts) es rest) : Opens 4 ts := by
  obtain ⟨first, mid, hfirst, -⟩ := (reads_list (by decide)).mp h
  exact opens_disjunction hfirst

theorem readsBack_call {name : String} {es : List Expr} {ts : List Token}
    (hnil : es = [] → ts = [])
    (h : es ≠ [] → ∀ rest, Reads (list .rightParen (ts ++ .symbol .rightParen :: rest)) es rest) :
    ReadsBack next 10 (.call name es)
      (.name name :: .symbol .leftParen :: (ts ++ [.symbol .rightParen])) :=
  readsBack_primary fun rest _ => by
    rw [List.cons_append, List.cons_append, List.append_assoc]
    by_cases hes : es = []
    · rw [hnil hes, hes]
      exact reads_primary_noArguments.mpr ⟨rfl, rfl⟩
    · have hread := h hes rest
      exact (reads_primary_call ((opens_list hread).head?_ne rfl)).mpr ⟨es, hread, rfl⟩

theorem readsBack_vector {es : List Expr} {ts : List Token} (hlength : es.length ≠ 1)
    (hnil : es = [] → ts = [])
    (h : es ≠ [] → ∀ rest, Reads (list .rightParen (ts ++ .symbol .rightParen :: rest)) es rest) :
    ReadsBack next 10 (.vector es) (.symbol .leftParen :: (ts ++ [.symbol .rightParen])) :=
  readsBack_primary fun rest _ => by
    rw [List.cons_append, List.append_assoc]
    by_cases hes : es = []
    · rw [hnil hes, hes]
      exact reads_primary_noElements.mpr ⟨rfl, rfl⟩
    · have hread := h hes rest
      refine (reads_primary_paren ((opens_list hread).head?_ne rfl)).mpr ?_
      obtain ⟨first, mid, hfirst, ⟨more, fs, rfl, hmore, rfl⟩ | ⟨-, rfl⟩⟩ :=
        (reads_list (by decide)).mp hread
      · exact ⟨first, _, hfirst, .inl ⟨more, fs, rfl, hmore, rfl⟩⟩
      · exact absurd rfl hlength

theorem readsBack_ifThen {c : Expr} {thens : List Expr} {ts us : List Token}
    (hc : ReadsBack .nothing 0 c ts)
    (hthens : ∀ rest, Reads (block (.keyword .else_) [.keyword .endIf_]
      (us ++ .keyword .endIf_ :: rest)) (thens, .keyword .endIf_) rest) :
    ReadsBack next 10 (.ifElse c (.sequence thens) none)
      (.keyword .if_ :: (ts ++ .keyword .then_ :: (us ++ [.keyword .endIf_]))) :=
  readsBack_primary fun rest _ => by
    have hcondition : Reads (chain .disjunction
        (ts ++ .keyword .then_ :: (us ++ .keyword .endIf_ :: rest))) c _ :=
      hc.reads (.inl rfl) fun _ => .inl rfl
    rw [List.cons_append, List.append_assoc, List.cons_append, List.append_assoc]
    exact reads_primary_if.mpr
      ⟨c, _, thens, _, _, hcondition, hthens rest, .inr ⟨nofun, rfl, rfl⟩⟩

theorem readsBack_ifElse {c : Expr} {thens elses : List Expr} {ts us vs : List Token}
    (hc : ReadsBack .nothing 0 c ts)
    (hthens : ∀ rest, Reads (block (.keyword .else_) [.keyword .endIf_]
      (us ++ .keyword .else_ :: rest)) (thens, .keyword .else_) rest)
    (helses : ∀ rest, Reads (block (.keyword .endIf_) []
      (vs ++ .keyword .endIf_ :: rest)) (elses, .keyword .endIf_) rest) :
    ReadsBack next 10 (.ifElse c (.sequence thens) (some (.sequence elses)))
      (.keyword .if_ :: (ts ++ .keyword .then_ ::
        (us ++ .keyword .else_ :: (vs ++ [.keyword .endIf_])))) :=
  readsBack_primary fun rest _ => by
    have hcondition : Reads (chain .disjunction (ts ++ .keyword .then_ ::
        (us ++ .keyword .else_ :: (vs ++ .keyword .endIf_ :: rest)))) c _ :=
      hc.reads (.inl rfl) fun _ => .inl rfl
    rw [List.cons_append, List.append_assoc, List.cons_append, List.append_assoc,
      List.cons_append, List.append_assoc]
    exact reads_primary_if.mpr
      ⟨c, _, thens, _, _, hcondition, hthens _, .inl ⟨rfl, elses, _, helses rest, rfl⟩⟩

theorem readsBack_project {es : List Expr} {ts : List Token}
    (hes : ∀ rest, Reads (projection (ts ++ .symbol .rightBrace :: rest)) es rest) :
    ReadsBack next 10 (.project es none)
      (.keyword .project_ :: .symbol .leftBrace :: (ts ++ [.symbol .rightBrace])) :=
  readsBack_primary fun rest hrest => by
    rw [List.cons_append, List.cons_append, List.append_assoc]
    exact reads_primary_project.mpr
      ⟨_, es, rest, rfl, hes rest, .inr ⟨head?_ne_of_grip hrest fun _ => rfl, rfl, rfl⟩⟩

theorem reads_filter {es : List Expr} {f : Expr} {ts us rest : List Token}
    (hes : ∀ rest, Reads (projection (ts ++ .symbol .rightBrace :: rest)) es rest)
    (hf : Reads (chain .disjunction (us ++ rest)) f rest) :
    Reads (primary (.keyword .project_ :: .symbol .leftBrace ::
      (ts ++ .symbol .rightBrace :: .keyword .where_ :: us) ++ rest))
      (.project es (some f)) rest := by
  rw [List.cons_append, List.cons_append, List.append_assoc, List.cons_append, List.cons_append]
  exact reads_primary_project.mpr ⟨_, es, _, rfl, hes _, .inl ⟨_, f, rfl, hf, rfl⟩⟩

/-- The filter leaves what is next, which is then behind the projection. -/
theorem readsBack_filter {es : List Expr} {f : Expr} {ts us : List Token}
    (hes : ∀ rest, Reads (projection (ts ++ .symbol .rightBrace :: rest)) es rest)
    (hf : ReadsBack next.toSpare 0 f us) :
    ReadsBack next 10 (.project es (some f))
      (.keyword .project_ :: .symbol .leftBrace ::
        (ts ++ .symbol .rightBrace :: .keyword .where_ :: us)) :=
  readsBack_of_reads (by decide) fun _ hrest _ => reads_filter hes (hf.spares rfl hrest)

end Primary

/-! ### Lists and blocks -/

/-- The function that reads an item. -/
def itemAt : Role → (ts : List Token) → Outcome Expr ts.length
  | .argument => chain .disjunction
  | .element => element
  | .statement => statement

/-- The function that reads items with commas between them, and the symbol behind them. -/
def listAt : Role → (ts : List Token) → Outcome (List Expr) ts.length
  | .element => projection
  | _ => list .rightParen

def closing : Role → Symbol
  | .element => .rightBrace
  | _ => .rightParen

/-- A name and what stands behind it are not taken for an expression and what stands behind that,
unless they are just that. -/
theorem ne_name_of_reads {ts rest : List Token} {e : Expr}
    (h : Reads (chain .disjunction ts) e rest) {s : Symbol} (hs : s = .colon ∨ s = .assign)
    (hrest : rest.head? ≠ some (.symbol s)) (name : String) (more : List Token) :
    ts ≠ .name name :: .symbol s :: more := by
  rintro rfl
  have hvar :
      Reads (primary (.name name :: .symbol s :: more)) (.var name) (.symbol s :: more) := by
    refine (reads_primary_var ?_ ?_).mpr ⟨rfl, rfl⟩ <;> rcases hs with rfl | rfl <;> nofun
  have hread : Reads (chain .disjunction (.name name :: .symbol s :: more)) (.var name)
      (.symbol s :: more) := by
    change Reads (phraseAt 0 _) _ _
    exact reads_weaken le_rfl (Nat.zero_le 10) hvar (by rcases hs with rfl | rfl <;> exact .inl rfl)
  obtain ⟨-, rfl⟩ := h.unique hread
  exact hrest rfl

/-- What may stand behind an item. -/
def EndsItem (rest : List Token) : Prop :=
  grip rest = 0 ∧ rest.head? ≠ some (.symbol .colon) ∧ rest.head? ≠ some (.symbol .assign)

theorem reads_item {role : Role} {e : Expr} {ts rest : List Token} (h : ReadsBack .nothing 0 e ts)
    (hrest : EndsItem rest) : Reads (itemAt role (ts ++ rest)) e rest := by
  have hread : Reads (chain .disjunction (ts ++ rest)) e rest :=
    h.reads (.inl hrest.1) fun _ => .inl hrest.1
  cases role with
  | argument => exact hread
  | element =>
      exact (reads_element_plain (ne_name_of_reads hread (.inl rfl) hrest.2.1)).mpr hread
  | statement =>
      exact (reads_statement_plain (ne_name_of_reads hread (.inr rfl) hrest.2.2)).mpr hread

theorem reads_listAt {role : Role} (hrole : role ≠ .statement) {ts : List Token} {es : List Expr}
    {rest : List Token} :
    Reads (listAt role ts) es rest ↔ ∃ first mid, Reads (itemAt role ts) first mid ∧
      GoesOn (closing role) (listAt role) first mid es rest := by
  cases role with
  | argument => exact reads_list (by decide)
  | element => exact reads_projection
  | statement => exact absurd rfl hrole

/-- The tokens that can stand behind a block. -/
def IsTerminator (t : Token) : Prop :=
  t = .keyword .else_ ∨ t = .keyword .endIf_ ∨ t = .symbol .rightBrace

theorem IsTerminator.opens {t : Token} (h : IsTerminator t) (demand : Nat) :
    opens demand t = false := by
  rcases h with rfl | rfl | rfl <;> rfl

theorem IsTerminator.endsItem {t : Token} (h : IsTerminator t) (rest : List Token) :
    EndsItem (t :: rest) := by
  rcases h with rfl | rfl | rfl <;> exact ⟨rfl, nofun, nofun⟩

theorem endsItem_separators {n : Nat} {rest : List Token} (h : 0 < n ∨ EndsItem rest) :
    EndsItem (List.replicate n (.symbol .semicolon) ++ rest) := by
  cases n with
  | zero => exact h.resolve_left (Nat.lt_irrefl 0)
  | succ n => exact ⟨rfl, nofun, nofun⟩

theorem skipSeparators_append (n : Nat) {ts : List Token}
    (hts : ts.head? ≠ some (.symbol .semicolon)) :
    skipSeparators (List.replicate n (.symbol .semicolon) ++ ts) = ts := by
  unfold skipSeparators
  rw [List.dropWhile_append_of_pos fun t ht => by simpa using List.eq_of_mem_replicate ht]
  cases ts with
  | nil => rfl
  | cons t ts =>
      refine List.dropWhile_cons_of_neg ?_
      simpa using hts

theorem opens_statement {ts : List Token} {e : Expr} {rest : List Token}
    (h : Reads (statement ts) e rest) : Opens 4 ts := by
  by_cases hname : ∃ name more, ts = .name name :: .symbol .assign :: more
  · obtain ⟨name, more, rfl⟩ := hname
    exact ⟨_, _, rfl, rfl⟩
  · exact opens_disjunction
      ((reads_statement_plain fun name more heq => hname ⟨name, more, heq⟩).mp h)

section Block

variable {terminator : Token} {others : List Token} {last : Token} {rest : List Token}

theorem reads_noStatement (hclosing : ∀ t, t = terminator ∨ t ∈ others → IsTerminator t)
    (hlast : last = terminator ∨ last ∈ others) (n : Nat) :
    Reads (block terminator others (List.replicate n (.symbol .semicolon) ++ last :: rest))
      ([], last) rest := by
  refine (reads_block_end (skipSeparators_append n ?_) hlast).mpr ⟨rfl, rfl, rfl⟩
  rcases hclosing last hlast with rfl | rfl | rfl <;> nofun

theorem reads_statements (hclosing : ∀ t, t = terminator ∨ t ∈ others → IsTerminator t) {n : Nat}
    {e : Expr} {ts us : List Token} {es : List Expr}
    (he : Reads (statement (ts ++ us)) e us)
    (hes : Reads (block terminator others us) (es, last) rest) :
    Reads (block terminator others (List.replicate n (.symbol .semicolon) ++ (ts ++ us)))
      (e :: es, last) rest := by
  obtain ⟨t, more, hts, ht⟩ := opens_statement he
  have hsemicolon : (ts ++ us).head? ≠ some (.symbol .semicolon) :=
    (opens_statement he).head?_ne rfl
  have hnot : ¬(t = terminator ∨ t ∈ others) := fun hend => by
    rw [(hclosing t hend).opens] at ht
    cases ht
  rw [hts] at he hsemicolon ⊢
  exact (reads_block_statement (skipSeparators_append n hsemicolon) hnot).mpr
    ⟨e, us, es, he, hes, rfl⟩

end Block

/-! ### The induction -/

/-- What the induction shows of a phrase. -/
def IsReadBack : Phrase → List Token → Prop
  | .operand demand next e, ts => demand ≤ 10 → ReadsBack next demand e ts
  | .bare next e, ts => next.Spares (e.level 10) (e.level 10) → ReadsBack next (e.level 10) e ts
  | .item role e, ts => ∀ rest, EndsItem rest → Reads (itemAt role (ts ++ rest)) e rest
  | .list role es, ts => role ≠ .statement → (es = [] → ts = []) ∧ (es ≠ [] → ∀ rest,
      Reads (listAt role (ts ++ .symbol (closing role) :: rest)) es rest)
  | .block between es, ts => ∀ terminator others last rest,
      (∀ t, t = terminator ∨ t ∈ others → IsTerminator t) → (last = terminator ∨ last ∈ others) →
      Reads (block terminator others (ts ++ last :: rest)) (es, last) rest ∧
        (between = true → EndsItem (ts ++ last :: rest))

theorem level_le_level (e : Expr) {filtered : Nat} (h : filtered ≤ 10) :
    e.level filtered ≤ e.level 10 := by
  unfold Expr.level
  split
  case h_4 => exact h
  all_goals exact le_rfl

theorem level_le (e : Expr) : e.level 10 ≤ 10 := by
  unfold Expr.level
  split
  · rename_i op _
    cases op <;> decide
  · rename_i op _ _
    unfold BinaryOp.level
    split <;> decide
  all_goals decide

theorem Style.filtered_le (style : Style) : style.filtered ≤ 10 := by
  cases style <;> decide

/-- An expression that reads back by itself does so at a place too. -/
theorem readsBack_operand {demand level : Nat} {next : Next} {e : Expr} {ts : List Token}
    (h : next.Spares level level → ReadsBack next level e ts) (hle : demand ≤ level)
    (hten : level ≤ 10) (hspares : next.Spares demand level) : ReadsBack next demand e ts := by
  refine (h fun hspared => ?_).weaken hten hle fun hspared => ?_
  · have := hspares hspared
    omega
  · have := hspares hspared
    omega

theorem endsItem_closing (role : Role) (rest : List Token) :
    EndsItem (.symbol (closing role) :: rest) := by
  cases role <;> exact ⟨rfl, nofun, nofun⟩

/-- Statements have a semicolon between them. -/
def Style.Separates (style : Style) : Prop := ∀ n, style.Allows true n → 0 < n

theorem separates_minimal : Style.minimal.Separates := by
  rintro n rfl
  exact Nat.one_pos

theorem separates_separated : Style.separated.Separates := fun _ => id

theorem exists_chain {op : BinaryOp} (h : op.level ≠ 5) : ∃ c : Chain, op.level = c.level := by
  rcases op with (_ | _ | _ | _) | _ | (_ | _ | _) | _
  case connective.or => exact ⟨.disjunction, rfl⟩
  case connective.xor => exact ⟨.exclusion, rfl⟩
  case connective.and => exact ⟨.conjunction, rfl⟩
  case arithmetic.add | arithmetic.subtract => exact ⟨.sum, rfl⟩
  case arithmetic.multiply | arithmetic.divide => exact ⟨.product, rfl⟩
  all_goals exact absurd rfl h

theorem isReadBack_binary {op : BinaryOp} {next : Next} {l r : Expr} {ts us : List Token}
    (hl : ReadsBack { step := op.level } op.leftDemand l ts)
    (hr : ReadsBack next op.rightDemand r us) (hspares : next.Spares op.level op.level) :
    ReadsBack next op.level (.binary op l r) (ts ++ (op.tokens ++ us)) := by
  by_cases hop : op.level = 5
  · have hdemands : op.leftDemand = 6 ∧ op.rightDemand = 6 := by
      simp [BinaryOp.leftDemand, BinaryOp.rightDemand, hop]
    rw [hdemands.1, hop] at hl
    rw [hdemands.2] at hr
    rw [hop]
    exact readsBack_compared hop hl hr
  · obtain ⟨c, hc⟩ := exists_chain hop
    rw [BinaryOp.leftDemand, if_neg hop, hc] at hl
    rw [BinaryOp.rightDemand, hc] at hr
    rw [hc] at hspares ⊢
    refine readsBack_chained hc hl hr fun hspared => ?_
    have := hspares hspared
    omega

theorem isReadBack_of_renders {style : Style} (hstyle : style.Separates) {phrase : Phrase}
    {ts : List Token} (h : Renders style phrase ts) : IsReadBack phrase ts := by
  induction h with
  | @bare demand next e ts hlevel hspares _ ih =>
      exact fun _ => readsBack_operand ih (hlevel.trans (level_le_level e style.filtered_le))
        (level_le e) hspares
  | parens _ hspares _ ih =>
      exact fun hdemand => readsBack_operand (fun _ => readsBack_parens (ih (by decide))) hdemand
        le_rfl hspares
  | constant hconstant => exact fun _ => readsBack_constant hconstant
  | var => exact fun _ => readsBack_var _
  | path hfield => exact fun _ => readsBack_path hfield
  | call _ ih => exact fun _ => readsBack_call (ih nofun).1 (ih nofun).2
  | vector hlength _ ih => exact fun _ => readsBack_vector hlength (ih nofun).1 (ih nofun).2
  | ifThen _ _ ihc iht =>
      exact fun _ => readsBack_ifThen (ihc (by decide)) fun rest =>
        (iht _ _ _ rest (by simp [IsTerminator]) (by simp)).1
  | ifElse _ _ _ ihc iht ihe =>
      exact fun _ => readsBack_ifElse (ihc (by decide))
        (fun rest => (iht _ _ _ rest (by simp [IsTerminator]) (by simp)).1)
        (fun rest => (ihe _ _ _ rest (by simp [IsTerminator]) (by simp)).1)
  | project hne _ ih => exact fun _ => readsBack_project ((ih nofun).2 hne)
  | filter hne _ _ ihes ihf =>
      exact fun _ => readsBack_filter ((ihes nofun).2 hne) (ihf (by decide))
  | index _ _ ihv ihp =>
      refine fun hspares => readsBack_index (ihv (by decide)) (ihp (by decide)) fun hspared => ?_
      have : _ ∨ _ < 9 ∨ 9 < _ ∨ _ ∧ 9 = 5 := hspares hspared
      omega
  | minus _ ih => exact fun _ => readsBack_minus (ih (by decide))
  | not ht _ ih => exact fun _ => readsBack_not ht (ih (by decide))
  | isEmpty _ ih => exact fun _ => readsBack_isEmpty (ih (by decide))
  | isNotEmpty _ ih => exact fun _ => readsBack_isNotEmpty (ih (by decide))
  | @binary _ op _ _ _ _ _ _ ihl ihr =>
      have hlevel := level_le_seven op
      exact isReadBack_binary
        (ihl (by unfold BinaryOp.leftDemand; split <;> omega))
        (ihr (by unfold BinaryOp.rightDemand; omega))
  | item _ ih => exact fun rest hrest => reads_item (ih (by decide)) hrest
  | named _ ih =>
      intro rest hrest
      have he := (ih (by decide)).reads (.inl hrest.1) fun _ => .inl hrest.1
      exact reads_element_named.mpr ⟨_, he, rfl⟩
  | assign _ ih =>
      intro rest hrest
      have he := (ih (by decide)).reads (.inl hrest.1) fun _ => .inl hrest.1
      exact reads_statement_assign.mpr ⟨_, he, rfl⟩
  | noItem => exact fun _ => ⟨fun _ => rfl, fun hne => absurd rfl hne⟩
  | lastItem _ ih =>
      refine fun hrole => ⟨nofun, fun _ rest => (reads_listAt hrole).mpr ?_⟩
      exact ⟨_, _, ih _ (endsItem_closing _ rest), .inr ⟨rfl, rfl⟩⟩
  | moreItems _ _ ihe ihes =>
      refine fun hrole => ⟨nofun, fun _ rest => (reads_listAt hrole).mpr ?_⟩
      have hes := (ihes hrole).2 (List.cons_ne_nil _ _) rest
      rw [List.append_assoc]
      exact ⟨_, _, ihe _ ⟨rfl, nofun, nofun⟩, .inl ⟨_, _, rfl, hes, rfl⟩⟩
  | @noStatement between n hn =>
      intro terminator others last rest hclosing hlast
      exact ⟨reads_noStatement hclosing hlast n,
        fun _ => endsItem_separators (.inr ((hclosing last hlast).endsItem rest))⟩
  | @statement between n e es ts us hn _ _ ihe ihes =>
      intro terminator others last rest hclosing hlast
      obtain ⟨hes, hends⟩ := ihes terminator others last rest hclosing hlast
      have he := ihe _ (hends rfl)
      rw [List.append_assoc, List.append_assoc]
      refine ⟨reads_statements hclosing he hes, fun hbetween => endsItem_separators (.inl ?_)⟩
      subst hbetween
      exact hstyle n hn

/-- What is rendered is read back in front of semicolons. -/
theorem wholeExpression_append_of_renders {style : Style} (hstyle : style.Separates) {e : Expr}
    {ts : List Token} (h : Renders style (.operand 0 .nothing e) ts) (n : Nat) :
    wholeExpression (ts ++ List.replicate n (.symbol .semicolon)) = .ok e := by
  have hback : ReadsBack .nothing 0 e ts := isReadBack_of_renders hstyle h (by decide)
  have hgrip : grip (List.replicate n (.symbol .semicolon)) = 0 := by cases n <;> rfl
  refine wholeExpression_eq_ok_iff.mpr ⟨_, hback.reads (.inl hgrip) fun _ => .inl hgrip, ?_⟩
  have hskip : skipSeparators (List.replicate n (.symbol .semicolon) ++ []) = [] :=
    skipSeparators_append n nofun
  simpa using hskip

/-- **What is rendered is read back**: all of it, and as the expression it was. -/
theorem wholeExpression_of_renders {style : Style} (hstyle : style.Separates) {e : Expr}
    {ts : List Token} (h : Renders style (.operand 0 .nothing e) ts) :
    wholeExpression ts = .ok e := by
  simpa using wholeExpression_append_of_renders hstyle h 0

end FrameLang.Grammar
