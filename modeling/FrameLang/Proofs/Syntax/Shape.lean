/-
The expressions that can be written.

Not every expression is one of the grammar: a sequence stands only in a branch, a name of its own
has only an element of a projection, and `(a)` is no vector of one.  An expression that keeps to
this has a rendering in the minimal style, and its renderings in that style read back as it.  And
whatever is accepted keeps to it.
-/
import FrameLang.Proofs.Syntax.Acceptance
import FrameLang.Proofs.Syntax.Inversion
import FrameLang.Proofs.Syntax.Numerals

namespace FrameLang.Grammar

/-- The expression can be built by the grammar, as an item of the kind. -/
inductive Fits : Role → Expr → Prop
  | literal {v : Literal} : v.IsUnsigned → Fits .argument (.literal v)
  | var {name : String} : Fits .argument (.var name)
  | unary {op : UnaryOp} {e : Expr} : Fits .argument e → Fits .argument (.unary op e)
  | binary {op : BinaryOp} {l r : Expr} :
      Fits .argument l → Fits .argument r → Fits .argument (.binary op l r)
  | call {name : String} {es : List Expr} :
      (∀ e ∈ es, Fits .argument e) → Fits .argument (.call name es)
  | vector {es : List Expr} :
      es.length ≠ 1 → (∀ e ∈ es, Fits .argument e) → Fits .argument (.vector es)
  | index {v p : Expr} : Fits .argument v → Fits .argument p → Fits .argument (.index v p)
  | path {name : String} {field : List String} : field ≠ [] → Fits .argument (.path name field)
  | ifThen {c : Expr} {thens : List Expr} :
      Fits .argument c → (∀ e ∈ thens, Fits .statement e) →
      Fits .argument (.ifElse c (.sequence thens) none)
  | ifElse {c : Expr} {thens elses : List Expr} :
      Fits .argument c → (∀ e ∈ thens, Fits .statement e) → (∀ e ∈ elses, Fits .statement e) →
      Fits .argument (.ifElse c (.sequence thens) (some (.sequence elses)))
  | project {es : List Expr} :
      es ≠ [] → (∀ e ∈ es, Fits .element e) → Fits .argument (.project es none)
  | filter {es : List Expr} {f : Expr} :
      es ≠ [] → (∀ e ∈ es, Fits .element e) → Fits .argument f →
      Fits .argument (.project es (some f))
  | item {role : Role} {e : Expr} : Fits .argument e → Fits role e
  | named {name : String} {e : Expr} : Fits .argument e → Fits .element (.named name e)
  | assign {name : String} {e : Expr} : Fits .argument e → Fits .statement (.assign name e)

/-! ### Whatever fits has a rendering -/

/-- The phrase has a rendering without anything that is not needed. -/
def HasRendering (phrase : Phrase) : Prop := ∃ ts, Renders .minimal phrase ts

theorem hasRendering_list {role : Role} {es : List Expr}
    (h : ∀ e ∈ es, HasRendering (.item role e)) : HasRendering (.list role es) := by
  induction es with
  | nil => exact ⟨[], .noItem⟩
  | cons e es ih =>
      obtain ⟨ts, hts⟩ := h e List.mem_cons_self
      obtain ⟨us, hus⟩ := ih fun e he => h e (List.mem_cons_of_mem _ he)
      cases es with
      | nil => exact ⟨ts, .lastItem hts⟩
      | cons f es => exact ⟨_, .moreItems hts hus⟩

theorem hasRendering_block {es : List Expr} (h : ∀ e ∈ es, HasRendering (.item .statement e))
    (between : Bool) : HasRendering (.block between es) := by
  induction es generalizing between with
  | nil => exact ⟨_, .noStatement (n := 0) rfl⟩
  | cons e es ih =>
      obtain ⟨ts, hts⟩ := h e List.mem_cons_self
      obtain ⟨us, hus⟩ := ih (fun e he => h e (List.mem_cons_of_mem _ he)) true
      cases between with
      | false => exact ⟨_, .statement (n := 0) rfl hts hus⟩
      | true => exact ⟨_, .statement (n := 1) rfl hts hus⟩

/-- What has to be shown of an item.  An argument needs no parentheses of its own where it has
nothing to spare; a projection with a filter stands only where nothing is next. -/
def HasItem : Role → Expr → Prop
  | .argument, e => ∀ next : Next, (next.spared = true → next.step = 0) →
      (e.level 0 = 0 → next.step = 0) → HasRendering (.bare next e)
  | role, e => HasRendering (.item role e)

theorem HasItem.operand {e : Expr} (h : HasItem .argument e) {demand : Nat} {next : Next}
    (hspared : next.spared = true → next.step = 0) (hdemand : demand = 0 → next.step = 0) :
    HasRendering (.operand demand next e) := by
  have hspares : ∀ level, next.Spares demand level := fun _ htrue => .inl (hspared htrue)
  by_cases hlevel : demand ≤ e.level Style.minimal.filtered
  · obtain ⟨ts, hts⟩ := h next hspared fun hzero => hdemand (Nat.le_zero.mp (hlevel.trans_eq hzero))
    exact ⟨ts, .bare hlevel (hspares _) hts⟩
  · obtain ⟨ts, hts⟩ := h .nothing nofun fun _ => rfl
    exact ⟨_, .parens (fun _ => Nat.lt_of_not_le hlevel) (hspares _)
      (.bare (Nat.zero_le _) nofun hts)⟩

theorem HasItem.whole {e : Expr} (h : HasItem .argument e) :
    HasRendering (.operand 0 .nothing e) :=
  h.operand nofun fun _ => rfl

theorem HasItem.item {role : Role} {e : Expr} (h : HasItem role e) :
    HasRendering (.item role e) := by
  cases role with
  | argument =>
      obtain ⟨ts, hts⟩ := h.whole
      exact ⟨ts, .item hts⟩
  | element | statement => exact h

theorem hasItem_unary {op : UnaryOp} {e : Expr} (h : HasItem .argument e) :
    HasItem .argument (.unary op e) := by
  intro next hspared _
  cases op with
  | minus =>
      obtain ⟨ts, hts⟩ : HasRendering (.operand 8 next e) := h.operand hspared nofun
      exact ⟨_, .minus hts⟩
  | not =>
      obtain ⟨ts, hts⟩ : HasRendering (.operand 4 next e) := h.operand hspared nofun
      exact ⟨.keyword .not_ :: ts, .not rfl hts⟩
  | isEmpty =>
      obtain ⟨ts, hts⟩ : HasRendering (.operand 6 { step := 5 } e) := h.operand nofun nofun
      exact ⟨_, .isEmpty hts⟩
  | isNotEmpty =>
      obtain ⟨ts, hts⟩ : HasRendering (.operand 6 { step := 5 } e) := h.operand nofun nofun
      exact ⟨_, .isNotEmpty hts⟩

theorem hasItem_binary {op : BinaryOp} {l r : Expr} (hl : HasItem .argument l)
    (hr : HasItem .argument r) : HasItem .argument (.binary op l r) := by
  intro next hspared _
  obtain ⟨ts, hts⟩ : HasRendering (.operand op.leftDemand { step := op.level } l) :=
    hl.operand nofun fun hzero => absurd hzero op.leftDemand_pos.ne'
  obtain ⟨us, hus⟩ : HasRendering (.operand op.rightDemand next r) := hr.operand hspared nofun
  exact ⟨_, .binary hts hus⟩

theorem hasItem_of_fits {role : Role} {e : Expr} (h : Fits role e) : HasItem role e := by
  induction h with
  | literal hv =>
      obtain ⟨t, ht⟩ := exists_isConstant hv
      exact fun _ _ _ => ⟨_, .constant ht⟩
  | var => exact fun _ _ _ => ⟨_, .var⟩
  | unary _ ih => exact hasItem_unary ih
  | binary _ _ ihl ihr => exact hasItem_binary ihl ihr
  | call _ ih =>
      obtain ⟨ts, hts⟩ := hasRendering_list fun e he => (ih e he).item
      exact fun _ _ _ => ⟨_, .call hts⟩
  | vector hlength _ ih =>
      obtain ⟨ts, hts⟩ := hasRendering_list fun e he => (ih e he).item
      exact fun _ _ _ => ⟨_, .vector hlength hts⟩
  | @index v _ _ _ ihv ihp =>
      obtain ⟨ts, hts⟩ : HasRendering (.operand 9 { step := 9 } v) := ihv.operand nofun nofun
      obtain ⟨us, hus⟩ := ihp.whole
      exact fun _ _ _ => ⟨_, .index hts hus⟩
  | path hfield => exact fun _ _ _ => ⟨_, .path hfield⟩
  | ifThen _ _ ihc iht =>
      obtain ⟨ts, hts⟩ := ihc.whole
      obtain ⟨us, hus⟩ := hasRendering_block (fun e he => (iht e he).item) false
      exact fun _ _ _ => ⟨_, .ifThen hts hus⟩
  | ifElse _ _ _ ihc iht ihe =>
      obtain ⟨ts, hts⟩ := ihc.whole
      obtain ⟨us, hus⟩ := hasRendering_block (fun e he => (iht e he).item) false
      obtain ⟨vs, hvs⟩ := hasRendering_block (fun e he => (ihe e he).item) false
      exact fun _ _ _ => ⟨_, .ifElse hts hus hvs⟩
  | project hne _ ih =>
      obtain ⟨ts, hts⟩ := hasRendering_list fun e he => (ih e he).item
      exact fun _ _ _ => ⟨_, .project hne hts⟩
  | @filter _ f hne _ _ ihes ihf =>
      obtain ⟨ts, hts⟩ := hasRendering_list fun e he => (ihes e he).item
      intro next _ hstep
      obtain ⟨us, hus⟩ : HasRendering (.operand 0 next.toSpare f) :=
        ihf.operand (fun _ => hstep rfl) fun _ => hstep rfl
      exact ⟨_, .filter hne hts hus⟩
  | @item role e _ ih =>
      cases role with
      | argument => exact ih
      | element | statement =>
          obtain ⟨ts, hts⟩ := ih.whole
          exact ⟨_, .item hts⟩
  | named _ ih =>
      obtain ⟨ts, hts⟩ := ih.whole
      exact ⟨_, .named hts⟩
  | assign _ ih =>
      obtain ⟨ts, hts⟩ := ih.whole
      exact ⟨_, .assign hts⟩

/-! ### And reads back -/

/-- **Whatever the grammar can build has a minimal rendering, and each minimal rendering of it reads
back as it**, whichever texts stand for its numbers. -/
theorem wholeExpression_of_minimal {e : Expr} (h : Fits .argument e) :
    (∃ ts, Renders .minimal (.operand 0 .nothing e) ts) ∧
      ∀ ts, Renders .minimal (.operand 0 .nothing e) ts → wholeExpression ts = .ok e :=
  ⟨(hasItem_of_fits h).whole, fun _ hts => wholeExpression_of_renders separates_minimal hts⟩

/-- A projection with a filter under a negation, and a difference on the right of another. -/
theorem wholeExpression_of_minimal_nested :
    wholeExpression [.symbol .bang, .symbol .leftParen, .keyword .project_, .symbol .leftBrace,
        .name "n", .symbol .colon, .name "D", .symbol .dot, .name "x", .symbol .rightBrace,
        .keyword .where_, .name "a", .symbol .minus, .symbol .leftParen, .name "b", .symbol .minus,
        .number "01", .symbol .rightParen, .symbol .rightParen] =
      .ok (.unary .not (.project [.named "n" (.path "D" ["x"])]
        (some (.binary (.arithmetic .subtract) (.var "a")
          (.binary (.arithmetic .subtract) (.var "b") (.literal (.long 1))))))) := by
  have hone : IsConstant (.long 1) (.number "01") := .number (by cbv)
  have hinner : Renders .minimal (.operand 7 Next.nothing.toSpare
      (.binary (.arithmetic .subtract) (.var "b") (.literal (.long 1)))) _ :=
    .parens (by decide) (fun _ => .inl rfl) (.bare (by decide) (Next.spares_nothing _ _)
      (.binary (.bare (by decide) (Next.spares_taken _ _ _) .var)
        (.bare (by decide) (Next.spares_nothing _ _) (.constant hone))))
  have hfilter : Renders .minimal (.operand 0 Next.nothing.toSpare
      (.binary (.arithmetic .subtract) (.var "a")
        (.binary (.arithmetic .subtract) (.var "b") (.literal (.long 1))))) _ :=
    .bare (by decide) (fun _ => .inl rfl)
      (.binary (.bare (by decide) (Next.spares_taken _ _ _) .var) hinner)
  have helement : Renders .minimal (.list .element [.named "n" (.path "D" ["x"])]) _ :=
    .lastItem (.named (.bare (by decide) (Next.spares_nothing _ _) (.path (by decide))))
  have hproject : Renders .minimal (.operand 4 .nothing (.project [.named "n" (.path "D" ["x"])]
      (some (.binary (.arithmetic .subtract) (.var "a")
        (.binary (.arithmetic .subtract) (.var "b") (.literal (.long 1))))))) _ :=
    .parens (by decide) (Next.spares_nothing _ _)
      (.bare (by decide) (Next.spares_nothing _ _) (.filter (by decide) helement hfilter))
  have hfits : Fits .argument (.unary .not (.project [.named "n" (.path "D" ["x"])]
      (some (.binary (.arithmetic .subtract) (.var "a")
        (.binary (.arithmetic .subtract) (.var "b") (.literal (.long 1))))))) := by
    refine .unary (.filter (by decide) ?_ (.binary .var (.binary .var (.literal ?_))))
    · simpa using .named (.path (by decide))
    · change 0 ≤ (1 : Int)
      decide
  exact (wholeExpression_of_minimal hfits).2 _
    (.bare (by decide) (Next.spares_nothing _ _) (.not rfl hproject))

/-! ### Nothing else can be built -/

/-- The numerals among the tokens have no sign. -/
def HasUnsigned (ts : List Token) : Prop :=
  ∀ text v, .number text ∈ ts → numberLiteral? text = some v → v.IsUnsigned

theorem HasUnsigned.of_subset {ts us : List Token} (h : HasUnsigned ts) (hsub : ∀ t ∈ us, t ∈ ts) :
    HasUnsigned us := fun text v htext => h text v (hsub _ htext)

/-- What has to be shown of a phrase. -/
def IsFitting : Phrase → Prop
  | .operand _ _ e | .bare _ e => Fits .argument e
  | .item role e => Fits role e
  | .list role es => ∀ e ∈ es, Fits role e
  | .block _ es => ∀ e ∈ es, Fits .statement e

theorem isFitting_of_renders {style : Style} {phrase : Phrase} {ts : List Token}
    (h : Renders style phrase ts) (hts : HasUnsigned ts) : IsFitting phrase := by
  induction h with
  | bare _ _ _ ih => exact ih hts
  | parens _ _ _ ih => exact ih (hts.of_subset (by simp +contextual))
  | constant hv =>
      refine .literal ?_
      cases hv with
      | number hread => exact hts _ _ List.mem_cons_self hread
      | string | true_ | false_ => trivial
  | var => exact .var
  | path hfield => exact .path hfield
  | call _ ih => exact .call (ih (hts.of_subset (by simp +contextual)))
  | vector hlength _ ih => exact .vector hlength (ih (hts.of_subset (by simp +contextual)))
  | ifThen _ _ ihc iht =>
      exact .ifThen (ihc (hts.of_subset (by simp +contextual)))
        (iht (hts.of_subset (by simp +contextual)))
  | ifElse _ _ _ ihc iht ihe =>
      exact .ifElse (ihc (hts.of_subset (by simp +contextual)))
        (iht (hts.of_subset (by simp +contextual)))
        (ihe (hts.of_subset (by simp +contextual)))
  | project hne _ ih => exact .project hne (ih (hts.of_subset (by simp +contextual)))
  | filter hne _ _ ihes ihf =>
      exact .filter hne (ihes (hts.of_subset (by simp +contextual)))
        (ihf (hts.of_subset (by simp +contextual)))
  | index _ _ ihv ihp =>
      exact .index (ihv (hts.of_subset (by simp +contextual)))
        (ihp (hts.of_subset (by simp +contextual)))
  | minus _ ih | not _ _ ih | isEmpty _ ih | isNotEmpty _ ih =>
      exact .unary (ih (hts.of_subset (by simp +contextual)))
  | binary _ _ ihl ihr =>
      exact .binary (ihl (hts.of_subset (by simp +contextual)))
        (ihr (hts.of_subset (by simp +contextual)))
  | item _ ih => exact .item (ih hts)
  | named _ ih => exact .named (ih (hts.of_subset (by simp +contextual)))
  | assign _ ih => exact .assign (ih (hts.of_subset (by simp +contextual)))
  | noItem | noStatement _ => exact nofun
  | lastItem _ ih => exact List.forall_mem_singleton.mpr (ih hts)
  | moreItems _ _ ihe ihes =>
      exact List.forall_mem_cons.mpr
        ⟨ihe (hts.of_subset (by simp +contextual)), ihes (hts.of_subset (by simp +contextual))⟩
  | statement _ _ _ ihe ihes =>
      exact List.forall_mem_cons.mpr
        ⟨ihe (hts.of_subset (by simp +contextual)), ihes (hts.of_subset (by simp +contextual))⟩

/-- **Whatever is accepted fits**, if no numeral has a sign. -/
theorem fits_of_wholeExpression {ts : List Token} {e : Expr} (h : wholeExpression ts = .ok e)
    (hts : HasUnsigned ts) : Fits .argument e := by
  obtain ⟨us, n, rfl, hus⟩ := exists_rendering h
  exact isFitting_of_renders hus (hts.of_subset (by simp +contextual))

end FrameLang.Grammar
