/-
Two runs side by side.

A run numbers the frames that it makes.  When two runs do the same things in another order, the
frames of one have other numbers than those of the other, and what a variable holds need not be the
same value: it is alike, by a pairing of the frames that there are (`Value.Like`).  Frames are
paired as they are made.  So a pairing only grows, no frame is paired twice, and all paired frames
have been made (`Paired`).

`Follows` says of two runs that the second one ends as the first one does if that ends with a
result.  There is one rule for each way of building a run.  Loops have two: turns may be taken in
the same order, or in another one if no turn leaves anything behind for the next (`Leaves`).
-/
import FrameLang.Proofs.Evaluation
import FrameLang.Proofs.Likeness

namespace FrameLang

/-! ### Frames that have been made -/

namespace Run

variable {α β : Type}

/-- Frames that have been made stay made. -/
def CountsUp (run : Run α) : Prop :=
  ∀ s, s.nextIdentity ≤ (run s : Except Stop α × Store).2.nextIdentity

theorem countsUp_pure (a : α) : CountsUp (pure a) := fun _ => Nat.le_refl _

theorem CountsUp.bind {x : Run α} {f : α → Run β} (hx : CountsUp x)
    (hf : ∀ a s s', x s = (.ok a, s') → CountsUp (f a)) : CountsUp (x >>= f) := by
  intro s
  have hle := hx s
  rw [run_bind]
  rcases hrun : x s with ⟨stop | a, s'⟩
  · rwa [hrun] at hle
  · rw [hrun] at hle
    exact Nat.le_trans hle (hf a s s' hrun s')

theorem countsUp_fail (e : Error) : CountsUp (fail e : Run α) := fun _ => Nat.le_refl _

theorem composes_countsUp : Composes CountsUp where
  pure := countsUp_pure
  report _ := fun _ => Nat.le_refl _
  print _ _ := fun _ => Nat.le_refl _
  newFrame _ := fun s => Nat.le_succ s.nextIdentity
  bind := CountsUp.bind

theorem asks_countsUp {question : Store → β} : Asks CountsUp question :=
  fun _ hgoOn _ s => hgoOn s s

theorem CountsUp.isolated {run : Run α} (h : CountsUp run) (vars : Bindings Value) :
    CountsUp (isolated vars run) :=
  fun s => h { s with vars }

theorem CountsUp.reporting {run : Run α} (h : CountsUp run) : CountsUp (reporting run) := by
  intro s
  have hle := h s
  unfold Run.reporting
  rw [run_tryCatch]
  rcases hrun : run s with ⟨stop | a, s'⟩
  · rw [hrun] at hle
    cases stop with
    | failed e => exact hle
    | outOfDepth => exact hle
  · rwa [hrun] at hle

end Run

open Run

namespace Expr

theorem hasPart_countsUp {deeper : RunStatements} (hdeeper : ∀ env es, CountsUp (deeper env es))
    (env : Environment) (node : Expr) : node.HasPart CountsUp deeper env := by
  have hcolumn : ∀ (host : Host) (f : Frame) (column : Column) (row : Nat),
      CountsUp (f.readColumn deeper host column row) := fun _ _ _ _ =>
    composes_countsUp.readColumn fun _ _ _ _ => (hdeeper _ _).isolated ∅
  cases node with
  | var name =>
      have hlookUp : CountsUp (lookUp deeper env name) :=
        composes_countsUp.lookUp asks_countsUp (countsUp_fail _) fun _ _ _ _ => hcolumn _ _ _ _
      exact hlookUp.reporting
  | path dataSet field => exact composes_countsUp.readPath (fun _ _ _ _ _ => hcolumn _ _ _ _) field
  | call name arguments =>
      intro vs _
      exact composes_countsUp.call (fun _ _ => (hdeeper _ _).isolated _)
        fun _ _ _ _ => countsUp_fail _
  | assign name e => exact fun _ _ => Nat.le_refl _
  | ifElse c t e =>
      cases e with
      | none => trivial
      | some e => exact ⟨asks_countsUp, asks_countsUp⟩
  | project elements filter => exact asks_countsUp
  | _ => trivial

theorem countsUp_evaluateWith {deeper : RunStatements}
    (hdeeper : ∀ env es, CountsUp (deeper env es)) (env : Environment) (e : Expr) :
    CountsUp (e.evaluateWith deeper env) :=
  evaluateWith_of_parts composes_countsUp (Or.inl rfl) e
    (fun node _ _ => hasPart_countsUp hdeeper _ node) env.projectedRow

theorem countsUp_evaluateAllWith {deeper : RunStatements}
    (hdeeper : ∀ env es, CountsUp (deeper env es)) (env : Environment) (es : List Expr) :
    CountsUp (evaluateAllWith deeper env es) :=
  evaluateAllWith_of_parts composes_countsUp (Or.inl rfl) es
    (fun node _ _ => hasPart_countsUp hdeeper _ node) env.projectedRow

theorem countsUp_runDeep (depth : Nat) (env : Environment) (es : List Expr) :
    CountsUp (runDeep depth env es) := by
  induction depth generalizing env es with
  | zero => exact fun _ => Nat.le_refl _
  | succ depth ih =>
      rw [runDeep_succ]
      exact (countsUp_evaluateAllWith ih env es).bind fun _ _ _ _ => countsUp_pure _

end Expr

/-! ### Two runs -/

namespace Run

/-- Two collections of variables hold values that are alike. -/
def VarsLike (R : Pairing) (vars vars' : Bindings Value) : Prop :=
  ∀ name, Option.Rel (Value.Like R) (vars.find? name) (vars'.find? name)

/-- Two runs have come to stores that are alike: the variables are, no frame is paired twice, and
the frames that are paired have been made. -/
structure Paired (R : Pairing) (s s' : Store) : Prop where
  vars : VarsLike R s.vars s'.vars
  once : Relator.BiUnique R
  made : ∀ i j, R i j → i < s.nextIdentity ∧ j < s'.nextIdentity

theorem VarsLike.mono {R S : Pairing} (hRS : R ≤ S) {vars vars' : Bindings Value}
    (h : VarsLike R vars vars') : VarsLike S vars vars' := by
  intro name
  have hname := h name
  generalize vars.find? name = v at hname ⊢
  generalize vars'.find? name = w at hname ⊢
  cases hname with
  | none => exact .none
  | some hvw => exact .some (hvw.mono hRS)

/-- A frame that is made in one run is paired with one that is made in the other. -/
theorem Paired.newFrame {R : Pairing} {s s' : Store} (h : Paired R s s') :
    Paired (fun i j => R i j ∨ i = s.nextIdentity ∧ j = s'.nextIdentity)
      { s with nextIdentity := s.nextIdentity + 1 }
      { s' with nextIdentity := s'.nextIdentity + 1 } := by
  refine ⟨h.vars.mono fun _ _ => Or.inl, ⟨?_, ?_⟩, ?_⟩
  · rintro i j k (hik | ⟨rfl, rfl⟩) (hjk | ⟨rfl, hk⟩)
    · exact h.once.left hik hjk
    · have := (h.made i k hik).2
      omega
    · have := (h.made j _ hjk).2
      omega
    · rfl
  · rintro i j k (hij | ⟨rfl, rfl⟩) (hik | ⟨hi, rfl⟩)
    · exact h.once.right hij hik
    · have := (h.made i j hij).1
      omega
    · have := (h.made _ k hik).1
      omega
    · rfl
  · rintro i j (hij | ⟨rfl, rfl⟩)
    · have hlt := h.made i j hij
      exact ⟨Nat.lt_succ_of_lt hlt.1, Nat.lt_succ_of_lt hlt.2⟩
    · exact ⟨Nat.lt_succ_self _, Nat.lt_succ_self _⟩

variable {α β γ δ : Type}

/-- From stores that are alike, if the first run ends with a result then the second one ends with a
result that is related to it, or stops for a reason among `E`, and the stores are alike again. -/
def Follows (E : Stop → Prop) (Q : Pairing → α → β → Prop) (R : Pairing) (run : Run α)
    (run' : Run β) : Prop :=
  ∀ S, R ≤ S → ∀ s s', Paired S s s' → ∀ a s₁, run s = (.ok a, s₁) →
    Meets run' s' (fun b s₁' => ∃ T, S ≤ T ∧ Q T a b ∧ Paired T s₁ s₁') fun stop _ => E stop

variable {E : Stop → Prop} {Q : Pairing → α → β → Prop} {P : Pairing → γ → δ → Prop} {R : Pairing}

theorem follows_pure {a : α} {b : β} (h : ∀ S, R ≤ S → Q S a b) :
    Follows E Q R (pure a) (pure b) := by
  rintro S hRS s s' hs _ _ ⟨⟩
  exact meets_pure ⟨S, le_refl S, h S hRS, hs⟩

theorem Follows.bind {x : Run α} {x' : Run β} {f : α → Run γ} {f' : β → Run δ}
    (hx : Follows E Q R x x')
    (hf : ∀ S, R ≤ S → ∀ a b, Q S a b → Follows E P S (f a) (f' b)) :
    Follows E P R (x >>= f) (x' >>= f') := by
  intro S hRS s s' hs c s₂ hrun
  obtain ⟨a, s₁, hfirst, hrun⟩ := exists_of_run_bind hrun
  refine meets_bind (hx S hRS s s' hs a s₁ hfirst) ?_
  rintro b s₁' ⟨T, hST, hab, hs₁⟩
  refine (hf T (hRS.trans hST) a b hab T (le_refl T) s₁ s₁' hs₁ c s₂ hrun).imp_result ?_
  rintro d s₂' ⟨U, hTU, hcd, hs₂⟩
  exact ⟨U, hST.trans hTU, hcd, hs₂⟩

/-- Whatever the second run does, it follows one that ends with no result. -/
theorem follows_report (e : Error) (run' : Run β) : Follows E Q R (report e) run' := by
  rintro S hRS s s' hs a s₁ ⟨⟩

theorem follows_fail (e : Error) (run' : Run β) : Follows E Q R (fail e) run' := by
  rintro S hRS s s' hs a s₁ ⟨⟩

theorem follows_orReport {x : Except Error α} {x' : Except Error β}
    (h : ∀ S, R ≤ S → Relator.BiUnique S → ∀ a, x = .ok a → ∃ b, x' = .ok b ∧ Q S a b) :
    Follows E Q R (orReport x) (orReport x') := by
  intro S hRS s s' hs a s₁ hrun
  cases x with
  | error e => cases hrun
  | ok a =>
      cases hrun
      obtain ⟨b, rfl, hab⟩ := h S hRS hs.once a rfl
      exact meets_pure ⟨S, le_refl S, hab, hs⟩

theorem follows_get_bind {f f' : Store → Run α} {Q : Pairing → α → α → Prop}
    (h : ∀ S, R ≤ S → ∀ s s', Paired S s s' → Follows E Q S (f s) (f' s')) :
    Follows E Q R (get >>= f) (get >>= f') :=
  fun S hRS s s' hs => h S hRS s s' hs S (le_refl S) s s' hs

theorem Follows.reporting {run : Run α} {run' : Run β} (h : Follows E Q R run run') :
    Follows E Q R (reporting run) (reporting run') := by
  intro S hRS s s' hs a s₁ hrun
  refine meets_reporting (h S hRS s s' hs a s₁ ?_) fun _ _ => id
  unfold Run.reporting at hrun
  rw [run_tryCatch] at hrun
  rcases hfirst : run s with ⟨stop | b, s₂⟩
  · rw [hfirst] at hrun
    cases stop <;> cases hrun
  · rw [hfirst] at hrun
    exact hrun

theorem Follows.isolated {run run' : Run α} {Q : Pairing → α → α → Prop}
    {vars vars' : Bindings Value} (h : Follows E Q R run run') (hvars : VarsLike R vars vars') :
    Follows E Q R (isolated vars run) (isolated vars' run') := by
  intro S hRS s s' hs a s₁ hrun
  have hinner : Paired S { s with vars } { s' with vars := vars' } :=
    ⟨hvars.mono hRS, hs.once, hs.made⟩
  unfold Run.isolated at hrun
  rcases hfirst : run { s with vars } with ⟨result, s₂⟩
  rw [hfirst] at hrun
  cases hrun
  refine meets_isolated ((h S hRS _ _ hinner a s₂ hfirst).imp_result ?_)
  rintro b s₂' ⟨T, hST, hab, hs₂⟩
  exact ⟨T, hST, hab, hs.vars.mono hST, hs₂.once, hs₂.made⟩

theorem follows_print (sink sink' : Sink) (text text' : String) :
    Follows E (fun _ _ _ => True) R (print sink text) (print sink' text') := by
  rintro S hRS s s' hs _ _ ⟨⟩
  exact meets_emit ⟨S, le_refl S, trivial, hs.vars, hs.once, hs.made⟩

theorem follows_setVariable (name : String) {v w : Value} (h : v.Like R w) :
    Follows E (fun _ _ _ => True) R (setVariable name v) (setVariable name w) := by
  rintro S hRS s s' hs _ _ ⟨⟩
  refine meets_setVariable ⟨S, le_refl S, trivial, ?_, hs.once, hs.made⟩
  intro other
  rw [Bindings.find?_insert, Bindings.find?_insert]
  split
  · exact .some (h.mono hRS)
  · exact hs.vars other

theorem follows_newFrame {f g : Frame} (h : f.SameRows g) :
    Follows E Value.Like R (newFrame f) (newFrame g) := by
  rintro S hRS s s' hs _ _ ⟨⟩
  exact meets_newFrame ⟨_, fun _ _ => Or.inl, .frame (Or.inr ⟨rfl, rfl⟩) h, hs.newFrame⟩

/-! ### Loops over rows -/

theorem eq_of_forall₂_like {vs ws : List Value} (h : List.Forall₂ (Value.Like R) vs ws)
    (hplain : ∀ v ∈ vs, v.IsPlain) : ws = vs := by
  induction h with
  | nil => rfl
  | cons hvw _ ih =>
      rw [List.forall_mem_cons] at hplain
      rw [hvw.eq_of_isPlain hplain.1, ih hplain.2]

/-- Rows that are alike and hold no frames are the same. -/
theorem eq_of_forall₂_forall₂_like {rows rows' : List (List Value)}
    (h : List.Forall₂ (List.Forall₂ (Value.Like R)) rows rows')
    (hplain : ∀ vs ∈ rows, ∀ v ∈ vs, v.IsPlain) : rows' = rows := by
  induction h with
  | nil => rfl
  | cons hvs _ ih =>
      rw [List.forall_mem_cons] at hplain
      rw [eq_of_forall₂_like hvs hplain.1, ih hplain.2]

/-- A loop in which each turn follows the same turn of another loop. -/
theorem follows_filterMapM {l : List γ} {f f' : γ → Run (Option (List Value))}
    (h : ∀ a S, R ≤ S →
      Follows E (fun S => Option.Rel (List.Forall₂ (Value.Like S))) S (f a) (f' a)) :
    Follows E (fun S => List.Forall₂ (List.Forall₂ (Value.Like S))) R (l.filterMapM f)
      (l.filterMapM f') := by
  induction l generalizing R with
  | nil => exact follows_pure fun _ _ => .nil
  | cons a l ih =>
      rw [List.filterMapM_cons, List.filterMapM_cons]
      refine (h a R (le_refl R)).bind fun S hRS r r' hr => ?_
      have hrest := ih fun a T hST => h a T (hRS.trans hST)
      cases hr with
      | none => exact hrest
      | some hvs =>
          refine hrest.bind fun T hST _ _ hrows => follows_pure fun U hTU => .cons ?_ ?_
          · exact Value.Like.forall₂_mono (hST.trans hTU) hvs
          · exact hrows.imp fun _ _ => Value.Like.forall₂_mono hTU

/-- A loop whose turns end with results that are known beforehand. -/
theorem meets_filterMapM_eq {I : Store → Prop} {E : Stop → Store → Prop} {l : List α}
    {f : α → Run (Option β)} {results : List (Option β)}
    (hf : List.Forall₂ (fun a r => ∀ s, I s → Meets (f a) s (fun r' s' => r' = r ∧ I s') E)
      l results) {s : Store} (hs : I s) :
    Meets (l.filterMapM f) s (fun bs s' => bs = results.filterMap id ∧ I s') E := by
  induction hf generalizing s with
  | nil => exact meets_pure ⟨rfl, hs⟩
  | cons ha _ ih =>
      rw [List.filterMapM_cons]
      refine meets_bind (ha s hs) ?_
      rintro r s₁ ⟨rfl, hs₁⟩
      cases r with
      | none => exact ih hs₁
      | some b =>
          refine meets_bind (ih hs₁) ?_
          rintro _ s₂ ⟨rfl, hs₂⟩
          exact meets_pure ⟨rfl, hs₂⟩

/-- What is related to the same list is related. -/
theorem forall₂_join {A : α → β → Prop} {B : α → γ → Prop} {as : List α} {bs : List β}
    {cs : List γ} (hA : List.Forall₂ A as bs) (hB : List.Forall₂ B as cs) :
    List.Forall₂ (fun b c => ∃ a, A a b ∧ B a c) bs cs := by
  induction hA generalizing cs with
  | nil =>
      cases hB
      exact .nil
  | cons hab _ ih =>
      cases hB with
      | cons hac hB => exact .cons ⟨_, hab, hac⟩ (ih hB)

/-- The variables are what they were, and the frames that had been made then still count. -/
structure Since (s t : Store) : Prop where
  vars : t.vars = s.vars
  made : s.nextIdentity ≤ t.nextIdentity

/-- A run that ends with a result leaves the variables alone. -/
def Leaves (run : Run α) : Prop :=
  ∀ s t, Since s t → Meets run t (fun _ t' => Since s t') fun _ _ => True

theorem CountsUp.leaves {run : Run α} (h : CountsUp run)
    (hkeeps : ∀ vars, Keeps (· = vars) run) : Leaves run := by
  intro s t ht
  refine meets_iff.mpr ⟨fun a t' hrun => ⟨?_, ?_⟩, fun _ _ _ => trivial⟩
  · exact (hkeeps s.vars t ht.vars).result hrun
  · have hle := h t
    rw [hrun] at hle
    exact Nat.le_trans ht.made hle

/-- Runs that have left the variables alone have come to stores that are alike. -/
theorem Paired.since {s s' t t' : Store} (h : Paired R s s') (ht : Since s t) (ht' : Since s' t') :
    Paired R t t' where
  vars := by
    rw [ht.vars, ht'.vars]
    exact h.vars
  once := h.once
  made i j hij := by
    have hmade := h.made i j hij
    exact ⟨Nat.lt_of_lt_of_le hmade.1 ht.made, Nat.lt_of_lt_of_le hmade.2 ht'.made⟩

/-- What the turns of a loop end with, each of them started from some store on the way. -/
theorem exists_turns {l : List α} {f : α → Run (Option β)} (hf : ∀ a, Leaves (f a)) {s s₁ : Store}
    {bs : List β} (hrun : l.filterMapM f s = (.ok bs, s₁)) :
    ∃ results, List.Forall₂ (fun a r => ∃ t t', Since s t ∧ f a t = (.ok r, t')) l results ∧
      bs = results.filterMap id ∧ Since s s₁ := by
  have hloop : Meets (l.filterMapM f) s (fun bs t => (∃ results, List.Forall₂ (fun a r =>
      ∃ t t', Since s t ∧ f a t = (.ok r, t')) l results ∧ bs = results.filterMap id) ∧ Since s t)
        fun _ _ => True := by
    refine meets_filterMapM_forall₂ (fun a _ t ht => ?_) ⟨rfl, Nat.le_refl _⟩
    refine meets_iff.mpr ⟨fun r t' hrun => ?_, fun _ _ _ => trivial⟩
    exact ⟨⟨t, t', ht, hrun⟩, (hf a s t ht).result hrun⟩
  obtain ⟨⟨results, hresults, hbs⟩, hs₁⟩ := hloop.result hrun
  exact ⟨results, hresults, hbs, hs₁⟩

/-- **A loop over rows in another order has the same results in another order**, or stops for a
reason among `E`.  A turn leaves the variables alone, so it makes no difference which turns came
before it, and no frames are among the results. -/
theorem meets_filterMapM_perm {l l' places : List γ} {f f' : γ → Run (Option (List Value))}
    {shows : γ → γ → Prop} {s s' s₁ : Store} {rows : List (List Value)}
    (hleaves : ∀ a, Leaves (f a)) (hleaves' : ∀ b, Leaves (f' b))
    (hplaces : places.Perm l) (hshows : List.Forall₂ shows places l')
    (hf : ∀ a b, shows a b →
      Follows E (fun S => Option.Rel (List.Forall₂ (Value.Like S))) R (f a) (f' b))
    (hs : Paired R s s') (hrun : l.filterMapM f s = (.ok rows, s₁))
    (hplain : ∀ vs ∈ rows, ∀ v ∈ vs, v.IsPlain) :
    ∃ rows', rows'.Perm rows ∧ Meets (l'.filterMapM f') s'
      (fun vss s₁' => vss = rows' ∧ Paired R s₁ s₁') fun stop _ => E stop := by
  obtain ⟨results, hresults, rfl, hs₁⟩ := exists_turns hleaves hrun
  have hresults' : List.Forall₂ (fun a r => (∀ vs ∈ r, ∀ v ∈ vs, v.IsPlain) ∧
      ∃ t t', Since s t ∧ f a t = (.ok r, t')) l results := by
    refine .flip ((List.forall₂_and_left _ _).mpr ⟨fun r hr vs hvs => ?_, hresults.flip⟩)
    exact hplain vs (List.mem_filterMap.mpr ⟨r, hr, hvs⟩)
  obtain ⟨turned, hturned, hperm⟩ := List.perm_comp_forall₂ hplaces hresults'
  refine ⟨turned.filterMap id, hperm.filterMap id, ?_⟩
  refine (meets_filterMapM_eq ((forall₂_join hshows hturned).imp ?_) (I := Since s')
    ⟨rfl, Nat.le_refl _⟩).imp (fun vss t h => ⟨h.1, hs.since hs₁ h.2⟩) fun _ _ => id
  rintro b r ⟨a, hab, hrplain, t, t₁, ht, hturn⟩ t' ht'
  have hfollows := hf a b hab R (le_refl R) t t' (hs.since ht ht') r t₁ hturn
  refine (hfollows.and (hleaves' b s' t' ht')).imp_result ?_
  rintro r' t₁' ⟨⟨S, _, hr, _⟩, hsince⟩
  refine ⟨?_, hsince⟩
  cases hr with
  | none => rfl
  | some hvs => exact congrArg some (eq_of_forall₂_like hvs (hrplain _ rfl))

end Run

/-! ### Runs from the same store -/

namespace Value

mutual

/-- The identities of the frames in a value. -/
def identities : Value → List Nat
  | vector vs => identitiesIn vs
  | frame i _ => [i]
  | _ => []

def identitiesIn : List Value → List Nat
  | [] => []
  | v :: vs => v.identities ++ identitiesIn vs

end

mutual

/-- A value is like itself if its frames are paired with themselves. -/
theorem like_self {R : Pairing} (v : Value) (h : ∀ i ∈ v.identities, R i i) : v.Like R v := by
  cases v with
  | vector vs => exact .vector (forall₂_like_self vs h)
  | frame i f => exact .frame (h i (by simp [identities])) (.refl f)
  | _ => exact .plain ⟨nofun, nofun⟩
termination_by structural v

theorem forall₂_like_self {R : Pairing} (vs : List Value) (h : ∀ i ∈ identitiesIn vs, R i i) :
    List.Forall₂ (Like R) vs vs := by
  cases vs with
  | nil => exact .nil
  | cons v vs =>
      exact .cons (like_self v fun i hi => h i (List.mem_append_left _ hi))
        (forall₂_like_self vs fun i hi => h i (List.mem_append_right _ hi))
termination_by structural vs

end

end Value

/-- The frames that variables hold have been made. -/
def Store.HasMade (s : Store) : Prop :=
  ∀ name v, s.vars.find? name = some v → ∀ i ∈ v.identities, i < s.nextIdentity

theorem Store.HasMade.paired {s : Store} (h : s.HasMade) :
    Paired (fun i j => i = j ∧ i < s.nextIdentity) s s where
  vars name := by
    cases hname : s.vars.find? name with
    | none => exact .none
    | some v => exact .some (v.like_self fun i hi => ⟨rfl, h name v hname i hi⟩)
  once := by
    constructor
    · rintro i j k ⟨rfl, _⟩ ⟨rfl, _⟩
      rfl
    · rintro i j k ⟨rfl, _⟩ ⟨rfl, _⟩
      rfl
  made := by
    rintro i j ⟨rfl, hi⟩
    exact ⟨hi, hi⟩

end FrameLang
