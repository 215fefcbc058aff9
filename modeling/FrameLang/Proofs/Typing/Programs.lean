/-
Checked programs are type safe if they are careful.

The check of a program promises a type, and the value that the program ends with is of that type
or `void`.  That is so with three provisos, since there are three things that the check and the
evaluator see differently.

The check walks through both branches of an `if`, one after the other, and through the right operand
of every `and` and `or`.  An assignment in a part that is skipped when the program is run has
changed the type of its variable all the same.  So what may be skipped must not change the type of
a variable that is known before.

An `if` with a branch of type long and another of type double is of type double.  The evaluator
makes that true by looking at the branch that it did not take and finding out its type, but from the
values that the variables have at that moment.  One of them may be `void`, or not be there at all,
where the check knows a type.  So the type of that branch, as far as doubles go, must be the same
for all the values that the variables can have.

The check does not go into projections, and the evaluator does.  So these must not assign.

`Discipline.careful` is the three provisos.  They allow assignments in branches, functions that call
functions, and variables that are `void`.
-/
import FrameLang.Proofs.Typing.Check
import FrameLang.Proofs.Typing.Soundness
import FrameLang.Script

namespace FrameLang

open Run FrameLang.Expr

/-! ### Views and variables -/

namespace View

/-- Whether types of variables are in keeping with what is known: no variable is there that nothing
is known of, and one that is known exactly is there. -/
def Agrees (Γ : View) (types : String → Option ValueType) : Prop :=
  ∀ name, (∀ t, types name = some t → ∃ k, Γ name = some k ∧ k.Admits t) ∧
    ∀ k, Γ name = some k → k.exact = true → (types name).isSome = true

/-- What is known of variables of which the values are there. -/
def exactly (types : String → Option ValueType) : View :=
  fun name => (types name).map fun t => { type := t, exact := true }

/-- A variable that is known before has the same type after, unless the type after says nothing or
the variable was `void`. -/
def Preserves (before after : View) : Prop :=
  ∀ name k, before name = some k → ∃ k', after name = some k' ∧
    (k'.type = k.type ∨ k'.type = .void ∨ k = { type := .void, exact := true })

theorem Preserves.refl (Γ : View) : Γ.Preserves Γ := fun _ k h => ⟨k, h, Or.inl rfl⟩

/-- A variable that is new may be assigned in a part that may be skipped. -/
theorem preserves_bind {Γ : View} {name : String} (h : Γ name = none) (k : Known) :
    Γ.Preserves (Γ.bind name k) := by
  intro other a ha
  refine ⟨a, ?_, Or.inl rfl⟩
  unfold bind
  rw [if_neg, ha]
  rintro rfl
  rw [h] at ha
  cases ha

theorem types_exactly (types : String → Option ValueType) : (exactly types).types = types := by
  funext name
  unfold View.types exactly
  cases types name <;> rfl

theorem agrees_exactly (types : String → Option ValueType) : (exactly types).Agrees types := by
  intro name
  refine ⟨fun t ht => ⟨{ type := t, exact := true }, by simp [exactly, ht], Or.inl rfl⟩, ?_⟩
  intro k hk _
  obtain ⟨t, ht, _⟩ := Option.map_eq_some_iff.mp hk
  rw [ht]
  rfl

/-- What is known after a merge, where something is known before. -/
theorem merge_of_some {Γ Γ' : View} {name : String} {a b : Known} (ha : Γ name = some a)
    (hb : Γ' name = some b) :
    Γ.merge Γ' name = some { b with exact := a.exact && b.exact && a.type == b.type } := by
  unfold merge
  rw [ha, hb]

/-- What is known exactly after a merge is known exactly before and after. -/
theorem exact_of_merge {Γ Γ' : View} {name : String} {k : Known} (hk : Γ.merge Γ' name = some k)
    (hexact : k.exact = true) :
    (∃ a, Γ name = some a ∧ a.exact = true) ∧ ∃ b, Γ' name = some b ∧ b.exact = true := by
  unfold merge at hk
  cases hb : Γ' name with
  | none =>
      rw [hb] at hk
      cases hk
  | some b =>
      cases ha : Γ name with
      | none =>
          rw [ha, hb] at hk
          cases hk
          cases hexact
      | some a =>
          rw [ha, hb] at hk
          cases hk
          simp only [Bool.and_eq_true] at hexact
          exact ⟨⟨a, rfl, hexact.1.1⟩, b, rfl, hexact.1.2⟩

theorem Agrees.merge_left {Γ Γ' : View} {types : String → Option ValueType} (h : Γ.Agrees types)
    (hskip : Γ.Preserves Γ') : (Γ.merge Γ').Agrees types := by
  intro name
  constructor
  · intro t ht
    obtain ⟨a, ha, hadmits⟩ := (h name).1 t ht
    obtain ⟨b, hb, htype⟩ := hskip name a ha
    refine ⟨_, merge_of_some ha hb, ?_⟩
    by_cases hsame : b.type = a.type
    · rcases hadmits with rfl | ⟨hexact, hvoid⟩
      · exact Or.inl hsame.symm
      · exact Or.inr ⟨by simp [hexact], by simpa [hsame] using hvoid⟩
    · have hinexact : (a.exact && b.exact && a.type == b.type) = false := by
        simp [Ne.symm hsame]
      rcases htype with htype | htype | rfl
      · exact absurd htype hsame
      · exact Or.inr ⟨hinexact, Or.inl htype⟩
      · rcases hadmits with htype | ⟨hexact, _⟩
        · exact Or.inr ⟨hinexact, Or.inr htype⟩
        · cases hexact
  · intro k hk hexact
    obtain ⟨⟨a, ha, hexact⟩, _⟩ := exact_of_merge hk hexact
    exact (h name).2 a ha hexact

theorem Agrees.merge_right {Γ Γ' : View} {types : String → Option ValueType}
    (h : Γ'.Agrees types) : (Γ.merge Γ').Agrees types := by
  intro name
  have hmerge : ∀ b, Γ' name = some b → ∃ exact, (exact = true → b.exact = true) ∧
      Γ.merge Γ' name = some { b with exact } := by
    intro b hb
    cases ha : Γ name with
    | none => exact ⟨false, nofun, by unfold merge; rw [ha, hb]⟩
    | some a =>
        refine ⟨_, ?_, merge_of_some ha hb⟩
        simp only [Bool.and_eq_true]
        exact fun h => h.1.2
  constructor
  · intro t ht
    obtain ⟨b, hb, hadmits⟩ := (h name).1 t ht
    obtain ⟨exact, hexact, hmerged⟩ := hmerge b hb
    refine ⟨_, hmerged, ?_⟩
    rcases hadmits with htype | ⟨hb, hvoid⟩
    · exact Or.inl htype
    · refine Or.inr ⟨?_, hvoid⟩
      cases exact with
      | false => rfl
      | true => rw [hexact rfl] at hb; cases hb
  · intro k hk hexact
    obtain ⟨_, b, hb, hexact⟩ := exact_of_merge hk hexact
    exact (h name).2 b hb hexact

end View

/-- The three provisos. -/
def Discipline.careful : Discipline where
  allows e := match e with
    | .project elements filter => (Expr.project elements filter).every isNoAssignment
    | _ => true
  Skips := View.Preserves
  Besides scope Γ e t := ∀ types, Γ.Agrees types →
    ({ scope with variableType := types }.typeOf e = .double ↔ t = .double)

/-! ### The setting -/

/-- The types of variables by their values. -/
def Bindings.types (vars : Bindings Value) (name : String) : Option ValueType :=
  (vars.find? name).map Value.type

theorem View.Agrees.insert {Γ : View} {vars : Bindings Value} (h : Γ.Agrees vars.types)
    {k : Known} {v : Value} (hv : k.Fits v) (name : String) :
    (Γ.bind name k).Agrees (vars.insert name v).types := by
  intro other
  unfold View.bind Bindings.types
  rw [Bindings.find?_insert]
  by_cases hother : other = name
  · rw [if_pos hother, if_pos hother]
    refine ⟨?_, fun _ _ _ => rfl⟩
    rintro _ ⟨⟩
    exact ⟨k, rfl, hv⟩
  · rw [if_neg hother, if_neg hother]
    exact h other

theorem View.agrees_ofParameters {ks : List Known} {arguments : List Value}
    (h : List.Forall₂ Known.Fits ks arguments) (parameters : List String) :
    (View.ofParameters parameters ks).Agrees
      (Bindings.ofList (parameters.zip arguments)).types := by
  intro name
  have hrel := Bindings.find?_ofList_zip_rel h parameters name
  unfold View.ofParameters Bindings.types
  generalize (Bindings.ofList (parameters.zip ks)).find? name = known at hrel ⊢
  generalize (Bindings.ofList (parameters.zip arguments)).find? name = value at hrel ⊢
  cases hrel with
  | none => exact ⟨nofun, nofun⟩
  | some hv =>
      refine ⟨?_, fun _ _ _ => rfl⟩
      rintro _ ⟨⟩
      exact ⟨_, rfl, hv⟩

/-- Programs run where no row of a frame is at hand. -/
structure Environment.IsPlain (env : Environment) : Prop where
  row : env.row = none
  projectedRow : env.projectedRow = none

theorem Environment.IsPlain.forCall_eq {env : Environment} (h : env.IsPlain) :
    env.forCall = env := by
  unfold forCall
  rw [← h.row, ← h.projectedRow]

theorem Environment.IsPlain.scope_eq {env : Environment} (h : env.IsPlain) (vars : Bindings Value) :
    env.scope vars = { env.blank with variableType := vars.types } := by
  unfold scope blank scope Scope.blank
  rw [h.row]
  congr 1
  funext name
  exact Option.or_none

/-- Expressions of a careful program, with functions that keep their rules. -/
def programSetting (env : Environment) (henv : env.IsPlain)
    (hhonest : ∀ name f, env.registry.get? name = some f → f.IsHonest env.host fun _ => True) :
    Setting .careful env where
  depths _ := True
  agrees Γ vars := Γ.Agrees vars.types
  stops _ := True
  plain _ := trivial
  unprojected := henv.projectedRow
  lookUp := by
    intro depth _ Γ s hs name k hname
    refine meets_bind (meets_get (Q := fun s₁ s' => s₁ = s ∧ s' = s) ⟨rfl, rfl⟩) ?_
    rintro _ _ ⟨rfl, rfl⟩
    split
    · rename_i s₁ v hv
      refine meets_pure ⟨?_, hs⟩
      obtain ⟨k', hk', hadmits⟩ := (hs name).1 v.type (by simp [Bindings.types, hv])
      rw [hname] at hk'
      cases hk'
      exact hadmits
    · rw [henv.row]
      exact meets_fail trivial
  assign := by
    intro name e _ Γ vars h k v hv
    exact h.insert hv name
  skip _ _ hskip h := h.merge_left hskip
  merge h := h.merge_right
  besides := by
    intro active Γ Γ₀ Γ' e k vars vars₀ _ _ hbesides h
    rw [henv.scope_eq]
    exact hbesides _ h
  honest hf := hhonest _ _ hf
  defined := by
    intro name f _
    refine ⟨?_, fun _ => trivial, trivial, fun ks arguments h => View.agrees_ofParameters h _⟩
    unfold Environment.forCall
    rw [← henv.row, ← henv.projectedRow]
  project h := ⟨h, fun _ => trivial⟩

/-! ### Programs -/

namespace Program

/-- A program that keeps to the typing rules and to the three provisos, in a scope that knows the
values of its variables. -/
def IsCareful (scope : Scope) (p : Program) : Prop :=
  ∃ ks Γ', TypedAll .careful { scope with functions := p.functions }.blank []
    (View.exactly scope.variableType) p.statements ks Γ'

/-- **A careful program that passes the check is type safe.**  If such a program ends with a value,
then this is of the type that the check has found, or `void`; whatever its assignments, branches and
functions are, and whatever the variables are that it starts with. -/
theorem IsCareful.type_safe {env : Environment} (henv : env.IsPlain)
    (hhonest : ∀ name f, env.registry.get? name = some f → f.IsHonest env.host fun _ => True)
    {p : Program} {s : Store} (hcareful : p.IsCareful (env.scope s.vars)) {t : ValueType}
    (hcheck : (env.scope s.vars).checkProgram p = .ok t) (depth : Nat) :
    Meets (env.runProgram depth p) s
      (fun v _ => t = .void ∨ v.type = .void ∨ v.type = t) fun _ _ => True := by
  obtain ⟨ks, Γ', hp⟩ := hcareful
  have htype := Scope.type_of_checkProgram hp fun name t ht => by rwa [View.types_exactly] at ht
  rw [hcheck] at htype
  cases htype
  have hagrees : (View.exactly (env.scope s.vars).variableType).Agrees s.vars.types := by
    rw [henv.scope_eq]
    exact View.agrees_exactly _
  have hmeets : Meets (env.runProgram depth p) s _ _ :=
    (programSetting { env with functions := p.functions } ⟨henv.row, henv.projectedRow⟩
      hhonest).evaluates (Typed.sequence hp) trivial hagrees
  exact hmeets.imp_result fun _ _ h => Known.fits_inexact.mp h.1.inexact

/-- A function with branches of two number types, called in a branch that assigns. -/
theorem IsCareful.type_safe_branches : ∃ p t,
    (({ registry := ∅ } : Environment).scope ∅).checkProgram p = .ok t ∧ t = .double ∧
      ∀ depth, Meets (({ registry := ∅ } : Environment).runProgram depth p) {}
        (fun v _ => t = .void ∨ v.type = .void ∨ v.type = t) fun _ _ => True := by
  let long : Known := { type := .long, exact := true }
  let double : Known := { type := .double, exact := true }
  let above (name : String) : Expr := .binary (.comparison .gt) (.var name) (.literal (.long 1))
  let f : FunctionDef := { name := "half", parameters := ["n"], body :=
    [.ifElse (above "n") (.var "n") (some (.literal (.double (Double.ofInt 2))))] }
  let p : Program := Program.define { statements := [.assign "x" (.literal (.long 2)),
    .ifElse (above "x") (.assign "y" (.call "half" [.var "x"])) none, .var "y"] } f
  let scope : Scope :=
    { ({ registry := ∅ } : Environment).scope ∅ with functions := p.functions }.blank
  have habove : ∀ {active : List String} {Γ : View} {name : String}, Γ name = some long →
      Typed .careful scope active Γ (above name) { type := .boolean, exact := true } Γ :=
    fun h => .binary (k := long) (by rintro _ ⟨⟩) (.var h) .literal (by decide)
  obtain ⟨_, hbody⟩ : ∃ Γ', TypedAll .careful scope [normalizeName f.name]
      (View.ofParameters f.parameters [long]) f.body [double] Γ' := by
    refine ⟨_, .cons (.ifElse (j := long) (k := double) (habove rfl) rfl (.var rfl) .literal
      (fun h => nomatch h) (.refl _) ?_ (fun _ _ _ => Iff.rfl) (fun h => nomatch h)) .nil⟩
    rw [View.merge_self]
    exact .refl _
  have hcall : ∀ {Γ : View}, Γ "x" = some long →
      Typed .careful scope [] Γ (.call "half" [.var "x"]) (Known.last [double]) Γ :=
    fun h => .callDefined (.cons (.var h) .nil) (Bindings.find?_insert_self _ _ _) rfl
      List.not_mem_nil hbody
  obtain ⟨Γ', hp⟩ : ∃ Γ', TypedAll .careful scope []
      (View.exactly (({ registry := ∅ } : Environment).scope ∅).variableType) p.statements
      [long, { type := .double }, { type := .double }] Γ' :=
    ⟨_, .cons (.assign rfl .literal) (.cons (.ifThen (k := double) (habove rfl) rfl
      (.assign rfl (hcall rfl)) (View.preserves_bind rfl _)) (.cons (.var rfl) .nil))⟩
  have hcheck : (({ registry := ∅ } : Environment).scope ∅).checkProgram p = .ok .double :=
    Scope.type_of_checkProgram hp fun _ _ h => by rwa [View.types_exactly] at h
  exact ⟨p, _, hcheck, rfl, IsCareful.type_safe ⟨rfl, rfl⟩ (fun _ _ h => by cases h) (s := {})
    ⟨_, Γ', hp⟩ hcheck⟩

/-! ### The provisos are needed -/

/-- A branch is widened if the other one is of type double at that moment, and a variable that is
`void` is of no such type. -/
theorem unsafe_beside_void : ∃ p s',
    (({ registry := ∅ } : Environment).scope ∅).checkProgram p = .ok .double ∧
      ({ registry := ∅ } : Environment).runProgram 0 p {} = (.ok (.long 1), s') :=
  ⟨{ statements :=
      [.assign "x" (.ifElse (.literal (.boolean false)) (.literal (.double (Double.ofInt 2))) none),
        .ifElse (.literal (.boolean true)) (.literal (.long 1)) (some (.var "x"))] }, _, rfl, rfl⟩

/-- The branch that is not taken has given the variable its type. -/
theorem unsafe_after_skipped : ∃ p s',
    (({ registry := ∅ } : Environment).scope ∅).checkProgram p = .ok .double ∧
      ({ registry := ∅ } : Environment).runProgram 0 p {} = (.ok (.long 1), s') :=
  ⟨{ statements := [.ifElse (.literal (.boolean true)) (.assign "x" (.literal (.long 1)))
      (some (.assign "x" (.literal (.double (Double.ofInt 2))))), .var "x"] }, _, rfl, rfl⟩

/-- The check does not see what a projection assigns. -/
theorem unsafe_after_projection : ∃ (env : Environment) (p : Program) (s' : Store),
    env.IsPlain ∧ (env.scope ∅).checkProgram p = .ok .long ∧
      env.runProgram 0 p {} = (.ok (.boolean true), s') :=
  let column : Column := { name := "a", content := .stored ⟨.long, #[some 7]⟩ }
  let f : Frame :=
    { name := "d", columns := [column], index := .ofList [("a", 0)], rowCount := 1, registry := ∅ }
  let assigned : Expr := .ifElse (.literal (.boolean true))
    (.assign "x" (.literal (.boolean true))) none
  ⟨{ registry := ∅, dataSets := Bindings.ofList [("d", f)] },
    { statements := [.assign "x" (.literal (.long 1)),
        .project [.path "d" ["a"], assigned] none, .var "x"] }, _, ⟨rfl, rfl⟩, rfl, rfl⟩

end Program

end FrameLang
