/-
Typing rules.

The check of an expression is a walk that changes a state and notes problems as it goes.  Here the
same thing is said by rules: `Typed D scope active Γ e k Γ'` means that `e` has the type in `k`
where the variables have the types in `Γ`, that no problem comes up, and that the variables have
the types in `Γ'` afterwards.  `active` holds the functions whose bodies the expression stands in.
`Proofs/Typing/Check.lean` shows that the rules are the check.

Two things are added to what the walk knows.  A type comes with a note whether it is exact: whether
the value is sure to be there and to be of that very type, and is not perhaps `void`.  And a
`Discipline` `D` says what else is asked of an expression: which assignments and projections it may
have, what a part that may be skipped may do to the types of variables, and what has to hold of a
branch of an `if` that stands beside a branch of type long.  With a discipline that asks for
nothing the rules are those of the check.  With one that asks for more they are stricter, and some
statements about running a checked expression are true under a stricter discipline only.
-/
import FrameLang.Proofs.Evaluation
import FrameLang.Typing

namespace FrameLang

/-- What is known of a value beforehand.  The type `void` means that nothing is known of its type;
if the type is not exact, the value may also be `void`. -/
structure Known where
  type : ValueType
  exact : Bool := false
deriving DecidableEq

namespace Known

/-- Whether a value of type `t` is in keeping with what is known. -/
def Admits (k : Known) (t : ValueType) : Prop :=
  t = k.type ∨ k.exact = false ∧ (k.type = .void ∨ t = .void)

def Fits (k : Known) (v : Value) : Prop := k.Admits v.type

/-- What is known of the last of some values. -/
def last (ks : List Known) : Known := ks.getLastD { type := .void, exact := true }

end Known

/-- What is known of the variables. -/
abbrev View := String → Option Known

namespace View

/-- The types of the variables. -/
def types (Γ : View) (name : String) : Option ValueType := (Γ name).map Known.type

def bind (Γ : View) (name : String) (k : Known) : View :=
  fun other => if other = name then some k else Γ other

/-- What is known after a part that may have been skipped: the types are those after it, and a
type is exact if it is so either way. -/
def merge (before after : View) : View := fun name =>
  match after name, before name with
  | none, _ => none
  | some b, none => some { type := b.type }
  | some b, some a => some { b with exact := a.exact && b.exact && a.type == b.type }

theorem merge_self (Γ : View) : Γ.merge Γ = Γ := by
  funext name
  unfold merge
  cases h : Γ name with
  | none => rfl
  | some k => simp

/-- What a function's body knows: its parameters. -/
def ofParameters (parameters : List String) (ks : List Known) : View :=
  (Bindings.ofList (parameters.zip ks)).find?

@[simp] theorem types_bind (Γ : View) (name other : String) (k : Known) :
    (Γ.bind name k).types other = if other = name then some k.type else Γ.types other := by
  unfold types bind
  split <;> rfl

@[simp] theorem types_merge (before after : View) : (before.merge after).types = after.types := by
  funext name
  unfold types merge
  cases after name <;> cases before name <;> rfl

end View

/-- What is known of the result of a unary operator. -/
def UnaryOp.known (op : UnaryOp) (k : Known) : Known where
  type := op.resultType k.type
  exact := match op with
    | minus | not => k.exact
    | isEmpty | isNotEmpty => true

/-- What is known of the result of a binary operator. -/
def BinaryOp.known (op : BinaryOp) (j k : Known) : Known where
  type := op.resultType j.type k.type
  exact := match op with
    | comparison _ => true
    | _ => j.exact && k.exact

/-- The same scope, with nothing said about variables. -/
def Scope.blank (scope : Scope) : Scope := { scope with variableType := fun _ => none }

theorem Scope.functions_of_blank {scope base : Scope} (h : scope.blank = base) :
    scope.functions = base.functions := h ▸ rfl

theorem Scope.registry_of_blank {scope base : Scope} (h : scope.blank = base) :
    scope.registry = base.registry := h ▸ rfl

theorem Scope.dataSets_of_blank {scope base : Scope} (h : scope.blank = base) :
    scope.dataSets = base.dataSets := h ▸ rfl

/-- What is asked of an expression besides being typed. -/
structure Discipline where
  /-- Whether a node, an assignment or a projection, is allowed. -/
  allows : Expr → Bool
  /-- What a part that may be skipped may do to the view. -/
  Skips (before after : View) : Prop
  /-- What has to hold of a branch and its type beside a branch of type long, in the view that
  there is when one of them has been run. -/
  Besides (scope : Scope) (Γ : View) (branch : Expr) (type : ValueType) : Prop

/-- No more than the check itself asks for. -/
def Discipline.lax : Discipline where
  allows _ := true
  Skips _ _ := True
  Besides _ _ _ _ := True

mutual

inductive Typed (D : Discipline) (scope : Scope) :
    List String → View → Expr → Known → View → Prop
  | literal {active Γ v} :
      Typed D scope active Γ (.literal v) { type := v.type, exact := true } Γ
  | var {active Γ name k} (hname : Γ name = some k) : Typed D scope active Γ (.var name) k Γ
  | unary {active Γ Γ₁ op e k} (he : Typed D scope active Γ e k Γ₁)
      (hop : op.resultType k.type ≠ .void) :
      Typed D scope active Γ (.unary op e) (op.known k) Γ₁
  | binary {active Γ Γ₁ Γ₂ op l r j k} (hconnective : ∀ c, op ≠ .connective c)
      (hl : Typed D scope active Γ l j Γ₁) (hr : Typed D scope active Γ₁ r k Γ₂)
      (hop : op.resultType j.type k.type ≠ .void) :
      Typed D scope active Γ (.binary op l r) (op.known j k) Γ₂
  | connective {active Γ Γ₁ Γ₂ op l r j k} (hl : Typed D scope active Γ l j Γ₁)
      (hr : Typed D scope active Γ₁ r k Γ₂)
      (hop : BinaryOp.resultType (.connective op) j.type k.type ≠ .void)
      (hskip : D.Skips Γ₁ Γ₂) :
      Typed D scope active Γ (.binary (.connective op) l r) (BinaryOp.known (.connective op) j k)
        (Γ₁.merge Γ₂)
  | callDefined {active Γ Γ₁ Γ₂ name arguments ks js} {f : FunctionDef}
      (harguments : TypedAll D scope active Γ arguments ks Γ₁)
      (hf : scope.functions.find? (normalizeName name) = some f)
      (hlength : f.parameters.length = arguments.length)
      (hactive : normalizeName f.name ∉ active)
      (hbody : TypedAll D scope (normalizeName f.name :: active)
        (View.ofParameters f.parameters ks) f.body js Γ₂) :
      Typed D scope active Γ (.call name arguments) (Known.last js) Γ₁
  | callRegistered {active Γ Γ₁ name arguments ks t exact} {f : Function}
      (harguments : TypedAll D scope active Γ arguments ks Γ₁)
      (hdefined : scope.functions.find? (normalizeName name) = none)
      (hf : scope.registry.get? name = some f) (htakes : f.takes ks.length = true)
      (htype : f.resultType (ks.map Known.type) = some t)
      (hexact : exact = true →
        (∃ operation : Builtin, f = operation.function) ∧ ∀ k ∈ ks, k.exact = true) :
      Typed D scope active Γ (.call name arguments) { type := t, exact } Γ₁
  | ifThen {active Γ Γ₁ Γ₂ c t j k} (hc : Typed D scope active Γ c j Γ₁)
      (hcondition : j.type = .boolean) (ht : Typed D scope active Γ₁ t k Γ₂)
      (hskip : D.Skips Γ₁ Γ₂) :
      Typed D scope active Γ (.ifElse c t none) { type := k.type } (Γ₁.merge Γ₂)
  | ifElse {active Γ Γ₁ Γ₂ Γ₃ c t e i j k} (hc : Typed D scope active Γ c i Γ₁)
      (hcondition : i.type = .boolean) (ht : Typed D scope active Γ₁ t j Γ₂)
      (he : Typed D scope active (Γ₁.merge Γ₂) e k Γ₃)
      (hjoin : j.type.join k.type = .void → j.type = .void ∧ k.type = .void)
      (hskipThen : D.Skips Γ₁ Γ₂) (hskipElse : D.Skips Γ₂ Γ₃)
      (hbesidesThen : j.type = .long → D.Besides scope Γ₂ e k.type)
      (hbesidesElse : k.type = .long → D.Besides scope Γ₃ t j.type) :
      Typed D scope active Γ (.ifElse c t (some e))
        { type := j.type.join k.type, exact := j.exact && k.exact } (Γ₂.merge Γ₃)
  | assign {active Γ Γ₁ name e k} (hallows : D.allows (.assign name e) = true)
      (he : Typed D scope active Γ e k Γ₁) :
      Typed D scope active Γ (.assign name e) k (Γ₁.bind name k)
  | named {active Γ Γ₁ name e k} (he : Typed D scope active Γ e k Γ₁) :
      Typed D scope active Γ (.named name e) k Γ₁
  | vector {active Γ Γ₁ elements ks} (helements : TypedAll D scope active Γ elements ks Γ₁) :
      Typed D scope active Γ (.vector elements) { type := .vector, exact := true } Γ₁
  | index {active Γ Γ₁ Γ₂ v i j k} (hv : Typed D scope active Γ v j Γ₁)
      (hi : Typed D scope active Γ₁ i k Γ₂) :
      Typed D scope active Γ (.index v i) { type := .void } Γ₂
  | path {active Γ dataSet field t} {f : Frame} (hf : scope.dataSets.find? dataSet = some f)
      (htype : f.columnType? (Expr.fieldName field) = some t) :
      Typed D scope active Γ (.path dataSet field) { type := t } Γ
  | project {active Γ elements filter} (hallows : D.allows (.project elements filter) = true) :
      Typed D scope active Γ (.project elements filter) { type := .dataFrame, exact := true } Γ
  | sequence {active Γ Γ₁ statements ks}
      (hstatements : TypedAll D scope active Γ statements ks Γ₁) :
      Typed D scope active Γ (.sequence statements) (Known.last ks) Γ₁

/-- The rules for several expressions, each of which sees the assignments of those before it. -/
inductive TypedAll (D : Discipline) (scope : Scope) :
    List String → View → List Expr → List Known → View → Prop
  | nil {active Γ} : TypedAll D scope active Γ [] [] Γ
  | cons {active Γ Γ₁ Γ₂ e es k ks} (he : Typed D scope active Γ e k Γ₁)
      (hes : TypedAll D scope active Γ₁ es ks Γ₂) :
      TypedAll D scope active Γ (e :: es) (k :: ks) Γ₂

end

theorem TypedAll.length_eq {D : Discipline} {scope : Scope} {active : List String} {Γ Γ' : View}
    {es : List Expr} {ks : List Known} (h : TypedAll D scope active Γ es ks Γ') :
    ks.length = es.length := by
  induction es generalizing Γ ks with
  | nil =>
      cases h with
      | nil => rfl
  | cons e es ih =>
      cases h with
      | cons _ hes => rw [List.length_cons, List.length_cons, ih hes]

/-- Without assignments the view stays as it is. -/
theorem Typed.view_eq {D : Discipline} (hD : ∀ name e, D.allows (.assign name e) = false)
    {scope : Scope} {active : List String} {Γ Γ' : View} {e : Expr} {k : Known}
    (h : Typed D scope active Γ e k Γ') : Γ' = Γ := by
  induction h using @Typed.rec D scope _ (fun _ Γ _ _ Γ' _ => Γ' = Γ) with
  | literal | var | path | project | nil => rfl
  | unary _ _ ih | named _ ih | vector _ ih | sequence _ ih => exact ih
  | callDefined _ _ _ _ _ ih | callRegistered _ _ _ _ _ _ ih => exact ih
  | binary _ _ _ _ ihl ihr | index _ _ ihl ihr => exact ihr.trans ihl
  | cons _ _ ihl ihr => exact ihr.trans ihl
  | connective _ _ _ _ ihl ihr => rw [ihr, ihl, View.merge_self]
  | ifThen _ _ _ _ ihc iht => rw [iht, ihc, View.merge_self]
  | ifElse _ _ _ _ _ _ _ _ _ ihc iht ihe =>
      rw [ihe, iht, ihc, View.merge_self, View.merge_self]
  | assign hallows => rw [hD] at hallows; cases hallows

end FrameLang
