/-
Recursion is found exactly, and the check comes to an end.

The check walks through the body of every function that is called, at every call.  What keeps it
from walking for ever is the list of the functions whose bodies are open: a function that is open is
not entered again, and there are only so many others.  So the bodies are never nested deeper than
there are functions, and whatever one would do beyond that depth makes no difference
(`inferAllWith_enterWithin`).

A recursion is noted at a call that comes back to an open function.  Every call of an expression is
walked through, whatever the types are, so that the walk is a search of the call graph, one branch
for each call (`Closes`).  Such a search is bound to come back to an open function if it starts
anywhere above a cycle, because it cannot go on for ever without doing so; and what it comes back to
lies on a cycle, because the open functions call each other in turn.
-/
import FrameLang.Proofs.Joining
import FrameLang.Proofs.Typing.Congruence
import FrameLang.Proofs.Typing.Nesting

namespace FrameLang

/-! ### The call graph -/

namespace Expr

/-- The function that a node calls, by the name that functions are found by. -/
def callee? : Expr → Option String
  | call name _ => some (normalizeName name)
  | _ => none

/-- The functions that are called anywhere in some expressions. -/
def callees (es : List Expr) : List String := (nodesIn true es).filterMap callee?

/-- A node calls a function of which something is true. -/
def HasCallee (R : String → Prop) (nodes : List Expr) : Prop := ∃ g ∈ nodes.filterMap callee?, R g

section Callees

variable {R : String → Prop} {node : Expr} {nodes more : List Expr}

@[simp] theorem not_hasCallee_nil : ¬HasCallee R [] := by simp [HasCallee]

@[simp] theorem hasCallee_append :
    HasCallee R (nodes ++ more) ↔ HasCallee R nodes ∨ HasCallee R more := by
  simp [HasCallee, or_and_right, exists_or]

theorem hasCallee_cons_call {name : String} {arguments : List Expr} :
    HasCallee R (call name arguments :: nodes) ↔ R (normalizeName name) ∨ HasCallee R nodes := by
  simp [HasCallee, callee?]

theorem hasCallee_cons (h : node.callee? = none) :
    HasCallee R (node :: nodes) ↔ HasCallee R nodes := by
  simp [HasCallee, h]

theorem not_hasCallee_leaf (h : node.callee? = none) : ¬HasCallee R [node] := by
  rw [hasCallee_cons h]
  exact not_hasCallee_nil

end Callees

end Expr

namespace FunctionDefs

variable {functions : FunctionDefs} {active : List String} {f g : String}

/-- One function calls another one, anywhere in its body. -/
def Calls (functions : FunctionDefs) (f g : String) : Prop :=
  ∃ d, functions.find? f = some d ∧ g ∈ Expr.callees d.body ∧ functions.contains g = true

/-- Some chain of calls, beginning with a call of `g`, comes back to an open function or to one that
it has entered itself. -/
inductive Closes (functions : FunctionDefs) : List String → String → Prop
  | here {active : List String} {g : String} (h : g ∈ active) : Closes functions active g
  | deeper {active : List String} {g h : String} (hcall : functions.Calls g h)
      (hcloses : Closes functions (g :: active) h) : Closes functions active g

/-- What a chain comes back to was open before, or it is on a cycle. -/
theorem Closes.exists_reached (h : functions.Closes active g) :
    ∃ k, Relation.ReflTransGen functions.Calls g k ∧
      (k ∈ active ∨ Relation.TransGen functions.Calls k k) := by
  induction h with
  | here hmem => exact ⟨_, Relation.ReflTransGen.refl, Or.inl hmem⟩
  | @deeper active g h hcall _ ih =>
      obtain ⟨k, hreach, hk⟩ := ih
      rcases hk with hopen | hcycle
      · rcases List.mem_cons.mp hopen with rfl | hopen
        · exact ⟨k, .refl, Or.inr (Relation.TransGen.head' hcall hreach)⟩
        · exact ⟨k, Relation.ReflTransGen.head hcall hreach, Or.inl hopen⟩
      · exact ⟨k, Relation.ReflTransGen.head hcall hreach, Or.inr hcycle⟩

/-- Above a cycle there is always a call to follow, to a function above the cycle. -/
theorem exists_calls_of_cycle {k : String} (hreach : Relation.ReflTransGen functions.Calls g k)
    (hcycle : Relation.TransGen functions.Calls k k) :
    ∃ h, functions.Calls g h ∧ Relation.ReflTransGen functions.Calls h k := by
  have hpath : Relation.TransGen functions.Calls g k := hcycle.trans_right hreach
  exact Relation.TransGen.head'_iff.mp hpath

/-- **Above a cycle, chains of calls come back**, since there are not functions enough to go on. -/
theorem closes_of_cycle {free : Nat} {active : List String} {g : String}
    (hroom : functions.Room free active)
    (hkeyed : ∀ name f, functions.find? name = some f → normalizeName f.name = name) {k : String}
    (hreach : Relation.ReflTransGen functions.Calls g k)
    (hcycle : Relation.TransGen functions.Calls k k) : functions.Closes active g := by
  obtain ⟨h, hcall, hbelow⟩ := exists_calls_of_cycle hreach hcycle
  by_cases hopen : g ∈ active
  · exact .here hopen
  · obtain ⟨d, hd, hcallee⟩ := hcall
    have hname := hkeyed g d hd
    obtain ⟨rest, hrest, hroom'⟩ := hroom.enter hd (hname ▸ hopen)
    exact .deeper ⟨d, hd, hcallee⟩ (closes_of_cycle (hname ▸ hroom') hkeyed hbelow hcycle)
termination_by free
decreasing_by omega

end FunctionDefs

/-! ### Nesting -/

namespace Expr

open Typing

section Levels

variable {scope : Scope} {active : List String} {name : String} {f : FunctionDef}

theorem enter_of_mem (h : normalizeName f.name ∈ active) (free : Nat) (types : List ValueType) :
    enter scope free active f types = pure none := by
  cases free with
  | zero => rfl
  | succ free =>
      rw [enter]
      exact if_pos (List.contains_iff_mem.mpr h)

/-- What a walk into a function does that is not open, when `walk` enters the functions that the
body calls. -/
def enterBody (scope : Scope) (walk : EnterFunction) (f : FunctionDef) (types : List ValueType) :
    Typing (Option ValueType) :=
  isolated (Bindings.ofList (f.parameters.zip types)) do
    let types ← inferAllWith scope.blank walk f.body
    return some (types.getLastD .void)

theorem enterBody_congr {walk walk' : EnterFunction} (h : ∀ name g types,
    scope.functions.find? name = some g → walk g types = walk' g types) (f : FunctionDef)
    (types : List ValueType) : enterBody scope walk f types = enterBody scope walk' f types := by
  have hblank : ∀ name g types, scope.blank.functions.find? name = some g →
      walk g types = walk' g types := h
  have hbody := inferAllWith_congr (.refl _) hblank f.body
  unfold enterBody
  rw [hbody]

theorem enter_of_not_mem (h : normalizeName f.name ∉ active) (free : Nat)
    (types : List ValueType) :
    enter scope (free + 1) active f types =
      enterBody scope (enter scope free (normalizeName f.name :: active)) f types := by
  rw [enter]
  exact if_neg (mt List.contains_iff_mem.mp h)

/-- Walks into the body of a function unless that is open.  Down to `levels` bodies are nested as
ever; what is done with a body that is nested deeper is up to `beyond`. -/
def enterWithin (scope : Scope) (beyond : List String → EnterFunction) (levels : Nat)
    (active : List String) (f : FunctionDef) (types : List ValueType) :
    Typing (Option ValueType) :=
  if normalizeName f.name ∈ active then pure none
  else match levels with
    | 0 => beyond active f types
    | levels + 1 =>
      enterBody scope (enterWithin scope beyond levels (normalizeName f.name :: active)) f types

/-- A walk that goes into the body of every function that is not open, however deep the bodies are
nested.  The open functions are different functions of the program. -/
def EntersFreely (scope : Scope) (walk : List String → EnterFunction) : Prop :=
  ∀ free active, scope.functions.Room free active → ∀ name f types,
    scope.functions.find? name = some f → walk active f types =
      if normalizeName f.name ∈ active then pure none
      else enterBody scope (walk (normalizeName f.name :: active)) f types

/-- With room for the functions that are not open, no body is nested deeper. -/
theorem enterWithin_eq (beyond : List String → EnterFunction) {free : Nat} {active : List String}
    (hroom : scope.functions.Room free active) {levels : Nat} (hlevels : free ≤ levels)
    {name : String} {f : FunctionDef} (hf : scope.functions.find? name = some f)
    (types : List ValueType) :
    enterWithin scope beyond levels active f types = enter scope free active f types := by
  by_cases hopen : normalizeName f.name ∈ active
  · rw [enterWithin.eq_def, if_pos hopen, enter_of_mem hopen]
  · obtain ⟨rest, rfl, hrest⟩ := hroom.enter hf hopen
    obtain ⟨levels, rfl⟩ : ∃ l, levels = l + 1 := ⟨levels - 1, by omega⟩
    rw [enterWithin, if_neg hopen, enter_of_not_mem hopen]
    exact enterBody_congr (fun _ _ types hg =>
      enterWithin_eq beyond hrest (Nat.le_of_succ_le_succ hlevels) hg types) f types
termination_by free
decreasing_by omega

/-- A walk that enters freely does below any level what it does above. -/
theorem EntersFreely.enterWithin_eq {walk : List String → EnterFunction}
    (hwalk : EntersFreely scope walk) {free : Nat} {active : List String}
    (hroom : scope.functions.Room free active) (levels : Nat) {name : String} {f : FunctionDef}
    (hf : scope.functions.find? name = some f) (types : List ValueType) :
    enterWithin scope walk levels active f types = walk active f types := by
  induction levels generalizing free active name f types with
  | zero =>
      rw [enterWithin, hwalk free active hroom name f types hf]
      split
      · rfl
      · rfl
  | succ levels ih =>
      rw [enterWithin, hwalk free active hroom name f types hf]
      split
      · rfl
      · rename_i hopen
        obtain ⟨rest, _, hrest⟩ := hroom.enter hf hopen
        exact enterBody_congr (fun _ _ types hg => ih hrest hg types) f types

/-- There is such a walk: the one that counts down. -/
theorem entersFreely_enter (scope : Scope) :
    EntersFreely scope fun active => enter scope (scope.functions.size - active.length) active := by
  intro free active hroom name f types hf
  dsimp only
  by_cases hopen : normalizeName f.name ∈ active
  · rw [if_pos hopen, enter_of_mem hopen]
  · have hcounted : scope.functions.Room (scope.functions.size - active.length) active :=
      ⟨hroom.nodup, hroom.subset, by omega⟩
    obtain ⟨rest, hrest, _⟩ := hcounted.enter hf hopen
    have hbelow : scope.functions.size - (normalizeName f.name :: active).length = rest := by
      rw [List.length_cons]
      omega
    rw [if_neg hopen, hrest, hbelow, enter_of_not_mem hopen]

end Levels

section Walks

variable (scope : Scope) (es : List Expr)

/-- **Bodies are never nested deeper than there are functions**: what would be done beyond that
depth makes no difference. -/
theorem inferAllWith_enterWithin (beyond : List String → EnterFunction) {levels : Nat}
    (hlevels : scope.functions.size ≤ levels) :
    inferAllWith scope (enterWithin scope beyond levels []) es = scope.inferAll es :=
  inferAllWith_congr (.refl _) (fun _ _ types hf =>
    enterWithin_eq beyond (FunctionDefs.room_nil _) hlevels hf types) es

/-- **To enter freely is to enter with a bound**, which is not reached. -/
theorem EntersFreely.inferAllWith_eq {walk : List String → EnterFunction}
    (hwalk : EntersFreely scope walk) :
    inferAllWith scope (walk []) es = scope.inferAll es := by
  rw [← inferAllWith_enterWithin scope es walk (Nat.le_refl _)]
  exact inferAllWith_congr (.refl _) (fun _ _ types hf =>
    (hwalk.enterWithin_eq (FunctionDefs.room_nil _) _ hf types).symm) es

end Walks

end Expr

/-! ### What is noted -/

/-- A recursion has been noted. -/
def Findings.HasRecursion (s : Findings) : Prop := ∃ issue ∈ s.issues, issue.problem = .recursion

namespace Typing

variable {α β : Type} {P Q : Prop} {walk : Typing α}

/-- A walk notes a recursion if and only if `P`; what has been noted stays. -/
def Detects (walk : Typing α) (P : Prop) : Prop :=
  ∀ s : Findings, (walk.run s).2.HasRecursion ↔ s.HasRecursion ∨ P

theorem Detects.congr (h : Detects walk P) (hPQ : P ↔ Q) : Detects walk Q :=
  fun s => (h s).trans (or_congr_right hPQ)

theorem detects_pure (a : α) : Detects (pure a) False := fun _ => (or_iff_left id).symm

theorem detects_get : Detects (get : Typing Findings) False := fun _ => (or_iff_left id).symm

theorem detects_assign (name : String) (t : ValueType) : Detects (assign name t) False :=
  fun _ => (or_iff_left id).symm

theorem Detects.bind {x : Typing α} {f : α → Typing β} (hx : Detects x P)
    (hf : ∀ a, Detects (f a) Q) : Detects (x >>= f) (P ∨ Q) := by
  intro s
  rw [StateT.run_bind]
  show ((f (x.run s).1).run (x.run s).2).2.HasRecursion ↔ _
  rw [hf, hx, or_assoc]

/-- Nothing that comes after a walk notes a recursion. -/
theorem Detects.last {x : Typing α} {f : α → Typing β} (hx : Detects x P)
    (hf : ∀ a, Detects (f a) False) : Detects (x >>= f) P :=
  (hx.bind hf).congr (or_iff_left id)

theorem detects_note (problem : TypeProblem) (e : Expr) :
    Detects (note problem e) (problem = .recursion) := by
  intro s
  show (∃ issue ∈ s.issues.push { problem, expression := e }, _) ↔ _
  simp [Findings.HasRecursion, or_and_right, exists_or]

theorem detects_note_other {problem : TypeProblem} (h : problem ≠ .recursion) (e : Expr) :
    Detects (note problem e) False :=
  (detects_note problem e).congr (iff_false_intro h)

/-- After a body that has been walked through, there is nothing more to note. -/
theorem Detects.entered {x : Typing α} {types : Bindings ValueType} {f : α → β}
    {k : Option β → Typing β} (hx : Detects x P) (hk : ∀ b, Detects (k (some b)) False) :
    Detects (Typing.isolated types (do return some (f (← x))) >>= k) P := by
  intro s
  obtain ⟨a, s', hrun⟩ : ∃ a s', x.run { s with types } = (a, s') := ⟨_, _, rfl⟩
  have hnoted := hx { s with types }
  rw [hrun] at hnoted
  show ((k (some (f (x.run { s with types }).1))).run
    { (x.run { s with types }).2 with types := s.types }).2.HasRecursion ↔ _
  rw [hk, or_iff_left id, hrun]
  exact hnoted

theorem Detects.condition {c : Typing ValueType} {e : Expr} {rest : Typing α} (hc : Detects c P)
    (hrest : Detects rest Q) :
    Detects (do
      if (← c) ≠ .boolean then
        discard <| note .condition e
      rest) (P ∨ Q) := by
  refine hc.bind fun t => ?_
  split
  · exact ((detects_note_other (by decide) e).bind fun _ => hrest).congr (or_iff_right id)
  · exact hrest

end Typing

open Typing

namespace Expr

theorem detects_operatorType (e : Expr) (t : ValueType) : Detects (operatorType e t) False := by
  unfold operatorType
  split
  · exact detects_note_other (by decide) e
  · exact detects_pure t

theorem detects_registeredCallType (registry : Registry) (e : Expr) (name : String)
    (types : List ValueType) : Detects (registeredCallType registry e name types) False := by
  unfold registeredCallType
  split
  · exact detects_note_other (by decide) e
  · split
    · exact detects_note_other (by decide) e
    · split
      · exact detects_pure _
      · exact detects_note_other (by decide) e

theorem detects_pathType (dataSets : Bindings Frame) (dataSet : String) (field : List String) :
    Detects (pathType dataSets dataSet field) False := by
  unfold pathType
  split
  · exact detects_note_other (by decide) _
  · split
    · exact detects_pure _
    · exact detects_note_other (by decide) _

end Expr

/-- A node that the search of the call graph can go by: it is no projection, and if it calls a
function of the program, it does so with as many arguments as that has parameters. -/
def FunctionDefs.IsRegular (functions : FunctionDefs) : Expr → Prop
  | .project .. => False
  | .call name arguments => ∀ f, functions.find? (normalizeName name) = some f →
      f.parameters.length = arguments.length
  | _ => True

/-- Entering a function notes a recursion, in its body or as a call of an open function, if and only
if `R` of its name. -/
def EnterFunction.Reveals (enter : EnterFunction) (functions : FunctionDefs) (R : String → Prop) :
    Prop :=
  ∀ name f types e, functions.find? name = some f → Detects (do
    match ← enter f types with
    | some t => return t
    | none => note .recursion e) (functions.contains name = true ∧ R name)

namespace Expr

section Search

variable {scope : Scope} {enter : EnterFunction} {R : String → Prop}

mutual

/-- **Every call of an expression is followed**, whatever the types are. -/
theorem detects_inferWith (henter : enter.Reveals scope.functions R) (e : Expr)
    (he : ∀ node ∈ e.nodes true, scope.functions.IsRegular node) :
    Detects (e.inferWith scope enter)
      (HasCallee (fun g => scope.functions.contains g = true ∧ R g) (e.nodes true)) := by
  cases e with
  | literal v => exact (detects_pure _).congr (iff_of_false id (not_hasCallee_leaf rfl))
  | var name =>
      rw [inferWith, nodes]
      refine (detects_get.last fun s => ?_).congr (iff_of_false id (not_hasCallee_leaf rfl))
      split
      · exact detects_pure _
      · exact detects_note_other (by decide) _
  | unary op e =>
      rw [nodes, List.forall_mem_cons] at he
      rw [inferWith, nodes, hasCallee_cons rfl]
      exact (detects_inferWith henter e he.2).last fun _ => detects_operatorType _ _
  | binary op l r =>
      rw [nodes, List.forall_mem_cons, List.forall_mem_append] at he
      rw [inferWith, nodes, hasCallee_cons rfl, hasCallee_append]
      exact (detects_inferWith henter l he.2.1).bind fun _ =>
        (detects_inferWith henter r he.2.2).last fun _ => detects_operatorType _ _
  | call name arguments =>
      rw [nodes, List.forall_mem_cons] at he
      rw [inferWith, nodes, hasCallee_cons_call, or_comm]
      refine (detects_inferAllWith henter arguments he.2).bind fun types => ?_
      split
      · rename_i f hf
        rw [if_neg (not_not.mpr (he.1 f hf))]
        exact henter _ f types _ hf
      · rename_i hnone
        refine (detects_registeredCallType _ _ _ _).congr ?_
        simp [Bindings.contains, hnone]
  | ifElse c t e =>
      cases e with
      | none =>
          rw [nodes, List.forall_mem_cons, List.forall_mem_append] at he
          rw [inferWith, nodes, hasCallee_cons rfl, hasCallee_append]
          exact (detects_inferWith henter c he.2.1).condition (detects_inferWith henter t he.2.2)
      | some e =>
          rw [nodes, List.forall_mem_cons, List.forall_mem_append, List.forall_mem_append] at he
          rw [inferWith, nodes, hasCallee_cons rfl, hasCallee_append, hasCallee_append]
          refine (detects_inferWith henter c he.2.1).condition
            ((detects_inferWith henter t he.2.2.1).bind fun _ =>
              (detects_inferWith henter e he.2.2.2).last fun _ => ?_)
          split
          · exact detects_note_other (by decide) _
          · exact detects_pure _
  | assign name e =>
      rw [nodes, List.forall_mem_cons] at he
      rw [inferWith, nodes, hasCallee_cons rfl]
      exact (detects_inferWith henter e he.2).last fun t =>
        (detects_assign name t).last fun _ => detects_pure t
  | named name e =>
      rw [nodes, List.forall_mem_cons] at he
      rw [inferWith, nodes, hasCallee_cons rfl]
      exact detects_inferWith henter e he.2
  | vector elements =>
      rw [nodes, List.forall_mem_cons] at he
      rw [inferWith, nodes, hasCallee_cons rfl]
      exact (detects_inferAllWith henter elements he.2).last fun _ => detects_pure _
  | index v i =>
      rw [nodes, List.forall_mem_cons, List.forall_mem_append] at he
      rw [inferWith, nodes, hasCallee_cons rfl, hasCallee_append]
      exact (detects_inferWith henter v he.2.1).bind fun _ =>
        (detects_inferWith henter i he.2.2).last fun _ => detects_pure _
  | path dataSet field =>
      rw [inferWith, nodes]
      exact (detects_pathType _ _ _).congr (iff_of_false id (not_hasCallee_leaf rfl))
  | project elements filter =>
      have hregular : scope.functions.IsRegular (project elements filter) :=
        he _ (by cases filter <;> simp [nodes])
      exact hregular.elim
  | sequence statements =>
      rw [nodes, List.forall_mem_cons] at he
      rw [inferWith, nodes, hasCallee_cons rfl]
      exact (detects_inferAllWith henter statements he.2).last fun _ => detects_pure _
termination_by structural e

theorem detects_inferAllWith (henter : enter.Reveals scope.functions R) (es : List Expr)
    (hes : ∀ node ∈ nodesIn true es, scope.functions.IsRegular node) :
    Detects (inferAllWith scope enter es)
      (HasCallee (fun g => scope.functions.contains g = true ∧ R g) (nodesIn true es)) := by
  cases es with
  | nil => exact (detects_pure []).congr (by simp [nodesIn])
  | cons e es =>
      rw [nodesIn, List.forall_mem_append] at hes
      rw [inferAllWith, nodesIn]
      refine ((detects_inferWith henter e hes.1).bind fun t =>
        (detects_inferAllWith henter es hes.2).last fun _ => detects_pure _).congr ?_
      exact hasCallee_append.symm
termination_by structural es

end

end Search

/-- **The walk into a function is a search of the call graph**: a recursion is noted if and only if
a chain of calls comes back. -/
theorem reveals_enter {scope : Scope}
    (hkeyed : ∀ name f, scope.functions.find? name = some f → normalizeName f.name = name)
    (hbodies : ∀ name f, scope.functions.find? name = some f →
      ∀ node ∈ nodesIn true f.body, scope.functions.IsRegular node)
    {free : Nat} {active : List String} (hroom : scope.functions.Room free active) :
    EnterFunction.Reveals (enter scope free active) scope.functions
      (scope.functions.Closes active) := by
  intro name f types e hf
  have hcontains : scope.functions.contains name = true := by
    rw [Bindings.contains, hf]
    rfl
  by_cases hopen : name ∈ active
  · rw [enter_of_mem (hkeyed name f hf ▸ hopen)]
    refine (detects_note .recursion e).congr (iff_of_true rfl ⟨hcontains, .here hopen⟩)
  · obtain ⟨rest, rfl, hrest⟩ := hroom.enter hf (hkeyed name f hf ▸ hopen)
    rw [enter_of_not_mem (hkeyed name f hf ▸ hopen)]
    rw [hkeyed name f hf] at hrest ⊢
    have hreveals : EnterFunction.Reveals (enter scope rest (name :: active))
        scope.blank.functions (scope.functions.Closes (name :: active)) :=
      reveals_enter hkeyed hbodies hrest
    have hbody := detects_inferAllWith hreveals f.body (hbodies name f hf)
    refine (hbody.entered fun _ => detects_pure _).congr ?_
    constructor
    · rintro ⟨g, hg, hcalled, hcloses⟩
      exact ⟨hcontains, .deeper ⟨f, hf, hg, hcalled⟩ hcloses⟩
    · rintro ⟨_, hcloses⟩
      cases hcloses with
      | here h => exact absurd h hopen
      | deeper hcall hcloses =>
          obtain ⟨d, hd, hg, hcalled⟩ := hcall
          rw [hf] at hd
          cases hd
          exact ⟨_, hg, hcalled, hcloses⟩
termination_by free
decreasing_by omega

end Expr

/-! ### Scripts -/

namespace Program

/-- Every call of a function of the program, in the statements and in the bodies, has as many
arguments as the function has parameters. -/
structure CallsFit (p : Program) : Prop where
  statements : ∀ name arguments f, Expr.call name arguments ∈ Expr.nodesIn true p.statements →
    p.functions.find? (normalizeName name) = some f → f.parameters.length = arguments.length
  bodies : ∀ key g, p.functions.find? key = some g → ∀ name arguments f,
    Expr.call name arguments ∈ Expr.nodesIn true g.body →
    p.functions.find? (normalizeName name) = some f → f.parameters.length = arguments.length

/-- The call graph has a cycle that can be reached from the calls in the statements. -/
def HasReachableCycle (p : Program) : Prop :=
  ∃ f ∈ Expr.callees p.statements, ∃ g, Relation.ReflTransGen p.functions.Calls f g ∧
    Relation.TransGen p.functions.Calls g g

/-- Functions that have been read are found by their own normalized names. -/
theorem normalizeName_of_find? {source : String} {p : Program} (hp : ofSource source = .ok p)
    {name : String} {f : FunctionDef} (hf : p.functions.find? name = some f) :
    normalizeName f.name = name := by
  obtain ⟨_, parts, _, _, rfl⟩ := ofSource_eq_ok_iff.mp hp
  clear * - hf
  induction parts using List.reverseRecOn with
  | nil => cases hf
  | append_singleton parts part ih =>
      rw [ofParts_concat] at hf
      cases part with
      | statement e => exact ih hf
      | function g =>
          simp only [add, define, Bindings.find?_insert] at hf
          split at hf
          · rename_i hname
            cases hf
            exact hname.symm
          · exact ih hf

end Program

theorem FunctionDefs.isRegular_of_every {functions : FunctionDefs} {es : List Expr}
    (hes : Expr.everyIn Expr.isNoProjection es = true)
    (hcalls : ∀ name arguments f, Expr.call name arguments ∈ Expr.nodesIn true es →
      functions.find? (normalizeName name) = some f → f.parameters.length = arguments.length) :
    ∀ node ∈ Expr.nodesIn true es, functions.IsRegular node := by
  intro node hnode
  have hproject := (Expr.everyIn_iff es).mp hes node hnode
  cases node with
  | project => cases hproject
  | call name arguments => exact fun f hf => hcalls name arguments f hnode hf
  | _ => trivial

namespace Program

/-- **The check of a script comes to an end and finds recursion exactly.**  Walking into every body
that is not open, with no bound on how deep the bodies are nested, can be done, and it can be done
in one way only, which is the check.  The bodies are never nested deeper than the script has
functions: with that many levels, or more, it makes no difference what would be done beyond them.
If the script has no projections and its calls fit the functions that it defines, then a recursion
is noted if and only if the call graph has a cycle that can be reached from the calls in the
statements. -/
theorem recursion_found_exactly {source : String} {p : Program} (hp : ofSource source = .ok p)
    (scope : Scope) :
    let inner : Scope := { scope with functions := p.functions }
    (∃ walk, Expr.EntersFreely inner walk) ∧
    (∀ walk, Expr.EntersFreely inner walk →
      Expr.inferAllWith inner (walk []) p.statements = inner.inferAll p.statements) ∧
    (∀ (beyond : List String → EnterFunction) (levels : Nat), p.functions.size ≤ levels →
      Expr.inferAllWith inner (Expr.enterWithin inner beyond levels []) p.statements =
        inner.inferAll p.statements) ∧
    (p.IsUnprojected → p.CallsFit →
      ((∃ issue ∈ ((scope.inferProgram p).run {}).2.issues, issue.problem = .recursion) ↔
        p.HasReachableCycle)) := by
  intro inner
  refine ⟨⟨_, Expr.entersFreely_enter inner⟩,
    fun walk hwalk => hwalk.inferAllWith_eq inner p.statements,
    fun beyond levels hlevels =>
      Expr.inferAllWith_enterWithin inner p.statements beyond hlevels, ?_⟩
  intro hprojections hcalls
  have hkeyed : ∀ name f, p.functions.find? name = some f → normalizeName f.name = name :=
    fun _ _ => normalizeName_of_find? hp
  have hroom := FunctionDefs.room_nil p.functions
  have hreveals : EnterFunction.Reveals (Expr.enter inner p.functions.size []) inner.functions
      (p.functions.Closes []) := Expr.reveals_enter hkeyed
    (fun key f hf => FunctionDefs.isRegular_of_every (hprojections.bodies key f hf)
      (hcalls.bodies key f hf)) hroom
  have hdetects : Detects (scope.inferProgram p) _ :=
    (Expr.detects_inferAllWith hreveals p.statements
      (FunctionDefs.isRegular_of_every hprojections.statements hcalls.statements)).last
      fun _ => detects_pure _
  have hnothing : ¬({} : Findings).HasRecursion := by
    rintro ⟨issue, hissue, _⟩
    exact absurd hissue (Array.not_mem_empty issue)
  rw [show (∃ issue ∈ ((scope.inferProgram p).run {}).2.issues, issue.problem = .recursion) ↔ _ from
    hdetects {}, or_iff_right hnothing]
  constructor
  · rintro ⟨f, hf, _, hcloses⟩
    obtain ⟨g, hreach, hopen | hcycle⟩ := hcloses.exists_reached
    · cases hopen
    · exact ⟨f, hf, g, hreach, hcycle⟩
  · rintro ⟨f, hf, g, hreach, hcycle⟩
    obtain ⟨_, ⟨d, hd, _⟩, _⟩ := FunctionDefs.exists_calls_of_cycle hreach hcycle
    have hcontains : p.functions.contains f = true := by
      rw [Bindings.contains, hd]
      rfl
    exact ⟨f, hf, hcontains, FunctionDefs.closes_of_cycle hroom hkeyed hreach hcycle⟩

/-- Two functions that call each other, one of them in the place of a built-in function and by a
name in capitals, and a call of one of them within an expression. -/
def roundabout : Program where
  functions := ⟨[
    ("abs", { name := "abs", parameters := ["n"], body := [.call "f" [.var "n"]] }),
    ("f", { name := "f", parameters := ["n"], body := [.call "ABS" [.var "n"]] })]⟩
  statements :=
    [.binary (.arithmetic .add) (.literal (.long 1)) (.call "F" [.literal (.long 2)])]

theorem calls_roundabout : roundabout.functions.Calls "f" "abs" ∧
    roundabout.functions.Calls "abs" "f" :=
  ⟨⟨_, rfl, by decide, rfl⟩, ⟨_, rfl, by decide, rfl⟩⟩

theorem callsFit_roundabout : roundabout.CallsFit where
  statements := by
    intro name arguments f hmem hf
    obtain ⟨rfl, rfl⟩ : name = "F" ∧ arguments = [.literal (.long 2)] := by
      simpa [roundabout, Expr.nodesIn, Expr.nodes] using hmem
    cases hf
    rfl
  bodies := by
    intro key g hg name arguments f hmem hf
    rcases List.mem_pair.mp (Bindings.mem_values_of_find? hg) with rfl | rfl
    · obtain ⟨rfl, rfl⟩ : name = "f" ∧ arguments = [.var "n"] := by
        simpa [Expr.nodesIn, Expr.nodes] using hmem
      cases hf
      rfl
    · obtain ⟨rfl, rfl⟩ : name = "ABS" ∧ arguments = [.var "n"] := by
        simpa [Expr.nodesIn, Expr.nodes] using hmem
      cases hf
      rfl

/-- The check of the two notes a recursion, although there is a built-in function of that name. -/
theorem recursion_found_exactly_roundabout :
    ∃ issue ∈ ((Scope.inferProgram { registry := .defaults } roundabout).run {}).2.issues,
      issue.problem = .recursion := by
  have hp : ofSource "function f(n) { ABS(n) } function abs(n) { f(n) } 1 + F(2)" =
      .ok roundabout := by cbv
  have hprojections : roundabout.IsUnprojected := by
    refine ⟨rfl, fun key g hg => ?_⟩
    rcases List.mem_pair.mp (Bindings.mem_values_of_find? hg) with rfl | rfl
    · rfl
    · rfl
  obtain ⟨hthere, hback⟩ := calls_roundabout
  have hcycle : roundabout.HasReachableCycle :=
    ⟨"f", by decide, "f", .refl, .tail (.single hthere) hback⟩
  obtain ⟨-, -, -, hexact⟩ := recursion_found_exactly hp { registry := .defaults }
  exact (hexact hprojections callsFit_roundabout).mpr hcycle

end Program

end FrameLang
