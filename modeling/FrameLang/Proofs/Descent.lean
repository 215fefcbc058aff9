/-
What an evaluation goes into.

To evaluate an expression is to evaluate some of its parts, each from the store that the parts
before it have left: the second operand of a connective unless the first one has settled the matter,
the branch of an `if` that the condition has chosen.  `Evaluation.Enters` says which parts these
are, and `Evaluation.Within` what is evaluated in this way in the end.  A call goes on with the body
of a function, `Evaluation.Opens`, and with that `Evaluation.ComesTo` has all that is evaluated.
A projection evaluates its elements once for every row, and is not gone into here.

No part handles the errors of another one.  So an evaluation that comes to one that stops has
stopped with it (`Evaluation.ComesTo.stop`).
-/
import FrameLang.Proofs.Composition
import Mathlib.Logic.Relation

namespace FrameLang

open Run FrameLang.Expr

/-- Whether the right operand is evaluated, after the left one. -/
def BinaryOp.GoesOn (op : BinaryOp) (left : Value) : Prop :=
  ∀ c, op = .connective c → ∃ b, left.shortcut c = .ok (.inr b)

/-- An expression that is about to be evaluated. -/
structure Evaluation where
  depth : Nat
  env : Environment
  expr : Expr
  store : Store

namespace Evaluation

def run (x : Evaluation) : Except Stop Value × Store := x.env.evaluate x.depth x.expr x.store

/-- What evaluating one expression after the other evaluates. -/
inductive EntersIn (depth : Nat) (env : Environment) : List Expr → Store → Evaluation → Prop
  | head {e : Expr} {es : List Expr} {s : Store} :
      EntersIn depth env (e :: es) s ⟨depth, env, e, s⟩
  | tail {e : Expr} {es : List Expr} {s s₁ : Store} {v : Value} {x : Evaluation}
      (he : env.evaluate depth e s = (.ok v, s₁)) (h : EntersIn depth env es s₁ x) :
      EntersIn depth env (e :: es) s x

/-- The parts that an evaluation evaluates. -/
inductive Enters : Evaluation → Evaluation → Prop
  | operand {depth : Nat} {env : Environment} {op : UnaryOp} {e : Expr} {s : Store} :
      Enters ⟨depth, env, .unary op e, s⟩ ⟨depth, env, e, s⟩
  | left {depth : Nat} {env : Environment} {op : BinaryOp} {l r : Expr} {s : Store} :
      Enters ⟨depth, env, .binary op l r, s⟩ ⟨depth, env, l, s⟩
  | right {depth : Nat} {env : Environment} {op : BinaryOp} {l r : Expr} {s s₁ : Store} {v : Value}
      (hleft : env.evaluate depth l s = (.ok v, s₁)) (hop : op.GoesOn v) :
      Enters ⟨depth, env, .binary op l r, s⟩ ⟨depth, env, r, s₁⟩
  | argument {depth : Nat} {env : Environment} {name : String} {arguments : List Expr} {s : Store}
      {x : Evaluation} (h : EntersIn depth env arguments s x) :
      Enters ⟨depth, env, .call name arguments, s⟩ x
  | condition {depth : Nat} {env : Environment} {c t : Expr} {e : Option Expr} {s : Store} :
      Enters ⟨depth, env, .ifElse c t e, s⟩ ⟨depth, env, c, s⟩
  | whenTrue {depth : Nat} {env : Environment} {c t : Expr} {e : Option Expr} {s s₁ : Store}
      (hc : env.evaluate depth c s = (.ok (.boolean true), s₁)) :
      Enters ⟨depth, env, .ifElse c t e, s⟩ ⟨depth, env, t, s₁⟩
  | whenFalse {depth : Nat} {env : Environment} {c t e : Expr} {s s₁ : Store}
      (hc : env.evaluate depth c s = (.ok (.boolean false), s₁)) :
      Enters ⟨depth, env, .ifElse c t (some e), s⟩ ⟨depth, env, e, s₁⟩
  | assigned {depth : Nat} {env : Environment} {name : String} {e : Expr} {s : Store} :
      Enters ⟨depth, env, .assign name e, s⟩ ⟨depth, env, e, s⟩
  | named {depth : Nat} {env : Environment} {name : String} {e : Expr} {s : Store} :
      Enters ⟨depth, env, .named name e, s⟩ ⟨depth, env, e, s⟩
  | element {depth : Nat} {env : Environment} {elements : List Expr} {s : Store} {x : Evaluation}
      (h : EntersIn depth env elements s x) : Enters ⟨depth, env, .vector elements, s⟩ x
  | indexed {depth : Nat} {env : Environment} {v i : Expr} {s : Store} :
      Enters ⟨depth, env, .index v i, s⟩ ⟨depth, env, v, s⟩
  | position {depth : Nat} {env : Environment} {v i : Expr} {s s₁ : Store} {vector : Value}
      (hvector : env.evaluate depth v s = (.ok vector, s₁)) :
      Enters ⟨depth, env, .index v i, s⟩ ⟨depth, env, i, s₁⟩
  | statement {depth : Nat} {env : Environment} {statements : List Expr} {s : Store}
      {x : Evaluation} (h : EntersIn depth env statements s x) :
      Enters ⟨depth, env, .sequence statements, s⟩ x

/-- A call evaluates the body of a function that it has found and that has as many parameters as
there are arguments. -/
inductive Opens (f : FunctionDef) : Evaluation → Evaluation → Prop
  | body {depth : Nat} {env : Environment} {name : String} {arguments : List Expr} {s s₁ : Store}
      {vs : List Value}
      (harguments : evaluateAllWith (runDeep (depth + 1)) env arguments s = (.ok vs, s₁))
      (hf : env.functions.find? (normalizeName name) = some f)
      (hlength : f.parameters.length = vs.length) :
      Opens f ⟨depth + 1, env, .call name arguments, s⟩
        ⟨depth, env.forCall, .sequence f.body,
          { s₁ with vars := Bindings.ofList (f.parameters.zip vs) }⟩

/-- What is evaluated along with an expression, itself included, the bodies of functions apart. -/
def Within : Evaluation → Evaluation → Prop := Relation.ReflTransGen Enters

/-- Whatever is evaluated along with an expression. -/
def ComesTo : Evaluation → Evaluation → Prop :=
  Relation.ReflTransGen fun x y => x.Enters y ∨ ∃ f, Opens f x y

variable {x y z : Evaluation}

theorem Within.enter (h : x.Within y) (henters : y.Enters z) : x.Within z :=
  Relation.ReflTransGen.tail h henters

theorem ComesTo.within (h : x.ComesTo y) (hwithin : y.Within z) : x.ComesTo z :=
  Relation.ReflTransGen.trans h (Relation.ReflTransGen.mono (fun _ _ => Or.inl) _ _ hwithin)

theorem ComesTo.opens (h : x.ComesTo y) {f : FunctionDef} (hopens : Opens f y z) : x.ComesTo z :=
  Relation.ReflTransGen.tail h (Or.inr ⟨f, hopens⟩)

/-! ### Where it stops -/

theorem EntersIn.stop {depth : Nat} {env : Environment} {es : List Expr} {s s' : Store}
    (h : EntersIn depth env es s x) {stop : Stop} (hstop : x.run = (.error stop, s')) :
    evaluateAllWith (runDeep depth) env es s = (.error stop, s') := by
  induction h with
  | head =>
      rw [evaluateAllWith]
      exact run_bind_of_stop hstop
  | tail he _ ih =>
      rw [evaluateAllWith]
      exact (run_bind_of_result he).trans (run_bind_of_stop (ih hstop))

theorem stop_of_left {depth : Nat} {env : Environment} {op : BinaryOp} {l r : Expr} {s s' : Store}
    {stop : Stop} (hstop : env.evaluate depth l s = (.error stop, s')) :
    env.evaluate depth (.binary op l r) s = (.error stop, s') := by
  unfold Environment.evaluate
  cases op with
  | _ =>
      rw [evaluateWith]
      exact run_bind_of_stop hstop

theorem stop_of_right {depth : Nat} {env : Environment} {op : BinaryOp} {l r : Expr}
    {s s₁ s' : Store} {v : Value} {stop : Stop} (hleft : env.evaluate depth l s = (.ok v, s₁))
    (hop : op.GoesOn v) (hstop : env.evaluate depth r s₁ = (.error stop, s')) :
    env.evaluate depth (.binary op l r) s = (.error stop, s') := by
  unfold Environment.evaluate
  cases op with
  | connective c =>
      obtain ⟨b, hb⟩ := hop c rfl
      rw [evaluateWith]
      refine (run_bind_of_result hleft).trans ?_
      rw [hb]
      exact (run_bind_of_result rfl).trans (run_bind_of_stop hstop)
  | _ =>
      rw [evaluateWith]
      exact (run_bind_of_result hleft).trans (run_bind_of_stop hstop)

/-- A part that stops, stops the whole. -/
theorem Enters.stop (h : x.Enters y) {stop : Stop} {s' : Store}
    (hstop : y.run = (.error stop, s')) : x.run = (.error stop, s') := by
  cases h with
  | left => exact stop_of_left hstop
  | right hleft hop => exact stop_of_right hleft hop hstop
  | operand | assigned | indexed =>
      rw [run, Environment.evaluate, evaluateWith]
      exact run_bind_of_stop hstop
  | argument h | element h =>
      rw [run, Environment.evaluate, evaluateWith]
      exact run_bind_of_stop (h.stop hstop)
  | statement h =>
      rw [run, Environment.evaluate, evaluateWith, evaluateStatementsWith_eq]
      exact run_bind_of_stop (h.stop hstop)
  | named =>
      rw [run, Environment.evaluate, evaluateWith]
      exact hstop
  | position hvector =>
      rw [run, Environment.evaluate, evaluateWith]
      exact (run_bind_of_result hvector).trans (run_bind_of_stop hstop)
  | @condition _ _ _ _ e _ =>
      cases e with
      | _ =>
          rw [run, Environment.evaluate, evaluateWith]
          exact run_bind_of_stop hstop
  | @whenTrue _ _ _ _ e _ _ hc =>
      cases e with
      | none =>
          rw [run, Environment.evaluate, evaluateWith]
          exact (run_bind_of_result hc).trans hstop
      | some e =>
          rw [run, Environment.evaluate, evaluateWith]
          exact (run_bind_of_result hc).trans (run_bind_of_stop hstop)
  | whenFalse hc =>
      rw [run, Environment.evaluate, evaluateWith]
      exact (run_bind_of_result hc).trans (run_bind_of_stop hstop)

/-- A body that stops, stops the call, which has variables of its own again. -/
theorem Opens.stop {f : FunctionDef} (h : Opens f x y) {stop : Stop} {s' : Store}
    (hstop : y.run = (.error stop, s')) :
    ∃ s'', x.run = (.error stop, s'') ∧ s''.trace = s'.trace := by
  obtain @⟨depth, env, name, arguments, s, s₁, vs, harguments, hf, hlength⟩ := h
  refine ⟨{ s' with vars := s₁.vars }, ?_, rfl⟩
  have hbody : evaluateStatementsWith (runDeep depth) env.forCall .void f.body
      { s₁ with vars := Bindings.ofList (f.parameters.zip vs) } = (.error stop, s') := hstop
  rw [run, Environment.evaluate, evaluateWith]
  refine (run_bind_of_result harguments).trans ?_
  unfold call FunctionDef.invoke isolated
  rw [hf]
  simp only [if_pos hlength, runDeep, hbody]

/-- **An evaluation stops where it comes to one that stops**: for the same reason, and with the same
trace. -/
theorem ComesTo.stop (h : x.ComesTo y) {stop : Stop} {s' : Store}
    (hstop : y.run = (.error stop, s')) :
    ∃ s'', x.run = (.error stop, s'') ∧ s''.trace = s'.trace := by
  induction h using Relation.ReflTransGen.head_induction_on with
  | refl => exact ⟨s', hstop, rfl⟩
  | head henters _ ih =>
      obtain ⟨s₁, hrun, htrace⟩ := ih
      obtain henters | ⟨f, hopens⟩ := henters
      · exact ⟨s₁, henters.stop hrun, htrace⟩
      · obtain ⟨s₂, hrun₂, htrace₂⟩ := hopens.stop hrun
        exact ⟨s₂, hrun₂, htrace₂.trans htrace⟩

end Evaluation

end FrameLang
