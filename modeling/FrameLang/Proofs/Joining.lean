/-
Splitting a script is harmless.

Two scripts with a line break and a semicolon between them make one script.  The line break ends a
comment at the end of the first one and keeps its last token from going on; the semicolon keeps its
last statement from going on.  What the whole script has are the parts of the first and then those
of the second.

Without functions nothing in the second script reaches back into the first, and running the whole
is running the one and then the other.
-/
import FrameLang.Proofs.Syntax.Layout
import FrameLang.Proofs.Syntax.Seam
import FrameLang.Script

namespace FrameLang

namespace Source

open Text (isBlank)

/-! ### The tokens -/

/-- A token that stops stops also in front of a line break. -/
theorem Stops.line {t : Token} {rest : List Char} (h : Stops t rest) (more : List Char) :
    Stops t (rest ++ '\n' :: more) := by
  cases rest with
  | nil => exact IsEnd.stops (by rintro c ⟨⟩; rfl) t
  | cons c rest =>
      cases t with
      | number text =>
          refine ⟨h.1, fun hpoint d behind heq => ?_⟩
          cases rest with
          | nil =>
              obtain ⟨-, htail⟩ := List.cons.inj heq
              obtain ⟨rfl, -⟩ := List.cons.inj htail
              rfl
          | cons e rest =>
              obtain ⟨rfl, htail⟩ := List.cons.inj heq
              obtain ⟨rfl, -⟩ := List.cons.inj htail
              exact h.2 hpoint e rest rfl
      | _ => exact h

/-- A line break ends the last comment. -/
theorem IsLastGap.line {gap : List Char} (h : IsLastGap gap) : IsGap (gap ++ ['\n']) := by
  rcases h with hgap | ⟨before, line, rfl, hbefore, hline⟩
  · exact hgap.append (.blank rfl .nil)
  · rw [List.append_assoc]
    exact hbefore.append (.comment hline .nil)

/-- Two sources with a line break and a semicolon between them are read as their tokens with a
semicolon between them. -/
theorem IsLaidOut.seam {ts us : List Token} {cs ds : List Char} (hcs : IsLaidOut ts cs)
    (hds : IsLaidOut us ds) : IsLaidOut (Grammar.seam ts us) (cs ++ '\n' :: ';' :: ds) := by
  induction hcs with
  | nil hgap =>
      have hsemicolon : IsSpelling [';'] (.symbol .semicolon) := rfl
      have hstops : Stops (.symbol .semicolon) ds := ⟨fun h => absurd rfl h, nofun⟩
      have hall := IsLaidOut.cons hgap.line hsemicolon hstops hds
      rwa [List.append_assoc] at hall
  | cons hgap hcs hstops _ ih =>
      rw [List.append_assoc, List.append_assoc]
      exact .cons hgap hcs (hstops.line _) ih

end Source

/-! ### The program -/

theorem Bindings.eq_empty {α : Type} {b : Bindings α} (h : ∀ name, b.find? name = none) :
    b = ∅ := by
  obtain ⟨entries⟩ := b
  cases entries with
  | nil => rfl
  | cons entry rest =>
      obtain ⟨name, a⟩ := entry
      have hname := h name
      unfold Bindings.find? at hname
      rw [lookup_cons, if_pos rfl] at hname
      cases hname

namespace Program

variable {source other : String} {p q : Program}

/-- A program is read from a source laid out as the tokens of its parts. -/
theorem ofSource_eq_ok_iff : ofSource source = .ok p ↔ ∃ ts parts,
    Source.IsLaidOut ts source.toList ∧ Grammar.ReadsParts ts parts ∧ p = ofParts parts := by
  unfold ofSource
  constructor
  · intro h
    cases hts : Source.tokens source with
    | error e =>
        rw [hts] at h
        cases h
    | ok ts =>
        rw [hts] at h
        obtain ⟨parts, hparts, rfl⟩ := Grammar.program_eq_ok_iff.mp h
        exact ⟨ts, parts, Source.isLaidOut_of_tokens hts, hparts, rfl⟩
  · rintro ⟨ts, parts, hts, hparts, rfl⟩
    rw [Source.tokens_of_isLaidOut hts]
    exact Grammar.program_eq_ok_iff.mpr ⟨parts, hparts, rfl⟩

/-- The source of two scripts is read as the parts of both. -/
theorem ofSource_join (hp : ofSource source = .ok p) (hq : ofSource other = .ok q) :
    ∃ r, ofSource (source ++ "\n;" ++ other) = .ok r ∧
      r.statements = p.statements ++ q.statements ∧
      ∀ name, r.functions.find? name = (q.functions.find? name).or (p.functions.find? name) := by
  obtain ⟨ts, parts, hts, hparts, rfl⟩ := ofSource_eq_ok_iff.mp hp
  obtain ⟨us, others, hus, hothers, rfl⟩ := ofSource_eq_ok_iff.mp hq
  have hlaid : Source.IsLaidOut (Grammar.seam ts us) (source ++ "\n;" ++ other).toList := by
    have hall := hts.seam hus
    rw [String.toList_append, String.toList_append, List.append_assoc]
    exact hall
  refine ⟨_, ofSource_eq_ok_iff.mpr
    ⟨_, _, hlaid, Grammar.readsParts_seam hparts hothers, rfl⟩, ?_, fun name => ?_⟩
  · rw [ofParts, List.foldl_append]
    exact statements_foldl_add _ others
  · rw [ofParts, List.foldl_append]
    exact find?_foldl_add _ others name

end Program

/-! ### The run -/

namespace Expr

variable (deeper : RunStatements) (env : Environment)

theorem evaluateStatementsWith_append (before : Value) (es fs : List Expr) :
    evaluateStatementsWith deeper env before (es ++ fs) =
      evaluateStatementsWith deeper env before es >>= fun v =>
        evaluateStatementsWith deeper env v fs := by
  induction es generalizing before with
  | nil => simp [evaluateStatementsWith]
  | cons e es ih =>
      rw [List.cons_append, evaluateStatementsWith, evaluateStatementsWith, bind_assoc]
      exact congrArg _ (funext fun v => ih v)

/-- What there was before some statements is their value only if there are none. -/
theorem evaluateStatementsWith_before (before : Value) (es : List Expr) :
    evaluateStatementsWith deeper env before es = do
      let v ← evaluateStatementsWith deeper env .void es
      return if es.isEmpty then before else v := by
  cases es with
  | nil => simp [evaluateStatementsWith]
  | cons e es => simp [evaluateStatementsWith]

end Expr

namespace Environment

variable {source : String} {p : Program}

theorem runUnchecked_eq (h : Program.ofSource source = .ok p) (depth : Nat) (env : Environment) :
    env.runUnchecked depth source = env.runProgram depth p := by
  unfold runUnchecked readSource
  rw [h]
  rfl

end Environment

/-- **Splitting a script is harmless.**  Two scripts that can be read can be read together, with a
line break and a semicolon between them.  The statements are those of the first and then those of
the second, and a function is the second script's if that has one of the name.  If neither has a
function, running the whole is running the first and then the second, in every environment: an error
of the first one ends it, and the value is that of the second unless that has no statement. -/
theorem Program.ofSource_split {source other : String} {p q : Program}
    (hp : ofSource source = .ok p) (hq : ofSource other = .ok q) :
    ∃ r, ofSource (source ++ "\n;" ++ other) = .ok r ∧
      r.statements = p.statements ++ q.statements ∧
      (∀ name, r.functions.find? name = (q.functions.find? name).or (p.functions.find? name)) ∧
      (p.functions = ∅ → q.functions = ∅ → ∀ (depth : Nat) (env : Environment),
        env.runUnchecked depth (source ++ "\n;" ++ other) = do
          let v ← env.runUnchecked depth source
          let w ← env.runUnchecked depth other
          return if q.statements.isEmpty then v else w) := by
  obtain ⟨r, hr, hstatements, hfunctions⟩ := ofSource_join hp hq
  refine ⟨r, hr, hstatements, hfunctions, fun hpnone hqnone depth env => ?_⟩
  have hrnone : r.functions = ∅ := by
    refine Bindings.eq_empty fun name => ?_
    rw [hfunctions, hpnone, hqnone]
    rfl
  rw [Environment.runUnchecked_eq hr, Environment.runUnchecked_eq hp,
    Environment.runUnchecked_eq hq]
  unfold Environment.runProgram Environment.runStatements
  rw [hrnone, hpnone, hqnone, hstatements, Expr.evaluateStatementsWith_append]
  exact congrArg _ (funext fun v => Expr.evaluateStatementsWith_before _ _ v _)

/-- The first script ends in a comment, which does not reach the second. -/
theorem Program.ofSource_split_comment :
    ∃ r, ofSource ("a = 1 // one" ++ "\n;" ++ "a") = .ok r ∧
      r.statements = [.assign "a" (.literal (.long 1)), .var "a"] ∧
      (∀ name, r.functions.find? name = none) ∧
      ∀ (depth : Nat) (env : Environment),
        env.runUnchecked depth ("a = 1 // one" ++ "\n;" ++ "a") =
          env.runUnchecked depth "a = 1 // one" >>= fun _ => env.runUnchecked depth "a" := by
  have hp : ofSource "a = 1 // one" =
      .ok { statements := [.assign "a" (.literal (.long 1))] } := by
    cbv
  have hq : ofSource "a" = .ok { statements := [.var "a"] } := by
    cbv
  obtain ⟨r, hr, hstatements, hfunctions, hrun⟩ := ofSource_split hp hq
  refine ⟨r, hr, hstatements, hfunctions, fun depth env => ?_⟩
  rw [hrun rfl rfl depth env]
  simp

end FrameLang
