/-
A program is read part by part.

A part is a function or a statement.  Reading a program goes through its parts in their order and
adds each one to the program that there is so far, so that it comes down to two things: which parts
the tokens are, which does not depend on the program, and what adding them does, which does not
depend on the tokens.

A later function takes the place of an earlier one with the same normalized name; statements are
only put behind each other.
-/
import FrameLang.Proofs.Syntax.Reading
import Mathlib

namespace FrameLang

/-- What a program consists of. -/
inductive Part
  | function (f : FunctionDef)
  | statement (e : Expr)

namespace Program

def add (p : Program) : Part → Program
  | .function f => p.define f
  | .statement e => { p with statements := p.statements ++ [e] }

/-- The program of some parts. -/
def ofParts (parts : List Part) : Program := parts.foldl add {}

theorem ofParts_concat (parts : List Part) (part : Part) :
    ofParts (parts ++ [part]) = (ofParts parts).add part :=
  List.foldl_concat ..

/-! ### Adding parts to a program -/

/-- Parts are added to a program with their statements behind its own. -/
theorem statements_foldl_add (p : Program) (parts : List Part) :
    (parts.foldl add p).statements = p.statements ++ (ofParts parts).statements := by
  induction parts using List.reverseRecOn with
  | nil => exact (List.append_nil _).symm
  | append_singleton parts part ih =>
      rw [List.foldl_concat, ofParts_concat]
      cases part with
      | function f => exact ih
      | statement e =>
          simp only [add]
          rw [ih, List.append_assoc]

/-- Parts are added to a program with their functions in front of its own. -/
theorem find?_foldl_add (p : Program) (parts : List Part) (name : String) :
    (parts.foldl add p).functions.find? name =
      ((ofParts parts).functions.find? name).or (p.functions.find? name) := by
  induction parts using List.reverseRecOn with
  | nil => rfl
  | append_singleton parts part ih =>
      rw [List.foldl_concat, ofParts_concat]
      cases part with
      | function f =>
          simp only [add, define, Bindings.find?_insert]
          by_cases hname : name = normalizeName f.name
          · rw [if_pos hname, if_pos hname]
            rfl
          · rw [if_neg hname, if_neg hname]
            exact ih
      | statement e => exact ih

end Program

namespace Grammar

/-! ### Functions -/

variable {name : String} {ts rest : List Token}

theorem reads_expectName : Reads (expectName ts) name rest ↔ ts = .name name :: rest := by
  unfold expectName
  split
  · rw [reads_ok, List.cons.injEq, Token.name.injEq]
    exact ⟨fun ⟨hname, hrest⟩ => ⟨hname.symm, hrest.symm⟩,
      fun ⟨hname, hrest⟩ => ⟨hname.symm, hrest.symm⟩⟩
  · rename_i hne
    refine iff_of_false reads_error ?_
    rintro rfl
    exact hne _ _ rfl

theorem reads_names_comma {ns : List String} :
    Reads (names (.name name :: .symbol .comma :: ts)) ns rest ↔
      ∃ more, Reads (names ts) more rest ∧ ns = name :: more := by
  rw [names]
  simp only [reads_bind, reads_pure, reads_and_forall, exists_eq_right_right']

theorem reads_names_last {ns : List String} (hts : ts.head? ≠ some (.symbol .comma)) :
    Reads (names (.name name :: ts)) ns rest ↔ ns = [name] ∧ rest = ts := by
  rw [names, reads_ok]
  rintro more rfl
  exact hts rfl

theorem reads_parameters {ps : List String} :
    Reads (parameters ts) ps rest ↔ ∃ more, ts = .symbol .leftParen :: more ∧
      (more = .symbol .rightParen :: rest ∧ ps = [] ∨
        more.head? ≠ some (.symbol .rightParen) ∧
          Reads (names more) ps (.symbol .rightParen :: rest)) := by
  unfold parameters
  simp only [reads_bind]
  simp only [reads_expect]
  constructor
  · rintro ⟨_, more, rfl, h⟩
    refine ⟨more, rfl, ?_⟩
    replace h := h (by simp)
    split at h
    · obtain ⟨rfl, rfl⟩ := reads_pure.mp h
      exact Or.inl ⟨rfl, rfl⟩
    · rename_i hparen
      simp only [reads_bind, reads_pure] at h
      simp only [reads_expect] at h
      obtain ⟨qs, mid, hnames, h⟩ := h
      obtain ⟨_, left, rfl, h⟩ := h hnames.length_lt
      obtain ⟨rfl, rfl⟩ := h (by simp)
      refine Or.inr ⟨fun hhead => ?_, hnames⟩
      obtain ⟨left, rfl⟩ := List.head?_eq_some_iff.mp hhead
      exact hparen left (by simp) rfl HEq.rfl
  · rintro ⟨more, rfl, h⟩
    refine ⟨(), more, rfl, fun _ => ?_⟩
    rcases h with ⟨rfl, rfl⟩ | ⟨hparen, hnames⟩
    · exact reads_pure.mpr ⟨rfl, rfl⟩
    · split
      · exact absurd rfl hparen
      · simp only [reads_bind, reads_pure]
        simp only [reads_expect]
        exact ⟨ps, _, hnames, fun _ => ⟨(), rest, rfl, fun _ => ⟨rfl, rfl⟩⟩⟩

theorem reads_functionDef {f : FunctionDef} :
    Reads (functionDef ts) f rest ↔ ∃ name more ps us body last, ts = .name name :: more ∧
      Reads (parameters more) ps (.symbol .leftBrace :: us) ∧
      Reads (block (.symbol .rightBrace) [] us) (body, last) rest ∧
      f = { name, parameters := ps, body } := by
  unfold functionDef
  simp only [reads_bind]
  simp only [reads_expect, reads_expectName]
  constructor
  · rintro ⟨name, more, rfl, h⟩
    obtain ⟨ps, _, hps, h⟩ := h (by simp)
    obtain ⟨_, us, rfl, h⟩ := h hps.length_lt
    obtain ⟨⟨body, last⟩, left, hbody, h⟩ := h (by simp)
    obtain ⟨rfl, rfl⟩ := reads_pure.mp (h hbody.length_lt)
    exact ⟨name, more, ps, us, body, last, rfl, hps, hbody, rfl⟩
  · rintro ⟨name, more, ps, us, body, last, rfl, hps, hbody, rfl⟩
    refine ⟨name, more, rfl, fun _ => ⟨ps, _, hps, fun _ => ⟨(), us, rfl, fun _ => ?_⟩⟩⟩
    exact ⟨(body, last), rest, hbody, fun _ => reads_pure.mpr ⟨rfl, rfl⟩⟩

/-! ### Programs -/

/-- The tokens are these parts, with semicolons around them. -/
inductive ReadsParts : List Token → List Part → Prop
  | nil {ts : List Token} : skipSeparators ts = [] → ReadsParts ts []
  | function {ts more left : List Token} {f : FunctionDef} {parts : List Part} :
      skipSeparators ts = .keyword .function_ :: more → Reads (functionDef more) f left →
      ReadsParts left parts → ReadsParts ts (.function f :: parts)
  | statement {ts more left : List Token} {t : Token} {e : Expr} {parts : List Part} :
      skipSeparators ts = t :: more → t ≠ .keyword .function_ →
      Reads (statement (t :: more)) e left →
      ReadsParts left parts → ReadsParts ts (.statement e :: parts)

section

variable {p q : Program} {more : List Token}

/-- What a program goes on with, without the proof that the tokens get fewer. -/
theorem programFrom_eq (p : Program) (ts : List Token) : programFrom p ts =
    match skipSeparators ts with
    | [] => .ok p
    | .keyword .function_ :: more =>
      functionDef more >>= fun d => programFrom (p.define d.value) d.rest
    | t :: more =>
      statement (t :: more) >>= fun d => programFrom (p.add (.statement d.value)) d.rest := by
  rw [programFrom]
  split
  · rename_i hskip
    rw [hskip]
  · rename_i hskip
    rw [hskip]
  · rename_i hne hskip
    rw [hskip]
    split
    · rename_i hnil
      cases hnil
    · rename_i hcons
      cases hcons
      exact absurd rfl hne
    · rename_i hcons
      cases hcons
      rfl

theorem programFrom_end (h : skipSeparators ts = []) : programFrom p ts = .ok p := by
  rw [programFrom_eq, h]

theorem programFrom_function (h : skipSeparators ts = .keyword .function_ :: more) :
    programFrom p ts = functionDef more >>= fun d => programFrom (p.define d.value) d.rest := by
  rw [programFrom_eq, h]

theorem programFrom_statement {t : Token} (h : skipSeparators ts = t :: more)
    (ht : t ≠ .keyword .function_) :
    programFrom p ts = statement (t :: more) >>= fun d =>
      programFrom (p.add (.statement d.value)) d.rest := by
  rw [programFrom_eq, h]
  split
  · rename_i hnil
    cases hnil
  · rename_i hcons
    cases hcons
    exact absurd rfl ht
  · rename_i hcons
    cases hcons
    rfl

theorem programFrom_of_readsParts {parts : List Part} (h : ReadsParts ts parts) (p : Program) :
    programFrom p ts = .ok (parts.foldl Program.add p) := by
  induction h generalizing p with
  | nil hskip => exact programFrom_end hskip
  | function hskip hf _ ih =>
      obtain ⟨hlt, hf⟩ := hf
      rw [programFrom_function hskip, hf]
      exact ih _
  | statement hskip hne he _ ih =>
      obtain ⟨hlt, he⟩ := he
      rw [programFrom_statement hskip hne, he]
      exact ih _

theorem exists_readsParts (h : programFrom p ts = .ok q) :
    ∃ parts, ReadsParts ts parts ∧ q = parts.foldl Program.add p := by
  induction p, ts using programFrom.induct with
  | case1 p ts _ hskip =>
      rw [programFrom_end hskip] at h
      exact ⟨[], .nil hskip, (Except.ok.inj h).symm⟩
  | case2 p ts _ more hskip ih =>
      rw [programFrom_function hskip] at h
      cases hf : functionDef more with
      | error e =>
          rw [hf] at h
          cases h
      | ok d =>
          rw [hf] at h
          obtain ⟨parts, hparts, rfl⟩ := ih d.value d.rest d.shorter h
          exact ⟨.function d.value :: parts, .function hskip ⟨d.shorter, hf⟩ hparts, rfl⟩
  | case3 p ts _ t more hne hskip ih =>
      rw [programFrom_statement hskip hne] at h
      cases he : statement (t :: more) with
      | error e =>
          rw [he] at h
          cases h
      | ok d =>
          rw [he] at h
          obtain ⟨parts, hparts, rfl⟩ := ih d.value d.rest d.shorter h
          exact ⟨.statement d.value :: parts, .statement hskip hne ⟨d.shorter, he⟩ hparts, rfl⟩

end

/-- A program is read exactly when its tokens are parts, and it is the program of them. -/
theorem program_eq_ok_iff {p : Program} :
    program ts = .ok p ↔ ∃ parts, ReadsParts ts parts ∧ p = .ofParts parts := by
  constructor
  · exact exists_readsParts
  · rintro ⟨parts, hparts, rfl⟩
    exact programFrom_of_readsParts hparts {}

end Grammar

end FrameLang
