/-
The nodes of an expression.

A statement about what an expression contains, the variables that it mentions or the calls that it
makes, is a statement about its nodes.  Projections are a case of their own: the check does not go
into them, and over the rows of a frame they are never evaluated.  So it can be asked for the nodes
with those inside of projections or without them.

`every` decides whether all nodes pass a test, and `nodes` lists them; `every_iff` says that these
go together.
-/
import FrameLang.Expr.Basic

namespace FrameLang

namespace Expr

/-! ### Nodes -/

mutual

/-- The nodes of an expression, itself first.  Those inside of a projection are among them only if
`inside`. -/
def nodes (inside : Bool) : Expr → List Expr
  | literal v => [literal v]
  | var name => [var name]
  | path dataSet field => [path dataSet field]
  | unary op e => unary op e :: e.nodes inside
  | assign name e => assign name e :: e.nodes inside
  | named name e => named name e :: e.nodes inside
  | binary op l r => binary op l r :: (l.nodes inside ++ r.nodes inside)
  | index v i => index v i :: (v.nodes inside ++ i.nodes inside)
  | call name es => call name es :: nodesIn inside es
  | vector es => vector es :: nodesIn inside es
  | sequence es => sequence es :: nodesIn inside es
  | ifElse c t none => ifElse c t none :: (c.nodes inside ++ t.nodes inside)
  | ifElse c t (some e) =>
    ifElse c t (some e) :: (c.nodes inside ++ (t.nodes inside ++ e.nodes inside))
  | project es none => project es none :: if inside then nodesIn inside es else []
  | project es (some filter) =>
    project es (some filter) :: if inside then nodesIn inside es ++ filter.nodes inside else []

def nodesIn (inside : Bool) : List Expr → List Expr
  | [] => []
  | e :: es => e.nodes inside ++ nodesIn inside es

end

theorem subset_append_of_mem {α : Type} {a : α} {as l r : List α} (h : a ∈ l ++ r)
    (hl : a ∈ l → as ⊆ l) (hr : a ∈ r → as ⊆ r) : as ⊆ l ++ r := by
  rcases List.mem_append.mp h with h | h
  · exact List.subset_append_of_subset_left r (hl h)
  · exact List.subset_append_of_subset_right l (hr h)

/-- A node is the expression itself or one of those below it. -/
theorem nodes_subset_of_below {inside : Bool} {node e : Expr} {below : List Expr}
    (he : e.nodes inside = e :: below) (h : node ∈ e.nodes inside)
    (hbelow : node ∈ below → node.nodes inside ⊆ below) :
    node.nodes inside ⊆ e.nodes inside := by
  rw [he, List.mem_cons] at h
  rcases h with rfl | h
  · exact List.Subset.refl _
  · rw [he]
    exact List.subset_cons_of_subset e (hbelow h)

mutual

/-- The nodes of a node are nodes. -/
theorem nodes_subset {inside : Bool} {node : Expr} (e : Expr) (h : node ∈ e.nodes inside) :
    node.nodes inside ⊆ e.nodes inside := by
  cases e with
  | literal | var | path => exact nodes_subset_of_below rfl h nofun
  | unary op e | assign name e | named name e => exact nodes_subset_of_below rfl h (nodes_subset e)
  | binary op l r | index l r =>
      refine nodes_subset_of_below rfl h fun h => ?_
      exact subset_append_of_mem h (nodes_subset l) (nodes_subset r)
  | call name es | vector es | sequence es =>
      exact nodes_subset_of_below rfl h (nodesIn_subset es)
  | ifElse c t e =>
      cases e with
      | none =>
          refine nodes_subset_of_below rfl h fun h => ?_
          exact subset_append_of_mem h (nodes_subset c) (nodes_subset t)
      | some e =>
          refine nodes_subset_of_below rfl h fun h => ?_
          refine subset_append_of_mem h (nodes_subset c) fun h => ?_
          exact subset_append_of_mem h (nodes_subset t) (nodes_subset e)
  | project es filter =>
      cases filter with
      | none =>
          refine nodes_subset_of_below rfl h fun h => ?_
          cases inside with
          | false => cases h
          | true => exact nodesIn_subset es h
      | some filter =>
          refine nodes_subset_of_below rfl h fun h => ?_
          cases inside with
          | false => cases h
          | true => exact subset_append_of_mem h (nodesIn_subset es) (nodes_subset filter)
termination_by structural e

theorem nodesIn_subset {inside : Bool} {node : Expr} (es : List Expr)
    (h : node ∈ nodesIn inside es) : node.nodes inside ⊆ nodesIn inside es := by
  cases es with
  | nil => cases h
  | cons e es => exact subset_append_of_mem h (nodes_subset e) (nodesIn_subset es)
termination_by structural es

end

theorem nodesIn_append (inside : Bool) (es es' : List Expr) :
    nodesIn inside (es ++ es') = nodesIn inside es ++ nodesIn inside es' := by
  induction es with
  | nil => rfl
  | cons e es ih => rw [List.cons_append, nodesIn, nodesIn, ih, List.append_assoc]

/-- The nodes of a projection's elements and filter. -/
theorem nodesIn_parts (inside : Bool) (elements : List Expr) (filter : Option Expr) :
    nodesIn inside (elements ++ filter.toList) =
      nodesIn inside elements ++ filter.elim [] (nodes inside) := by
  rw [nodesIn_append]
  cases filter with
  | none => rfl
  | some filter => simp [nodesIn]

theorem nodes_project (elements : List Expr) (filter : Option Expr) :
    (project elements filter).nodes true =
      project elements filter :: nodesIn true (elements ++ filter.toList) := by
  rw [nodesIn_parts]
  cases filter with
  | none => simp [nodes]
  | some filter => simp [nodes]

theorem append_subset_append {α : Type} {as bs l r : List α} (hl : as ⊆ l) (hr : bs ⊆ r) :
    as ++ bs ⊆ l ++ r :=
  List.append_subset.mpr
    ⟨List.subset_append_of_subset_left r hl, List.subset_append_of_subset_right l hr⟩

mutual

/-- The nodes without those inside of projections are among all nodes. -/
theorem nodes_false_subset (e : Expr) : e.nodes false ⊆ e.nodes true := by
  cases e with
  | literal | var | path => exact List.Subset.refl _
  | unary op e | assign name e | named name e =>
      exact List.cons_subset_cons _ (nodes_false_subset e)
  | binary op l r | index l r =>
      exact List.cons_subset_cons _
        (append_subset_append (nodes_false_subset l) (nodes_false_subset r))
  | call name es | vector es | sequence es =>
      exact List.cons_subset_cons _ (nodesIn_false_subset es)
  | ifElse c t e =>
      have hc := nodes_false_subset c
      have ht := nodes_false_subset t
      cases e with
      | none => exact List.cons_subset_cons _ (append_subset_append hc ht)
      | some e =>
          exact List.cons_subset_cons _ (append_subset_append hc
            (append_subset_append ht (nodes_false_subset e)))
  | project es filter =>
      cases filter with
      | none => exact List.cons_subset_cons _ (List.nil_subset _)
      | some filter => exact List.cons_subset_cons _ (List.nil_subset _)
termination_by structural e

theorem nodesIn_false_subset (es : List Expr) : nodesIn false es ⊆ nodesIn true es := by
  cases es with
  | nil => exact List.Subset.refl _
  | cons e es => exact append_subset_append (nodes_false_subset e) (nodesIn_false_subset es)
termination_by structural es

end

/-! ### Tests -/

mutual

/-- Whether every node of an expression passes a test, those inside of projections included. -/
def every (p : Expr → Bool) : Expr → Bool
  | literal v => p (literal v)
  | var name => p (var name)
  | unary op e => p (unary op e) && e.every p
  | binary op l r => p (binary op l r) && l.every p && r.every p
  | call name arguments => p (call name arguments) && everyIn p arguments
  | ifElse c t none => p (ifElse c t none) && c.every p && t.every p
  | ifElse c t (some e) => p (ifElse c t (some e)) && c.every p && t.every p && e.every p
  | assign name e => p (assign name e) && e.every p
  | named name e => p (named name e) && e.every p
  | vector elements => p (vector elements) && everyIn p elements
  | index v i => p (index v i) && v.every p && i.every p
  | path dataSet field => p (path dataSet field)
  | project elements none => p (project elements none) && everyIn p elements
  | project elements (some filter) =>
    p (project elements (some filter)) && everyIn p elements && filter.every p
  | sequence statements => p (sequence statements) && everyIn p statements

def everyIn (p : Expr → Bool) : List Expr → Bool
  | [] => true
  | e :: es => e.every p && everyIn p es

end

mutual

/-- An expression passes a test throughout if each of its nodes passes it. -/
theorem every_iff {p : Expr → Bool} (e : Expr) :
    e.every p = true ↔ ∀ node ∈ e.nodes true, p node = true := by
  cases e with
  | literal | var | path => simp [every, nodes]
  | unary op e | assign name e | named name e => simp [every, nodes, every_iff e]
  | binary op l r | index l r =>
      simp [every, nodes, every_iff l, every_iff r, or_imp, forall_and, and_assoc]
  | call name es | vector es | sequence es => simp [every, nodes, everyIn_iff es]
  | ifElse c t e =>
      have hc := every_iff (p := p) c
      have ht := every_iff (p := p) t
      cases e with
      | none => simp [every, nodes, hc, ht, or_imp, forall_and, and_assoc]
      | some e => simp [every, nodes, hc, ht, every_iff e, or_imp, forall_and, and_assoc]
  | project es filter =>
      have hes := everyIn_iff (p := p) es
      cases filter with
      | none => simp [every, nodes, hes]
      | some filter => simp [every, nodes, hes, every_iff filter, or_imp, forall_and, and_assoc]
termination_by structural e

theorem everyIn_iff {p : Expr → Bool} (es : List Expr) :
    everyIn p es = true ↔ ∀ node ∈ nodesIn true es, p node = true := by
  cases es with
  | nil => simp [everyIn, nodesIn]
  | cons e es =>
      simp [everyIn, nodesIn, every_iff e, everyIn_iff es, or_imp, forall_and]
termination_by structural es

end

theorem every_of_forall {p : Expr → Bool} (h : ∀ e, p e = true) (e : Expr) :
    e.every p = true :=
  (every_iff e).mpr fun node _ => h node

theorem everyIn_of_forall {p : Expr → Bool} (h : ∀ e, p e = true) (es : List Expr) :
    everyIn p es = true :=
  (everyIn_iff es).mpr fun node _ => h node

theorem every_imp {p q : Expr → Bool} (h : ∀ e, p e = true → q e = true) (e : Expr)
    (he : e.every p = true) : e.every q = true :=
  (every_iff e).mpr fun node hnode => h node ((every_iff e).mp he node hnode)

theorem every_project {p : Expr → Bool} {elements : List Expr} {filter : Option Expr}
    (h : (project elements filter).every p = true) :
    everyIn p elements = true ∧ ∀ e ∈ filter, e.every p = true := by
  cases filter with
  | none =>
      rw [every, Bool.and_eq_true] at h
      exact ⟨h.2, nofun⟩
  | some filter =>
      rw [every, Bool.and_eq_true, Bool.and_eq_true] at h
      exact ⟨h.1.2, fun _ he => Option.mem_some.mp he ▸ h.2⟩

/-- Whether a node is no assignment. -/
def isNoAssignment : Expr → Bool
  | assign .. => false
  | _ => true

/-- Whether a node is neither an assignment nor a projection. -/
def isSimpleNode : Expr → Bool
  | assign .. | project .. => false
  | _ => true

/-- An expression without assignments and projections. -/
def IsSimple (e : Expr) : Prop := e.every isSimpleNode = true

end Expr

end FrameLang
