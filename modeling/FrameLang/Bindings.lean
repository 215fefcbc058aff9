/-
Finite maps from names.

A map is kept as a list of pairs that `insert` keeps in ascending order of the names, so the same
bindings made in any order give the same map.  Looking up does not rely on that order, which is
why the laws below hold of every list of pairs.
-/

namespace FrameLang

structure Bindings (α : Type) where
  entries : List (String × α)
deriving DecidableEq, Inhabited

namespace Bindings

variable {α : Type}

def empty : Bindings α := ⟨[]⟩

instance : EmptyCollection (Bindings α) := ⟨empty⟩

def find? (b : Bindings α) (name : String) : Option α := b.entries.lookup name

def contains (b : Bindings α) (name : String) : Bool := (b.find? name).isSome

def names (b : Bindings α) : List String := b.entries.map Prod.fst

def values (b : Bindings α) : List α := b.entries.map Prod.snd

def size (b : Bindings α) : Nat := b.entries.length

/-- Puts a pair at its place, in the place of one with the same name. -/
def insertEntry (name : String) (a : α) : List (String × α) → List (String × α)
  | [] => [(name, a)]
  | (other, b) :: rest =>
    if name = other then (name, a) :: rest
    else if name < other then (name, a) :: (other, b) :: rest
    else (other, b) :: insertEntry name a rest

def insert (b : Bindings α) (name : String) (a : α) : Bindings α := ⟨insertEntry name a b.entries⟩

def erase (b : Bindings α) (name : String) : Bindings α := ⟨b.entries.filter (·.1 != name)⟩

/-- Binds each pair in turn, so that of two with one name the later wins. -/
def ofList (pairs : List (String × α)) : Bindings α :=
  pairs.foldl (fun b (name, a) => b.insert name a) ∅

/-! ### Looking up -/

@[simp] theorem find?_empty (name : String) : (∅ : Bindings α).find? name = none := rfl

theorem lookup_cons (other key : String) (a : α) (rest : List (String × α)) :
    List.lookup other ((key, a) :: rest) = if other = key then some a else rest.lookup other := by
  change (match other == key with
    | true => some a
    | false => rest.lookup other) = _
  by_cases h : other = key
  · simp [h]
  · simp [h, beq_eq_false_iff_ne.2 h]

theorem lookup_insertEntry (name other : String) (a : α) (entries : List (String × α)) :
    (insertEntry name a entries).lookup other =
      if other = name then some a else entries.lookup other := by
  induction entries with
  | nil => simp [insertEntry, lookup_cons]
  | cons head rest ih => grind [insertEntry, lookup_cons]

theorem find?_insert (b : Bindings α) (name other : String) (a : α) :
    (b.insert name a).find? other = if other = name then some a else b.find? other :=
  lookup_insertEntry name other a b.entries

@[simp] theorem find?_insert_self (b : Bindings α) (name : String) (a : α) :
    (b.insert name a).find? name = some a := by
  simp [find?_insert]

theorem find?_insert_of_ne (b : Bindings α) {name other : String} (a : α) (h : other ≠ name) :
    (b.insert name a).find? other = b.find? other := by
  simp [find?_insert, h]

theorem find?_erase (b : Bindings α) (name other : String) :
    (b.erase name).find? other = if other = name then none else b.find? other := by
  unfold find? erase
  induction b.entries with
  | nil => simp
  | cons head rest ih => grind [lookup_cons]

end Bindings
end FrameLang
