/-
Data frames.

A frame has named columns of equal length.  A stored column keeps one cell per row, all of one
scalar type; a computed column keeps an expression over the other columns instead.  Rows have a
physical place, which never changes, and a logical one: sorting replaces the order in which the
rows are shown and nothing else.
-/
import FrameLang.Calendar.DateTime
import FrameLang.Function

namespace FrameLang

/-- What a cell of each type holds. -/
abbrev ScalarType.Carrier : ScalarType → Type
  | .boolean => Bool
  | .long => Long
  | .double => Double
  | .string => String
  | .date => Date
  | .dateTime => DateTime

/-- The cells of a stored column, from the first row on; `none` is a null. -/
structure Cells where
  type : ScalarType
  entries : Array (Option type.Carrier)

namespace Cells

def empty (type : ScalarType) : Cells := ⟨type, #[]⟩

def size (c : Cells) : Nat := c.entries.size

def cleared (c : Cells) : Cells := empty c.type

def push (c : Cells) (entry : Option c.type.Carrier) : Cells := ⟨c.type, c.entries.push entry⟩

@[simp] theorem size_push (c : Cells) (entry : Option c.type.Carrier) :
    (c.push entry).size = c.size + 1 := by
  simp [push, size]

end Cells

inductive Column.Content
  | stored (cells : Cells)
  | computed (source : String) (expression : Expr) (type : ValueType)

structure Column where
  name : String
  content : Column.Content

namespace Column

def type (c : Column) : ValueType :=
  match c.content with
  | .stored cells => cells.type.toValueType
  | .computed _ _ type => type

def isStored (c : Column) : Bool :=
  match c.content with
  | .stored _ => true
  | .computed .. => false

/-- The text that a computed column was declared with. -/
def source? (c : Column) : Option String :=
  match c.content with
  | .stored _ => none
  | .computed source _ _ => some source

/-- The column without its cells. -/
def cleared (c : Column) : Column :=
  match c.content with
  | .stored cells => { c with content := .stored cells.cleared }
  | .computed .. => c

end Column

structure Frame where
  name : String
  columns : List Column := []
  /-- The place of each column, by its name. -/
  index : Bindings Nat := ∅
  rowCount : Nat := 0
  /-- The physical rows in logical order; `none` is the order of insertion. -/
  order : Option (List Nat) := none
  /-- The functions that computed columns and queries may call. -/
  registry : Registry

namespace Frame

def columnNames (f : Frame) : List String := f.columns.map Column.name

def columnIndex? (f : Frame) (name : String) : Option Nat := f.index.find? name

def hasColumn (f : Frame) (name : String) : Bool := f.index.contains name

/-- The column of a name, where the index says that it is. -/
def column? (f : Frame) (name : String) : Option Column :=
  (f.columnIndex? name).bind fun i => f.columns[i]?

theorem mem_of_column? {f : Frame} {name : String} {c : Column} (h : f.column? name = some c) :
    c ∈ f.columns := by
  obtain ⟨i, _, hi⟩ := Option.bind_eq_some_iff.mp h
  exact List.mem_of_getElem? hi

def columnType? (f : Frame) (name : String) : Option ValueType :=
  (f.column? name).map Column.type

def isSorted (f : Frame) : Bool := f.order.isSome

/-- The physical rows as they are shown. -/
def rows (f : Frame) : List Nat := f.order.getD (List.range f.rowCount)

/-- The physical place of a row. -/
def physicalRow? (f : Frame) (row : Nat) : Option Nat :=
  if row < f.rowCount then f.rows[row]? else none

def unsort (f : Frame) : Frame := { f with order := none }

/-- The frame with one more column, which the index finds from then on. -/
def extend (f : Frame) (column : Column) : Frame :=
  { f with
    columns := f.columns ++ [column]
    index := f.index.insert column.name f.columns.length }

@[simp] theorem columns_extend (f : Frame) (column : Column) :
    (f.extend column).columns = f.columns ++ [column] := rfl

/-- The same columns without any rows. -/
def cleared (f : Frame) : Frame :=
  { f with columns := f.columns.map Column.cleared, rowCount := 0, order := none }

end Frame
end FrameLang
