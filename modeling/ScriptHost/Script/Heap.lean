import ScriptHost.Script.Code
import ScriptHost.Script.Table

/-!
# What scripts keep

The tables, functions and captured variables of all environments, each known by its place. Nothing
is ever taken away, so a place stays good. Environments share the heap and nothing else: each has
its own globals table and its own metatable of texts.
-/
namespace ScriptHost.Script

open Text (Bytes)

/-- A function of a script with the variables of other functions that it uses, each by its cell. -/
structure Closure where
  home : Nat
  code : Prototype
  upvalues : Array Nat
  deriving Inhabited

/-- Four words from which random numbers are made. -/
structure Randomness where
  a : UInt64
  b : UInt64
  c : UInt64
  d : UInt64
  deriving Inhabited

/-- Where an environment begins. -/
structure Environment where
  /-- The globals table. -/
  globals : Nat
  /-- The metatable that all texts share. -/
  texts : Nat
  /-- The metatable that all objects of the host share. -/
  objects : Nat
  /-- The table of the loaded libraries. -/
  loaded : Nat
  randomness : Randomness
  deriving Inhabited

/-- A thread: the function it runs, and whether it has begun. -/
structure Thread where
  function : Value
  started : Bool
  deriving Inhabited

structure Heap where
  tables : Array Table := #[]
  cells : Array Value := #[]
  functions : Array Closure := #[]
  threads : Array Thread := #[]
  environments : Array Environment := #[]
  /-- The functions of libraries that have been called, the first first. -/
  called : Array Native := #[]

namespace Heap

/-- The table at a place. -/
def table (h : Heap) (place : Nat) : Table :=
  h.tables[place]?.getD default

/-- Changes the table at a place. -/
def setTable (h : Heap) (place : Nat) (t : Table) : Heap :=
  { h with tables := h.tables.setIfInBounds place t }

/-- Changes the table at a place by a function, which is given the only copy. -/
def changeTable (h : Heap) (place : Nat) (f : Table → Table) : Heap :=
  { h with tables := h.tables.modify place f }

/-- Adds a table; its place is the number of tables before. -/
def addTable (h : Heap) (t : Table) : Heap :=
  { h with tables := h.tables.push t }

/-- The value of a key of a table, metatables aside. -/
def rawGet (h : Heap) (place : Nat) (key : Value) : Value :=
  (h.table place).get key

/-- Gives a key of a table a value, metatables aside. -/
def rawSet (h : Heap) (place : Nat) (key value : Value) : Heap :=
  h.changeTable place (·.set key value)

/-- A length of a table, which keeps it in mind. -/
def measure (h : Heap) (place : Nat) : Nat × Heap :=
  let t := h.table place
  let n := t.length
  if t.hint = min n t.items.size then (n, h) else (n, h.setTable place (t.told n))

/-- Adds a cell; its place is the number of cells before. -/
def addCell (h : Heap) (value : Value) : Heap :=
  { h with cells := h.cells.push value }

def cell (h : Heap) (place : Nat) : Value :=
  h.cells[place]?.getD .nil

def setCell (h : Heap) (place : Nat) (value : Value) : Heap :=
  { h with cells := h.cells.setIfInBounds place value }

def environment (h : Heap) (home : Nat) : Environment :=
  h.environments[home]?.getD default

/-- Enters a call of a function of a library. -/
def call (h : Heap) (f : Native) : Heap :=
  { h with called := h.called.push f }

/-- Changes the state of the random numbers of an environment. -/
def setRandomness (h : Heap) (home : Nat) (s : Randomness) : Heap :=
  { h with environments := h.environments.modify home ({ · with randomness := s }) }

@[simp] theorem tables_setTable (h : Heap) (place : Nat) (t : Table) :
    (h.setTable place t).tables = h.tables.setIfInBounds place t := rfl

@[simp] theorem environments_setTable (h : Heap) (place : Nat) (t : Table) :
    (h.setTable place t).environments = h.environments := rfl

theorem table_setTable_self {h : Heap} {place : Nat} (hp : place < h.tables.size) (t : Table) :
    (h.setTable place t).table place = t := by
  simp [table, setTable, hp]

theorem table_setTable_of_ne {h : Heap} {place other : Nat} (hne : place ≠ other) (t : Table) :
    (h.setTable place t).table other = h.table other := by
  simp [table, setTable, Array.getElem?_setIfInBounds_ne hne]

theorem table_changeTable_self {h : Heap} {place : Nat} (hp : place < h.tables.size)
    (f : Table → Table) : (h.changeTable place f).table place = f (h.table place) := by
  simp [table, changeTable, hp, Array.getElem_modify]

theorem table_changeTable_of_ne {h : Heap} {place other : Nat} (hne : place ≠ other)
    (f : Table → Table) : (h.changeTable place f).table other = h.table other := by
  simp [table, changeTable, Array.getElem?_modify, hne]

/-- A table answers for a key it was given a value for. -/
theorem rawGet_rawSet_self {h : Heap} {place : Nat} (hp : place < h.tables.size)
    (key value : Value) : (h.rawSet place key value).rawGet place key = value := by
  simp [rawGet, rawSet, table_changeTable_self hp]

/-- Other keys of the table keep their values. -/
theorem rawGet_rawSet_of_ne {h : Heap} {place : Nat} (hp : place < h.tables.size)
    {key other : Value} (hne : other.toKey ≠ key.toKey) (value : Value) :
    (h.rawSet place key value).rawGet place other = h.rawGet place other := by
  simp [rawGet, rawSet, table_changeTable_self hp, Table.get_set_of_ne hne]

/-- Other tables keep all their values. -/
theorem rawGet_rawSet_of_place_ne {h : Heap} {place other : Nat} (hne : place ≠ other)
    (key value key' : Value) : (h.rawSet place key value).rawGet other key' = h.rawGet other key' := by
  simp [rawGet, rawSet, table_changeTable_of_ne hne]

end Heap

end ScriptHost.Script
