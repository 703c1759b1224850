import ScriptHost.Script.Eval

/-!
# Machines

A function that runs has a frame of registers; the frames of the functions that called it wait. A
register holds its value itself until another function uses the variable in it: from then on the
value is in a cell that both share, until the variable is closed.
-/
namespace ScriptHost.Script

/-- What a register holds. -/
inductive Slot where
  | value (v : Value)
  /-- The place of the cell where the value is. -/
  | cell (place : Nat)
  deriving Inhabited

/-- A function that has been called. -/
structure Frame where
  closure : Closure
  /-- The place of the next instruction. -/
  place : Nat := 0
  registers : Array Slot
  /-- The register after those of the values that the instruction before left in a row. -/
  rowEnd : Nat := 0
  /-- The arguments beyond the parameters. -/
  extra : List Value
  /-- The slot of the stack that the function was called in. -/
  entry : Nat
  /-- The slot that its registers come after. -/
  base : Nat
  isTail : Bool
  /-- The functions in progress below. -/
  below : Trace
  deriving Inhabited

namespace Frame

def code (f : Frame) : Prototype := f.closure.code

/-- The slot after all registers. -/
def top (f : Frame) : Nat :=
  f.base + 1 + f.code.size

/-- The functions in progress while the instruction at a place is at work. -/
def trace (f : Frame) (place : Nat) : Trace :=
  .script f.code place f.isTail :: f.below

/-- A frame with another value in a register; registers are added where there are too few. -/
def set (f : Frame) (register : Nat) (s : Slot) : Frame :=
  let missing := register + 1 - f.registers.size
  if missing = 0 then { f with registers := f.registers.setIfInBounds register s }
  else
    { f with registers :=
        (f.registers ++ Array.replicate missing (Slot.value .nil)).setIfInBounds register s }

/-- The value of a register. -/
def value (f : Frame) (h : Heap) (register : Nat) : Value :=
  match f.registers[register]? with
  | some (.value v) => v
  | some (.cell n) => h.cell n
  | none => .nil

/-- Ends the sharing of all registers from one on. Each keeps the value that was shared. -/
def unshare (f : Frame) (h : Heap) (first : Nat) : Frame :=
  let free := fun (i : Nat) (s : Slot) =>
    match s with
    | .cell n => if first ≤ i then .value (h.cell n) else s
    | s => s
  { f with registers := f.registers.mapIdx free }

/-- The frame of a function that is called with arguments, in a slot of the stack. -/
def enter (closure : Closure) (entry : Nat) (args : List Value) (isTail : Bool) (below : Trace) :
    Frame :=
  let p := closure.code
  let given := (args.take p.parameters).map Slot.value
  { closure := closure
    registers := (given ++ List.replicate (p.size - given.length) (Slot.value .nil)).toArray
    extra := if p.variadic then args.drop p.parameters else []
    entry := entry
    base := entry
    isTail := isTail
    below := below }

end Frame

/-- A value that is to be closed when its register goes out of use. -/
structure Closing where
  /-- How many frames wait below that of the register. -/
  level : Nat
  register : Nat
  value : Value

/-- Functions that run: the one at work and those that wait for it. -/
structure Machine where
  current : Frame
  waiting : List Frame := []
  /-- How many frames wait. -/
  level : Nat := 0
  /-- The values that are to be closed, the first first. -/
  closing : List Closing := []
  deriving Inhabited

namespace Machine

/-- The value of a register of the function at work. -/
def get (m : Machine) (register : Nat) : Eval Value :=
  fun h => .done (.value (m.current.value h register) h)

def operand (m : Machine) : Operand → Eval Value
  | .register r => m.get r
  | .constant v => return v.value

/-- The values of registers in a row. -/
def row (m : Machine) (first count : Nat) : Eval (List Value) :=
  fun h => .done (.value ((List.range count).map fun n => m.current.value h (first + n)) h)

/-- The values of registers in a row, up to the end of the latest row if no count is given. -/
def rowOf (m : Machine) (first : Nat) (count : Option Nat) : Eval (List Value) :=
  m.row first (count.getD (m.current.rowEnd - first))

/-- Gives a register of the function at work a value. -/
def put (m : Machine) (register : Nat) (v : Value) : Eval Machine :=
  fun h =>
    match m.current.registers[register]? with
    | some (.cell n) => .done (.value m (h.setCell n v))
    | _ => .done (.value { m with current := m.current.set register (.value v) } h)

/-- Gives registers in a row values. -/
def putRow (m : Machine) (first : Nat) : List Value → Eval Machine
  | [] => return m
  | v :: rest => do (← m.put first v).putRow (first + 1) rest

/-- Gives registers in a row results: so many as are wanted, or all of them. -/
def putResults (m : Machine) (first : Nat) (wanted : Option Nat) (vs : List Value) :
    Eval Machine := do
  match wanted with
  | some n => m.putRow first (vs.take n ++ List.replicate (n - vs.length) .nil)
  | none =>
    let m ← m.putRow first vs
    return { m with current := { m.current with rowEnd := first + vs.length } }

/-- Goes on at another place. -/
def goTo (m : Machine) (place : Nat) : Machine :=
  { m with current := { m.current with place := place } }

/-- Leaves the next instruction out. -/
def skip (m : Machine) : Machine :=
  m.goTo (m.current.place + 1)

def unshare (m : Machine) (first : Nat) : Eval Machine :=
  fun h => .done (.value { m with current := m.current.unshare h first } h)

/-- Lets a function run that the one at work waits for. -/
def push (m : Machine) (f : Frame) : Machine :=
  { m with current := f, waiting := m.current :: m.waiting, level := m.level + 1 }

/-- Takes the value that is to be closed first, if it is in a register of the function at work from
one on. -/
def takeClosing? (m : Machine) (first : Nat) : Option (Value × Machine) :=
  match m.closing with
  | x :: rest =>
    if x.level = m.level && first ≤ x.register then some (x.value, { m with closing := rest })
    else none
  | [] => none

/-- What the instruction at a place needs to work. -/
def context (m : Machine) (c : Context) (place : Nat) (names : Nat → Option Named) : Context :=
  let site := { c.site with
    home := m.current.closure.home
    trace := m.current.trace place
    top := m.current.top }
  { c with
    site := site
    describe := fun n => ((names n).map Named.shown).getD [] }

end Machine

end ScriptHost.Script
