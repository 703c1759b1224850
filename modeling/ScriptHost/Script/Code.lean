import ScriptHost.Script.Value

/-!
# Code

What a script is turned into before it runs: functions as rows of instructions on registers. Each
instruction keeps the line it was written on, and each local variable the instructions it is in
sight of, so that a failure can be told in the words of the script.
-/
namespace ScriptHost.Script

open Text (Bytes)
open Number (Binary64)

/-- How many runs of functions and levels of reading may wait for one another. -/
def depthLimit : Nat := 200

/-- What a script can write out as a value. -/
inductive Constant where
  | nil
  | bool (value : Bool)
  | int (value : Int64)
  | float (value : Binary64)
  | text (value : Bytes)
  deriving DecidableEq, Repr

namespace Constant

def value : Constant → Value
  | .nil => .nil
  | .bool b => .bool b
  | .int i => .int i
  | .float x => .float x
  | .text s => .text s

def ofNumeral : Numeral → Constant
  | .int i => .int i
  | .float x => .float x

/-- The number a constant is. -/
def numeral? (c : Constant) : Option Numeral :=
  c.value.numeral?

/-- Whether conditions accept a constant. -/
def truthy (c : Constant) : Bool :=
  c.value.truthy

end Constant

/-- What an operator works on: a register, or a constant of the script. -/
inductive Operand where
  | register (place : Nat)
  | constant (value : Constant)
  deriving DecidableEq, Repr

/-- An instruction. A number of values that is `none` means all values there are. -/
inductive Instruction where
  | move (dest source : Nat)
  | load (dest : Nat) (value : Constant)
  | loadNil (first count : Nat)
  /-- Loads false and goes on after the next instruction. -/
  | loadFalseSkip (dest : Nat)
  | getUpvalue (dest upvalue : Nat)
  | setUpvalue (source upvalue : Nat)
  | getUpvalueField (dest upvalue : Nat) (key : Bytes)
  | getIndex (dest object key : Nat)
  | getInteger (dest object key : Nat)
  | getField (dest object : Nat) (key : Bytes)
  | setUpvalueField (upvalue : Nat) (key : Bytes) (value : Operand)
  | setIndex (object key : Nat) (value : Operand)
  | setInteger (object key : Nat) (value : Operand)
  | setField (object : Nat) (key : Bytes) (value : Operand)
  /-- Makes a table with room for values in a row and for pairs. -/
  | newTable (dest items pairs : Nat)
  /-- Loads a method into a register and its object into the next. -/
  | method (dest object : Nat) (key : Bytes)
  | arith (op : ArithOp) (dest : Nat) (left right : Operand)
  | unary (op : UnaryOp) (dest operand : Nat)
  /-- Joins the values of registers in a row, into the first of them. -/
  | concat (first count : Nat)
  /-- Closes the variables from a register on. -/
  | close (first : Nat)
  /-- From here on, the value of the register is to be closed. -/
  | toClose (register : Nat)
  /-- Goes on at a place, after closing the variables from a register on. -/
  | jump (target : Nat) (close : Option Nat)
  /-- Goes on after the next instruction unless the comparison comes out as expected. -/
  | compare (op : CompareOp) (left right : Operand) (expected : Bool)
  | test (register : Nat) (expected : Bool)
  /-- Like `test`; a value that is as expected is also copied. -/
  | testSet (dest source : Nat) (expected : Bool)
  /-- Calls the value of a register with those of the next ones; the results go the same way. -/
  | call (base : Nat) (args results : Option Nat)
  | tailCall (base : Nat) (args : Option Nat)
  | ret (first : Nat) (count : Option Nat)
  | countPrepare (base target : Nat)
  | countLoop (base target : Nat)
  | eachPrepare (base target : Nat)
  | eachCall (base count : Nat)
  | eachLoop (base target : Nat)
  /-- Gives a table the values of the registers after it, for the whole numbers after `skip`. -/
  | setList (table : Nat) (count : Option Nat) (skip : Nat)
  | closure (dest index : Nat)
  /-- Copies extra arguments. -/
  | varargs (dest : Nat) (count : Option Nat)
  /-- Loads one extra argument by its key in a table of them. -/
  | vararg (dest source key : Nat)
  /-- Begins a function with extra arguments. -/
  | varargPrepare
  /-- Fails unless the value of a register is nil: a global of that name must be new. -/
  | checkNew (register : Nat) (name : Name)
  deriving DecidableEq, Repr

namespace Instruction

/-- Whether the instruction after this one may be left out. -/
def isTest : Instruction → Bool
  | compare .. | test .. | testSet .. => true
  | _ => false

/-- Whether an instruction gives a register a value. -/
def sets (register : Nat) : Instruction → Bool
  | move d _ | load d _ | loadFalseSkip d | getUpvalue d _ | getUpvalueField d _ _
  | getIndex d _ _ | getInteger d _ _ | getField d _ _ | newTable d _ _ | method d _ _
  | arith _ d _ _ | unary _ d _ | concat d _ | testSet d _ _ | countPrepare d _ | countLoop d _
  | eachLoop d _ | closure d _ | varargs d _ | vararg d _ _ => d == register
  | varargPrepare => register == 0
  | loadNil first count => first ≤ register && register < first + count
  | eachCall base _ => base + 2 ≤ register
  | call base _ _ | tailCall base _ => base ≤ register
  | _ => false

/-- The instruction with another destination, where it has one that can still be chosen. -/
def withDest (dest : Nat) : Instruction → Instruction
  | getUpvalue _ u => getUpvalue dest u
  | getUpvalueField _ u k => getUpvalueField dest u k
  | getIndex _ t k => getIndex dest t k
  | getInteger _ t k => getInteger dest t k
  | getField _ t k => getField dest t k
  | arith op _ l r => arith op dest l r
  | unary op _ r => unary op dest r
  | closure _ i => closure dest i
  | varargs _ n => varargs dest n
  | vararg _ s k => vararg dest s k
  | i => i

/-- The call or the extra arguments with another number of results. -/
def withResults (count : Option Nat) : Instruction → Instruction
  | call b args _ => call b args count
  | varargs d _ => varargs d count
  | i => i

/-- The jump with another target. -/
def withTarget (target : Nat) : Instruction → Instruction
  | jump _ c => jump target c
  | countPrepare b _ => countPrepare b target
  | countLoop b _ => countLoop b target
  | eachPrepare b _ => eachPrepare b target
  | eachLoop b _ => eachLoop b target
  | i => i

end Instruction

/-- A local variable, and the instructions it is in sight of: from `start` to before `stop`. -/
structure VariableSpan where
  name : Name
  start : Nat
  stop : Nat
  deriving Repr, Inhabited

/-- A variable of a function around that a function uses. -/
structure Upvalue where
  name : Name
  /-- Whether it is a register of the function right around, and not one of its own upvalues. -/
  inRegister : Bool
  index : Nat
  readOnly : Bool
  deriving Repr, Inhabited

/-- A function as written. -/
structure Prototype where
  /-- How messages name the text the function is from. -/
  chunk : Bytes
  /-- The number of parameters, extra arguments aside. -/
  parameters : Nat
  variadic : Bool
  /-- Whether the extra arguments are kept in a table, in the register after the parameters. -/
  keepsTable : Bool
  /-- How many registers the function needs. -/
  size : Nat
  code : Array Instruction
  lines : Array Nat
  spans : Array VariableSpan
  upvalues : Array Upvalue
  inner : Array Prototype
  deriving Inhabited

namespace Prototype

/-- The line of an instruction. -/
def lineAt (p : Prototype) (place : Nat) : Nat :=
  p.lines[place]?.getD 0

def upvalueName (p : Prototype) (index : Nat) : Name :=
  match p.upvalues[index]? with
  | some u => u.name
  | none => Text.encode "?"

end Prototype

end ScriptHost.Script
