import ScriptHost.Script.Code
import ScriptHost.Script.Token

/-!
# Functions being compiled

A script is compiled while it is read, so a compiler holds the tokens that are left and a draft for
each function that is open. A draft has the instructions so far, the declarations in sight and the
blocks that are open; what was read of an expression is a `Term`, which has a value before that value
has a register.
-/
namespace ScriptHost.Script

open Text (Bytes)

/-- Why and where a text is not a script. -/
structure SyntaxFault where
  /-- The line, unless the fault has no place. -/
  line : Option Nat
  text : Bytes
  deriving DecidableEq

/-- The message for a text that is not a script. -/
def SyntaxFault.message (chunk : Bytes) (f : SyntaxFault) : Bytes :=
  match f.line with
  | some n => chunk ++ Text.encode s!":{n}: " ++ f.text
  | none => f.text

/-- What a declaration makes of a name. -/
inductive DeclarationKind where
  | plain
  /-- A variable that keeps its first value. -/
  | constant
  /-- The extra arguments as a table. -/
  | arguments
  /-- A variable whose value is closed when it goes out of sight. -/
  | closed
  /-- A constant whose value is known at once; it needs no register. -/
  | known (value : Constant)
  | global
  /-- A global that may not change. -/
  | constantGlobal
  deriving DecidableEq, Repr, Inhabited

namespace DeclarationKind

/-- Whether the declaration takes a register. -/
def inRegister : DeclarationKind → Bool
  | plain | constant | arguments | closed => true
  | _ => false

def isGlobal : DeclarationKind → Bool
  | global | constantGlobal => true
  | _ => false

end DeclarationKind

/-- A declaration: a local variable, or a global. -/
structure Declaration where
  /-- The name; all names at once if there is none. -/
  name : Option Name
  kind : DeclarationKind
  register : Nat := 0
  /-- The number of its span among the variables of the function. -/
  span : Nat := 0
  deriving Inhabited

/-- A block of statements that is open. -/
structure Block where
  isLoop : Bool
  /-- Whether a statement of the loop leaves it. -/
  hasBreak : Bool := false
  /-- The declarations in sight before the block. -/
  active : Nat
  firstLabel : Nat
  firstJump : Nat
  /-- Whether a variable of the block has to be closed. -/
  captured : Bool := false
  /-- Whether a value is to be closed when the block is left. -/
  insideClosed : Bool
  deriving Inhabited

/-- A place in the code with a name, or a jump to such a place. -/
structure Mark where
  name : Name
  line : Nat
  place : Nat
  /-- The declarations in sight there. -/
  active : Nat
  /-- Whether the jump leaves a block with variables to be closed. -/
  closes : Bool := false

/-- A function being compiled. -/
structure Draft where
  /-- The line it begins on, zero for the whole script. -/
  line : Nat
  code : Array Instruction := #[]
  lines : Array Nat := #[]
  constants : Array Constant := #[]
  inner : Array Prototype := #[]
  upvalues : Array Upvalue := #[]
  spans : Array VariableSpan := #[]
  declared : Array Declaration := #[]
  /-- How many of the declarations are in sight; the others are about to be. -/
  active : Nat := 0
  /-- The open blocks, the innermost first. -/
  blocks : List Block := []
  labels : Array Mark := #[]
  jumps : Array Mark := #[]
  /-- The latest place that something jumps to. -/
  target : Nat := 0
  /-- The first free register. -/
  free : Nat := 0
  size : Nat := 2
  parameters : Nat := 0
  variadic : Bool := false
  keepsTable : Bool := false
  deriving Inhabited

/-- The first register after those of the first declarations. -/
def Draft.levelOf (d : Draft) : Nat → Nat
  | 0 => 0
  | n + 1 =>
    match d.declared[n]? with
    | some v => if v.kind.inRegister then v.register + 1 else d.levelOf n
    | none => d.levelOf n

/-- The first register after those of the variables in sight. -/
def Draft.level (d : Draft) : Nat :=
  d.levelOf d.active

/-- How the value of an expression can be had. -/
inductive Form where
  /-- Not at all: there is no expression. -/
  | none
  | constant (value : Constant)
  /-- It is in a register. -/
  | register (place : Nat)
  /-- It is that of a local variable, the declaration of this number. -/
  | variable (declaration register : Nat)
  /-- It is the table of extra arguments, which need not exist. -/
  | arguments (declaration register : Nat)
  | upvalue (index : Nat)
  /-- It is that of a constant with a name. -/
  | known (name : Name) (value : Constant)
  | index (object key : Nat)
  | argument (table key : Nat)
  | upvalueField (upvalue : Nat) (key : Bytes)
  | integer (object key : Nat)
  | field (object : Nat) (key : Bytes)
  /-- The jump at the place is made if it is true. -/
  | jump (place : Nat)
  /-- The instruction at the place gives it to any register. -/
  | result (place : Nat)
  | call (place : Nat)
  | varargs (place : Nat)
  deriving DecidableEq

/-- An expression that was read. -/
structure Term where
  form : Form
  /-- The jumps that leave the expression when it is true. -/
  whenTrue : List Nat := []
  /-- The jumps that leave the expression when it is false. -/
  whenFalse : List Nat := []
  /-- The name of the global that it is, if that may not change. -/
  readOnly : Option Name := .none

namespace Term

def hasJumps (t : Term) : Bool :=
  !(t.whenTrue.isEmpty && t.whenFalse.isEmpty)

/-- A number that is written out. -/
def numeral? (t : Term) : Option Numeral :=
  match t.form with
  | .constant v => if t.hasJumps then .none else v.numeral?
  | _ => .none

/-- A whole number that is written out. -/
def int? (t : Term) : Option Int64 :=
  match t.numeral? with
  | some (.int i) => some i
  | _ => .none

/-- A number small enough to be part of an instruction. -/
def isSmall (i : Int64) : Bool :=
  -127 ≤ i.toInt && i.toInt ≤ 128

/-- A small whole number. -/
def smallInt? (t : Term) : Option Int64 :=
  t.int?.filter isSmall

/-- The value of a small number that is whole. -/
def smallNumber? (t : Term) : Option Constant :=
  match t.numeral? with
  | some n => if (n.toInt?.filter isSmall).isSome then some (.ofNumeral n) else .none
  | .none => .none

/-- Whether the expression may have any number of values. -/
def isMulti (t : Term) : Bool :=
  match t.form with
  | .call _ | .varargs _ => true
  | _ => false

/-- Whether the expression is a part of another value. -/
def isIndexed (t : Term) : Bool :=
  match t.form with
  | .index .. | .argument .. | .upvalueField .. | .integer .. | .field .. => true
  | _ => false

/-- Whether something can be assigned to the expression. -/
def isPlace (t : Term) : Bool :=
  match t.form with
  | .variable .. | .arguments .. | .upvalue .. | .known .. => true
  | _ => t.isIndexed

end Term

/-- A compiler at work. -/
structure Compiler where
  chunk : Bytes
  /-- The token in front and those after it. -/
  rest : List Lexeme
  /-- The line that reading has come to. -/
  line : Nat
  /-- The line of the token read last. -/
  last : Nat
  /-- How deep the reading nests. -/
  depth : Nat
  draft : Draft
  /-- The functions around, the innermost first. -/
  outer : List Draft

/-- A step of compiling. -/
abbrev Compile := StateT Compiler (Except SyntaxFault)

namespace Compile

variable {α : Type}

/-! ### Limits -/

/-- How many local variables of a function may be in sight at once. -/
def localLimit : Nat := 200

/-- How many registers a function may have. -/
def registerLimit : Nat := 255

/-- How many variables of other functions a function may use. -/
def upvalueLimit : Nat := 255

/-- How many constants of a function an instruction can name. -/
def constantLimit : Nat := 256

/-- How long a constant key of an instruction may be. -/
def keyLimit : Nat := 40

/-! ### Tokens -/

/-- The token in front. -/
def front : Compile Lexeme := do
  let c ← get
  return c.rest.headD ⟨.ended, endShown, c.line⟩

def token : Compile Token := return (← front).token

/-- The line that reading has come to. -/
def line : Compile Nat := return (← get).line

/-- A fault at the token in front, which is shown unless it is a zero byte. -/
def fail (message : String) : Compile α := do
  let t ← front
  throw ⟨some (← line), if t.token == .stray 0 then ascii message else nearText message t.shown⟩

/-- A fault of what has been read, on the line of the token read last. -/
def refuse (message : Bytes) : Compile α := do
  throw ⟨some (← get).last, message⟩

/-- Comes to a token, which may be a fault of its own. -/
def meet (t : Lexeme) : Compile Unit := do
  modify fun c => { c with line := t.line }
  match t.token with
  | .bad fault => throw ⟨some t.line, fault⟩
  | _ => return

/-- Goes on to the next token. -/
def advance : Compile Unit := do
  modify fun c => { c with
    rest := match c.rest with
      | _ :: next :: rest => next :: rest
      | rest => rest
    last := c.line }
  meet (← front)

/-- The token after the one in front. -/
def lookAhead : Compile Token := do
  match (← get).rest with
  | _ :: next :: _ =>
    meet next
    return next.token
  | _ => return .ended

/-- Whether a mark is in front. -/
def atMark (m : String) : Compile Bool :=
  return (← token) == .mark m

/-- Reads a mark if it is in front. -/
def accept (m : String) : Compile Bool := do
  if ← atMark m then
    advance
    return true
  else return false

/-- Refuses any token but a mark. -/
def check (m : String) : Compile Unit := do
  unless ← atMark m do fail s!"'{m}' expected"

def expect (m : String) : Compile Unit := do
  check m
  advance

/-- Reads the mark that closes what `opener` opened on a line. -/
def expectClosing (m opener : String) (opened : Nat) : Compile Unit := do
  unless ← accept m do
    if opened == (← line) then fail s!"'{m}' expected"
    else fail s!"'{m}' expected (to close '{opener}' at line {opened})"

def name : Compile Name := do
  match ← token with
  | .name x =>
    advance
    return x
  | _ => fail "<name> expected"

/-- Repeats a step until it gives a result; each repetition reads a token, so the tokens left
bound it. -/
def repeating {σ : Type} (step : σ → Compile (σ ⊕ α)) (start : σ) : Compile α := do
  go ((← get).rest.length + 1) start
where
  go : Nat → σ → Compile α
    | 0, _ => fail "unexpected symbol"
    | n + 1, s => do
      match ← step s with
      | .inl s => go n s
      | .inr a => return a

/-- Goes one level deeper. -/
def enter : Compile Unit := do
  modify fun c => { c with depth := c.depth + 1 }
  if depthLimit ≤ (← get).depth then throw ⟨none, ascii "C stack overflow"⟩

/-- Reads one level deeper. -/
def deeper (m : Compile α) : Compile α := do
  enter
  let a ← m
  modify fun c => { c with depth := c.depth - 1 }
  return a

/-! ### The draft -/

def draft : Compile Draft := return (← get).draft

@[inline] def modifyDraft (f : Draft → Draft) : Compile Unit :=
  modify fun c => { c with draft := f c.draft }

/-- Refuses more of something than a function may have. -/
def checkLimit (count limit : Nat) (what : String) : Compile Unit := do
  if limit < count then
    let line := (← draft).line
    let place := if line = 0 then "main function" else s!"function at line {line}"
    fail s!"too many {what} (limit is {limit}) in {place}"

/-- The first register after those of the variables in sight. -/
def level : Compile Nat := return (← draft).level

/-- The declaration of a number. -/
def declaration (index : Nat) : Compile Declaration :=
  return ((← draft).declared[index]?).getD default

end Compile

end ScriptHost.Script
