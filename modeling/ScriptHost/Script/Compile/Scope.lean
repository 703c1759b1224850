import ScriptHost.Script.Code.Naming
import ScriptHost.Script.Compile.Emit

/-!
# Names in sight

A name is looked for among the declarations of the function it stands in, then of the functions
around; a local variable of such a function becomes an upvalue of all functions between. A name
without a declaration is a field of the globals table, unless some globals are declared and it is not
one of them.
-/
namespace ScriptHost.Script

open Text (Bytes)

/-- What is known of a name that is no variable. -/
inductive GlobalStanding where
  /-- No declaration of globals is in sight. -/
  | free
  /-- Other globals are declared. -/
  | undeclared
  | declared (readOnly : Bool)
  deriving DecidableEq

/-- What a name stands for in a function. -/
inductive Resolved where
  | variable (declaration register : Nat)
  /-- The table of extra arguments. -/
  | arguments (declaration register : Nat)
  | upvalue (index : Nat)
  | known (value : Constant)
  | global (standing : GlobalStanding)

/-- The term for a variable; none for a global. -/
def Resolved.term? (x : Name) : Resolved → Option Term
  | .variable n r => some { form := .variable n r }
  | .arguments n r => some { form := .arguments n r }
  | .upvalue n => some { form := .upvalue n }
  | .known v => some { form := .known x v }
  | .global _ => none

namespace Draft

/-- Looks for a name among the first declarations, the latest first; a global is no find unless its
own name is declared. -/
def search (d : Draft) (x : Name) (standing : GlobalStanding) : Nat → Option Resolved × GlobalStanding
  | 0 => (none, standing)
  | n + 1 =>
    match d.declared[n]? with
    | none => d.search x standing n
    | some v =>
      let readOnly := v.kind == .constantGlobal
      match v.name with
      | none =>
        match standing with
        | .declared _ => d.search x standing n
        | _ => d.search x (.declared readOnly) n
      | some y =>
        if v.kind.isGlobal then
          if x == y then (some (.global (.declared readOnly)), .declared readOnly)
          else d.search x (if standing == .free then .undeclared else standing) n
        else if x == y then
          let found := match v.kind with
            | .known value => .known value
            | .arguments => .arguments n v.register
            | _ => .variable n v.register
          (some found, standing)
        else d.search x standing n

/-- Remembers that a variable is used by another function: its block has to close it. -/
def capture (d : Draft) (declaration : Nat) : Draft :=
  { d with blocks := go d.blocks }
where
  go : List Block → List Block
    | [] => []
    | b :: rest =>
      if b.active ≤ declaration then { b with captured := true } :: rest else b :: go rest

end Draft

namespace Compile

/-- Adds an upvalue to a draft and gives its number. -/
def addUpvalue (d : Draft) (u : Upvalue) : Compile (Nat × Draft) := do
  if upvalueLimit ≤ d.upvalues.size then
    -- the draft may be that of a function around: the message is about that function
    let place := if d.line = 0 then "main function" else s!"function at line {d.line}"
    fail s!"too many upvalues (limit is {upvalueLimit}) in {place}"
  return (d.upvalues.size, { d with upvalues := d.upvalues.push u })

/-- What a name stands for in a draft with the drafts around it, which may change. -/
def resolveIn (x : Name) (standing : GlobalStanding) (d : Draft) (outer : List Draft) :
    Compile (Resolved × Draft × List Draft) := do
  let (found, standing) := d.search x standing d.active
  match found, d.upvalues.findIdx? (·.name == x), outer with
  | some r, _, outer => return (r, d, outer)
  | none, some n, outer => return (.upvalue n, d, outer)
  | none, none, [] => return (.global standing, d, [])
  | none, none, o :: rest => do
    let (r, o, rest) ← resolveIn x standing o rest
    let add := fun (o : Draft) (u : Upvalue) => do
      let (n, d) ← addUpvalue d u
      return (Resolved.upvalue n, d, o :: rest)
    match r with
    | .variable n register =>
      let readOnly := (o.declared[n]?.map (·.kind != .plain)).getD false
      add (o.capture n) ⟨x, true, register, readOnly⟩
    | .arguments n register =>
      add { o.capture n with keepsTable := true } ⟨x, true, register, true⟩
    | .upvalue n => add o ⟨x, false, n, (o.upvalues[n]?.map Upvalue.readOnly).getD false⟩
    | r => return (r, d, o :: rest)
termination_by structural outer

/-- What a name stands for. -/
def resolve (x : Name) : Compile Resolved := do
  let c ← get
  let (r, d, outer) ← resolveIn x .free c.draft c.outer
  modify fun c => { c with draft := d, outer := outer }
  return r

/-- The global of a name. -/
def globalTerm (x : Name) : Compile Term := do
  match (← resolve globalsName).term? globalsName with
  | none =>
    refuse (globalsName ++ ascii " is global when accessing variable " ++ quoted x)
  | some t => indexed (← toAnyOrUpvalue t) { form := .constant (.text x) }

/-- The variable of a name. -/
def variableTerm (x : Name) : Compile Term := do
  match ← resolve x with
  | .global .undeclared => refuse (ascii "variable " ++ quoted x ++ ascii " not declared")
  | .global (.declared true) => return { ← globalTerm x with readOnly := some x }
  | .global _ => globalTerm x
  | r => return (r.term? x).getD { form := .none }

/-- Refuses to assign to what may not change. -/
def checkAssignable (t : Term) : Compile Unit := do
  let name? ← match t.form with
    | .known x _ => pure (some x)
    | .variable n _ | .arguments n _ => do
      let v ← declaration n
      pure (if v.kind == .plain then none else v.name)
    | .upvalue n => do
      match (← draft).upvalues[n]? with
      | some u => pure (if u.readOnly then some u.name else none)
      | none => pure none
    | .argument .. => do
      keepTable
      pure t.readOnly
    | _ => pure t.readOnly
  match name? with
  | some x => refuse (ascii "attempt to assign to const variable " ++ quoted x)
  | none => return

/-! ### Declarations -/

/-- Declares a name, which is not in sight yet. Gives the number of the declaration. -/
def declare (x : Option Name) (kind : DeclarationKind) : Compile Nat :=
  modifyGet fun c => (c.draft.declared.size, { c with draft := { c.draft with
    declared := c.draft.declared.push { name := x, kind := kind } } })

/-- Declares a local variable. -/
def declareLocal (x : Name) : Compile Unit := discard (declare (some x) .plain)

/-- Brings declared local variables into sight, each in the next register. -/
def activate : Nat → Compile Unit
  | 0 => return
  | n + 1 => do
    let d ← draft
    let register := d.level
    modifyDraft fun d => { d with
      spans := d.spans.push
        ⟨((d.declared[d.active]?).bind Declaration.name).getD [], d.code.size, 0⟩
      declared := d.declared.modify d.active fun v =>
        { v with register := register, span := d.spans.size }
      active := d.active + 1 }
    checkLimit (register + 1) localLimit "local variables"
    activate n

/-- Brings declarations without registers into sight. -/
def activatePlain (count : Nat) : Compile Unit :=
  modifyDraft fun d => { d with active := d.active + count }

/-- Takes the declarations after the first ones out of sight. -/
def retire (active : Nat) : Compile Unit :=
  modifyDraft fun d =>
    let leaving := d.declared.toList.drop active |>.take (d.active - active)
    let stop := fun (spans : Array VariableSpan) (v : Declaration) =>
      if v.kind.inRegister then spans.modify v.span fun s => { s with stop := d.code.size }
      else spans
    { d with
      spans := leaving.foldl stop d.spans
      declared := d.declared.extract 0 (d.declared.size - (d.active - active))
      active := active }

/-! ### Blocks -/

def modifyBlock (f : Block → Block) : Compile Unit :=
  modifyDraft fun d => { d with blocks := match d.blocks with
    | b :: rest => f b :: rest
    | [] => [] }

def block : Compile Block := return (← draft).blocks.headD default

def openBlock (isLoop : Bool) : Compile Unit :=
  modifyDraft fun d => { d with blocks :=
    { isLoop := isLoop
      active := d.active
      firstLabel := d.labels.size
      firstJump := d.jumps.size
      insideClosed := (d.blocks.head?.map Block.insideClosed).getD false } :: d.blocks }

/-- Sends a jump to a label. It closes variables that are out of sight there. -/
def solveJump (levels : Draft) (m target : Mark) (captured : Bool) : Compile Unit := do
  if m.active < target.active then
    let x := ((levels.declared[m.active]?).bind Declaration.name).getD (ascii "*")
    refuse (ascii "<goto " ++ m.name ++ ascii s!"> at line {m.line} jumps into the scope of "
      ++ quoted x)
  let close := if m.closes || (target.active < m.active && captured) then
      some (levels.levelOf target.active)
    else none
  change m.place fun _ => .jump target.place close

/-- Puts a label at the next instruction. -/
def addLabel (x : Name) (line active : Nat) : Compile Unit := do
  let place ← label
  modifyDraft fun d => { d with labels := d.labels.push ⟨x, line, place, active, false⟩ }

/-- Appends a jump to a label that may come later. -/
def addJump (x : Name) (line : Nat) : Compile Unit := do
  let place ← jump
  modifyDraft fun d => { d with jumps := d.jumps.push ⟨x, line, place, d.active, false⟩ }

/-- The name of the label that `break` jumps to. -/
def breakName : Name := ascii "break"

/-- Closes the innermost block: its variables go out of sight, and jumps to its labels are solved. -/
def closeBlock : Compile Unit := do
  let d ← draft
  let b ← block
  let isOutermost := d.blocks.length ≤ 1
  let level := d.levelOf b.active
  if !isOutermost && b.captured then write (.close level)
  modifyDraft fun d => { d with free := level }
  retire b.active
  if b.hasBreak then addLabel breakName 0 b.active
  let e ← draft
  let labels := e.labels.toList.drop b.firstLabel
  let settle := fun (m : Mark) => do
    match labels.find? (·.name == m.name) with
    | some target =>
      solveJump d m target b.captured
      return none
    | none =>
      let leaves := level < d.levelOf m.active
      return some { m with active := b.active, closes := m.closes || (b.captured && leaves) }
  let pending ← (e.jumps.toList.drop b.firstJump).filterMapM settle
  if isOutermost then
    match pending with
    | m :: _ =>
      refuse (ascii "no visible label " ++ quoted m.name
        ++ ascii s!" for <goto> at line {m.line}")
    | [] => pure ()
  modifyDraft fun d => { d with
    labels := d.labels.extract 0 b.firstLabel
    jumps := d.jumps.extract 0 b.firstJump ++ pending.toArray
    blocks := d.blocks.tail }

/-- Remembers that a value is to be closed when the innermost block is left. -/
def markClosed : Compile Unit :=
  modifyBlock fun b => { b with captured := true, insideClosed := true }

/-! ### Functions -/

/-- Begins a function on a line. -/
def openFunction (line : Nat) : Compile Unit := do
  modify fun c => { c with draft := { line := line }, outer := c.draft :: c.outer }
  openBlock false

/-- Lets a function keep extra arguments. -/
def makeVariadic : Compile Unit := do
  modifyDraft fun d => { d with variadic := true }
  write .varargPrepare

/-- Appends the end of a function with values from a register on. -/
def writeReturn (first : Nat) (count : Option Nat) : Compile Unit := do
  checkLimit ((count.getD 0) + 1) registerLimit "returns"
  write (.ret first count)

/-- Where a chain of jumps ends that begins at a place. -/
def finalTarget (code : Array Instruction) (place : Nat) : Nat → Nat
  | 0 => place
  | n + 1 =>
    match code[place]? with
    | some (.jump target none) => finalTarget code target n
    | _ => place

/-- A finished instruction: a jump to a jump goes where that one goes, and single extra arguments
come from the table if there is one. -/
def finishInstruction (d : Draft) (i : Instruction) : Instruction :=
  match i with
  | .jump target close => .jump (finalTarget d.code target 100) close
  | .vararg dest source key => if d.keepsTable then .getIndex dest source key else i
  | i => i

/-- The function that a draft is of. -/
def finish (chunk : Bytes) (d : Draft) : Prototype where
  chunk := chunk
  parameters := d.parameters
  variadic := d.variadic
  keepsTable := d.keepsTable
  size := d.size
  code := d.code.map (finishInstruction d)
  lines := d.lines
  spans := d.spans
  upvalues := d.upvalues
  inner := d.inner

/-- Ends the innermost function. -/
def closeFunction : Compile Prototype := do
  writeReturn (← level) (some 0)
  closeBlock
  return finish (← get).chunk (← draft)

end Compile

end ScriptHost.Script
