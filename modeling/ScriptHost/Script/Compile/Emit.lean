import ScriptHost.Script.Arith
import ScriptHost.Script.Compile.Draft

/-!
# Writing instructions

How terms get values: registers are taken and given back like a stack, a value goes to a register as
late as it can, and the jumps of conditions are kept in lists until their targets are known. An
instruction is on the line of the token read last when it is written, so that the part of an
expression that is written late is also reported late.
-/
namespace ScriptHost.Script.Compile

open Text (Bytes)
open Number (Binary64)

/-! ### Instructions -/

/-- Appends an instruction and gives its place. -/
def emit (i : Instruction) : Compile Nat :=
  modifyGet fun c => (c.draft.code.size, { c with draft := { c.draft with
    code := c.draft.code.push i
    lines := c.draft.lines.push c.last } })

/-- Appends an instruction. -/
def write (i : Instruction) : Compile Unit := discard (emit i)

/-- Moves the latest instruction to another line. -/
def fixLine (line : Nat) : Compile Unit :=
  modifyDraft fun d => { d with lines := d.lines.setIfInBounds (d.lines.size - 1) line }

/-- The instruction at a place. -/
def instruction? (place : Nat) : Compile (Option Instruction) :=
  return (← draft).code[place]?

/-- Changes the instruction at a place. -/
def change (place : Nat) (f : Instruction → Instruction) : Compile Unit :=
  modifyDraft fun d => { d with code := d.code.modify place f }

/-- The place of the next instruction. -/
def here : Compile Nat := return (← draft).code.size

/-- The place of the next instruction, which something is going to jump to. -/
def label : Compile Nat := do
  modifyDraft fun d => { d with target := d.code.size }
  here

/-- The latest instruction, unless something jumps to the next. -/
def latest? : Compile (Option Instruction) := do
  let d ← draft
  return if d.target < d.code.size then d.code[d.code.size - 1]? else none

/-! ### Registers -/

/-- Makes sure that there are more registers. -/
def need (count : Nat) : Compile Unit := do
  let size := (← draft).free + count
  if (← draft).size < size then
    checkLimit size registerLimit "registers"
    modifyDraft fun d => { d with size := size }

/-- Takes registers. -/
def reserve (count : Nat) : Compile Unit := do
  need count
  modifyDraft fun d => { d with free := d.free + count }

/-- Takes one register. -/
def newRegister : Compile Nat := do
  reserve 1
  return (← draft).free - 1

/-- Gives a register back unless a variable has it. -/
def freeRegister (register : Nat) : Compile Unit := do
  if (← level) ≤ register then modifyDraft fun d => { d with free := d.free - 1 }

/-- Gives back the register of a term. -/
def free (t : Term) : Compile Unit :=
  match t.form with
  | .register r => freeRegister r
  | _ => return

/-- Gives back two registers. -/
def freeBoth (a b : Term) : Compile Unit := do
  free a
  free b

/-! ### Constants -/

/-- The number of a constant of the function. -/
def constantIndex (v : Constant) : Compile Nat := do
  match (← draft).constants.idxOf? v with
  | some n => return n
  | none => modifyGet fun c => (c.draft.constants.size, { c with draft := { c.draft with
      constants := c.draft.constants.push v } })

/-- The value of a term that can be a constant of an instruction. -/
def asConstant? (t : Term) : Compile (Option Constant) := do
  match t.form with
  | .constant v =>
    if t.hasJumps then return none
    return if (← constantIndex v) < constantLimit then some v else none
  | _ => return none

/-- A number that an instruction can load without naming a constant. -/
def isImmediate (n : Numeral) : Bool :=
  match n.toInt? with
  | some i => -65535 ≤ i.toInt && i.toInt ≤ 65536
  | none => false

/-! ### Jumps -/

/-- Appends a jump whose target is not known yet. -/
def jump : Compile Nat := emit (.jump 0 none)

/-- Appends a test and the jump it decides on. -/
def testJump (test : Instruction) : Compile Nat := do
  write test
  jump

/-- The place of the instruction that decides whether a jump is made. -/
def control (place : Nat) : Compile Nat := do
  if place = 0 then return 0
  match ← instruction? (place - 1) with
  | some i => return if i.isTest then place - 1 else place
  | none => return place

/-- Lets the test of a jump copy its value to a register, or to none; tells whether it can. -/
def redirectTest (place : Nat) (register : Option Nat) : Compile Bool := do
  let n ← control place
  match ← instruction? n with
  | some (.testSet _ source expected) =>
    match register with
    | some r =>
      change n fun _ => if r = source then .test source expected else .testSet r source expected
    | none => change n fun _ => .test source expected
    return true
  | _ => return false

/-- Sends jumps to a place; those that copy a value copy it to a register, and the others may go
elsewhere. -/
def sendJumps (jumps : List Nat) (target : Nat) (register : Option Nat) (other : Nat) :
    Compile Unit :=
  jumps.forM fun n => do
    let copies ← redirectTest n register
    change n (·.withTarget (if copies then target else other))

/-- Sends jumps to a place. -/
def patchTo (target : Nat) (jumps : List Nat) : Compile Unit :=
  sendJumps jumps target none target

/-- Sends jumps to the next instruction. -/
def patchHere (jumps : List Nat) : Compile Unit := do
  patchTo (← label) jumps

/-- Whether some jump does not bring the value of the expression along. -/
def needsValue (jumps : List Nat) : Compile Bool :=
  jumps.anyM fun n => do
    match ← instruction? (← control n) with
    | some (.testSet ..) => return false
    | _ => return true

/-! ### Values -/

/-- Sets registers to nil. -/
def loadNil (first count : Nat) : Compile Unit := do
  match ← latest? with
  | some (.loadNil first' count') =>
    if first' ≤ first + count && first ≤ first' + count' then
      let start := min first first'
      let stop := max (first + count) (first' + count')
      change ((← here) - 1) fun _ => .loadNil start (stop - start)
    else write (.loadNil first count)
  | _ => write (.loadNil first count)

/-- Gives a call or extra arguments a number of results. -/
def setResults (t : Term) (count : Option Nat) : Compile Unit := do
  checkLimit ((count.getD 0) + 1) registerLimit "multiple results"
  match t.form with
  | .call n => change n (·.withResults count)
  | .varargs n =>
    let r := (← draft).free
    change n fun i => (i.withResults count).withDest r
    reserve 1
  | _ => return

/-- Leaves a term one value. -/
def single (t : Term) : Compile Term := do
  match t.form with
  | .call n =>
    match ← instruction? n with
    | some (.call base _ _) => return { t with form := .register base }
    | _ => return t
  | .varargs n =>
    change n (·.withResults (some 1))
    return { t with form := .result n }
  | _ => return t

/-- Makes a variable of the table of extra arguments, which then has to exist. -/
def keepTable : Compile Unit :=
  modifyDraft fun d => { d with keepsTable := true }

/-- Reads the variable that a term is. -/
def discharge (t : Term) : Compile Term := do
  let result := fun (i : Instruction) => do
    return { t with form := .result (← emit i) }
  match t.form with
  | .known _ v => return { t with form := .constant v }
  | .variable _ r => return { t with form := .register r }
  | .arguments _ r =>
    keepTable
    return { t with form := .register r }
  | .upvalue u => result (.getUpvalue 0 u)
  | .upvalueField u k => result (.getUpvalueField 0 u k)
  | .integer o k =>
    freeRegister o
    result (.getInteger 0 o k)
  | .field o k =>
    freeRegister o
    result (.getField 0 o k)
  | .index o k =>
    freeRegister o
    freeRegister k
    result (.getIndex 0 o k)
  | .argument o k =>
    freeRegister o
    freeRegister k
    result (.vararg 0 o k)
  | .call _ | .varargs _ => single t
  | _ => return t

/-- Brings the value of a term to a register; that of a condition stays where it is. -/
def dischargeTo (register : Nat) (t : Term) : Compile Term := do
  let t ← discharge t
  let moved : Term := { t with form := .register register }
  match t.form with
  | .constant .nil =>
    loadNil register 1
    return moved
  | .constant v =>
    match v with
    | .text _ => discard (constantIndex v)
    | .int _ | .float _ =>
      if !((v.numeral?.map isImmediate).getD false) then discard (constantIndex v)
    | _ => pure ()
    write (.load register v)
    return moved
  | .result n =>
    change n (·.withDest register)
    return moved
  | .register r =>
    if r ≠ register then write (.move register r)
    return moved
  | _ => return t

/-- Brings a term to a register with all its jumps. -/
def toRegister (register : Nat) (t : Term) : Compile Term := do
  let t ← dischargeTo register t
  let ends := match t.form with
    | .jump n => t.whenTrue ++ [n]
    | _ => t.whenTrue
  if !(ends.isEmpty && t.whenFalse.isEmpty) then
    let (no, yes) ←
      if (← needsValue ends) || (← needsValue t.whenFalse) then do
        let around ← match t.form with
          | .jump _ => pure []
          | _ => do pure [← jump]
        let no ← label
        write (.loadFalseSkip register)
        let yes ← label
        write (.load register (.bool true))
        patchHere around
        pure (no, yes)
      else pure (0, 0)
    let final ← label
    sendJumps t.whenFalse final (some register) no
    sendJumps ends final (some register) yes
  return { t with form := .register register, whenTrue := [], whenFalse := [] }

/-- Brings a term to the next register. -/
def toNext (t : Term) : Compile Term := do
  let t ← discharge t
  free t
  let r ← newRegister
  toRegister r t

/-- Brings a term to any register. -/
def toAny (t : Term) : Compile (Nat × Term) := do
  let t ← discharge t
  let next := do
    let t ← toNext t
    match t.form with
    | .register r => return (r, t)
    | _ => return (0, t)
  match t.form with
  | .register r =>
    if !t.hasJumps then return (r, t)
    else if (← level) ≤ r then return (r, ← toRegister r t)
    else next
  | _ => next

/-- Brings a term to any register, unless it is a variable around that can be indexed as it is. -/
def toAnyOrUpvalue (t : Term) : Compile Term := do
  match t.form with
  | .upvalue _ | .arguments .. =>
    if t.hasJumps then return (← toAny t).2 else return t
  | _ => return (← toAny t).2

/-- Gives a term a value that does not depend on jumps. -/
def toValue (t : Term) : Compile Term := do
  match t.form with
  | .jump _ => return (← toAny t).2
  | _ => if t.hasJumps then return (← toAny t).2 else discharge t

/-- A term as an operand: a constant, or a register. -/
def toOperand (t : Term) : Compile (Operand × Term) := do
  match ← asConstant? t with
  | some v => return (.constant v, t)
  | none =>
    let (r, t) ← toAny t
    return (.register r, t)

/-- The part of a term that a key stands for. -/
def indexed (t key : Term) : Compile Term := do
  let text? ← match key.form with
    | .constant (.text s) => do
      let n ← constantIndex (.text s)
      pure (if n < constantLimit && s.length ≤ keyLimit && !key.hasJumps then some s else none)
    | _ => pure none
  let t ← match t.form, text? with
    | .upvalue _, none => do pure (← toAny t).2
    | _, _ => pure t
  let form ← match t.form, text? with
    | .upvalue u, some s => pure (Form.upvalueField u s)
    | .arguments _ r, _ => do pure (Form.argument r (← toAny key).1)
    | .variable _ r, some s | .register r, some s => pure (Form.field r s)
    | .variable _ r, none | .register r, none =>
      match key.int? with
      | some i =>
        if 0 ≤ i.toInt && i.toInt ≤ 255 then pure (Form.integer r i.toInt.toNat)
        else do pure (Form.index r (← toAny key).1)
      | none => do pure (Form.index r (← toAny key).1)
    | form, _ => pure form
  return { form := form }

/-- Gives a place the value of a term. -/
def store (place t : Term) : Compile Unit := do
  let put := fun (f : Operand → Instruction) => do
    let (x, t) ← toOperand t
    write (f x)
    free t
  match place.form with
  | .variable _ r =>
    free t
    discard (toRegister r t)
  | .upvalue u =>
    let (r, t) ← toAny t
    write (.setUpvalue r u)
    free t
  | .upvalueField u k => put (.setUpvalueField u k)
  | .integer o k => put (.setInteger o k)
  | .field o k => put (.setField o k)
  | .index o k => put (.setIndex o k)
  | .argument o k =>
    keepTable
    put (.setIndex o k)
  | _ => free t

/-- A method of a term and the term itself, in two registers in a row. -/
def methodOf (t : Term) (key : Name) : Compile Term := do
  let (object, t) ← toAny t
  free t
  let base := (← draft).free
  reserve 2
  if key.length ≤ keyLimit && (← constantIndex (.text key)) < constantLimit then
    write (.method base object key)
  else
    let (r, k) ← toAny { form := .constant (.text key) }
    write (.move (base + 1) object)
    write (.getIndex base object r)
    free k
  return { form := .register base }

/-! ### Conditions -/

/-- Turns the condition of a jump around. -/
def negateTest (place : Nat) : Compile Unit := do
  change (← control place) fun
    | .compare op l r e => .compare op l r !e
    | .test r e => .test r !e
    | .testSet d s e => .testSet d s !e
    | i => i

/-- Appends a jump that is made if a term is as expected. -/
def jumpIf (t : Term) (expected : Bool) : Compile Nat := do
  let byValue := do
    let (r, t) ← match t.form with
      | .register r => pure (r, t)
      | _ => do
        let r ← newRegister
        let t ← dischargeTo r t
        pure (r, t)
    free t
    testJump (.testSet registerLimit r expected)
  match t.form with
  | .result n =>
    match ← instruction? n with
    | some (.unary .not _ r) =>
      modifyDraft fun d => { d with code := d.code.pop, lines := d.lines.pop }
      testJump (.test r !expected)
    | _ => byValue
  | _ => byValue

/-- Goes on after a term if it is true. -/
def goIfTrue (t : Term) : Compile Term := do
  let t ← discharge t
  let left ← match t.form with
    | .jump n => do
      negateTest n
      pure [n]
    | .constant v => if v.truthy then pure [] else do pure [← jumpIf t false]
    | _ => do pure [← jumpIf t false]
  patchHere t.whenTrue
  return { t with whenTrue := [], whenFalse := t.whenFalse ++ left }

/-- Goes on after a term if it is false. -/
def goIfFalse (t : Term) : Compile Term := do
  let t ← discharge t
  let left ← match t.form with
    | .jump n => pure [n]
    | .constant v => if v.truthy then do pure [← jumpIf t true] else pure []
    | _ => do pure [← jumpIf t true]
  patchHere t.whenFalse
  return { t with whenTrue := t.whenTrue ++ left, whenFalse := [] }

/-! ### Operators -/

/-- A numeric operator on numbers that are written out, where it has a result that a script can
write out: not where it would fail, be no number or be a zero with a sign. -/
def fold? (op : ArithOp) (a b : Numeral) : Option Numeral :=
  let isZero := match b with
    | .int i => i == 0
    | .float x => x.abs == .zero
  let divides := op == .div || op == .floorDiv || op == .mod
  if divides && isZero then none
  else
    match arithNumeral? op a b with
    | some (.ok (.int i)) => some (.int i)
    | some (.ok (.float x)) => if x.isNaN || x.abs == .zero then none else some (.float x)
    | _ => none

/-- A unary operator on a number that is written out. -/
def foldUnary? (op : UnaryOp) (a : Numeral) : Option Numeral :=
  match op with
  | .neg =>
    match a with
    | .int i => some (.int (-i))
    | .float x => if x.isNaN || x.abs == .zero then none else some (.float x.neg)
  | .bitNot => a.toInt?.map fun i => .int (~~~i)
  | _ => none

/-- Turns a truth value around. -/
def negate (t : Term) : Compile Term := do
  let form ← match t.form with
    | .constant v => pure (Form.constant (.bool !v.truthy))
    | .jump n => do
      negateTest n
      pure t.form
    | _ => do
      let (r, t) ← match t.form with
        | .register r => pure (r, t)
        | _ => do
          let r ← newRegister
          let t ← dischargeTo r t
          pure (r, t)
      free t
      pure (Form.result (← emit (.unary .not 0 r)))
  (t.whenTrue ++ t.whenFalse).forM fun n => discard (redirectTest n none)
  return { t with form := form, whenTrue := t.whenFalse, whenFalse := t.whenTrue }

/-- Applies a unary operator that stood on a line. -/
def applyUnary (op : UnaryOp) (t : Term) (line : Nat) : Compile Term := do
  let t ← discharge t
  match op, t.numeral? >>= foldUnary? op with
  | .not, _ => negate t
  | _, some n => return { t with form := .constant (.ofNumeral n) }
  | _, none =>
    let (r, t) ← toAny t
    free t
    let n ← emit (.unary op 0 r)
    fixLine line
    return { form := .result n }

/-- Prepares the left operand of an operator before the right one is read. -/
def prepareLeft (op : BinaryOp) (t : Term) : Compile Term := do
  let t ← discharge t
  match op with
  | .and => goIfTrue t
  | .or => goIfFalse t
  | .concat => toNext t
  | .arith _ => if t.numeral?.isSome then return t else return (← toAny t).2
  | .eq | .ne => if t.numeral?.isSome then return t else return (← toOperand t).2
  | .lt | .le | .gt | .ge =>
    if t.smallNumber?.isSome then return t else return (← toAny t).2

/-- Writes a numeric operator with one operand in a register and another as it is. -/
def finishArith (op : ArithOp) (a b : Term) (other : Operand) (flip : Bool) (line : Nat) :
    Compile Term := do
  let (r, a) ← toAny a
  let n ← emit <| if flip then .arith op 0 other (.register r) else .arith op 0 (.register r) other
  freeBoth a b
  fixLine line
  return { form := .result n }

/-- Writes a numeric operator on two registers. -/
def arithRegisters (op : ArithOp) (a b : Term) (line : Nat) : Compile Term := do
  let (r, b) ← toAny b
  finishArith op a b (.register r) false line

/-- Writes a numeric operator whose second operand may be a constant. The operands may have been
exchanged. -/
def arithConstant (op : ArithOp) (a b : Term) (flip : Bool) (line : Nat) : Compile Term := do
  let constant? ← if b.numeral?.isSome then asConstant? b else pure none
  match constant? with
  | some v => finishArith op a b (.constant v) flip line
  | none => if flip then arithRegisters op b a line else arithRegisters op a b line

/-- Writes a numeric operator. -/
def arith (op : ArithOp) (a b : Term) (line : Nat) : Compile Term := do
  let immediate := fun (a b : Term) (i : Int64) (flip : Bool) =>
    finishArith op a b (.constant (.int i)) flip line
  match op with
  | .add | .mul =>
    let flip := a.numeral?.isSome
    let (a, b) := if flip then (b, a) else (a, b)
    match op, b.smallInt? with
    | .add, some i => immediate a b i flip
    | _, _ => arithConstant op a b flip line
  | .sub =>
    match b.smallInt? with
    | some i => if Term.isSmall (-i) then immediate a b i false else arithConstant op a b false line
    | none => arithConstant op a b false line
  | .div | .floorDiv | .mod | .pow => arithConstant op a b false line
  | .bitAnd | .bitOr | .bitXor =>
    let flip := a.int?.isSome
    let (a, b) := if flip then (b, a) else (a, b)
    if b.int?.isSome then arithConstant op a b flip line
    else if flip then arithRegisters op b a line
    else arithRegisters op a b line
  | .shiftLeft =>
    match a.smallInt?, b.smallInt? with
    | some i, _ => immediate b a i true
    | none, some i => if Term.isSmall (-i) then immediate a b i false else arithRegisters op a b line
    | none, none => arithRegisters op a b line
  | .shiftRight =>
    match b.smallInt? with
    | some i => immediate a b i false
    | none => arithRegisters op a b line

/-- The condition that a comparison is: a test with its jump. -/
def condition (op : CompareOp) (left right : Operand) (expected : Bool) : Compile Term := do
  return { form := .jump (← testJump (.compare op left right expected)) }

/-- Writes a comparison for equality. -/
def compareEqual (a b : Term) (expected : Bool) : Compile Term := do
  let (a, b) := match a.form with
    | .register _ => (a, b)
    | _ => (b, a)
  let (r, a) ← toAny a
  let (x, b) ← match b.smallNumber? with
    | some v => pure (Operand.constant v, b)
    | none => toOperand b
  freeBoth a b
  condition .eq (.register r) x expected

/-- Writes a comparison of order. -/
def compareOrder (op : CompareOp) (a b : Term) : Compile Term := do
  match b.smallNumber?, a.smallNumber? with
  | some v, _ =>
    let (r, a) ← toAny a
    freeBoth a b
    condition op (.register r) (.constant v) true
  | none, some v =>
    let (r, b) ← toAny b
    freeBoth a b
    condition op (.constant v) (.register r) true
  | none, none =>
    let (r, a) ← toAny a
    let (r', b) ← toAny b
    freeBoth a b
    condition op (.register r) (.register r') true

/-- Joins the value of a term with what follows it. -/
def concat (a b : Term) (line : Nat) : Compile Term := do
  let b ← toNext b
  let first := match a.form with
    | .register r => r
    | _ => 0
  match ← latest? with
  | some (.concat _ n) =>
    free b
    change ((← here) - 1) fun _ => .concat first (n + 1)
  | _ =>
    write (.concat first 2)
    free b
    fixLine line
  return a

/-- Applies a binary operator that stood on a line. -/
def applyBinary (op : BinaryOp) (a b : Term) (line : Nat) : Compile Term := do
  let b ← discharge b
  let folded := match op, a.numeral?, b.numeral? with
    | .arith op, some x, some y => fold? op x y
    | _, _, _ => none
  match folded with
  | some n => return { form := .constant (.ofNumeral n) }
  | none =>
    match op with
    | .and => return { b with whenFalse := b.whenFalse ++ a.whenFalse }
    | .or => return { b with whenTrue := b.whenTrue ++ a.whenTrue }
    | .concat => concat a b line
    | .arith op => arith op a b line
    | .eq => compareEqual a b true
    | .ne => compareEqual a b false
    | .lt => compareOrder .lt a b
    | .le => compareOrder .le a b
    | .gt => compareOrder .lt b a
    | .ge => compareOrder .le b a

end ScriptHost.Script.Compile
