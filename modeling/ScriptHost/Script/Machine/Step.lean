import ScriptHost.Script.Library.Natives
import ScriptHost.Script.Machine.Count
import ScriptHost.Script.Machine.Frame

/-!
# Steps

What each instruction does to a machine. A step ends in the next machine, or in the results of the
function that the machine began with. Functions of scripts that an instruction calls run in the same
machine; all other calls, those of metatables among them, go through the context.
-/
namespace ScriptHost.Script

open Text (Bytes)

/-! ### Calls -/

/-- A call that can be made: of a function of a script or of a library. -/
structure Prepared where
  function : Closure ⊕ Native
  args : List Value
  /-- How many of the arguments metatables put in front. -/
  extra : Nat

/-- How many metatables may hand on a call. -/
def handOnLimit : Nat := 15

/-- How many slots of the stack a function of a library needs. -/
def nativeRoom : Nat := 20

namespace Context

/-- Finds the function that calling a value calls. Metatables put the value in front of the
arguments. -/
def prepare (c : Context) (f : Value) (args : List Value) : Eval Prepared :=
  go c f args 0 (handOnLimit + 1)
where
  go (c : Context) (f : Value) (args : List Value) (extra : Nat) : Nat → Eval Prepared
    | 0 => c.failWith "'__call' chain too long"
    | left + 1 => do
      let h ← Eval.heap
      match f with
      | .function place =>
        let missing := { home := c.site.home, code := default, upvalues := #[] }
        return ⟨.inl (h.functions[place]?.getD missing), args, extra⟩
      | .native f => return ⟨.inr f, args, extra⟩
      | v =>
        match Script.metamethod h c.site.home v "__call" with
        | .nil =>
          let name := match c.site.trace with
            | .script code place _ :: _ => code.calleeName place
            | _ => none
          c.failTypeAs "call" v ((name.map Named.shown).getD [])
        | g =>
          if left = 0 then c.failWith "'__call' chain too long"
          else go c g (v :: args) (extra + 1) left

/-- Calls a function of a library from a slot of the stack. -/
def runNative (c : Context) (f : Native) (p : Prepared) (slot : Nat) : Eval (List Value) := do
  let top := slot + 1 + p.args.length
  c.checkStack (top + nativeRoom)
  Eval.modifyHeap (·.call f)
  let site := { c.site with trace := .native f p.extra :: c.site.trace, top := top }
  f.run { site := site, caller := c.caller, function := f, args := p.args, extra := p.extra }

end Context

namespace Machine

/-- Lets the function at work end with results, which go to the one that waits for it. -/
def leave (m : Machine) (vs : List Value) : Eval (Machine ⊕ List Value) := do
  match m.waiting with
  | [] => return .inr vs
  | f :: rest =>
    let m := { m with current := f, waiting := rest, level := m.level - 1 }
    match f.code.code[f.place - 1]? with
    | some (.call base _ results) => return .inl (← m.putResults base results vs)
    | _ => return .inl m

/-- Calls the value of a register. -/
def call (m : Machine) (c : Context) (base : Nat) (args results : Option Nat) :
    Eval (Machine ⊕ List Value) := do
  let p ← c.prepare (← m.get base) (← m.rowOf (base + 1) args)
  let slot := m.current.base + 1 + base
  match p.function with
  | .inr f => return .inl (← m.putResults base results (← c.runNative f p slot))
  | .inl f =>
    c.checkStack (slot + 1 + p.args.length + f.code.size)
    return .inl (m.push (.enter f slot p.args false c.site.trace))

/-- Calls the value of a register in place of the function at work. -/
def tailCall (m : Machine) (c : Context) (base : Nat) (args : Option Nat) :
    Eval (Machine ⊕ List Value) := do
  let p ← c.prepare (← m.get base) (← m.rowOf (base + 1) args)
  let slot := m.current.base + 1 + base
  match p.function with
  | .inr f => m.leave (← c.runNative f p slot)
  | .inl f =>
    let moved := m.current.base - m.current.entry
    c.checkStack (slot + 1 + p.args.length + f.code.size - moved)
    return .inl { m with
      current := .enter f m.current.entry p.args true m.current.below }

/-! ### Extra arguments -/

/-- Begins a function with extra arguments. They are kept below the registers, which moves those, or
in a table. -/
def prepareExtra (m : Machine) (c : Context) : Eval Machine := do
  let f := m.current
  let count := f.extra.length
  if f.code.keepsTable then
    let t ← Eval.newTable (.ofItems f.closure.home f.extra.toArray 1)
    Eval.modifyHeap (·.rawSet t (.ofString "n") (.int (Int64.ofNat count)))
    m.put f.code.parameters (.table t)
  else
    let all := f.code.parameters + count
    c.checkStack (f.base + 1 + all + f.code.size + 1)
    return { m with current := { f with base := f.base + all + 1 } }

/-- The extra arguments as they are now: the table they are in may have changed. -/
def extraValues (m : Machine) (c : Context) : Eval (List Value) := do
  let f := m.current
  if f.code.keepsTable then
    let t ← m.get f.code.parameters
    match t with
    | .table t =>
      let h ← Eval.heap
      let bad := c.failWith "vararg table has no proper 'n'"
      match h.rawGet t (.ofString "n") with
      | .int n =>
        if 0 ≤ n.toInt && n.toInt < 2 ^ 30 then
          c.checkStack (f.top + n.toInt.toNat)
          return (List.range n.toInt.toNat).map fun k =>
            h.rawGet t (.int (Int64.ofNat (k + 1)))
        else bad
      | _ => bad
    | _ => return []
  else return f.extra

/-- The extra argument that a key stands for. -/
def extraValue (f : Frame) (key : Value) : Value :=
  match key with
  | .text s => if s == Text.encode "n" then .int (Int64.ofNat f.extra.length) else .nil
  | v =>
    match v.numeral? >>= Numeral.toInt? with
    | some i => if 1 ≤ i.toInt then (f.extra[i.toInt.toNat - 1]?).getD .nil else .nil
    | none => .nil

/-! ### Variables -/

/-- The cell of a register, which is shared from now on. -/
def share (m : Machine) (register : Nat) : Eval (Nat × Machine) := do
  match m.current.registers[register]? with
  | some (.cell n) => return (n, m)
  | _ =>
    let n ← Eval.newCell (← m.get register)
    return (n, { m with current := m.current.set register (.cell n) })

/-- The cell of a variable of another function. -/
def upvalue? (m : Machine) (index : Nat) : Option Nat :=
  m.current.closure.upvalues[index]?

/-- Makes a function of a script with the variables it uses. -/
def makeFunction (m : Machine) (dest : Nat) (code : Prototype) : Eval Machine := do
  let (m, cells) ← code.upvalues.foldlM (fun ((m, cells) : Machine × Array Nat) u => do
    if u.inRegister then
      let (n, m) ← m.share u.index
      return (m, cells.push n)
    else
      let n ← match m.upvalue? u.index with
        | some n => pure n
        | none => Eval.newCell .nil
      return (m, cells.push n)) (m, #[])
  let f ← Eval.newFunction ⟨m.current.closure.home, code, cells⟩
  m.put dest (.function f)

def getUpvalue (m : Machine) (index : Nat) : Eval Value :=
  Eval.look fun h => ((m.upvalue? index).map h.cell).getD .nil

def setUpvalue (m : Machine) (index : Nat) (v : Value) : Eval Unit :=
  Eval.modifyHeap fun h =>
    match m.upvalue? index with
    | some n => h.setCell n v
    | none => h

/-- Remembers that the value of a register is to be closed, unless it is nil or false. -/
def markClosing (m : Machine) (c : Context) (register place : Nat) : Eval Machine := do
  let v ← m.get register
  if !v.truthy then return m
  if (← c.metamethod v "__close") = .nil then
    let x := (m.current.code.localName? register place).getD (Text.encode "?")
    c.fail (Text.encode "variable '" ++ x ++ Text.encode "' got a non-closable value")
  return { m with closing := ⟨m.level, register, v⟩ :: m.closing }

/-! ### Instructions -/

/-- Joins the values of registers in a row from the last on. -/
def join (m : Machine) (c : Nat → Context) (first : Nat) : Nat → Value → Eval Value
  | 0, v => return v
  | n + 1, v => do m.join c first n (← (c n).concat (← m.get (first + n)) v)

/-- Goes on after the next instruction unless a test comes out as expected. -/
def branch (m : Machine) (outcome expected : Bool) : Machine :=
  if outcome == expected then m else m.skip

/-- Does an instruction; the machine is at the next one already. -/
def perform (m : Machine) (c : Context) (place : Nat) (i : Instruction) :
    Eval (Machine ⊕ List Value) := do
  let code := m.current.code
  let names := fun (name : Nat → Option Named) => m.context c place name
  let plain := fun _ : Unit => names fun _ => none
  let of := fun (register : Nat) => names fun _ => code.registerName place register
  let ofUpvalue := fun (index : Nat) =>
    names fun _ => some ⟨"upvalue", code.upvalueName index⟩
  let set := fun (register : Nat) (v : Value) => Sum.inl <$> m.put register v
  let done := (return .inl m : Eval (Machine ⊕ List Value))
  match i with
  | .move dest source => set dest (← m.get source)
  | .load dest v => set dest v.value
  | .loadNil first count => return .inl (← m.putRow first (List.replicate count .nil))
  | .loadFalseSkip dest => return .inl (← m.put dest (.bool false)).skip
  | .getUpvalue dest u => set dest (← m.getUpvalue u)
  | .setUpvalue source u =>
    m.setUpvalue u (← m.get source)
    done
  | .getUpvalueField dest u key =>
    set dest (← (ofUpvalue u).index (← m.getUpvalue u) (.text key))
  | .getIndex dest object key =>
    set dest (← (of object).index (← m.get object) (← m.get key))
  | .getInteger dest object key =>
    set dest (← (of object).index (← m.get object) (.int (Int64.ofNat key)))
  | .getField dest object key => set dest (← (of object).index (← m.get object) (.text key))
  | .setUpvalueField u key v =>
    (ofUpvalue u).setIndex (← m.getUpvalue u) (.text key) (← m.operand v)
    done
  | .setIndex object key v =>
    (of object).setIndex (← m.get object) (← m.get key) (← m.operand v)
    done
  | .setInteger object key v =>
    (of object).setIndex (← m.get object) (.int (Int64.ofNat key)) (← m.operand v)
    done
  | .setField object key v =>
    (of object).setIndex (← m.get object) (.text key) (← m.operand v)
    done
  | .newTable dest items pairs =>
    set dest (.table (← Eval.newTable (.withRoom m.current.closure.home items pairs)))
  | .method dest object key =>
    let v ← m.get object
    let f ← (of object).index v (.text key)
    return .inl (← (← m.put (dest + 1) v).put dest f)
  | .arith op dest left right =>
    let c := names fun n => code.operandName place (if n = 0 then left else right)
    let a ← m.operand left
    match op, a, right with
    | .sub, .float x, .constant (.int i) => set dest (.float (lessWhole x i))
    | _, _, _ => set dest (← c.arith op a (← m.operand right))
  | .unary op dest operand => set dest (← (of operand).unary op (← m.get operand))
  | .concat first count =>
    let c := fun (n : Nat) => names fun k => code.registerName place (first + n + k)
    set first (← m.join c first (count - 1) (← m.get (first + (count - 1))))
  | .close first => return .inl (← m.unshare first)
  | .toClose register => return .inl (← m.markClosing (plain ()) register place)
  | .jump target close =>
    let m ← match close with
      | some first => m.unshare first
      | none => pure m
    return .inl (m.goTo target)
  | .compare op left right expected =>
    let outcome ← (plain ()).compare op (← m.operand left) (← m.operand right)
    return .inl (m.branch outcome expected)
  | .test register expected => return .inl (m.branch (← m.get register).truthy expected)
  | .testSet dest source expected =>
    let v ← m.get source
    if v.truthy == expected then set dest v else return .inl m.skip
  | .call base args results => m.call (plain ()) base args results
  | .tailCall base args => m.tailCall (plain ()) base args
  | .ret first count => m.leave (← m.rowOf first count)
  | .countPrepare base target =>
    let first ← m.get base
    let last ← m.get (base + 1)
    match ← (plain ()).beginCount first last (← m.get (base + 2)) with
    | some l => return .inl (← m.putRow base [l.left, l.step, l.at_])
    | none => return .inl (m.goTo (target + 1))
  | .countLoop base target =>
    let l : Count := ⟨← m.get base, ← m.get (base + 1), ← m.get (base + 2)⟩
    match l.next? with
    | some l => return .inl ((← m.putRow base [l.left, l.step, l.at_]).goTo target)
    | none => done
  | .eachPrepare base target =>
    let control ← m.get (base + 2)
    let closing ← m.get (base + 3)
    let m ← m.putRow (base + 2) [closing, control]
    return .inl ((← m.markClosing (plain ()) (base + 2) place).goTo target)
  | .eachCall base count =>
    let c := plain ()
    let c := { c with site := { c.site with top := m.current.base + 1 + base + 3 } }
    let vs ← c.call (← m.get base) [← m.get (base + 1), ← m.get (base + 3)]
    return .inl (← m.putResults (base + 3) (some count) vs)
  | .eachLoop base target =>
    if (← m.get (base + 3)) = .nil then done else return .inl (m.goTo target)
  | .setList table count skip =>
    let vs ← m.rowOf (table + 1) count
    match ← m.get table with
    | .table t => Eval.modifyHeap (·.changeTable t (·.setRow skip vs))
    | _ => pure ()
    done
  | .closure dest index => return .inl (← m.makeFunction dest (code.inner[index]?.getD default))
  | .varargs dest count =>
    let vs ← m.extraValues (plain ())
    return .inl (← m.putResults dest count vs)
  | .vararg dest _ key => set dest (extraValue m.current (← m.get key))
  | .varargPrepare => return .inl (← m.prepareExtra (plain ()))
  | .checkNew register name =>
    if (← m.get register) = .nil then done
    else
      (plain ()).fail (Text.encode "global '" ++ name ++ Text.encode "' already defined")

/-- The first register whose variable an instruction closes. -/
def closesFrom? : Instruction → Option Nat
  | .close first => some first
  | .jump _ close => close
  | .ret .. => some 0
  | _ => none

/-- The instruction at work. -/
def instruction (m : Machine) : Instruction :=
  (m.current.code.code[m.current.place]?).getD (.ret 0 (some 0))

/-- Does one step. Values that the instruction at work closes are closed one by one before it does
its work. If a value is raised, those that are left are still to be closed. -/
def step (c : Context) (m : Machine) : Eval (Machine ⊕ List Value) :=
  let place := m.current.place
  let i := m.instruction
  let due? := if m.closing.isEmpty then none else closesFrom? i >>= m.takeClosing?
  match due? with
  | some (v, m) =>
    let left := m.closing
    Eval.leaving (fun _ => left.map Closing.value) do
      let c := m.context c place fun _ => none
      let _ ← c.call (← c.metamethod v "__close") [v]
      return .inl m
  | none =>
    let left := m.closing
    let m := m.goTo (place + 1)
    if left.isEmpty then m.perform c place i
    else Eval.leaving (fun _ => left.map Closing.value) (m.perform c place i)

/-- Runs a function in a frame to its end. -/
def run (c : Context) (f : Frame) : Eval (List Value) :=
  Eval.repeating (step c) { current := f }

end Machine

end ScriptHost.Script
