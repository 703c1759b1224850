import ScriptHost.Script.Arith
import ScriptHost.Script.Eval

/-!
# Operators

What the operators of scripts do to values: numbers and texts at once, everything else by the
functions in metatables. All of it is written against a `Context`, by which those functions are
called and failures are reported.
-/
namespace ScriptHost.Script

open Text (Bytes)
open Number (Binary64)

/-! ### Metatables -/

/-- The metatable of a value. -/
def metatable? (h : Heap) (home : Nat) : Value → Option Nat
  | .table t => (h.table t).metatable
  | .text _ => some (h.environment home).texts
  | .foreign _ => some (h.environment home).objects
  | _ => none

/-- The function for an event in the metatable of a value, nil where there is none. -/
def metamethod (h : Heap) (home : Nat) (v : Value) (event : String) : Value :=
  match metatable? h home v with
  | some m => h.rawGet m (.ofString event)
  | none => .nil

/-- The name of the type of a value in messages. The metatable of a table or of an object of the
host may bring its own. -/
def shownType (h : Heap) (home : Nat) (v : Value) : Bytes :=
  let own := match v with
    | .table _ | .foreign _ => metamethod h home v "__name"
    | _ => .nil
  match own with
  | .text name => name
  | _ => Text.encode v.typeName

namespace Context

variable {α : Type}

/-- The function for an event in the metatable of a value. -/
def metamethod (c : Context) (v : Value) (event : String) : Eval Value := do
  return Script.metamethod (← Eval.heap) c.site.home v event

/-- The first result of the function for an event. -/
def callMeta (c : Context) (f : Value) (args : List Value) : Eval Value := do
  return firstOf (← c.call f args)

/-- Raises that a value cannot be used so, with what is said after its type. -/
def failTypeAs (c : Context) (action : String) (v : Value) (described : Bytes) : Eval α := do
  let type := shownType (← Eval.heap) c.site.home v
  c.fail (Text.encode s!"attempt to {action} a " ++ type ++ Text.encode " value" ++ described)

/-- Raises that an operand cannot be used so. -/
def failType (c : Context) (action : String) (operand : Nat) (v : Value) : Eval α :=
  c.failTypeAs action v (c.describe operand)

/-- Raises that one of two operands cannot be used so: the first that is not a number. -/
def failOperand (c : Context) (action : String) (a b : Value) : Eval α :=
  match a.numeral? with
  | some _ => c.failType action 1 b
  | none => c.failType action 0 a

/-! ### Fields -/

/-- How many metatables a field is looked for through. -/
def chainLimit : Nat := 2000

/-- The value of a key of a value. -/
def index (c : Context) (v key : Value) : Eval Value :=
  go c v chainLimit
where
  go (c : Context) (v : Value) : Nat → Eval Value
    | 0 => c.failWith "'__index' chain too long; possible loop"
    | n + 1 => do
      let found ← Eval.look fun h =>
        match v with
        | .table t => h.rawGet t key
        | _ => .nil
      if found ≠ .nil then return found
      match ← c.metamethod v "__index" with
      | .nil =>
        match v with
        | .table _ => return .nil
        | _ => c.failType "index" 0 v
      | .function f => c.callMeta (.function f) [v, key]
      | .native f => c.callMeta (.native f) [v, key]
      | other => go c.anonymous other n

/-- Gives a key of a table a value, metatables aside. -/
def rawSet (c : Context) (table : Nat) (key value : Value) : Eval Unit :=
  match key with
  | .nil => c.failWith "table index is nil"
  | .float x =>
    if x.isNaN then c.failWith "table index is NaN"
    else Eval.modifyHeap (·.rawSet table key value)
  | _ => Eval.modifyHeap (·.rawSet table key value)

/-- Gives a key of a value another value. -/
def setIndex (c : Context) (v key value : Value) : Eval Unit :=
  go c v chainLimit
where
  go (c : Context) (v : Value) : Nat → Eval Unit
    | 0 => c.failWith "'__newindex' chain too long; possible loop"
    | n + 1 => do
      let handler ← Eval.look fun h =>
        match v with
        | .table t =>
          if h.rawGet t key != Value.nil then Value.nil
          else Script.metamethod h c.site.home v "__newindex"
        | _ => Script.metamethod h c.site.home v "__newindex"
      match handler with
      | .nil =>
        match v with
        | .table t => c.rawSet t key value
        | _ => c.failType "index" 0 v
      | .function f => do
        let _ ← c.call (.function f) [v, key, value]
      | .native f => do
        let _ ← c.call (.native f) [v, key, value]
      | other => go c.anonymous other n

/-! ### Arithmetic -/

/-- Raises what kept a numeric operator from its result. -/
def ofArith (c : Context) : Except ArithFault Numeral → Eval Value
  | .ok n => pure (.ofNumeral n)
  | .error f => c.failWith f.message

/-- The function for a binary operator, of the first operand or else of the second. -/
def binaryMeta (c : Context) (event : String) (a b : Value) : Eval Value := do
  match ← c.metamethod a event with
  | .nil => c.metamethod b event
  | f => return f

/-- Raises that a number is not whole: the first of two, or else the second. -/
def failFraction (c : Context) (a : Numeral) : Eval α :=
  c.fail (Text.encode "number" ++ c.describe (if a.toInt?.isNone then 0 else 1)
    ++ Text.encode " has no integer representation")

/-- A binary arithmetic operator. -/
def arith (c : Context) (op : ArithOp) (a b : Value) : Eval Value := do
  let result := match a.numeral?, b.numeral? with
    | some x, some y => arithNumeral? op x y
    | _, _ => none
  match result with
  | some r => c.ofArith r
  | none =>
    match ← c.binaryMeta ("__" ++ op.event) a b with
    | .nil =>
      if op.isBitwise then
        match a.numeral?, b.numeral? with
        | some x, some _ => c.failFraction x
        | _, _ => c.failOperand "perform bitwise operation on" a b
      else c.failOperand "perform arithmetic on" a b
    | f => c.callMeta f [a, b]

/-- The length of a value. -/
def length (c : Context) (v : Value) : Eval Value := do
  match v with
  | .text b => return .int (Int64.ofNat b.length)
  | _ =>
    match ← c.metamethod v "__len", v with
    | .nil, .table t => return .int (Int64.ofNat (← Eval.measure t))
    | .nil, _ => c.failType "get length of" 0 v
    | f, _ => c.callMeta f [v, v]

/-- A unary operator. -/
def unary (c : Context) (op : UnaryOp) (v : Value) : Eval Value := do
  match op with
  | .not => return .bool !v.truthy
  | .length => c.length v
  | .neg =>
    match v.numeral? with
    | some n => return .ofNumeral n.negate
    | none =>
      match ← c.metamethod v "__unm" with
      | .nil => c.failType "perform arithmetic on" 0 v
      | f => c.callMeta f [v, v]
  | .bitNot =>
    match v.numeral? >>= Numeral.toInt? with
    | some i => return .int (~~~i)
    | none =>
      match ← c.metamethod v "__bnot" with
      | .nil =>
        match v.numeral? with
        | some n => c.failFraction n
        | none => c.failType "perform bitwise operation on" 0 v
      | f => c.callMeta f [v, v]

/-! ### Comparison -/

/-- Whether one value is before another, or with `orEqual` not after it. -/
def less (c : Context) (orEqual : Bool) (a b : Value) : Eval Bool := do
  match a.numeral?, b.numeral?, a, b with
  | some x, some y, _, _ => return if orEqual then x.le y else x.lt y
  | _, _, .text x, .text y => return if orEqual then !bytesLt y x else bytesLt x y
  | _, _, _, _ =>
    let event := if orEqual then "__le" else "__lt"
    match ← c.binaryMeta event a b with
    | .nil =>
      let h ← Eval.heap
      let x := shownType h c.site.home a
      let y := shownType h c.site.home b
      if x = y then
        c.fail (Text.encode "attempt to compare two " ++ x ++ Text.encode " values")
      else
        c.fail (Text.encode "attempt to compare " ++ x ++ Text.encode " with " ++ y)
    | f => return (← c.callMeta f [a, b]).truthy

/-- Whether two values are equal. Tables may say so by a function. -/
def equal (c : Context) (a b : Value) : Eval Bool := do
  if a.rawEq b then return true
  match a, b with
  | .table _, .table _ =>
    match ← c.binaryMeta "__eq" a b with
    | .nil => return false
    | f => return (← c.callMeta f [a, b]).truthy
  | _, _ => return false

/-- A comparison. -/
def compare (c : Context) (op : CompareOp) (a b : Value) : Eval Bool :=
  match op with
  | .eq => c.equal a b
  | .lt => c.less false a b
  | .le => c.less true a b

end Context

/-! ### Text -/

/-- The text of a number or of a text itself. -/
def plainText? : Value → Option Bytes
  | .text b => some b
  | v => v.numeral?.map Numeral.text

/-- Two values as one text. -/
def Context.concat (c : Context) (a b : Value) : Eval Value := do
  match plainText? a, plainText? b with
  | some x, some y => return .text (x ++ y)
  | x, _ =>
    match ← c.binaryMeta "__concat" a b with
    | .nil =>
      if x.isSome then c.failType "concatenate" 1 b else c.failType "concatenate" 0 a
    | f => c.callMeta f [a, b]

/-- A place as the text of a value that has no other. -/
def placeDigits (place : Nat) : String :=
  let ds := Nat.toDigits 16 (0x55550000 + 32 * place)
  String.ofList (List.replicate (14 - ds.length) '0' ++ ds)

/-- The text of a value for people. -/
def Context.show (c : Context) (v : Value) : Eval Bytes := do
  match ← c.metamethod v "__tostring" with
  | .nil =>
    let h ← Eval.heap
    let kept := fun (place : Nat) =>
      shownType h c.site.home v ++ Text.encode s!": 0x{placeDigits place}"
    match v with
    | .nil => return Text.encode "nil"
    | .bool b => return Text.encode (if b then "true" else "false")
    | .int i => return intText i
    | .float x => return floatText x
    | .text b => return b
    | .table t => return kept t
    | .function f => return kept f
    | .native _ => return kept 0
    | .thread t => return kept t
    | .foreign t => return kept t
  | f =>
    match plainText? (← c.callMeta f [v]) with
    | some b => return b
    | none => c.failAt 1 (Text.encode "'__tostring' must return a string")

end ScriptHost.Script
