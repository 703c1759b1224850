import ScriptHost.Script.Library.Arguments

/-!
# Texts

Cutting, repeating and turning texts, all by bytes, and arithmetic on texts that are numerals.
-/
namespace ScriptHost.Script.Library

open Text (Bytes)
open Number (Binary64)

/-- The place that a first place stands for: counted from the front, or from the end when it is
negative, and never before the front. -/
def firstPlace (i : Int) (length : Nat) : Nat :=
  if 0 < i then i.toNat else if i = 0 then 1 else ((length : Int) + i + 1).toNat.max 1

/-- The place that a last place stands for, never past the end. -/
def lastPlace (i : Int) (length : Nat) : Nat :=
  if (length : Int) < i then length else if 0 ≤ i then i.toNat else ((length : Int) + i + 1).toNat

/-- The bytes from one place to another, counted from one, both included. -/
def slice (s : Bytes) (first last : Int) : Bytes :=
  let first := firstPlace first s.length
  (s.take (lastPlace last s.length)).drop (first - 1)

def upperByte (b : UInt8) : UInt8 :=
  if isLower b then b - 32 else b

def lowerByte (b : UInt8) : UInt8 :=
  if isUpper b then b + 32 else b

/-- How long a text can be at all. -/
def textLimit : Nat := 2 ^ 63 - 1

/-- How long a text there is room for. -/
def textRoom : Nat := 2 ^ 28

def textRep (c : Invocation) : Eval (List Value) := do
  let s ← c.text 1
  let n := (← c.int 2).toInt.toNat
  let separator ← c.textOr 3 []
  if n = 0 || (s.isEmpty && separator.isEmpty) then return [.text []]
  let size := (s.length + separator.length) * n
  if textLimit < size || textLimit ≤ size - separator.length then
    c.refuse "resulting string too large"
  if textRoom < size then .raise memoryError
  return [.text ((List.replicate (n - 1) (s ++ separator)).flatten ++ s)]

def textByte (c : Invocation) : Eval (List Value) := do
  let s ← c.text 1
  let first ← c.intOr 2 1
  let last ← c.intOr 3 first
  let bytes := slice s first.toInt last.toInt
  if stackLimit < c.site.top + bytes.length then
    c.refuse "stack overflow (string slice too long)"
  return bytes.map fun b => .int (Int64.ofNat b.toNat)

def textChar (c : Invocation) : Eval (List Value) := do
  let bytes ← (List.range c.args.length).mapM fun n => do
    let i := (← c.int (n + 1)).toInt
    if i < 0 || 255 < i then c.failArgWith (n + 1) "value out of range"
    return UInt8.ofNat i.toNat
  return [.text bytes]

/-! ### Arithmetic -/

/-- Does arithmetic on texts that are numerals, or else calls the function of the second operand.
Any failure names the operator and the types of both operands. -/
def textOperator (c : Invocation) (event : String)
    (run : Numeral → Numeral → Eval Value) : Eval (List Value) := do
  match toNumeral? (c.arg 1), toNumeral? (c.arg 2) with
  | some a, some b => return [← run a b]
  | _, _ =>
    let f ← match c.arg 2 with
      | .text _ => pure .nil
      | v => c.metamethod v ("__" ++ event)
    match f with
    | .nil =>
      let a := (c.arg 1).typeName
      let b := (c.arg 2).typeName
      c.refuse s!"attempt to {event} a '{a}' with a '{b}'"
    | f => return [← c.callMeta f [c.arg 1, c.arg 2]]

def textArith (op : ArithOp) (c : Invocation) : Eval (List Value) :=
  textOperator c op.event fun a b => c.arith op (.ofNumeral a) (.ofNumeral b)

def textNegate (c : Invocation) : Eval (List Value) :=
  textOperator c UnaryOp.neg.event fun a _ => return .ofNumeral a.negate

end ScriptHost.Script.Library
