import ScriptHost.Script.Numeral
import ScriptHost.Script.Syntax
import ScriptHost.Script.Value

/-!
# Arithmetic

The operators on numbers. Whole numbers wrap around at 64 bits, and quotients and remainders of
whole numbers go toward the floor; everything else is double precision. The order of numbers is that
of their exact values.
-/
namespace ScriptHost.Script

open Text (Bytes)
open Number (Binary64)

/-- The number a value is, numerals in texts counted. -/
def toNumeral? : Value → Option Numeral
  | .text s => Numeral.read? s
  | v => v.numeral?

/-- The whole number a value is equal to, numerals in texts counted. -/
def toInt? (v : Value) : Option Int64 :=
  toNumeral? v >>= Numeral.toInt?

/-- Bits moved to the left, to the right for a negative distance; zeros come in. -/
def shift (x n : Int64) : Int64 :=
  let d := n.toInt
  if 64 ≤ d || d ≤ -64 then 0
  else if 0 ≤ d then (x.toUInt64 <<< UInt64.ofNat d.toNat).toInt64
  else (x.toUInt64 >>> UInt64.ofNat (-d).toNat).toInt64

/-- The quotient toward the floor. -/
def floorDivFloat (x y : Binary64) : Binary64 :=
  (x.div y).floor

/-- The remainder with the sign of the divisor. -/
def modFloat (x y : Binary64) : Binary64 :=
  let m := x.remTruncated y
  let zero := Binary64.zero
  if (zero.lt m && y.lt zero) || (m.lt zero && zero.lt y) then m.add y else m

/-- Why an operator has no result on numbers. -/
inductive ArithFault where
  | divideByZero
  | moduloByZero
  deriving DecidableEq

def ArithFault.message : ArithFault → String
  | .divideByZero => "attempt to divide by zero"
  | .moduloByZero => "attempt to perform 'n%0'"

/-- An operator on whole numbers that gives a whole number; none where it gives another. -/
def arithInt? (op : ArithOp) (a b : Int64) : Option (Except ArithFault Int64) :=
  match op with
  | .add => some (.ok (a + b))
  | .sub => some (.ok (a - b))
  | .mul => some (.ok (a * b))
  | .mod =>
    if b = 0 then some (.error .moduloByZero)
    else some (.ok (Int64.ofInt (a.toInt.fmod b.toInt)))
  | .floorDiv =>
    if b = 0 then some (.error .divideByZero)
    else some (.ok (Int64.ofInt (a.toInt.fdiv b.toInt)))
  | .bitAnd => some (.ok (a &&& b))
  | .bitOr => some (.ok (a ||| b))
  | .bitXor => some (.ok (a ^^^ b))
  | .shiftLeft => some (.ok (shift a b))
  | .shiftRight => some (.ok (shift a (Int64.ofInt (-b.toInt))))
  | .pow | .div => none

/-- An operator on double precision numbers. -/
def arithFloat (op : ArithOp) (x y : Binary64) : Binary64 :=
  match op with
  | .add => x.add y
  | .sub => x.sub y
  | .mul => x.mul y
  | .mod => modFloat x y
  | .pow => if y = Binary64.ofInt 2 then x.mul x else x.pow y
  | .div => x.div y
  | .floorDiv => floorDivFloat x y
  | _ => Binary64.nan

/-- A double precision number less a whole number that is written out: the sum of it and the negative,
so that a negative zero less zero is zero. -/
def lessWhole (x : Binary64) (i : Int64) : Binary64 :=
  x.add (Binary64.ofInt (-i.toInt))

/-- An operator on numbers; none where bits are wanted of a number that is not whole. -/
def arithNumeral? (op : ArithOp) (a b : Numeral) : Option (Except ArithFault Numeral) :=
  if op.isBitwise then
    match a.toInt?, b.toInt? with
    | some i, some j => (arithInt? op i j).map (·.map .int)
    | _, _ => none
  else
    match a, b with
    | .int i, .int j =>
      match arithInt? op i j with
      | some r => some (r.map .int)
      | none => some (.ok (.float (arithFloat op a.toFloat b.toFloat)))
    | _, _ => some (.ok (.float (arithFloat op a.toFloat b.toFloat)))

/-- The negative of a number. -/
def Numeral.negate : Numeral → Numeral
  | .int i => .int (-i)
  | .float x => .float x.neg

/-! ### Order -/

/-- The order of texts by their bytes. -/
def bytesLt : Bytes → Bytes → Bool
  | [], [] => false
  | [], _ :: _ => true
  | _ :: _, [] => false
  | a :: as, b :: bs => a < b || (a == b && bytesLt as bs)

/-- The place of a number in the order of all numbers. -/
def Numeral.rank : Numeral → Option Binary64.Rank
  | .int i => some (.ofInt i.toInt)
  | .float x => x.rank

def Numeral.lt (a b : Numeral) : Bool :=
  match a, b with
  | .int i, .int j => i < j
  | _, _ =>
    match a.rank, b.rank with
    | some x, some y => x.lt y
    | _, _ => false

def Numeral.le (a b : Numeral) : Bool :=
  match a, b with
  | .int i, .int j => i ≤ j
  | _, _ =>
    match a.rank, b.rank with
    | some x, some y => x.lt y || x == y
    | _, _ => false

end ScriptHost.Script
