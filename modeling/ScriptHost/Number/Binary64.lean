/-!
# Double precision numbers

A number of 64 bits, held by its bits, so that two of them are the same value exactly when they are
the same bits: zero keeps its sign, and so does a value that is not a number. Finite numbers are
read as a whole number times a power of two, and `ofRatio` rounds a ratio of whole numbers to the
nearest of them; the four operations are the machine's.
-/
-- Powers are those of the numbers themselves, also where there are others in scope.
attribute [instance (2000), default_instance (20000)] instPowNat

namespace ScriptHost.Number

/-- The nearest whole number to `num / den`; a half goes to the even neighbour. -/
def roundDiv (num den : Nat) : Nat :=
  let q := num / den
  let r := num % den
  if 2 * r < den then q
  else if den < 2 * r then q + 1
  else if q % 2 == 0 then q else q + 1

/-- `num / den` times two to the power `p`, as a ratio of whole numbers. -/
def scaleTwo (num den : Nat) (p : Int) : Nat × Nat :=
  if p < 0 then (num, den * 2 ^ (-p).toNat) else (num * 2 ^ p.toNat, den)

/-- A double precision number. -/
structure Binary64 where
  bits : UInt64
  deriving DecidableEq, Repr, Inhabited, Hashable

namespace Binary64

/-- The eleven exponent bits. -/
def exponentBits (x : Binary64) : Nat :=
  (x.bits.toNat / 2 ^ 52) % 2 ^ 11

/-- The fraction bits. -/
def fractionBits (x : Binary64) : Nat :=
  x.bits.toNat % 2 ^ 52

/-- Whether the sign bit is set. -/
def isNegative (x : Binary64) : Bool :=
  2 ^ 63 ≤ x.bits.toNat

def isNaN (x : Binary64) : Bool :=
  x.exponentBits == 2047 && x.fractionBits != 0

def isInfinite (x : Binary64) : Bool :=
  x.exponentBits == 2047 && x.fractionBits == 0

def isFinite (x : Binary64) : Bool :=
  x.exponentBits != 2047

/-- The size of a finite number, as a whole number and the power of two it is times. -/
def parts (x : Binary64) : Nat × Int :=
  if x.exponentBits == 0 then (x.fractionBits, -1074)
  else (x.fractionBits + 2 ^ 52, (x.exponentBits : Int) - 1075)

/-- The size of a finite number as a ratio of whole numbers. -/
def ratio (x : Binary64) : Nat × Nat :=
  scaleTwo x.parts.1 1 x.parts.2

/-- A number from its sign and the other bits. -/
def ofSize (negative : Bool) (size : Nat) : Binary64 :=
  ⟨UInt64.ofNat (if negative then size + 2 ^ 63 else size)⟩

def zero : Binary64 := ofSize false 0

def negativeZero : Binary64 := ofSize true 0

def infinity (negative : Bool) : Binary64 := ofSize negative (2047 * 2 ^ 52)

/-- The value an operation gives that has no result. -/
def indefinite : Binary64 := ofSize true (2047 * 2 ^ 52 + 2 ^ 51)

/-- A value that is not a number, with a clear sign. -/
def nan : Binary64 := ofSize false (2047 * 2 ^ 52 + 2 ^ 51)

/-- The bits of the number nearest to `num / den`, without the sign. -/
def sizeOfRatio (num den : Nat) : Nat :=
  if num == 0 || den == 0 then 0
  else
    let guess : Int := max ((num.log2 : Int) - den.log2 - 53) (-1074)
    let floor := let r := scaleTwo num den (-guess); r.1 / r.2
    let q := if 2 ^ 53 ≤ floor then guess + 1 else guess
    let m := let r := scaleTwo num den (-q); roundDiv r.1 r.2
    -- a carry out of the fraction falls into the exponent, where it belongs
    let size := if m < 2 ^ 52 then m else ((q + 1074).toNat) * 2 ^ 52 + m
    min size (2047 * 2 ^ 52)

/-- The number nearest to `num / den`; a half goes to the even neighbour, and what is too large is
infinite. -/
def ofRatio (negative : Bool) (num den : Nat) : Binary64 :=
  ofSize negative (sizeOfRatio num den)

/-- The number nearest to a whole number. -/
def ofInt (i : Int) : Binary64 :=
  ofRatio (i < 0) i.natAbs 1

/-- The number nearest to `coefficient` times ten to the power `exponent`. Far beyond the largest
and the smallest number the exponent is not spelled out. -/
def ofDecimal (negative : Bool) (coefficient : Nat) (exponent : Int) : Binary64 :=
  if coefficient == 0 then ofSize negative 0
  else
    let top := (coefficient.log2 : Int) / 4 + exponent
    let bottom := (coefficient.log2 : Int) / 3 + 1 + exponent
    if 400 < top then infinity negative
    else if bottom < -400 then ofSize negative 0
    else if exponent < 0 then ofRatio negative coefficient (10 ^ (-exponent).toNat)
    else ofRatio negative (coefficient * 10 ^ exponent.toNat) 1

/-- The number nearest to `coefficient` times two to the power `exponent`. -/
def ofBinary (negative : Bool) (coefficient : Nat) (exponent : Int) : Binary64 :=
  if coefficient == 0 then ofSize negative 0
  else
    let top := (coefficient.log2 : Int) + exponent
    if 1100 < top then infinity negative
    else if top < -1100 then ofSize negative 0
    else let r := scaleTwo coefficient 1 exponent; ofRatio negative r.1 r.2

def toFloat (x : Binary64) : Float :=
  Float.ofBits x.bits

/-- The bits of a machine result; what is not a number is `indefinite`. -/
def ofFloat (f : Float) : Binary64 :=
  if f.isNaN then indefinite else ⟨f.toBits⟩

/-- The result of an operation with one operand: what is not a number passes through. -/
def lift₁ (op : Float → Float) (x : Binary64) : Binary64 :=
  if x.isNaN then x else ofFloat (op x.toFloat)

/-- The result of an operation with two operands: the first that is not a number passes
through. -/
def lift₂ (op : Float → Float → Float) (x y : Binary64) : Binary64 :=
  if x.isNaN then x else if y.isNaN then y else ofFloat (op x.toFloat y.toFloat)

def add : Binary64 → Binary64 → Binary64 := lift₂ (· + ·)

def sub : Binary64 → Binary64 → Binary64 := lift₂ (· - ·)

def mul : Binary64 → Binary64 → Binary64 := lift₂ (· * ·)

def div : Binary64 → Binary64 → Binary64 := lift₂ (· / ·)

/-- The power; to the power zero and of one, everything gives one. -/
def pow (x y : Binary64) : Binary64 :=
  ofFloat (Float.pow x.toFloat y.toFloat)

def floor : Binary64 → Binary64 := lift₁ Float.floor

def ceil : Binary64 → Binary64 := lift₁ Float.ceil

/-- Turns the sign bit over. -/
def neg (x : Binary64) : Binary64 :=
  ⟨x.bits ^^^ 0x8000000000000000⟩

/-- The sign cleared. -/
def abs (x : Binary64) : Binary64 :=
  ⟨x.bits &&& 0x7FFFFFFFFFFFFFFF⟩

/-- The value of a finite number times `2 ^ 1074`, a whole number. -/
def scaled (x : Binary64) : Int :=
  let size : Nat := x.parts.1 * 2 ^ (x.parts.2 + 1074).toNat
  if x.isNegative then -(size : Int) else size

/-- The place of a number among all that have an order. -/
inductive Rank where
  | below
  | at (scaled : Int)
  | above
  deriving DecidableEq

/-- The place of a number; none for what is not a number. -/
def rank (x : Binary64) : Option Rank :=
  if x.isNaN then none
  else if x.isInfinite then some (if x.isNegative then .below else .above)
  else some (.at x.scaled)

/-- The place of a whole number. -/
def Rank.ofInt (i : Int) : Rank :=
  .at (i * 2 ^ 1074)

def Rank.lt : Rank → Rank → Bool
  | .below, .below => false
  | .below, _ => true
  | .at _, .below => false
  | .at a, .at b => a < b
  | .at _, .above => true
  | .above, _ => false

/-- Equality of the values: the two zeros are equal, what is not a number equals nothing. -/
def same (x y : Binary64) : Bool :=
  match x.rank, y.rank with
  | some a, some b => a == b
  | _, _ => false

def lt (x y : Binary64) : Bool :=
  match x.rank, y.rank with
  | some a, some b => a.lt b
  | _, _ => false

def le (x y : Binary64) : Bool :=
  lt x y || same x y

/-- The whole number a finite number is, if it is one. -/
def toInt? (x : Binary64) : Option Int :=
  if !x.isFinite then none
  else if x.scaled % 2 ^ 1074 = 0 then some (x.scaled / 2 ^ 1074) else none

/-- The greatest whole number not above a finite number. -/
def floorInt? (x : Binary64) : Option Int :=
  if x.isFinite then some (x.scaled / 2 ^ 1074) else none

/-- The remainder of the division toward zero, with the sign of `x`. -/
def remTruncated (x y : Binary64) : Binary64 :=
  if x.isNaN then x else if y.isNaN then y
  else if x.isInfinite || y.abs = zero then indefinite
  else if y.isInfinite then x
  else
    let size := x.scaled.natAbs % y.scaled.natAbs
    ofBinary x.isNegative size (-1074)

end Binary64

end ScriptHost.Number
