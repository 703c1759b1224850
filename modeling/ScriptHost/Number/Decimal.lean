import ScriptHost.Number.Binary64

/-!
# Decimal texts of numbers

`Decimal.shortest` finds the fewest digits that read back as the same number, and of those the
nearest; `Decimal.rounded` cuts a number to a given count of digits or places. How the digits are
then laid out, where the point stands and when an exponent is written, is a `Layout`.
-/
namespace ScriptHost.Number

/-- Ten to the power `p` divided out of `num / den`. -/
def scaleTen (num den : Nat) (p : Int) : Nat × Nat :=
  if p < 0 then (num * 10 ^ (-p).toNat, den) else (num, den * 10 ^ p.toNat)

/-- How many decimal digits a whole number has; zero has one. -/
def digitCount (n : Nat) : Nat :=
  (Nat.toDigits 10 n).length

/-- The place of the point in a positive ratio: the least `k` with `num / den < 10 ^ k`. -/
def pointPlace (num den : Nat) : Int :=
  if den ≤ num then digitCount (num / den)
  else
    let d := digitCount (den / num)
    if den = num * 10 ^ (d - 1) then 2 - (d : Int) else 1 - (d : Int)

/-- `coefficient` times ten to the power `exponent`. -/
structure Decimal where
  coefficient : Nat
  exponent : Int
  deriving DecidableEq, Repr

namespace Decimal

/-- The multiple of ten to the power `place` nearest to a ratio; a half goes to the even one. -/
def roundedAt (num den : Nat) (place : Int) : Decimal :=
  let r := scaleTen num den place
  ⟨roundDiv r.1 r.2, place⟩

/-- The decimal of `n` digits nearest to a positive ratio. -/
def rounded (num den n : Nat) : Decimal :=
  let d := roundedAt num den (pointPlace num den - n)
  -- a carry through all digits leaves one digit too many, and its last is zero
  if 10 ^ n ≤ d.coefficient then ⟨d.coefficient / 10, d.exponent + 1⟩ else d

/-- The numbers that round to a positive finite one: twice the bounds and the number itself, over
a common denominator, and whether the bounds belong to them. -/
structure Basin where
  low : Nat
  mid : Nat
  high : Nat
  den : Nat
  closed : Bool

/-- The basin of `m` times two to the power `q`. Below the least number of a power of two the
neighbours are twice as dense. -/
def Basin.of (m : Nat) (q : Int) : Basin :=
  let gap := if m == 2 ^ 52 && q != -1074 then 1 else 2
  let scale := fun k => (scaleTwo k 4 q).1
  ⟨scale (4 * m - gap), scale (4 * m), scale (4 * m + 2), (scaleTwo 1 4 q).2, m % 2 == 0⟩

/-- Whether `c` times ten to the power `place` lies in a basin. -/
def Basin.holds (b : Basin) (c : Nat) (place : Int) : Bool :=
  let lhs := if place < 0 then c * b.den else c * b.den * 10 ^ place.toNat
  let side := fun n => if place < 0 then n * 10 ^ (-place).toNat else n
  if b.closed then side b.low ≤ lhs && lhs ≤ side b.high
  else side b.low < lhs && lhs < side b.high

/-- The point of the grid of ten to the power `place` that lies in a basin and nearest to its
middle; of two equally near, the even one. -/
def Basin.pick? (b : Basin) (place : Int) : Option Decimal :=
  let r := scaleTen b.mid b.den place
  let lower := r.1 / r.2
  let near := roundDiv r.1 r.2
  let far := if near = lower then lower + 1 else lower
  if b.holds near place then some ⟨near, place⟩
  else if b.holds far place then some ⟨far, place⟩
  else none

/-- Drops the zeros at the end of the digits. -/
def strip (d : Decimal) : Nat → Decimal
  | 0 => d
  | fuel + 1 =>
    if d.coefficient % 10 == 0 && d.coefficient != 0 then
      strip ⟨d.coefficient / 10, d.exponent + 1⟩ fuel
    else d

/-- The first of the grids from `n` digits on, `left` of them, that meets a basin. -/
def firstPick (b : Basin) (top : Int) (n : Nat) : Nat → Decimal
  | 0 => roundedAt b.mid b.den (top - n)
  | left + 1 =>
    match b.pick? (top - n) with
    | some d => strip d 20
    | none => firstPick b top (n + 1) left

/-- The fewest digits that read back as a positive finite number, and of those the nearest. -/
def shortest (x : Binary64) : Decimal :=
  let b := Basin.of x.parts.1 x.parts.2
  firstPick b (pointPlace b.mid b.den) 1 17

/-- The digits of a decimal. -/
def digits (d : Decimal) : List Char :=
  Nat.toDigits 10 d.coefficient

/-- The power of ten of the first digit. -/
def lead (d : Decimal) : Int :=
  d.exponent + d.digits.length - 1

end Decimal

/-- How digits become a text. -/
structure Layout where
  /-- The least and the first too large power of ten of the first digit without an exponent. -/
  least : Int
  bound : Int
  /-- Whether a whole number without an exponent ends in a point and a zero. -/
  pointZero : Bool
  deriving Repr

/-- Digits with the point after the one of power `lead`, zeros filled in on either side. -/
def positional (ds : List Char) (lead : Int) : List Char × List Char :=
  if lead < 0 then (['0'], List.replicate (-lead - 1).toNat '0' ++ ds)
  else
    let n := lead.toNat + 1
    (ds.take n ++ List.replicate (n - ds.length) '0', ds.drop n)

/-- A whole part and, after a point, a fraction unless it is empty. -/
def withFraction (whole fraction : List Char) : List Char :=
  if fraction.isEmpty then whole else whole ++ '.' :: fraction

/-- An exponent: its sign and at least two digits. -/
def exponentText (e : Int) : List Char :=
  let ds := Nat.toDigits 10 e.natAbs
  (if e < 0 then '-' else '+') :: (if ds.length < 2 then '0' :: ds else ds)

/-- A decimal laid out. -/
def Layout.write (l : Layout) (d : Decimal) : List Char :=
  if l.least ≤ d.lead && d.lead < l.bound then
    let (whole, fraction) := positional d.digits d.lead
    withFraction whole (if fraction.isEmpty && l.pointZero then ['0'] else fraction)
  else
    match d.digits with
    | first :: rest => withFraction [first] rest ++ 'e' :: exponentText d.lead
    | [] => []

/-- Puts the sign before the text of a number's size, and names what has no digits. -/
def signed (x : Binary64) (nan : List Char) (size : List Char) : List Char :=
  if x.isNaN then nan
  else
    let body := if x.isInfinite then ['i', 'n', 'f'] else size
    if x.isNegative then '-' :: body else body

/-- The shortest text that reads back, positional from one ten thousandth up to ten to the
sixteenth, whole numbers with a point and a zero. -/
def shortestLayout : Layout := ⟨-4, 16, true⟩

/-- The shortest text that reads back as a number. -/
def shortestText (x : Binary64) : String :=
  let d := if x.abs = Binary64.zero then ⟨0, 0⟩ else Decimal.shortest x.abs
  String.ofList (signed x ['n', 'a', 'n'] (shortestLayout.write d))

/-- A finite number's size with `n` significant digits, without zeros at the end, positional where
the exponent is at least -4 and below `n`. -/
def generalText (n : Nat) (x : Binary64) : List Char :=
  let n := max n 1
  let d : Decimal := if x.abs = Binary64.zero then ⟨0, 0⟩
    else (Decimal.rounded x.ratio.1 x.ratio.2 n).strip n
  Layout.write ⟨-4, n, false⟩ d

/-- Like `generalText`, with the zeros at the end. -/
def generalTextPadded (n : Nat) (x : Binary64) : List Char :=
  let n := max n 1
  if x.abs = Binary64.zero then withFraction ['0'] (List.replicate (n - 1) '0')
  else Layout.write ⟨-4, n, false⟩ (Decimal.rounded x.ratio.1 x.ratio.2 n)

/-- A finite number's size with `n` places after the point. -/
def fixedText (n : Nat) (x : Binary64) : List Char :=
  let d := Decimal.roundedAt x.ratio.1 x.ratio.2 (-(n : Int))
  let ds := d.digits
  let ds := List.replicate (n + 1 - ds.length) '0' ++ ds
  withFraction (ds.take (ds.length - n)) (ds.drop (ds.length - n))

/-- A finite number's size with one digit before the point, `n` after it and an exponent. -/
def scientificText (n : Nat) (x : Binary64) : List Char :=
  let d : Decimal := if x.abs = Binary64.zero then ⟨0, -(n : Int)⟩
    else Decimal.rounded x.ratio.1 x.ratio.2 (n + 1)
  let ds := d.digits ++ List.replicate (n + 1 - d.digits.length) '0'
  let lead := if x.abs = Binary64.zero then 0 else d.lead
  withFraction (ds.take 1) (ds.drop 1) ++ 'e' :: exponentText lead

end ScriptHost.Number
