import ScriptHost.Number.Decimal
import ScriptHost.Text.Utf8

/-!
# Numerals

How scripts write numbers and read them from text. A numeral is a whole number of 64 bits where it
has the form of one and fits, and a double precision number otherwise; a hexadecimal whole number
wraps around. Blanks around a numeral do not count.
-/
namespace ScriptHost.Script

open Text (Bytes)
open Number (Binary64)

/-- A number of a script. -/
inductive Numeral where
  | int (value : Int64)
  | float (value : Binary64)
  deriving DecidableEq, Repr

/-- A blank of script text. -/
def isSpace (b : UInt8) : Bool :=
  b == 32 || (9 ≤ b && b ≤ 13)

def isDigit (b : UInt8) : Bool :=
  48 ≤ b && b ≤ 57

def isUpper (b : UInt8) : Bool :=
  65 ≤ b && b ≤ 90

def isLower (b : UInt8) : Bool :=
  97 ≤ b && b ≤ 122

def isLetter (b : UInt8) : Bool :=
  isUpper b || isLower b

/-- The value of a digit or letter, letters counting on from ten. -/
def digitValue? (b : UInt8) : Option Nat :=
  if isDigit b then some (b.toNat - 48)
  else if 97 ≤ b && b ≤ 122 then some (b.toNat - 87)
  else if 65 ≤ b && b ≤ 90 then some (b.toNat - 55)
  else none

def isHexDigit (b : UInt8) : Bool :=
  match digitValue? b with
  | some d => d < 16
  | none => false

/-- The whole number that digits of a base spell. -/
def digitsValue (base : Nat) (ds : Bytes) : Nat :=
  ds.foldl (fun n d => n * base + (digitValue? d).getD 0) 0

/-- Drops blanks at both ends. -/
def trimSpaces (s : Bytes) : Bytes :=
  ((s.dropWhile isSpace).reverse.dropWhile isSpace).reverse

/-- Takes a sign off the front. -/
def takeSign : Bytes → Bool × Bytes
  | 45 :: rest => (true, rest)
  | 43 :: rest => (false, rest)
  | s => (false, s)

/-- Takes the mark of hexadecimal numerals off the front. -/
def takeHexMark? : Bytes → Option Bytes
  | 48 :: 120 :: rest => some rest
  | 48 :: 88 :: rest => some rest
  | _ => none

/-- Splits digits with at most one point into the digits before and after it. -/
def splitPoint (isDig : UInt8 → Bool) (s : Bytes) : Bytes × Bytes × Bytes :=
  let whole := s.takeWhile isDig
  match s.dropWhile isDig with
  | 46 :: rest => (whole, rest.takeWhile isDig, rest.dropWhile isDig)
  | rest => (whole, [], rest)

/-- An exponent after one of two marks: none for a text that is not one, zero for none at all. -/
def readExponent? (lower upper : UInt8) : Bytes → Option Int
  | [] => some 0
  | m :: rest =>
    if m == lower || m == upper then
      let (negative, ds) := takeSign rest
      if ds.isEmpty || !ds.all isDigit then none
      else
        let ds := ds.dropWhile (· == 48)
        -- an exponent of more digits than this is as good as any other so large
        let n : Int := digitsValue 10 (if 12 < ds.length then [57, 57, 57, 57, 57, 57] else ds)
        some (if negative then -n else n)
    else none

/-- The whole number a numeral without blanks is, if it has that form and fits. -/
def readInt? (s : Bytes) : Option Int64 :=
  let (negative, body) := takeSign s
  match takeHexMark? body with
  | some ds =>
    if ds.isEmpty || !ds.all isHexDigit then none
    else
      let n := Int64.ofInt (digitsValue 16 ds)
      some (if negative then -n else n)
  | none =>
    if body.isEmpty || !body.all isDigit then none
    else
      let n := digitsValue 10 body
      if n < 2 ^ 63 then some (if negative then -Int64.ofNat n else Int64.ofNat n)
      else if n == 2 ^ 63 && negative then some Int64.minValue
      else none

/-- The double precision number a numeral without blanks is. -/
def readFloat? (s : Bytes) : Option Binary64 :=
  let (negative, body) := takeSign s
  match takeHexMark? body with
  | some ds =>
    let (whole, fraction, rest) := splitPoint isHexDigit ds
    if whole.isEmpty && fraction.isEmpty then none
    else
      (readExponent? 112 80 rest).map fun e =>
        Binary64.ofBinary negative (digitsValue 16 (whole ++ fraction))
          (e - 4 * (fraction.length : Int))
  | none =>
    let (whole, fraction, rest) := splitPoint isDigit body
    if whole.isEmpty && fraction.isEmpty then none
    else
      (readExponent? 101 69 rest).map fun e =>
        Binary64.ofDecimal negative (digitsValue 10 (whole ++ fraction))
          (e - (fraction.length : Int))

/-- The number a text is, blanks around it aside. -/
def Numeral.read? (s : Bytes) : Option Numeral :=
  let s := trimSpaces s
  match readInt? s with
  | some i => some (.int i)
  | none => (readFloat? s).map .float

/-- The digits of a whole number as script text. -/
def intText (i : Int64) : Bytes :=
  Text.encode (toString i.toInt)

/-- A double precision number as script text: fifteen digits where they read back as the same
number and seventeen where they do not, and a point and a zero after what would look whole. -/
def floatText (x : Binary64) : Bytes :=
  let chars :=
    if x.isNaN then if x.isNegative then ['-', 'n', 'a', 'n'] else ['n', 'a', 'n']
    else if x.isInfinite then if x.isNegative then ['-', 'i', 'n', 'f'] else ['i', 'n', 'f']
    else
      let short := Number.generalText 15 x.abs
      let back := readFloat? (Text.encode (String.ofList short))
      let size := if back = some x.abs then short else Number.generalText 17 x.abs
      let size := if size.all Char.isDigit then size ++ ['.', '0'] else size
      if x.isNegative then '-' :: size else size
  Text.encode (String.ofList chars)

def Numeral.text : Numeral → Bytes
  | .int i => intText i
  | .float x => floatText x

/-- The number as a double precision number. -/
def Numeral.toFloat : Numeral → Binary64
  | .int i => Binary64.ofInt i.toInt
  | .float x => x

/-- A whole number that fits 64 bits. -/
def fitInt? (i : Int) : Option Int64 :=
  if -(2 ^ 63 : Int) ≤ i && i < 2 ^ 63 then some (Int64.ofInt i) else none

/-- The whole number a number is equal to. -/
def Numeral.toInt? : Numeral → Option Int64
  | .int i => some i
  | .float x => x.toInt? >>= fitInt?

end ScriptHost.Script
