import ScriptHost.Fault
import ScriptHost.Settings.Value
import ScriptHost.Text.Digit
import ScriptHost.Text.LetterCase

/-!
# Scalars

A scalar without quotes tells by its form alone of what kind it is: a truth value, a number, a date,
nothing, or a text. `Kind.ofText` tells the kind, and `Kind.read` the value of a text that is said
to be of a kind; a tag may say so of a text with any form, so reading may fail.
-/
namespace ScriptHost.Settings

open Number (Binary64)

/-- What a node of a settings file is meant to be. -/
inductive Kind where
  | null | bool | int | float | bytes | moment | text
  | list | map | set
  /-- Lists of pairs. -/
  | pairs
  /-- The key that takes other maps in. -/
  | merge
  /-- The key whose value stands for a whole map. -/
  | value
  /-- Nothing that is known here. -/
  | unknown
  deriving DecidableEq, Repr, Inhabited

namespace Kind

/-! ### Forms -/

/-- The words for truth values. -/
def truthWords : List String :=
  ["yes", "Yes", "YES", "no", "No", "NO", "true", "True", "TRUE", "false", "False", "FALSE",
    "on", "On", "ON", "off", "Off", "OFF"]

/-- The words for nothing. -/
def nothings : List String := ["", "~", "null", "Null", "NULL"]

/-- What follows a sign, if there is one. -/
def dropSign : List Char → List Char
  | '-' :: rest | '+' :: rest => rest
  | cs => cs

/-- Whether a text is not empty and made of some characters and underscores. -/
def madeOf (p : Char → Bool) (cs : List Char) : Bool :=
  !cs.isEmpty && cs.all fun c => p c || c = '_'

def isOctal (c : Char) : Bool := '0' ≤ c && c ≤ '7'

def isHex (c : Char) : Bool :=
  c.isDigit || ('a' ≤ c && c ≤ 'f') || ('A' ≤ c && c ≤ 'F')

/-- The pieces between colons. -/
def splitColons (cs : List Char) : List (List Char) :=
  cs.foldr (fun c acc =>
    if c = ':' then [] :: acc
    else match acc with
      | [] => [[c]]
      | piece :: rest => (c :: piece) :: rest) [[]]

/-- Whether a piece counts up to sixty. -/
def isSixty : List Char → Bool
  | [a] => a.isDigit
  | [a, b] => '0' ≤ a && a ≤ '5' && b.isDigit
  | _ => false

/-- A decimal numeral that begins with a digit, underscores allowed after it. -/
def isDecimal : List Char → Bool
  | c :: rest => c.isDigit && rest.all fun d => d.isDigit || d = '_'
  | [] => false

/-- Whether a text has the form of a whole number: binary, octal, hexadecimal, decimal, or decimal
in parts of sixty. -/
def isInt (cs : List Char) : Bool :=
  match dropSign cs with
  | '0' :: 'b' :: ds => madeOf (fun c => c = '0' || c = '1') ds
  | '0' :: 'x' :: ds => madeOf isHex ds
  | ['0'] => true
  | '0' :: ds => madeOf isOctal ds
  | ds =>
    match splitColons ds with
    | first :: rest => isDecimal first && rest.all isSixty
    | [] => false

/-- Whether a text is nothing or an exponent: a mark, a sign and digits. -/
def isExponent : List Char → Bool
  | [] => true
  | c :: sign :: ds =>
    (c = 'e' || c = 'E') && (sign = '+' || sign = '-') && !ds.isEmpty && ds.all Char.isDigit
  | _ => false

/-- Whether a text has the form of a number with a point, or of a number beyond all others. -/
def isFloat (cs : List Char) : Bool :=
  let ds := dropSign cs
  let isSigned := ds.length < cs.length
  if [".inf", ".Inf", ".INF"].contains (String.ofList ds) then true
  else if [".nan", ".NaN", ".NAN"].contains (String.ofList cs) then true
  else
    let whole := ds.takeWhile (· ≠ '.')
    match ds.dropWhile (· ≠ '.') with
    | [] => false
    | _ :: after =>
      let fraction := after.takeWhile fun c => c.isDigit || c = '_'
      let rest := after.dropWhile fun c => c.isDigit || c = '_'
      if whole.isEmpty then !isSigned && isDecimal fraction && isExponent rest
      else if isDecimal whole then isExponent rest
      else
        match splitColons whole with
        | first :: sixties =>
          isDecimal first && !sixties.isEmpty && sixties.all isSixty && rest.isEmpty
        | [] => false

/-- A text without the line end it may end in. -/
def dropLineEnd (cs : List Char) : List Char :=
  if cs.getLast? = some '\n' then cs.dropLast else cs

/-- Whether a text has the form of a date or of a moment. A date alone is written in full. -/
def isMoment (cs : List Char) : Bool :=
  match Written.read? cs with
  | some w => w.isFull || w.time.isSome
  | none => false

/-- The kind of a scalar by its form. A line end after a form is no part of it. -/
def ofText (s : String) : Kind :=
  if s = "" then .null
  else
    let cs := dropLineEnd s.toList
    let form := String.ofList cs
    if cs.isEmpty then .text
    else if truthWords.contains form then .bool
    else if isFloat cs then .float
    else if isInt cs then .int
    else if form = "<<" then .merge
    else if nothings.contains form then .null
    else if isMoment cs then .moment
    else if form = "=" then .value
    else if ["!", "&", "*"].contains form then .unknown
    else .text

/-- The kind that a full tag names. -/
def ofTag (tag : String) : Kind :=
  let names := [("null", null), ("bool", bool), ("int", int), ("float", float), ("binary", bytes),
    ("timestamp", moment), ("str", text), ("seq", list), ("map", map), ("set", set),
    ("omap", pairs), ("pairs", pairs), ("merge", merge), ("value", value)]
  match names.find? fun (x, _) => tag = "tag:yaml.org,2002:" ++ x with
  | some (_, k) => k
  | none => .unknown

/-! ### Reading -/

def withoutUnderscores (s : String) : String :=
  String.ofList (s.toList.filter (· ≠ '_'))

/-- A sign and what follows it. What is empty has no first character. -/
def takeSign (s : String) : Except Fault (Bool × String) :=
  match s.toList with
  | [] => .error (.indexOutOfRange "string")
  | c :: rest =>
    if c = '-' || c = '+' then .ok (c = '-', String.ofList rest) else .ok (false, s)

/-- The value of a digit or of a letter after the digits. -/
def digitValue? (c : Char) : Option Nat :=
  if c.isDigit then some (c.toNat - '0'.toNat)
  else if 'a' ≤ c && c ≤ 'z' then some (c.toNat - 'a'.toNat + 10)
  else if 'A' ≤ c && c ≤ 'Z' then some (c.toNat - 'A'.toNat + 10)
  else none

/-- How many decimal digits are read. -/
def digitLimit : Nat := 4300

/-- Digits without the mark of their base that may stand in front. -/
def dropBaseMark (base : Nat) (cs : List Char) : List Char :=
  match cs with
  | '0' :: c :: rest =>
    if (base = 16 && (c = 'x' || c = 'X')) || (base = 8 && (c = 'o' || c = 'O'))
        || (base = 2 && (c = 'b' || c = 'B')) then rest else cs
  | cs => cs

/-- The whole number in a base that a text spells. -/
def integer (base : Nat) (s : String) : Except Fault Int :=
  let cs := Text.numeralChars s
  let isNegative := cs.head? = some '-'
  let ds := dropBaseMark base (dropSign cs)
  match ds.mapM digitValue? with
  | some values =>
    if values.isEmpty || values.any (base ≤ ·) then .error (.noInteger base (Text.quote s))
    else if base = 10 && digitLimit < values.length then .error (.tooManyDigits values.length)
    else
      let n := values.foldl (fun a v => a * base + v) 0
      .ok (if isNegative then -(n : Int) else n)
  | none => .error (.noInteger base (Text.quote s))

/-- The number that digits at some places make, the last place first. -/
def sixties (parts : List Int) : Int :=
  parts.foldl (fun a n => a * 60 + n) 0

def readInt (s : String) : Except Fault Int := do
  let (isNegative, ds) ← takeSign (withoutUnderscores s)
  let n ← match ds.toList with
    | [] => throw (.indexOutOfRange "string")
    | ['0'] => pure 0
    | '0' :: 'b' :: rest => integer 2 (String.ofList rest)
    | '0' :: 'x' :: rest => integer 16 (String.ofList rest)
    | '0' :: _ => integer 8 ds
    | cs =>
      match splitColons cs with
      | [_] => integer 10 ds
      | pieces => sixties <$> pieces.mapM fun p => integer 10 (String.ofList p)
  return if isNegative then -n else n

/-- The digits of a decimal numeral around its point. -/
structure DecimalParts where
  whole : List Char
  fraction : List Char
  exponent : Int

/-- Cuts an unsigned decimal numeral into its parts. -/
def decimalParts? (cs : List Char) : Option DecimalParts :=
  let whole := cs.takeWhile Char.isDigit
  let (fraction, rest) := match cs.dropWhile Char.isDigit with
    | '.' :: rest => (rest.takeWhile Char.isDigit, rest.dropWhile Char.isDigit)
    | rest => ([], rest)
  if whole.isEmpty && fraction.isEmpty then none
  else
    match rest with
    | [] => some ⟨whole, fraction, 0⟩
    | c :: rest =>
      let ds := dropSign rest
      if (c = 'e' || c = 'E') && !ds.isEmpty && ds.all Char.isDigit then
        let n : Int := digitsNumber ds
        some ⟨whole, fraction, if rest.head? = some '-' then -n else n⟩
      else none

/-- The number of double precision that a text spells. -/
def number (s : String) : Except Fault Binary64 :=
  let cs := Text.numeralChars s
  let isNegative := cs.head? = some '-'
  let ds := dropSign cs
  let word := (String.ofList ds).toLower
  if word = "inf" || word = "infinity" then .ok (Binary64.infinity isNegative)
  else if word = "nan" then .ok Binary64.nan
  else
    match decimalParts? ds with
    | some p =>
      .ok (Binary64.ofDecimal isNegative (digitsNumber (p.whole ++ p.fraction))
        (p.exponent - p.fraction.length))
    | none => .error (.noNumber (Text.quote s))

/-- The number that numbers in parts of sixty make, each part added in turn from the last on. -/
def sixtieths (parts : List Binary64) : Except Fault Binary64 := do
  let (total, _) ← parts.reverse.foldlM (fun ((total, base) : Binary64 × Int) x => do
    let b := Binary64.ofInt base
    if b.isInfinite then throw .integerTooLargeForFloat
    return (total.add (x.mul b), base * 60)) (.zero, (1 : Int))
  return total

def readFloat (s : String) : Except Fault Binary64 := do
  let s := String.ofList (Text.lower (withoutUnderscores s).toList)
  let (isNegative, ds) ← takeSign s
  let signed := fun (x : Binary64) => if isNegative then x.neg else x
  if ds = ".inf" then return Binary64.infinity isNegative
  if ds = ".nan" then return Binary64.nan
  match splitColons ds.toList with
  | [_] => signed <$> number ds
  | pieces => signed <$> (sixtieths =<< pieces.mapM fun p => number (String.ofList p))

def readBool (s : String) : Except Fault Bool :=
  let word := String.ofList (Text.lower s.toList)
  if ["yes", "true", "on"].contains word then .ok true
  else if ["no", "false", "off"].contains word then .ok false
  else .error (.keyMissing (Text.quote word))

def readMoment (s : String) : Except Fault Value :=
  match Written.read? (dropLineEnd s.toList) with
  | none => .error (.noAttribute "NoneType" "groupdict")
  | some w =>
    let checked := fun (r : Except MomentFault Unit) (v : Value) =>
      match r with
      | .ok _ => .ok v
      | .error f => .error (.moment f.message)
    match w.time with
    | none => checked w.date.check (.date w.date)
    | some m => checked m.check (.moment m)

/-! ### Bytes -/

/-- The six bits a letter stands for. -/
def sixBits? (c : Char) : Option Nat :=
  if 'A' ≤ c && c ≤ 'Z' then some (c.toNat - 'A'.toNat)
  else if 'a' ≤ c && c ≤ 'z' then some (c.toNat - 'a'.toNat + 26)
  else if c.isDigit then some (c.toNat - '0'.toNat + 52)
  else if c = '+' then some 62
  else if c = '/' then some 63
  else none

/-- The bytes that letters of six bits spell, the last first; other characters do not count. `at_`
is how many letters of a group of four have been read, `left` the bits of the last that are not yet
in a byte and `pads` how many marks for an end there are in a row. None if the last group is not
whole. -/
def sixBitBytes (at_ left pads : Nat) (acc : Text.Bytes) : List Char → Option Text.Bytes
  | [] => if at_ = 0 then some acc else none
  | c :: rest =>
    if c = '=' then
      if at_ < 2 then sixBitBytes at_ left pads acc rest
      else if 4 ≤ at_ + pads + 1 then some acc
      else sixBitBytes at_ left (pads + 1) acc rest
    else
      match sixBits? c with
      | none => sixBitBytes at_ left pads acc rest
      | some v =>
        match at_ with
        | 0 => sixBitBytes 1 v 0 acc rest
        | 1 => sixBitBytes 2 (v % 16) 0 (UInt8.ofNat (left * 4 + v / 16) :: acc) rest
        | 2 => sixBitBytes 3 (v % 4) 0 (UInt8.ofNat (left * 16 + v / 4) :: acc) rest
        | _ => sixBitBytes 0 0 0 (UInt8.ofNat (left * 64 + v) :: acc) rest

def readBytes (s : String) : Except Fault Text.Bytes :=
  let wrong := .error (.settings "failed to decode base64 data")
  if s.toList.any (128 ≤ ·.toNat) then wrong
  else
    match sixBitBytes 0 0 0 [] s.toList with
    | some b => .ok b.reverse
    | none => wrong

/-- The value of a text that is said to be of a kind of scalars. -/
def read (k : Kind) (s : String) : Except Fault Value :=
  match k with
  | .null => .ok .null
  | .bool => .bool <$> readBool s
  | .int => .int <$> readInt s
  | .float => .float <$> readFloat s
  | .bytes => .bytes <$> readBytes s
  | .moment => readMoment s
  | .text => .ok (.text s)
  | _ => .error (.settings "could not determine a constructor")

end Kind

end ScriptHost.Settings
