import ScriptHost.Script.Library.Arguments

/-!
# Formats

Texts made of a format and values. A directive of a format is kept as it was written, since a
message about it shows it; what it asks for is read from it once it is known to be allowed.
-/
namespace ScriptHost.Script.Library

open Text (Bytes)
open Number (Binary64)

/-! ### Directives -/

/-- A directive of a format: what is done with an argument and how it is padded. -/
structure Directive where
  left : Bool
  plus : Bool
  zero : Bool
  space : Bool
  alternate : Bool
  width : Nat
  precision : Option Nat
  conversion : UInt8
  deriving Repr

namespace Directive

/-- At most two digits at the front. -/
def someDigits (s : Bytes) : Bytes :=
  (s.take 2).takeWhile isDigit

/-- Reads a directive after its percent sign: flags, a width that does not begin with a zero, a
precision and the letter of the conversion. None for anything else. -/
def read? (allowed : String) (hasPrecision : Bool) (s : Bytes) : Option Directive :=
  let flags := s.takeWhile fun b => allowed.toList.contains (Char.ofNat b.toNat)
  let s := s.drop flags.length
  let width := if s.head? = some 48 then [] else someDigits s
  let s := s.drop width.length
  let (precision, s) : Option Nat × Bytes := match s with
    | 46 :: rest =>
      if hasPrecision then
        let ds := someDigits rest
        (some (digitsValue 10 ds), rest.drop ds.length)
      else (none, s)
    | s => (none, s)
  match s with
  | [b] =>
    if isLetter b then
      some ⟨flags.contains 45, flags.contains 43, flags.contains 48, flags.contains 32,
        flags.contains 35, digitsValue 10 width, precision, b⟩
    else none
  | _ => none

/-- Pads bytes to the width of a directive with blanks. -/
def padBytes (d : Directive) (body : Bytes) : Bytes :=
  let room := List.replicate (d.width - body.length) 32
  if d.left then body ++ room else room ++ body

/-- Pads a sign and a body to the width of a directive, with zeros between them or with blanks. -/
def pad (d : Directive) (sign body : List Char) (zeros : Bool) : Bytes :=
  let room := d.width - sign.length - body.length
  let zeros := if zeros && !d.left then List.replicate room '0' else []
  d.padBytes (Text.encode (String.ofList (sign ++ zeros ++ body)))

/-- The sign in front of a number. -/
def sign (d : Directive) (negative : Bool) : List Char :=
  if negative then ['-'] else if d.plus then ['+'] else if d.space then [' '] else []

/-- A whole number in a directive. -/
def int (d : Directive) (i : Int64) : Bytes :=
  let digits := fun (base n : Nat) =>
    let ds := if n = 0 && d.precision = some 0 then [] else Nat.toDigits base n
    List.replicate (d.precision.getD 1 - ds.length) '0' ++ ds
  let unsigned := i.toUInt64.toNat
  let zeros := d.zero && d.precision.isNone
  match Char.ofNat d.conversion.toNat with
  | 'x' => d.pad (if d.alternate && i ≠ 0 then ['0', 'x'] else []) (digits 16 unsigned) zeros
  | 'X' =>
    d.pad (if d.alternate && i ≠ 0 then ['0', 'X'] else [])
      ((digits 16 unsigned).map Char.toUpper) zeros
  | 'o' =>
    let ds := digits 8 unsigned
    d.pad [] (if d.alternate && ds.head? ≠ some '0' then '0' :: ds else ds) zeros
  | 'u' => d.pad [] (digits 10 unsigned) zeros
  | _ => d.pad (d.sign (i < 0)) (digits 10 i.toInt.natAbs) zeros

/-- The size of a finite number in hexadecimal digits, so many of them after the point or as many
as it has. -/
def hexText (precision : Option Nat) (alternate : Bool) (x : Binary64) : List Char :=
  let isZero := x.abs = .zero
  let (m, q) := x.parts
  let places : Nat := 13
  let m := if isZero then 0 else m
  let exponent : Int := if isZero then 0 else q + 4 * (places : Int)
  let kept := min (precision.getD places) places
  let unit := 16 ^ (places - kept)
  let n := if kept = places then m else Number.roundDiv m unit
  let digits := Nat.toDigits 16 (n % 16 ^ kept)
  let fraction := if kept = 0 then [] else List.replicate (kept - digits.length) '0' ++ digits
  let fraction := match precision with
    | none => (fraction.reverse.dropWhile (· == '0')).reverse
    | some p => fraction ++ List.replicate (p - kept) '0'
  let point := if fraction.isEmpty && !alternate then [] else ['.']
  let power := (if exponent < 0 then '-' else '+') :: Nat.toDigits 10 exponent.natAbs
  Nat.toDigits 16 (n / 16 ^ kept) ++ point ++ fraction ++ 'p' :: power

/-- A text of digits with a point, if one is wanted even where nothing follows it. -/
def withPoint (alternate : Bool) (ds : List Char) : List Char :=
  if !alternate || ds.contains '.' then ds
  else ds.takeWhile (· != 'e') ++ '.' :: ds.dropWhile (· != 'e')

/-- A double precision number in a directive. -/
def float (d : Directive) (x : Binary64) : Bytes :=
  let precision := d.precision.getD 6
  let letter := (Char.ofNat d.conversion.toNat).toLower
  let size := x.abs
  let body :=
    if x.isNaN then ['n', 'a', 'n']
    else if x.isInfinite then ['i', 'n', 'f']
    else match letter with
      | 'a' => hexText d.precision d.alternate size
      | 'f' => withPoint d.alternate (Number.fixedText precision size)
      | 'e' => withPoint d.alternate (Number.scientificText precision size)
      | _ =>
        if d.alternate then withPoint true (Number.generalTextPadded precision size)
        else Number.generalText precision size
  let mark := if letter == 'a' && x.isFinite then ['0', 'x'] else []
  let raise := fun (cs : List Char) => if d.conversion < 97 then cs.map Char.toUpper else cs
  d.pad (d.sign x.isNegative ++ raise mark) (raise body) (d.zero && x.isFinite)

end Directive

/-! ### Values that read back -/

/-- A text that reads back as a text. -/
def quotedText : Bytes → Bytes
  | s => 34 :: go s
where
  go : Bytes → Bytes
    | [] => [34]
    | b :: rest =>
      let more := go rest
      if b == 34 || b == 92 || b == 10 then 92 :: b :: more
      else if b < 32 || b == 127 then
        let ds := Nat.toDigits 10 b.toNat
        let followed := (rest.head?.map isDigit).getD false
        let ds := if followed then List.replicate (3 - ds.length) '0' ++ ds else ds
        Text.encode (String.ofList ('\\' :: ds)) ++ more
      else b :: more

/-- A text that reads back as the value, if there is one. -/
def literal? (v : Value) : Option Bytes :=
  let plain := fun (s : String) => some (Text.encode s)
  match v with
  | .text s => some (quotedText s)
  | .int i => if i = Int64.minValue then plain "0x8000000000000000" else some (intText i)
  | .float x =>
    if x.isNaN then plain "(0/0)"
    else if x.isInfinite then plain (if x.isNegative then "-1e9999" else "1e9999")
    else
      let sign := if x.isNegative then "-0x" else "0x"
      plain (sign ++ String.ofList (Directive.hexText none false x.abs))
  | .nil => plain "nil"
  | .bool b => plain (if b then "true" else "false")
  | _ => none

/-! ### Formatting -/

section

variable (c : Invocation)

/-- A written directive as messages show it; it ends before a zero byte. -/
def shownDirective (written : Bytes) : Bytes :=
  (37 :: written).takeWhile (· != 0)

/-- Reads a directive with the flags that are allowed for it. -/
def directive (written : Bytes) (flags : String) (hasPrecision : Bool) : Eval Directive :=
  match Directive.read? flags hasPrecision written with
  | some d => pure d
  | none =>
    c.failAt 1 (Text.encode "invalid conversion specification: '" ++ shownDirective written
      ++ Text.encode "'")

/-- The text of an argument, cut and padded. -/
def formatText (written : Bytes) (n : Nat) : Eval Bytes := do
  let s ← c.show (c.arg n)
  if written.length ≤ 1 then return s
  if s.contains 0 then c.failArgWith n "string contains zeros"
  let d ← directive c written "-" true
  match d.precision with
  | none => return if 100 ≤ s.length then s else d.padBytes s
  | some p => return d.padBytes (s.take p)

/-- The text of one directive with the argument of a number. -/
def formatOne (written : Bytes) (n : Nat) : Eval Bytes := do
  let int := fun (flags : String) => do
    let i ← c.int n
    return (← directive c written flags true).int i
  match (written.getLast?.map fun b => Char.ofNat b.toNat).getD '\x00' with
  | 'c' =>
    let d ← directive c written "-" false
    return d.padBytes [UInt8.ofNat ((← c.int n).toInt % 256).toNat]
  | 'd' | 'i' => int "-+0 "
  | 'u' => int "-0"
  | 'o' | 'x' | 'X' => int "-#0"
  | 'a' | 'A' =>
    let d ← directive c written "-+#0 " true
    return d.float (← c.float n)
  | 'e' | 'E' | 'f' | 'g' | 'G' =>
    let x ← c.float n
    return (← directive c written "-+#0 " true).float x
  | 'p' =>
    let d ← directive c written "-" false
    match c.arg n with
    | .nil | .bool _ | .int _ | .float _ => return d.padBytes (Text.encode "(null)")
    | .text _ | .native _ => return d.padBytes (Text.encode s!"0x{placeDigits 0}")
    | .table p | .function p | .foreign p | .thread p =>
      return d.padBytes (Text.encode s!"0x{placeDigits p}")
  | 'q' =>
    if 1 < written.length then c.refuse "specifier '%q' cannot have modifiers"
    match literal? (c.arg n) with
    | some s => return s
    | none => c.failArgWith n "value has no literal form"
  | 's' => formatText c written n
  | _ =>
    c.failAt 1 (Text.encode "invalid conversion '" ++ shownDirective written
      ++ Text.encode "' to 'format'")

/-- How long a directive may be. -/
def directiveLimit : Nat := 22

/-- The directive at the front of a format, after its percent sign. -/
def writtenDirective (s : Bytes) : Eval Bytes := do
  let marks := s.takeWhile fun b => isDigit b || (Text.encode "-+ #.").contains b
  if directiveLimit ≤ marks.length + 1 then c.refuse "invalid format (too long)"
  return s.take (marks.length + 1)

def format : Eval (List Value) := do
  let whole ← c.text 1
  let text ← Eval.repeating (fun ((s, n, acc) : Bytes × Nat × List Bytes) => do
    match s with
    | [] => return .inr acc.reverse.flatten
    | 37 :: 37 :: rest => return .inl (rest, n, [37] :: acc)
    | 37 :: rest =>
      unless c.has n do c.failArgWith n "no value"
      let written ← writtenDirective c rest
      let piece ← formatOne c written n
      return .inl (rest.drop written.length, n + 1, piece :: acc)
    | _ =>
      let plain := s.takeWhile (· != 37)
      return .inl (s.drop plain.length, n, plain :: acc)) (whole, 2, [])
  return [.text text]

end

end ScriptHost.Script.Library
