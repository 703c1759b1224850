import ScriptHost.Text.Printable
import ScriptHost.Text.Utf8

/-!
# Quoted text

A text as one readable token: between single quotes, or between double quotes where it holds a
single quote and no double one. The quote, the backslash and every character that is not shown as
it is are spelled with a backslash.
-/
namespace ScriptHost.Text

/-- `n` in at least `width` hexadecimal digits. -/
def hexDigits (width n : Nat) : List Char :=
  let ds := Nat.toDigits 16 n
  List.replicate (width - ds.length) '0' ++ ds

/-- One character between quotes of the kind `q`. -/
def quoteChar (q c : Char) : List Char :=
  if c = q || c = '\\' then ['\\', c]
  else if c = '\n' then ['\\', 'n']
  else if c = '\r' then ['\\', 'r']
  else if c = '\t' then ['\\', 't']
  else if isPrintable c then [c]
  else if c.toNat < 0x100 then '\\' :: 'x' :: hexDigits 2 c.toNat
  else if c.toNat < 0x10000 then '\\' :: 'u' :: hexDigits 4 c.toNat
  else '\\' :: 'U' :: hexDigits 8 c.toNat

/-- The quote a text is put between. -/
def quoteMark (cs : List Char) : Char :=
  if cs.contains '\'' && !cs.contains '"' then '"' else '\''

/-- A text as a quoted token. -/
def quote (s : String) : String :=
  let q := quoteMark s.toList
  String.ofList (q :: s.toList.flatMap (quoteChar q) ++ [q])

/-- One byte between quotes of the kind `q`. -/
def quoteByte (q : Char) (b : UInt8) : List Char :=
  let c := Char.ofNat b.toNat
  if b < 32 || 126 < b then
    if c = '\n' || c = '\r' || c = '\t' then quoteChar q c else '\\' :: 'x' :: hexDigits 2 b.toNat
  else quoteChar q c

/-- Bytes as a quoted token. -/
def quoteBytes (b : Bytes) : String :=
  let q := quoteMark (b.map fun x => Char.ofNat x.toNat)
  String.ofList ('b' :: q :: b.flatMap (quoteByte q) ++ [q])

end ScriptHost.Text
