/-!
# Blanks and words

The characters that separate words, and the cuts made at them: trimming both ends, and taking a
few words off the front while the rest stays whole.
-/
namespace ScriptHost.Text

/-- A character that separates words: the controls from tab to carriage return and from file to
unit separator, and every character with the space property. -/
def isBlank (c : Char) : Bool :=
  let n := c.toNat
  (9 ≤ n && n ≤ 13) || (28 ≤ n && n ≤ 32) || n == 0x85 || n == 0xA0 || n == 0x1680
    || (0x2000 ≤ n && n ≤ 0x200A) || n == 0x2028 || n == 0x2029 || n == 0x202F || n == 0x205F
    || n == 0x3000

/-- Drops the blanks at the end. -/
def trimEnd (cs : List Char) : List Char :=
  (cs.reverse.dropWhile isBlank).reverse

/-- Drops the blanks at both ends. -/
def trim (cs : List Char) : List Char :=
  trimEnd (cs.dropWhile isBlank)

/-- The first `n` words of `cs` and, as a last entry, what follows them without the blanks in
front of it. Nothing is listed for a rest that is blank. -/
def splitWords : Nat → List Char → List (List Char)
  | n, cs =>
    match cs.dropWhile isBlank, n with
    | [], _ => []
    | rest, 0 => [rest]
    | rest, n + 1 =>
      rest.takeWhile (!isBlank ·) :: splitWords n (rest.dropWhile (!isBlank ·))

/-- A text without the blanks at both ends. -/
def strip (s : String) : String :=
  String.ofList (trim s.toList)

end ScriptHost.Text
