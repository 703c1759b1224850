import ScriptHost.Script.Numeral
import ScriptHost.Script.Syntax

/-!
# Tokens

Script text as a list of tokens. `tokenize` never fails: a text that goes wrong ends in a `bad`
token that carries the fault, so a reader meets an earlier fault of its own first. Each token keeps
the line it ends on and the text by which a fault near it is shown.
-/
namespace ScriptHost.Script

open Text (Bytes)
open Number (Binary64)

/-- The words of the language that are not names. -/
def reservedWords : List String :=
  ["and", "break", "do", "else", "elseif", "end", "false", "for", "function", "goto", "if", "in",
    "local", "nil", "not", "or", "repeat", "return", "then", "true", "until", "while"]

/-- The signs of more than one byte, longer ones first. -/
def longSigns : List String :=
  ["...", "..", "==", "<=", ">=", "~=", "//", "<<", ">>", "::"]

inductive Token where
  | name (text : Bytes)
  | string (value : Bytes)
  | number (value : Numeral)
  /-- A reserved word or a sign. -/
  | mark (text : String)
  /-- A byte that begins no token. -/
  | stray (byte : UInt8)
  | ended
  /-- A fault, as its whole message says it. -/
  | bad (fault : Bytes)
  deriving DecidableEq

/-- A token as it stands in a text. -/
structure Lexeme where
  token : Token
  /-- How a fault near the token shows it. -/
  shown : Bytes
  /-- The line the token ends on. -/
  line : Nat

/-- Script text from plain text. -/
def ascii (s : String) : Bytes :=
  Text.encode s

/-- A text between single quotes. -/
def quoted (s : Bytes) : Bytes :=
  39 :: s ++ [39]

/-- The quoted text of a token that is shown as read; it is cut at a zero byte. -/
def quotedRaw (s : Bytes) : Bytes :=
  quoted (s.takeWhile (· != 0))

/-- The text of a token's fault near the text `shown`. -/
def nearText (message : String) (shown : Bytes) : Bytes :=
  ascii message ++ ascii " near " ++ shown

/-- The end of a text, as faults show it. -/
def endShown : Bytes := ascii "<eof>"

/-- A letter or underscore. -/
def isNameStart (b : UInt8) : Bool :=
  b == 95 || isLetter b

def isNamePart (b : UInt8) : Bool :=
  isNameStart b || isDigit b

/-- A byte shown as it is. -/
def isGraphic (b : UInt8) : Bool :=
  32 ≤ b && b ≤ 126

def isLineEnd (b : UInt8) : Bool :=
  b == 10 || b == 13

/-- Drops a line end; two different ones next to each other are one. -/
def dropLineEnd : Bytes → Bytes
  | a :: b :: rest => if isLineEnd b && a != b then rest else b :: rest
  | [_] => []
  | [] => []

/-! ### Long brackets -/

/-- The level of an opening long bracket after its first bracket, and what follows it. -/
def longOpening? (s : Bytes) : Option (Nat × Bytes) :=
  match s.dropWhile (· == 61) with
  | 91 :: rest => some ((s.takeWhile (· == 61)).length, rest)
  | _ => none

/-- What follows a closing long bracket of a level, after its first bracket. -/
def longClosing? (level : Nat) (s : Bytes) : Option Bytes :=
  match s.dropWhile (· == 61) with
  | 93 :: rest => if (s.takeWhile (· == 61)).length == level then some rest else none
  | _ => none

/-- Reads to the end of a long bracket of a level: its content, what follows, and the line. Where the
text ends first it is an error on the last line. -/
def readLong (level : Nat) : Nat → Nat → Bytes → Bytes → Except Nat (Bytes × Bytes × Nat)
  | 0, line, _, _ => .error line
  | fuel + 1, line, acc, s =>
    match s with
    | [] => .error line
    | b :: rest =>
      if b == 93 then
        match longClosing? level rest with
        | some after => .ok (acc.reverse, after, line)
        | none => readLong level fuel line (b :: acc) rest
      else if isLineEnd b then readLong level fuel (line + 1) (10 :: acc) (dropLineEnd s)
      else readLong level fuel line (b :: acc) rest

/-- Reads a long bracket after its opening; a line end right after the opening is dropped. -/
def readLongAfter (level line : Nat) (s : Bytes) : Except Nat (Bytes × Bytes × Nat) :=
  match s with
  | b :: _ =>
    if isLineEnd b then readLong level (s.length + 1) (line + 1) [] (dropLineEnd s)
    else readLong level (s.length + 1) line [] s
  | [] => .error line

/-! ### Strings -/

/-- The bytes of a character number, also of one beyond the last character. -/
def utf8Bytes (n : Nat) : Bytes :=
  let tail := fun k => UInt8.ofNat (128 + n / 64 ^ k % 64)
  if n < 0x80 then [UInt8.ofNat n]
  else if n < 0x800 then [UInt8.ofNat (0xC0 + n / 64), tail 0]
  else if n < 0x10000 then [UInt8.ofNat (0xE0 + n / 64 ^ 2), tail 1, tail 0]
  else if n < 0x200000 then [UInt8.ofNat (0xF0 + n / 64 ^ 3), tail 2, tail 1, tail 0]
  else if n < 0x4000000 then [UInt8.ofNat (0xF8 + n / 64 ^ 4), tail 3, tail 2, tail 1, tail 0]
  else [UInt8.ofNat (0xFC + n / 64 ^ 5), tail 4, tail 3, tail 2, tail 1, tail 0]

/-- What a backslash and the bytes after it stand for. -/
inductive Escape where
  /-- These bytes, before the rest. -/
  | bytes (value rest : Bytes)
  /-- A line end. -/
  | newline (rest : Bytes)
  /-- Nothing, and blanks are skipped. -/
  | skip (rest : Bytes)
  /-- A fault, shown with so many of the bytes after the backslash. -/
  | fault (message : String) (shown : Nat)

/-- The shown length of a fault at the byte after `n` good ones: that byte too, if there is one. -/
private def upTo (n : Nat) (s : Bytes) : Nat :=
  min (n + 1) s.length

/-- Reads the digits and the closing brace of a character number. -/
def readCodePoint (s : Bytes) : Nat → Nat → Bytes → Escape
  | count, n, b :: rest =>
    match digitValue? b with
    | some d =>
      if d < 16 then
        if 0x7FFFFFF < n then .fault "UTF-8 value too large" (upTo (2 + count) s)
        else readCodePoint s (count + 1) (n * 16 + d) rest
      else .fault "missing '\x7d'" (upTo (2 + count) s)
    | none =>
      if b == 125 then .bytes (utf8Bytes n) rest
      else .fault "missing '\x7d'" (upTo (2 + count) s)
  | count, _, [] => .fault "missing '\x7d'" (upTo (2 + count) s)

/-- Reads what follows a backslash. -/
def readEscape (s : Bytes) : Escape :=
  let hexNeeded := "hexadecimal digit expected"
  match s with
  | [] => .bytes [] []
  | 97 :: rest => .bytes [7] rest
  | 98 :: rest => .bytes [8] rest
  | 102 :: rest => .bytes [12] rest
  | 110 :: rest => .bytes [10] rest
  | 114 :: rest => .bytes [13] rest
  | 116 :: rest => .bytes [9] rest
  | 118 :: rest => .bytes [11] rest
  | 120 :: rest =>
    match rest with
    | a :: b :: after =>
      if !isHexDigit a then .fault hexNeeded (upTo 1 s)
      else if !isHexDigit b then .fault hexNeeded (upTo 2 s)
      else .bytes [UInt8.ofNat (digitsValue 16 [a, b])] after
    | [a] => .fault hexNeeded (if isHexDigit a then upTo 2 s else upTo 1 s)
    | [] => .fault hexNeeded (upTo 1 s)
  | 117 :: rest =>
    match rest with
    | 123 :: a :: after =>
      if isHexDigit a then readCodePoint s 1 ((digitValue? a).getD 0) after
      else .fault hexNeeded (upTo 2 s)
    | 123 :: [] => .fault hexNeeded (upTo 2 s)
    | _ => .fault "missing '\x7b'" (upTo 1 s)
  | 122 :: rest => .skip rest
  | b :: rest =>
    if isLineEnd b then .newline (dropLineEnd s)
    else if b == 92 || b == 34 || b == 39 then .bytes [b] rest
    else if isDigit b then
      let ds := (s.take 3).takeWhile isDigit
      let n := digitsValue 10 ds
      if 255 < n then .fault "decimal escape too large" (upTo ds.length s)
      else .bytes [UInt8.ofNat n] (s.drop ds.length)
    else .fault "invalid escape sequence" (upTo 0 s)

/-- Skips blanks, counting lines. -/
def skipBlanks : Nat → Nat → Bytes → Bytes × Nat
  | 0, line, s => (s, line)
  | fuel + 1, line, s =>
    match s with
    | b :: rest =>
      if isLineEnd b then skipBlanks fuel (line + 1) (dropLineEnd s)
      else if isSpace b then skipBlanks fuel line rest
      else (s, line)
    | [] => ([], line)

/-- The outcome of reading a string: its value, what follows and the line, or a fault with the
text it is near. -/
inductive StringRead where
  | value (value rest : Bytes) (line : Nat)
  | fault (message : String) (shown : Bytes) (line : Nat)

/-- Reads a string up to its closing quote. `acc` holds what was read, last byte first. -/
def readString (quote : UInt8) : Nat → Nat → Bytes → Bytes → StringRead
  | 0, line, _, _ => .fault "unfinished string" endShown line
  | fuel + 1, line, acc, s =>
    match s with
    | [] => .fault "unfinished string" endShown line
    | b :: rest =>
      if b == quote then .value acc.reverse rest line
      else if isLineEnd b then
        .fault "unfinished string" (quotedRaw (quote :: acc.reverse)) line
      else if b == 92 then
        match readEscape rest with
        | .bytes value after => readString quote fuel line (value.reverse ++ acc) after
        | .newline after => readString quote fuel (line + 1) (10 :: acc) after
        | .skip after =>
          let (after, line) := skipBlanks after.length line after
          readString quote fuel line acc after
        | .fault message n =>
          .fault message (quotedRaw (quote :: acc.reverse ++ 92 :: rest.take n)) line
      else readString quote fuel line (b :: acc) rest

/-! ### Numbers -/

/-- The length of the longest text that looks like a numeral, after its first byte. -/
def numeralRun (lower upper : UInt8) : Bytes → Nat
  | a :: b :: rest =>
    if a == lower || a == upper then
      if b == 43 || b == 45 then numeralRun lower upper rest + 2
      else numeralRun lower upper (b :: rest) + 1
    else if isHexDigit a || a == 46 then numeralRun lower upper (b :: rest) + 1
    else 0
  | [a] => if a == lower || a == upper || isHexDigit a || a == 46 then 1 else 0
  | [] => 0

/-- The text of the numeral at the front; a letter or underscore right after it spoils it. -/
def numeralText (s : Bytes) : Bytes :=
  let lead := if s.head? = some 46 then 1 else 0
  let n := lead + match takeHexMark? (s.drop lead) with
    | some rest => numeralRun 112 80 rest + 2
    | none => numeralRun 101 69 (s.drop (lead + 1)) + 1
  match s.drop n with
  | b :: _ => if isNameStart b then s.take (n + 1) else s.take n
  | [] => s

/-! ### Whole texts -/

/-- A fault in the token at the end of the line so far read. -/
private def badToken (message : String) (shown : Bytes) (line : Nat) : List Lexeme :=
  [⟨.bad (nearText message shown), shown, line⟩]

/-- The sign at the front: the longest that matches. -/
def readSign? (s : Bytes) : Option (String × Bytes) :=
  (longSigns.find? fun t => (ascii t).isPrefixOf s).map fun t => (t, s.drop (ascii t).length)

/-- The signs of one byte. -/
def shortSigns : Bytes :=
  ascii "+-*/%^#&~|<>=(){}[];:,."

/-- The tokens of a text from a line on. -/
def tokensFrom : Nat → Nat → Bytes → List Lexeme
  | 0, line, _ => [⟨.ended, endShown, line⟩]
  | fuel + 1, line, s =>
    match s with
    | [] => [⟨.ended, endShown, line⟩]
    | b :: rest =>
      if isLineEnd b then tokensFrom fuel (line + 1) (dropLineEnd s)
      else if isSpace b then tokensFrom fuel line rest
      else if isNameStart b then
        let text := s.takeWhile isNamePart
        let token := match reservedWords.find? fun w => ascii w == text with
          | some w => .mark w
          | none => .name text
        ⟨token, quoted text, line⟩ :: tokensFrom fuel line (s.dropWhile isNamePart)
      else if isDigit b || (b == 46 && (rest.head?.map isDigit).getD false) then
        let text := numeralText s
        match Numeral.read? text with
        | some n => ⟨.number n, quoted text, line⟩ :: tokensFrom fuel line (s.drop text.length)
        | none => badToken "malformed number" (quotedRaw text) line
      else if b == 34 || b == 39 then
        match readString b (s.length + 1) line [] rest with
        | .value value after line =>
          ⟨.string value, quotedRaw (b :: value ++ [b]), line⟩ :: tokensFrom fuel line after
        | .fault message shown line => badToken message shown line
      else if b == 45 && rest.head? == some 45 then
        let comment := rest.drop 1
        let toLineEnd := fun _ : Unit => tokensFrom fuel line (comment.dropWhile (!isLineEnd ·))
        match comment with
        | 91 :: opening =>
          match longOpening? opening with
          | some (level, inner) =>
            match readLongAfter level line inner with
            | .ok (_, after, line) => tokensFrom fuel line after
            | .error last =>
              badToken s!"unfinished long comment (starting at line {line})" endShown last
          | none => toLineEnd ()
        | _ => toLineEnd ()
      else if b == 91 && (longOpening? rest).isSome then
        match longOpening? rest with
        | some (level, inner) =>
          match readLongAfter level line inner with
          | .ok (value, after, line) =>
            let bracket := fun c : UInt8 => c :: List.replicate level 61 ++ [c]
            ⟨.string value, quotedRaw (bracket 91 ++ value ++ bracket 93), line⟩
              :: tokensFrom fuel line after
          | .error last =>
            badToken s!"unfinished long string (starting at line {line})" endShown last
        | none => []
      else if b == 91 && rest.head? == some 61 then
        badToken "invalid long string delimiter" (quotedRaw (b :: rest.takeWhile (· == 61))) line
      else
        match readSign? s with
        | some (t, after) => ⟨.mark t, quoted (ascii t), line⟩ :: tokensFrom fuel line after
        | none =>
          if shortSigns.contains b then
            ⟨.mark (String.ofList [Char.ofNat b.toNat]), quoted [b], line⟩
              :: tokensFrom fuel line rest
          else
            let shown := if isGraphic b then quoted [b] else ascii s!"'<\\{b.toNat}>'"
            ⟨.stray b, shown, line⟩ :: tokensFrom fuel line rest

/-- The tokens of a text. -/
def tokenize (s : Bytes) : List Lexeme :=
  tokensFrom (s.length + 1) 1 s

end ScriptHost.Script
