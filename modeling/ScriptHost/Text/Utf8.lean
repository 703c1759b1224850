/-!
# UTF-8 text

Strings cross between scripts, files and the host as bytes. Encoding is total; decoding says which
byte spoils the text and why. A sequence is cut short only when every byte that is there could
still begin a character; otherwise the offending part is the longest beginning of a character
that stands at the fault.
-/
namespace ScriptHost.Text

/-- Raw text, as scripts and files hold it. -/
abbrev Bytes := List UInt8

/-- The encoding of a text. -/
def encode (s : String) : Bytes :=
  s.toUTF8.data.toList

/-- Why bytes are not UTF-8. -/
inductive Malformed.Reason where
  /-- No character begins with this byte. -/
  | start
  /-- A byte inside a character is not a continuation. -/
  | continuation
  /-- The bytes end inside a character. -/
  | truncated
  deriving DecidableEq, Repr

/-- The first fault in a byte sequence: the bytes at positions `first` to `last`, the first of
which is `byte`. -/
structure Malformed where
  first : Nat
  last : Nat
  byte : UInt8
  reason : Malformed.Reason
  deriving DecidableEq, Repr

/-- A byte that continues a character. -/
def isTail (b : UInt8) : Bool :=
  0x80 ≤ b && b ≤ 0xBF

/-- Whether `b` may come second after the first byte `a` of a character of three or four bytes:
a tail that gives neither a longer form of a shorter character, nor a surrogate, nor a number
beyond the last character. -/
def isSecond (a b : UInt8) : Bool :=
  isTail b && (a != 0xE0 || 0xA0 ≤ b) && (a != 0xED || b < 0xA0)
    && (a != 0xF0 || 0x90 ≤ b) && (a != 0xF4 || b < 0x90)

/-- The six bits a tail carries. -/
private def low (b : UInt8) : Nat :=
  b.toNat % 64

/-- Decodes bytes that stand at position `i` of the whole. -/
def decodeFrom (i : Nat) : Bytes → Except Malformed (List Char)
  | [] => .ok []
  | a :: rest =>
    if a < 0x80 then
      (Char.ofNat a.toNat :: ·) <$> decodeFrom (i + 1) rest
    else if a < 0xC2 || 0xF5 ≤ a then
      .error ⟨i, i, a, .start⟩
    else if a < 0xE0 then
      match rest with
      | [] => .error ⟨i, i, a, .truncated⟩
      | b :: rest =>
        if isTail b then
          (Char.ofNat (a.toNat % 32 * 64 + low b) :: ·) <$> decodeFrom (i + 2) rest
        else .error ⟨i, i, a, .continuation⟩
    else if a < 0xF0 then
      match rest with
      | [] => .error ⟨i, i, a, .truncated⟩
      | [b] => .error (if isSecond a b then ⟨i, i + 1, a, .truncated⟩ else ⟨i, i, a, .continuation⟩)
      | b :: c :: rest =>
        if !isSecond a b then .error ⟨i, i, a, .continuation⟩
        else if !isTail c then .error ⟨i, i + 1, a, .continuation⟩
        else (Char.ofNat ((a.toNat % 16 * 64 + low b) * 64 + low c) :: ·) <$> decodeFrom (i + 3) rest
    else
      match rest with
      | [] => .error ⟨i, i, a, .truncated⟩
      | [b] => .error (if isSecond a b then ⟨i, i + 1, a, .truncated⟩ else ⟨i, i, a, .continuation⟩)
      | [b, c] =>
        .error (if !isSecond a b then ⟨i, i, a, .continuation⟩
          else if !isTail c then ⟨i, i + 1, a, .continuation⟩ else ⟨i, i + 2, a, .truncated⟩)
      | b :: c :: d :: rest =>
        if !isSecond a b then .error ⟨i, i, a, .continuation⟩
        else if !isTail c then .error ⟨i, i + 1, a, .continuation⟩
        else if !isTail d then .error ⟨i, i + 2, a, .continuation⟩
        else (Char.ofNat (((a.toNat % 8 * 64 + low b) * 64 + low c) * 64 + low d) :: ·)
          <$> decodeFrom (i + 4) rest

/-- The text that bytes encode, or their first fault. -/
def decode (b : Bytes) : Except Malformed String :=
  String.ofList <$> decodeFrom 0 b

/-- The text that bytes encode when each byte is read as one character. -/
def decodeBytewise (b : Bytes) : String :=
  String.ofList (b.map fun x => Char.ofNat x.toNat)

private def hexDigit (n : Nat) : Char :=
  if n < 10 then Char.ofNat (48 + n) else Char.ofNat (87 + n)

/-- Two hexadecimal digits of a byte. -/
def hexByte (b : UInt8) : String :=
  String.ofList [hexDigit (b.toNat / 16), hexDigit (b.toNat % 16)]

/-- The words for a reason. -/
def Malformed.Reason.message : Malformed.Reason → String
  | .start => "invalid start byte"
  | .continuation => "invalid continuation byte"
  | .truncated => "unexpected end of data"

/-- One line on the fault: a single byte is shown, several only by their positions. -/
def Malformed.message (m : Malformed) : String :=
  if m.first = m.last then
    s!"'utf-8' codec can't decode byte 0x{hexByte m.byte} in position {m.first}: {m.reason.message}"
  else
    s!"'utf-8' codec can't decode bytes in position {m.first}-{m.last}: {m.reason.message}"

end ScriptHost.Text
