import ScriptHost.Script.Numeral

/-!
# Patterns

What texts are searched by. A pattern is read while it is matched, so a fault in it shows only where
matching comes to it. Each way on is tried with the rest of the pattern, the longest repetition
first unless the shortest is asked for, and captures of a way that fails are forgotten.
-/
namespace ScriptHost.Script

open Text (Bytes)

/-- What is wrong with a pattern. -/
inductive PatternFault where
  | endsInEscape
  | openSet
  | noFrontierSet
  | noBalanceEnds
  | nothingToClose
  | noSuchCapture (number : Int)
  | tooManyCaptures
  | unfinishedCapture
  | tooComplex
  deriving DecidableEq

def PatternFault.message : PatternFault → String
  | .endsInEscape => "malformed pattern (ends with '%')"
  | .openSet => "malformed pattern (missing ']')"
  | .noFrontierSet => "missing '[' after '%f' in pattern"
  | .noBalanceEnds => "malformed pattern (missing arguments to '%b')"
  | .nothingToClose => "invalid pattern capture"
  | .noSuchCapture n => s!"invalid capture index %{n}"
  | .tooManyCaptures => "too many captures"
  | .unfinishedCapture => "unfinished capture"
  | .tooComplex => "pattern too complex"

/-- How much a capture holds. -/
inductive Extent where
  /-- Its end has not been come to. -/
  | unfinished
  /-- Nothing: it is the place itself. -/
  | place
  | length (n : Nat)
  deriving DecidableEq

structure Capture where
  start : Nat
  extent : Extent

/-- A match: where it ends, and its captures. -/
structure Matched where
  stop : Nat
  captures : Array Capture

abbrev Matching := Except PatternFault (Option Matched)

namespace Pattern

/-- How many captures a pattern may have. -/
def captureLimit : Nat := 32

/-- How many ways may be open at once. -/
def depthLimit : Nat := 200

/-! ### Bytes -/

def isControl (b : UInt8) : Bool := b < 32 || b == 127
def isPrinted (b : UInt8) : Bool := 33 ≤ b && b ≤ 126

/-- Whether a byte belongs to the class of a letter; a capital letter is the class of all others,
and what is no class stands for itself. -/
def inClass (letter b : UInt8) : Bool :=
  let belongs? := match Char.ofNat (letter ||| 32).toNat with
    | 'a' => some (isLetter b)
    | 'c' => some (isControl b)
    | 'd' => some (isDigit b)
    | 'g' => some (isPrinted b)
    | 'l' => some (isLower b)
    | 'p' => some (isPrinted b && !isLetter b && !isDigit b)
    | 's' => some (isSpace b)
    | 'u' => some (isUpper b)
    | 'w' => some (isLetter b || isDigit b)
    | 'x' => some (isHexDigit b)
    | _ => none
  match belongs? with
  | some belongs => if isLetter letter then belongs != isUpper letter else letter == b
  | none => letter == b

/-- Whether a byte is in a set, given as it is written between the brackets. -/
def inSet (b : UInt8) : Bytes → Bool
  | 37 :: x :: rest => inClass x b || inSet b rest
  | x :: 45 :: y :: rest => (x ≤ b && b ≤ y) || inSet b rest
  | x :: rest => x == b || inSet b rest
  | [] => false

/-- Splits a set after its opening bracket into what it holds and what follows. The first byte
cannot close it, nor can one after a percent sign. -/
def splitSet : Bytes → Except PatternFault (Bytes × Bytes)
  | 37 :: x :: 93 :: after => .ok ([37, x], after)
  | 37 :: x :: y :: rest => do
    let (more, after) ← splitSet (y :: rest)
    return (37 :: x :: more, after)
  | [37, _] => .error .openSet
  | x :: 93 :: after => .ok ([x], after)
  | x :: y :: rest => do
    let (more, after) ← splitSet (y :: rest)
    return (x :: more, after)
  | _ => .error .openSet

/-- Reads a set after its opening bracket. -/
def readSet (p : Bytes) : Except PatternFault ((UInt8 → Bool) × Bytes) := do
  let (isOther, p) := match p with
    | 94 :: rest => (true, rest)
    | p => (false, p)
  let (held, rest) ← splitSet p
  return (fun b => inSet b held != isOther, rest)

/-- Reads what stands for one byte: which bytes those are, and the rest. -/
def readItem : Bytes → Except PatternFault ((UInt8 → Bool) × Bytes)
  | [37] => .error .endsInEscape
  | 37 :: x :: rest => .ok (inClass x, rest)
  | 91 :: rest => readSet rest
  | 46 :: rest => .ok (fun _ => true, rest)
  | x :: rest => .ok (fun b => x == b, rest)
  | [] => .ok (fun _ => false, [])

/-! ### Ways -/

/-- The first way that matches, from `n` down to zero. -/
def firstDown (way : Nat → Matching) : Nat → Matching
  | 0 => way 0
  | n + 1 => do
    match ← way (n + 1) with
    | some m => return some m
    | none => firstDown way n

/-- The first way that matches, from zero up, as long as `goesOn` allows one more. -/
def firstUp (way : Nat → Matching) (goesOn : Nat → Bool) (n : Nat) : Nat → Matching
  | 0 => way n
  | left + 1 => do
    match ← way n with
    | some m => return some m
    | none => if goesOn n then firstUp way goesOn (n + 1) left else return none

section

variable (text : Array UInt8)

/-- The byte at a place, zero past the end. -/
def byteAt (s : Nat) : UInt8 := text[s]?.getD 0

/-- How many bytes in a row from a place on belong to an item. -/
def runFrom (item : UInt8 → Bool) (s : Nat) : Nat :=
  ((text.toList.drop s).takeWhile item).length

/-- The place after a balanced piece that begins at a place. -/
def balancedEnd? (first last : UInt8) (s : Nat) : Option Nat :=
  if byteAt text s != first then none else go (s + 1) 1 (text.toList.drop (s + 1))
where
  go (s opened : Nat) : Bytes → Option Nat
    | [] => none
    | b :: rest =>
      if b == last then if opened = 1 then some (s + 1) else go (s + 1) (opened - 1) rest
      else go (s + 1) (if b == first then opened + 1 else opened) rest

/-- The place after the bytes of a capture if they come again at a place. -/
def repeatedEnd? (captures : Array Capture) (digit : UInt8) (s : Nat) :
    Except PatternFault (Option Nat) :=
  let number : Int := (digit.toNat : Int) - 48
  match if number < 1 then none else captures[(number - 1).toNat]? with
  | none | some ⟨_, .unfinished⟩ => .error (.noSuchCapture number)
  | some ⟨_, .place⟩ => .ok none
  | some ⟨start, .length n⟩ =>
    .ok (if s + n ≤ text.size && text.extract start (start + n) == text.extract s (s + n)
      then some (s + n) else none)

/-- Ends the latest capture that has no end. -/
def closeCapture (captures : Array Capture) (s : Nat) : Except PatternFault (Array Capture) :=
  match captures.toList.zipIdx.reverse.find? (·.1.extent == .unfinished) with
  | some (c, n) => .ok (captures.setIfInBounds n { c with extent := .length (s - c.start) })
  | none => .error .nothingToClose

/-- Matches a pattern at a place. Every step goes on with a shorter pattern, so its length bounds
the steps; `left` is how many more ways may be opened. -/
def matchFrom : Nat → Nat → Array Capture → Nat → Bytes → Matching
  | 0, _, _, _, _ => .error .tooComplex
  | n + 1, left, captures, s, p => do
    let inner := fun (captures : Array Capture) (s : Nat) (p : Bytes) =>
      match left with
      | 0 => Except.error PatternFault.tooComplex
      | left + 1 => matchFrom n left captures s p
    let open_ := fun (e : Extent) (p : Bytes) =>
      if captureLimit ≤ captures.size then Except.error PatternFault.tooManyCaptures
      else inner (captures.push ⟨s, e⟩) s p
    let on := fun (place? : Option Nat) (p : Bytes) =>
      match place? with
      | some s => matchFrom n left captures s p
      | none => .ok none
    let single := fun _ : Unit => do
      let (item, rest) ← readItem p
      let fits := s < text.size && item (byteAt text s)
      match rest with
      | 63 :: after =>
        if fits then
          match ← inner captures (s + 1) after with
          | some m => return some m
          | none => matchFrom n left captures s after
        else matchFrom n left captures s after
      | 42 :: after =>
        if fits then firstDown (fun k => inner captures (s + k) after) (runFrom text item s)
        else matchFrom n left captures s after
      | 43 :: after =>
        if fits then
          firstDown (fun k => inner captures (s + 1 + k) after) (runFrom text item (s + 1))
        else return none
      | 45 :: after =>
        if fits then
          firstUp (fun k => inner captures (s + k) after)
            (fun k => s + k < text.size && item (byteAt text (s + k))) 0 (text.size - s)
        else matchFrom n left captures s after
      | rest => if fits then matchFrom n left captures (s + 1) rest else return none
    match p with
    | [] => return some ⟨s, captures⟩
    | 40 :: 41 :: rest => open_ .place rest
    | 40 :: rest => open_ .unfinished rest
    | 41 :: rest => do inner (← closeCapture captures s) s rest
    | [36] => return if s = text.size then some ⟨s, captures⟩ else none
    | 37 :: 98 :: rest =>
      match rest with
      | first :: last :: rest => on (balancedEnd? text first last s) rest
      | _ => throw .noBalanceEnds
    | 37 :: 102 :: rest =>
      match rest with
      | 91 :: rest => do
        let (item, rest) ← readSet rest
        let before := if s = 0 then 0 else byteAt text (s - 1)
        on (if !item before && item (byteAt text s) then some s else none) rest
      | _ => throw .noFrontierSet
    | 37 :: d :: rest =>
      if isDigit d then do on (← repeatedEnd? text captures d s) rest else single ()
    | _ => single ()

/-- Matches a whole pattern at a place. -/
def matchAt (p : Bytes) (s : Nat) : Matching :=
  matchFrom text (p.length + 1) (depthLimit - 1) #[] s p

/-- The first match from a place on, and where it begins; only at the place itself for a pattern that
is anchored. -/
def search (p : Bytes) (isAnchored : Bool) (s : Nat) :
    Except PatternFault (Option (Nat × Matched)) :=
  go (text.size - s) s
where
  go : Nat → Nat → Except PatternFault (Option (Nat × Matched))
    | left, s => do
      match ← matchAt text p s with
      | some m => return some (s, m)
      | none =>
        match left with
        | 0 => return none
        | left + 1 => if isAnchored then return none else go left (s + 1)

end

end Pattern

end ScriptHost.Script
