import ScriptHost.Script.Library.Texts
import ScriptHost.Script.Pattern

/-!
# Searches

The functions that look for patterns in texts, walk over the matches and replace them.
-/
namespace ScriptHost.Script.Library

open Text (Bytes)
open Number (Binary64)

section

variable {α : Type} (c : Invocation)

/-- Raises what is wrong with a pattern. -/
def ofPattern : Except PatternFault α → Eval α
  | .ok a => pure a
  | .error f => c.refuse f.message

/-- A pattern without the mark that anchors it, and whether it had one. -/
def unanchored : Bytes → Bytes × Bool
  | 94 :: rest => (rest, true)
  | p => (p, false)

/-- The value of a capture. -/
def captureValue (text : Array UInt8) (x : Capture) : Eval Value :=
  match x.extent with
  | .unfinished => c.refuse PatternFault.unfinishedCapture.message
  | .place => return .int (Int64.ofNat (x.start + 1))
  | .length n => return .text (text.extract x.start (x.start + n)).toList

/-- The whole text of a match. -/
def wholeMatch (text : Array UInt8) (start : Nat) (m : Matched) : Bytes :=
  (text.extract start m.stop).toList

/-- The values of the captures of a match, which is its own capture if it has no other. -/
def captureValues (text : Array UInt8) (start : Nat) (m : Matched) : Eval (List Value) :=
  if m.captures.isEmpty then return [.text (wholeMatch text start m)]
  else m.captures.toList.mapM (captureValue c text)

/-! ### Finding -/

/-- The signs that make a pattern more than plain text. -/
def patternSigns : Bytes :=
  Text.encode "^$*+?.([%-"

/-- The first place from `s` on where a plain text stands. -/
def findPlain (text wanted : Bytes) (s : Nat) : Option Nat :=
  go s (text.drop s)
where
  go (s : Nat) : Bytes → Option Nat
    | [] => if wanted.isEmpty then some s else none
    | b :: rest => if wanted.isPrefixOf (b :: rest) then some s else go (s + 1) rest

/-- Looks for a pattern: where it is and its captures, or the captures alone. -/
def find (wantsPlace : Bool) : Eval (List Value) := do
  let text ← c.text 1
  let p ← c.text 2
  let start := firstPlace (← c.intOr 3 1).toInt text.length - 1
  if text.length < start then return [.nil]
  let isPlain := (c.arg 4).truthy || !p.any patternSigns.contains
  let place := fun (first stop : Nat) =>
    [Value.int (Int64.ofNat (first + 1)), Value.int (Int64.ofNat stop)]
  if wantsPlace && isPlain then
    match findPlain text p start with
    | some s => return place s (s + p.length)
    | none => return [.nil]
  let (p, isAnchored) := unanchored p
  let bytes := text.toArray
  match ← ofPattern c (Pattern.search bytes p isAnchored start) with
  | none => return [.nil]
  | some (s, m) =>
    if wantsPlace then
      return place s m.stop ++ (← m.captures.toList.mapM (captureValue c bytes))
    else captureValues c bytes s m

/-! ### Walking -/

/-- Begins a walk over all matches. How far it is stays in a table: the text, the pattern, the
place to go on from and where the last match ended. -/
def walk : Eval (List Value) := do
  let text ← c.text 1
  let p ← c.text 2
  let start := firstPlace (← c.intOr 3 1).toInt text.length - 1
  let start := min start (text.length + 1)
  let state := #[.text text, .text p, .int (Int64.ofNat start), .nil]
  let place ← Eval.newTable (.ofItems c.site.home state 0)
  return [.native (.nextMatch place)]

/-- The first match from a place on that does not end where the last one did. -/
def nextFrom (text : Array UInt8) (p : Bytes) (last : Option Nat) (s : Nat) :
    Nat → Except PatternFault (Option (Nat × Matched))
  | 0 => return none
  | left + 1 => do
    match ← Pattern.matchAt text p s with
    | some m => if some m.stop = last then nextFrom text p last (s + 1) left else return some (s, m)
    | none => nextFrom text p last (s + 1) left

/-- The captures of the next match of a walk. -/
def walkStep (state : Nat) : Eval (List Value) := do
  match ((← Eval.heap).table state).items.toList with
  | [.text text, .text p, .int s, last] =>
    let s := s.toInt.toNat
    let last := match last with
      | .int i => some i.toInt.toNat
      | _ => none
    let bytes := text.toArray
    match ← ofPattern c (nextFrom bytes p last s (text.length + 1 - s)) with
    | none => return []
    | some (s, m) =>
      let stop := Value.int (Int64.ofNat m.stop)
      Eval.modifyHeap (·.rawSet state (.int 3) stop)
      Eval.modifyHeap (·.rawSet state (.int 4) stop)
      captureValues c bytes s m
  | _ => return []

/-! ### Replacing -/

/-- What a written replacement stands for in a match. -/
def expand (text : Array UInt8) (start : Nat) (m : Matched) (written : Bytes) : Eval Bytes := do
  let capture := fun (n : Nat) => do
    match m.captures[n]? with
    | some x => return (plainText? (← captureValue c text x)).getD []
    | none =>
      if n = 0 then return wholeMatch text start m
      else c.refuse s!"invalid capture index %{n + 1} in replacement string"
  Eval.repeating (fun ((s, acc) : Bytes × List Bytes) => do
    match s with
    | [] => return .inr acc.reverse.flatten
    | 37 :: 37 :: rest => return .inl (rest, [37] :: acc)
    | 37 :: 48 :: rest => return .inl (rest, wholeMatch text start m :: acc)
    | 37 :: rest =>
      match rest with
      | d :: rest =>
        if isDigit d then return .inl (rest, (← capture (d.toNat - 49)) :: acc)
        else c.refuse "invalid use of '%' in replacement string"
      | [] => c.refuse "invalid use of '%' in replacement string"
    | _ =>
      let plain := s.takeWhile (· != 37)
      return .inl (s.drop plain.length, plain :: acc)) (written, [])

/-- What a match is replaced by; none if it stays. -/
def replacement? (text : Array UInt8) (start : Nat) (m : Matched) : Eval (Option Bytes) := do
  let chosen := fun (v : Value) => do
    if !v.truthy then return none
    match plainText? v with
    | some b => return some b
    | none => c.refuse s!"invalid replacement value (a {v.typeName})"
  match c.arg 3 with
  | .table t => do
    let key ← match m.captures[0]? with
      | some x => captureValue c text x
      | none => pure (.text (wholeMatch text start m))
    chosen (← c.index (.table t) key)
  | .function _ | .native _ =>
    chosen (firstOf (← c.call (c.arg 3) (← captureValues c text start m)))
  | v => some <$> expand c text start m ((plainText? v).getD [])

/-- How far a replacement is. -/
structure Replacing where
  place : Nat
  count : Int
  last : Option Nat
  /-- The pieces so far, the last first. -/
  pieces : List Bytes
  changed : Bool

/-- Replaces the match at a place, or passes by what is there if there is none. None at the end of the
text. -/
def replaceAt? (text : Array UInt8) (p : Bytes) (r : Replacing) : Eval (Option Replacing) := do
  let found ← ofPattern c (Pattern.matchAt text p r.place)
  match found.filter fun m => some m.stop != r.last with
  | some m =>
    let new? ← replacement? c text r.place m
    let piece := new?.getD (wholeMatch text r.place m)
    return some ⟨m.stop, r.count + 1, some m.stop, piece :: r.pieces, r.changed || new?.isSome⟩
  | none =>
    return text[r.place]?.map fun b => { r with place := r.place + 1, pieces := [b] :: r.pieces }

/-- Whether matches can be replaced by a value. -/
def isReplacement : Value → Bool
  | .int _ | .float _ | .text _ | .table _ | .function _ | .native _ => true
  | _ => false

/-- Replaces the matches of a pattern; tells also how many there were. -/
def replace : Eval (List Value) := do
  let text ← c.text 1
  let p ← c.text 2
  let most ← c.intOr 4 (Int64.ofNat (text.length + 1))
  unless isReplacement (c.arg 3) do c.failType 3 "string/function/table"
  let (p, isAnchored) := unanchored p
  let bytes := text.toArray
  let done ← Eval.repeating (fun r : Replacing => do
    if most.toInt ≤ r.count then return .inr r
    match ← replaceAt? c bytes p r with
    | none => return .inr r
    | some r => return if isAnchored then .inr r else .inl r) ⟨0, 0, none, [], false⟩
  let result := if done.changed then
      (((bytes.extract done.place bytes.size).toList :: done.pieces).reverse).flatten
    else text
  return [.text result, .int (Int64.ofInt done.count)]

end

end ScriptHost.Script.Library
