import ScriptHost.Script.Arith
import ScriptHost.Script.Operators

/-!
# Counted loops

Loops over numbers from a first one to a last one. Whole numbers are counted beforehand, so they
never run over; if the first number or the step is not whole, the loop goes by double precision.
-/
namespace ScriptHost.Script

open Text (Bytes)
open Number (Binary64)

/-- What a counted loop keeps: how often it is still to go round or its limit, its step, and the
number it is at. -/
structure Count where
  left : Value
  step : Value
  at_ : Value

/-- The limit of a loop over whole numbers: the last whole number within it, or an end of the whole
numbers if it is beyond that; none if no whole number is within it. -/
def wholeLimit? (limit : Numeral) (isUpward : Bool) : Option Int64 :=
  match limit with
  | .int i => some i
  | .float x =>
    let within := if isUpward then x.floorInt? else x.neg.floorInt?.map (- ·)
    match within >>= fitInt? with
    | some i => some i
    | none =>
      if Binary64.zero.lt x then if isUpward then some Int64.maxValue else none
      else if isUpward then none else some Int64.minValue

/-- A number that a counted loop goes by, as texts spell it too. -/
def Context.countedBy (c : Context) (what : String) (v : Value) : Eval Numeral := do
  match toNumeral? v with
  | some n => return n
  | none =>
    let type := shownType (← Eval.heap) c.site.home v
    c.fail (Text.encode s!"bad 'for' {what} (number expected, got " ++ type ++ Text.encode ")")

/-- Begins a counted loop; none if it does not go round at all. -/
def Context.beginCount (c : Context) (first last step : Value) : Eval (Option Count) := do
  match first, step with
  | .int i, .int k =>
    if k = 0 then c.failWith "'for' step is zero"
    let isUpward := 0 < k.toInt
    match wholeLimit? (← c.countedBy "limit" last) isUpward with
    | none => return none
    | some l =>
      if isUpward && l < i || !isUpward && i < l then return none
      let rounds := (l.toInt - i.toInt).natAbs / k.toInt.natAbs
      return some ⟨.int (UInt64.ofNat rounds).toInt64, .int k, .int i⟩
  | _, _ =>
    let limit := (← c.countedBy "limit" last).toFloat
    let step := (← c.countedBy "step" step).toFloat
    let first := (← c.countedBy "initial value" first).toFloat
    if step.abs = .zero then c.failWith "'for' step is zero"
    let isPast := if Binary64.zero.lt step then limit.lt first else first.lt limit
    return if isPast then none else some ⟨.float limit, .float step, .float first⟩

/-- The loop after one more round; none if there is none. -/
def Count.next? (l : Count) : Option Count :=
  match l.left, l.step, l.at_ with
  | .int left, .int step, .int i =>
    if left = 0 then none else some { l with left := .int (left - 1), at_ := .int (i + step) }
  | .float limit, .float step, .float x =>
    let x := x.add step
    let within := if Binary64.zero.lt step then x.le limit else limit.le x
    if within then some { l with at_ := .float x } else none
  | _, _, _ => none

end ScriptHost.Script
