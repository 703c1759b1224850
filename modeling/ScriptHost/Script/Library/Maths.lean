import ScriptHost.Script.Library.Arguments

/-!
# The mathematical library

Functions on numbers. Those of whole numbers stay whole; the others are the machine's. Random numbers
come from four words of state that each environment keeps, and a seed fixes them all.
-/
namespace ScriptHost.Script

open Text (Bytes)
open Number (Binary64)

/-- The next random word of a state, and the state after it. -/
def Randomness.next (s : Randomness) : UInt64 × Randomness :=
  let turned := fun (x : UInt64) (n : UInt64) => (x <<< n) ||| (x >>> (64 - n))
  let c := s.c ^^^ s.a
  let d := s.d ^^^ s.b
  (turned (s.b * 5) 7 * 9, ⟨s.a ^^^ d, s.b ^^^ c, c ^^^ (s.b <<< 17), turned d 45⟩)

/-- The state that two seeds begin. -/
def Randomness.ofSeeds (n m : UInt64) : Randomness :=
  (List.range 16).foldl (fun s _ => s.next.2) ⟨n, 0xff, m, 0⟩

namespace Library

/-- A double precision number as a whole one if it is whole and fits. -/
def wholeOrFloat (x : Binary64) : Value :=
  match (Numeral.float x).toInt? with
  | some i => .int i
  | none => .float x

/-- A function of one double precision number. -/
def ofFloat (c : Invocation) (f : Float → Float) : Eval (List Value) := do
  return [.float ((← c.float 1).lift₁ f)]

/-- A function that leaves whole numbers alone and makes others whole. -/
def rounded (c : Invocation) (f : Binary64 → Binary64) : Eval (List Value) := do
  match c.arg 1 with
  | .int i => return [.int i]
  | _ => return [wholeOrFloat (f (← c.float 1))]

/-- The best of the arguments by an order, the first of equal ones. -/
def bestOf (c : Invocation) (better : Value → Value → Eval Bool) : Eval (List Value) := do
  match c.args with
  | [] => c.failArgWith 1 "value expected"
  | first :: rest =>
    let best ← rest.foldlM (fun best v => do return if ← better v best then v else best) first
    return [best]

def pi : Binary64 := ⟨0x400921FB54442D18⟩

/-- Splits a number into its whole part and the rest. -/
def modf (c : Invocation) : Eval (List Value) := do
  match c.arg 1 with
  | .int i => return [.int i, .float .zero]
  | _ =>
    let x ← c.float 1
    let whole := if x.lt .zero then x.ceil else x.floor
    return [.float whole, .float (if x.same whole then .zero else x.sub whole)]

/-- The remainder with the sign of the dividend. -/
def fmod (c : Invocation) : Eval (List Value) := do
  match c.arg 1, c.arg 2 with
  | .int i, .int j =>
    if j = 0 then c.failArgWith 2 "zero"
    return [.int (Int64.ofInt (i.toInt.tmod j.toInt))]
  | _, _ =>
    let x ← c.float 1
    return [.float (x.remTruncated (← c.float 2))]

def logarithm (c : Invocation) : Eval (List Value) := do
  let x ← c.float 1
  if c.lacks 2 then return [.float (x.lift₁ Float.log)]
  let base ← c.float 2
  if base.same (Binary64.ofInt 2) then return [.float (x.lift₁ Float.log2)]
  else if base.same (Binary64.ofInt 10) then return [.float (x.lift₁ Float.log10)]
  else return [.float ((x.lift₁ Float.log).div (base.lift₁ Float.log))]

/-! ### Random numbers -/

/-- A random word of the environment. -/
def randomWord (c : Invocation) : Eval UInt64 := do
  let s := ((← Eval.heap).environment c.site.home).randomness
  let (x, s) := s.next
  Eval.modifyHeap (·.setRandomness c.site.home s)
  return x

/-- A random number up to a limit, all equally likely: words are cut to the digits of the limit and
those past it are not taken. -/
def randomUpTo (c : Invocation) (word limit : UInt64) : Eval UInt64 :=
  let mask := (List.range 6).foldl (fun m k => m ||| (m >>> UInt64.ofNat (2 ^ k))) limit
  Eval.repeating (fun x : UInt64 => do
    if x &&& mask ≤ limit then return .inr (x &&& mask) else return .inl (← randomWord c)) word

def random (c : Invocation) : Eval (List Value) := do
  let word ← randomWord c
  let between := fun (low high : Int64) => do
    if high < low then c.failArgWith 2 "interval is empty"
    let x ← randomUpTo c word (high.toUInt64 - low.toUInt64)
    return [.int (x + low.toUInt64).toInt64]
  match c.args.length with
  | 0 => return [.float (Binary64.ofBinary false (word >>> 11).toNat (-53))]
  | 1 =>
    let high ← c.int 1
    if high = 0 then return [.int word.toInt64] else between 1 high
  | 2 => between (← c.int 1) (← c.int 2)
  | _ => c.refuse "wrong number of arguments"

/-- Begins the random numbers anew, and gives the seeds. -/
def randomSeed (c : Invocation) : Eval (List Value) := do
  let (n, m) ←
    if c.has 1 then do
      let n ← match c.arg 1 with
        | .int i => pure i.toUInt64
        | _ => do
          let x ← c.float 1
          pure (match (Numeral.float x).toInt? with
            | some i => i.toUInt64
            | none => x.bits)
      pure (n, (← c.intOr 2 0).toUInt64)
    else do pure (← randomWord c, ← randomWord c)
  Eval.modifyHeap (·.setRandomness c.site.home (.ofSeeds n m))
  return [.int n.toInt64, .int m.toInt64]

/-! ### All functions -/

def runMath (f : MathFunction) (c : Invocation) : Eval (List Value) :=
  match f with
  | .abs => do
    match c.arg 1 with
    | .int i => return [.int (if i < 0 then -i else i)]
    | _ => return [.float (← c.float 1).abs]
  | .ceil => rounded c Binary64.ceil
  | .floor => rounded c Binary64.floor
  | .max => bestOf c fun v best => c.less false best v
  | .min => bestOf c fun v best => c.less false v best
  | .fmod => fmod c
  | .modf => modf c
  | .sqrt => ofFloat c Float.sqrt
  | .sin => ofFloat c Float.sin
  | .cos => ofFloat c Float.cos
  | .tan => ofFloat c Float.tan
  | .asin => ofFloat c Float.asin
  | .acos => ofFloat c Float.acos
  | .atan => do
    let y ← c.float 1
    let x ← if c.lacks 2 then pure (Binary64.ofInt 1) else c.float 2
    return [.float (y.lift₂ Float.atan2 x)]
  | .exp => ofFloat c Float.exp
  | .log => logarithm c
  | .deg => do return [.float ((← c.float 1).mul ((Binary64.ofInt 180).div pi))]
  | .rad => do return [.float ((← c.float 1).mul (pi.div (Binary64.ofInt 180)))]
  | .tointeger => do
    match toInt? (c.arg 1) with
    | some i => return [.int i]
    | none =>
      let _ ← c.any 1
      return [.nil]
  | .type => do
    match ← c.any 1 with
    | .int _ => return [.ofString "integer"]
    | .float _ => return [.ofString "float"]
    | _ => return [.nil]
  | .ult => do return [.bool ((← c.int 1).toUInt64 < (← c.int 2).toUInt64)]
  | .frexp => do
    let x ← c.float 1
    if !x.isFinite || x.abs = .zero then return [.float x, .int 0]
    let (m, q) := x.parts
    let e : Int := q + m.log2 + 1
    return [.float (Binary64.ofBinary x.isNegative m (q - e)), .int (Int64.ofInt e)]
  | .ldexp => do
    let x ← c.float 1
    let e ← c.int 2
    if !x.isFinite then return [.float x]
    return [.float (Binary64.ofBinary x.isNegative x.parts.1 (x.parts.2 + e.toInt))]
  | .random => random c
  | .randomseed => randomSeed c

end Library

end ScriptHost.Script
