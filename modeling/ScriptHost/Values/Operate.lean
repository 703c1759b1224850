import ScriptHost.Values.Shown

/-!
# Operators on host values

Sums, differences, products and bounds. Truth values count as numbers, a text can be joined with a
text and repeated, a list with a list, a tuple with a tuple; everything else is a mismatch that
names the types.
-/
namespace ScriptHost

open Number (Binary64)

/-- A number: whole, or of double precision. -/
inductive Quantity where
  | int (i : Int)
  | float (x : Binary64)
  deriving DecidableEq, Repr

namespace Quantity

def toDatum : Quantity → Datum
  | .int i => .int i
  | .float x => .float x

/-- The double precision number nearest to a number, if it has room for it. -/
def toFloat : Quantity → Except Fault Binary64
  | .float x => .ok x
  | .int i =>
    let x := Binary64.ofInt i
    if x.isInfinite then .error .integerTooLargeForFloat else .ok x

def rank : Quantity → Option Binary64.Rank
  | .int i => some (.ofInt i)
  | .float x => x.rank

def lt (a b : Quantity) : Bool :=
  match a.rank, b.rank with
  | some x, some y => x.lt y
  | _, _ => false

def same (a b : Quantity) : Bool :=
  match a.rank, b.rank with
  | some x, some y => x == y
  | _, _ => false

/-- An operator by what it does to whole numbers and to numbers of double precision. -/
def combine (onInt : Int → Int → Int) (onFloat : Binary64 → Binary64 → Binary64)
    (a b : Quantity) : Except Fault Datum :=
  match a, b with
  | .int i, .int j => .ok (.int (onInt i j))
  | _, _ => do return .float (onFloat (← a.toFloat) (← b.toFloat))

end Quantity

/-- The number a value is; truth values are one and zero. -/
def Datum.quantity? : Datum → Option Quantity
  | .int i => some (.int i)
  | .bool b => some (.int (if b then 1 else 0))
  | .float x => some (.float x)
  | _ => Option.none

/-- What a value is a sequence of. -/
inductive Sequence where
  | text (cs : String)
  | list (items : List Datum)
  | tuple (items : List Datum)

namespace World

def sequence? (w : World) : Datum → Option Sequence
  | .text s => some (.text s)
  | .object p =>
    match w.objectAt p with
    | .list items => some (.list items)
    | .tuple items => some (.tuple items)
    | _ => none
  | _ => none

/-- Whether two values are equal: numbers by value, texts, lists, tuples and dicts by what they
hold, methods by their object, and all else by identity. -/
def sameWithin (w : World) : Nat → Datum → Datum → Bool
  | 0, a, b => a == b
  | n + 1, a, b =>
    match a.quantity?, b.quantity?, a, b with
    | some x, some y, _, _ => x.same y
    | _, _, .object p, .object q =>
      p == q || match w.objectAt p, w.objectAt q with
      | .list xs, .list ys | .tuple xs, .tuple ys =>
        xs.length == ys.length && (xs.zip ys).all fun (x, y) => w.sameWithin n x y
      | .dict xs, .dict ys =>
        xs.length == ys.length && xs.all fun (k, v) =>
          match ys.find? fun e => w.sameWithin n e.1 k with
          | some e => w.sameWithin n v e.2
          | none => false
      | .cls c, .cls d => c == d
      | .callable f, .callable g => f.owner.isSome && f.owner == g.owner && f.shown == g.shown
      | _, _ => false
    | _, _, _, _ => a == b

def same (w : World) (a b : Datum) : Bool :=
  w.sameWithin shownDepth a b

/-- Whether one value is before another; `operator` is what a mismatch is reported for. -/
def beforeWithin (w : World) (operator : String) (flipped : Bool) :
    Nat → Datum → Datum → Except Fault Bool
  | 0, _, _ => .ok false
  | n + 1, a, b =>
    let mismatch : Except Fault Bool :=
      if flipped then .error (.mismatch (.order operator (w.operandType b) (w.operandType a)))
      else .error (.mismatch (.order operator (w.operandType a) (w.operandType b)))
    match a.quantity?, b.quantity? with
    | some x, some y => .ok (x.lt y)
    | _, _ =>
      match w.sequence? a, w.sequence? b with
      | some (.text s), some (.text t) => .ok (decide (s < t))
      | some (.list xs), some (.list ys) | some (.tuple xs), some (.tuple ys) =>
        match (xs.zip ys).find? fun (x, y) => !w.same x y with
        | some (x, y) => w.beforeWithin operator flipped n x y
        | none => .ok (xs.length < ys.length)
      | _, _ => mismatch

def less (w : World) (a b : Datum) : Except Fault Bool :=
  w.beforeWithin "<" false shownDepth a b

def greater (w : World) (a b : Datum) : Except Fault Bool :=
  w.beforeWithin ">" true shownDepth b a

end World

namespace Op

/-- A value made of a sequence. -/
def ofSequence : Sequence → Op Datum
  | .text s => return .text s
  | .list items => .object <$> newObject (.list items)
  | .tuple items => .object <$> newObject (.tuple items)

def add (a b : Datum) : Op Datum := do
  let w ← get
  let other := w.operandType b
  match a.quantity?, b.quantity? with
  | some x, some y => ofExcept (x.combine (· + ·) Binary64.add y)
  | _, _ =>
    match w.sequence? a, w.sequence? b with
    | some (.text s), some (.text t) => return .text (s ++ t)
    | some (.list xs), some (.list ys) => ofSequence (.list (xs ++ ys))
    | some (.tuple xs), some (.tuple ys) => ofSequence (.tuple (xs ++ ys))
    | some (.text _), _ => throw (.mismatch (.concatText other))
    | some (.list _), _ => throw (.mismatch (.concatList "list" other))
    | some (.tuple _), _ => throw (.mismatch (.concatList "tuple" other))
    | none, _ => throw (.mismatch (.operands "+" (w.operandType a) other))

def sub (a b : Datum) : Op Datum := do
  let w ← get
  match a.quantity?, b.quantity? with
  | some x, some y => ofExcept (x.combine (· - ·) Binary64.sub y)
  | _, _ => throw (.mismatch (.operands "-" (w.operandType a) (w.operandType b)))

/-- How many bytes a sequence may take. -/
def memoryLimit : Nat := 2 ^ 33

/-- Items so many times in a row, where there is room for them. -/
def repeatItems {α : Type} (items : List α) (size times : Nat) : Except Fault (List α) :=
  if items.isEmpty then .ok []
  else if memoryLimit < items.length * size * times then .error .outOfMemory
  else .ok (List.replicate times items).flatten

/-- A sequence so many times in a row. -/
def repeated (s : Sequence) (times : Datum) : Op Datum := do
  match times.quantity? with
  | some (.int n) =>
    if (Script.fitInt? n).isNone then throw .indexTooLarge
    let n := n.toNat
    match s with
    | .text t =>
      if 2 ^ 63 ≤ t.length * n then throw .textTooLong
      return .text (String.ofList (← ofExcept (repeatItems t.toList 1 n)))
    | .list items => ofSequence (.list (← ofExcept (repeatItems items 8 n)))
    | .tuple items => ofSequence (.tuple (← ofExcept (repeatItems items 8 n)))
  | _ => throw (.mismatch (.repetition ((← get).operandType times)))

def mul (a b : Datum) : Op Datum := do
  let w ← get
  match a.quantity?, b.quantity? with
  | some x, some y => ofExcept (x.combine (· * ·) Binary64.mul y)
  | _, _ =>
    match w.sequence? a, w.sequence? b with
    | some s, _ => repeated s b
    | none, some t => repeated t a
    | none, none => throw (.mismatch (.operands "*" (w.operandType a) (w.operandType b)))

/-- A value brought between two bounds; the lower bound wins over the upper. -/
def clamp (value low high : Datum) : Op Datum := do
  let w ← get
  let m := if ← ofExcept (w.less value high) then value else high
  return if ← ofExcept (w.greater m low) then m else low

/-- Does an operator on its operands. -/
def operate (op : Operation) (args : List Datum) : Op Datum :=
  match op, args with
  | .add, [a, b] => add a b
  | .sub, [a, b] => sub a b
  | .mul, [a, b] => mul a b
  | .clamp, [value, low, high] => clamp value low high
  | _, _ => return .none

end Op

end ScriptHost
