import ScriptHost.Script.Library.Arguments

/-!
# The table library

Rows of values: joining, inserting, removing, moving and sorting them. The functions read and write
through metatables, and in a fixed order, since a metatable can tell.
-/
namespace ScriptHost.Script.Library

open Text (Bytes)
open Number (Binary64)

/-- The value at a whole-number key. -/
def item (c : Invocation) (t : Value) (i : Int) : Eval Value :=
  c.index t (.int (Int64.ofInt i))

/-- Gives a whole-number key a value. -/
def setItem (c : Invocation) (t : Value) (i : Int) (v : Value) : Eval Unit :=
  c.setIndex t (.int (Int64.ofInt i)) v

/-- Repeats a step for whole numbers in a row. -/
def forEach (step : Int → Eval Unit) (first : Int) (count : Nat) : Eval Unit :=
  Eval.repeating (fun ((i, left) : Int × Nat) => do
    match left with
    | 0 => return .inr ()
    | left + 1 =>
      step i
      return .inl (i + 1, left)) (first, count)

/-- Refuses an argument that is no table and has no functions to be used like one. -/
def checkTable (c : Invocation) (n : Nat) (events : List String) : Eval Unit := do
  match c.arg n with
  | .table _ => return
  | v =>
    let h ← Eval.heap
    let able := (metatable? h c.site.home v).isSome
      && events.all fun x => Script.metamethod h c.site.home v x != .nil
    unless able do c.failType n "table"

/-- The length of a value by its metatable, which must be whole. -/
def lengthOf (c : Invocation) (v : Value) : Eval Int := do
  match toInt? (← c.length v) with
  | some i => return i.toInt
  | none => c.refuse "object length is not an integer"

/-- The length of the first argument, used like a table for certain events. -/
def rowLength (c : Invocation) (events : List String) : Eval Int := do
  checkTable c 1 (events ++ ["__len"])
  lengthOf c (c.arg 1)

def tableConcat (c : Invocation) : Eval (List Value) := do
  let length ← rowLength c ["__index"]
  let separator ← c.textOr 2 []
  let first := (← c.intOr 3 1).toInt
  let last := (← c.intOr 4 (Int64.ofInt length)).toInt
  let piece := fun (i : Int) => do
    let v ← item c (c.arg 1) i
    match plainText? v with
    | some b => pure b
    | none => c.refuse s!"invalid value ({v.typeName}) at index {i} in table for 'concat'"
  let pieces ← Eval.repeating (fun ((i, acc) : Int × List Bytes) => do
    if last < i then return .inr acc
    else
      let b ← piece i
      return .inl (i + 1, if i = last then b :: acc else separator :: b :: acc)) (first, [])
  return [.text pieces.reverse.flatten]

def tableInsert (c : Invocation) : Eval (List Value) := do
  let t := c.arg 1
  let size := (← rowLength c ["__index", "__newindex"]) + 1
  match c.args.length with
  | 2 =>
    setItem c t size (c.arg 2)
    return []
  | 3 =>
    let place := (← c.int 2).toInt
    if place < 1 || size < place then c.failArgWith 2 "position out of bounds"
    forEach (fun n => do setItem c t (size - n) (← item c t (size - n - 1))) 0 (size - place).toNat
    setItem c t place (c.arg 3)
    return []
  | _ => c.refuse "wrong number of arguments to 'insert'"

def tableRemove (c : Invocation) : Eval (List Value) := do
  let t := c.arg 1
  let size ← rowLength c ["__index", "__newindex"]
  let place := (← c.intOr 2 (Int64.ofInt size)).toInt
  if place ≠ size && (place < 1 || size + 1 < place) then
    c.failArgWith 2 "position out of bounds"
  let taken ← item c t place
  forEach (fun i => do setItem c t i (← item c t (i + 1))) place (size - place).toNat
  setItem c t (max place size) .nil
  return [taken]

def tablePack (c : Invocation) : Eval (List Value) := do
  let place ← Eval.newTable (.ofItems c.site.home c.args.toArray 1)
  Eval.modifyHeap (·.rawSet place (.ofString "n") (.int (Int64.ofNat c.args.length)))
  return [.table place]

def tableUnpack (c : Invocation) : Eval (List Value) := do
  let first := (← c.intOr 2 1).toInt
  let last ← if c.lacks 3 then lengthOf c (c.arg 1) else Int64.toInt <$> c.int 3
  let count := (last - first + 1).toNat
  if 2 ^ 31 ≤ count || stackLimit < c.site.top + count then
    c.refuse "too many results to unpack"
  Eval.repeating (fun ((i, acc) : Int × List Value) => do
    if last < i then return .inr acc.reverse
    else return .inl (i + 1, (← item c (c.arg 1) i) :: acc)) (first, [])

def tableMove (c : Invocation) : Eval (List Value) := do
  let first := (← c.int 2).toInt
  let last := (← c.int 3).toInt
  let target := (← c.int 4).toInt
  let source := c.arg 1
  let place := if c.lacks 5 then 1 else 5
  let dest := c.arg place
  checkTable c 1 ["__index"]
  checkTable c place ["__newindex"]
  if first ≤ last then
    if first ≤ 0 && 2 ^ 63 - 1 + first ≤ last then c.failArgWith 3 "too many elements to move"
    let count := last - first + 1
    if 2 ^ 63 - count < target then c.failArgWith 4 "destination wrap around"
    let copy := fun (i : Int) => do setItem c dest (target + i) (← item c source (first + i))
    let apart ← if last < target || target ≤ first then pure true
      else if place = 1 then pure false
      else do pure !(← c.equal source dest)
    if apart then forEach copy 0 count.toNat
    else forEach (fun n => copy (count - 1 - n)) 0 count.toNat
  return [dest]

/-- The longest row that is made in advance. -/
def rowLimit : Nat := 2 ^ 24

def tableCreate (c : Invocation) : Eval (List Value) := do
  let inRange := fun (i : Int64) => 0 ≤ i.toInt && i.toInt < 2 ^ 31
  let row ← c.int 1
  let rest ← c.intOr 2 0
  unless inRange row do c.failArgWith 1 "out of range"
  unless inRange rest do c.failArgWith 2 "out of range"
  let row := min row.toInt.toNat rowLimit
  return [.table (← Eval.newTable (.withRoom c.site.home row rest.toInt.toNat))]

/-! ### Sorting -/

section

variable (c : Invocation)

/-- Whether a value comes before another in the order asked for. -/
def before (a b : Value) : Eval Bool :=
  if c.lacks 2 then c.less false a b
  else do return (firstOf (← c.call (c.arg 2) [a, b])).truthy

/-- Gives two keys of the row that is sorted values. -/
def setBoth (i : Int) (v : Value) (j : Int) (w : Value) : Eval Unit := do
  setItem c (c.arg 1) i v
  setItem c (c.arg 1) j w

/-- Looks for the next value that is out of place, from a key on in steps; `isBefore` tells which
values are in place, and no key past `limit` can hold one of them. -/
def scan (isBefore : Value → Eval Bool) (pastLimit : Int → Bool) (step start : Int) :
    Eval (Int × Value) :=
  Eval.repeating (fun i : Int => do
    let v ← item c (c.arg 1) i
    if ← isBefore v then
      if pastLimit i then c.refuse "invalid order function for sorting"
      return .inl (i + step)
    else return .inr (i, v)) start

/-- Brings the values that come before a pivot in front of it and the others behind it; the pivot
waits at the key before the last. Gives the key where the pivot ends up. -/
def partition (low high : Int) (pivot : Value) : Eval Int :=
  Eval.repeating (fun ((i, j) : Int × Int) => do
    let (i, v) ← scan c (fun v => before c v pivot) (· == high - 1) 1 (i + 1)
    let (j, w) ← scan c (fun w => before c pivot w) (· < i) (-1) (j - 1)
    if j < i then
      setBoth c (high - 1) v i pivot
      return .inr i
    else
      setBoth c i w j v
      return .inl (i, j)) (low, high - 1)

/-- Sorts three values: the first, the last and the middle one. Gives the key of the middle one if
there are others. -/
def sortEnds (low high : Int) : Eval (Option Int) := do
  let t := c.arg 1
  let a ← item c t low
  let b ← item c t high
  if ← before c b a then setBoth c low b high a
  if high - low = 1 then return none
  let mid := (low + high) / 2
  let m ← item c t mid
  let a ← item c t low
  if ← before c m a then setBoth c mid a low m
  else
    let b ← item c t high
    if ← before c b m then setBoth c mid b high m
  return if high - low = 2 then none else some mid

/-- Sorts the values of keys in a row by exchanging them; the ranges that are left are sorted
one after the other, the shorter of two first. -/
def sortRanges (ranges : List (Int × Int)) : Eval Unit :=
  Eval.repeating (fun ranges : List (Int × Int) => do
    match ranges with
    | [] => return .inr ()
    | (low, high) :: rest =>
      if high ≤ low then return .inl rest
      match ← sortEnds c low high with
      | none => return .inl rest
      | some mid =>
        let t := c.arg 1
        let pivot ← item c t mid
        let other ← item c t (high - 1)
        setBoth c mid other (high - 1) pivot
        let p ← partition c low high pivot
        if p - low < high - p then return .inl ((low, p - 1) :: (p + 1, high) :: rest)
        else return .inl ((p + 1, high) :: (low, p - 1) :: rest)) ranges

end

def tableSort (c : Invocation) : Eval (List Value) := do
  let size ← rowLength c ["__index", "__newindex"]
  if 1 < size then
    if 2 ^ 31 - 1 ≤ size then c.failArgWith 1 "array too big"
    unless c.lacks 2 do c.callable 2
    sortRanges c [(1, size)]
  return []

def runTable (f : TableFunction) (c : Invocation) : Eval (List Value) :=
  match f with
  | .concat => tableConcat c
  | .create => tableCreate c
  | .insert => tableInsert c
  | .move => tableMove c
  | .pack => tablePack c
  | .remove => tableRemove c
  | .sort => tableSort c
  | .unpack => tableUnpack c

end ScriptHost.Script.Library
