import ScriptHost.Script.Value

/-!
# Seats

The keys that a table does not keep in a row sit in an array, and walks meet them in its order.
Numbers and truth values ask for a seat of their own, and all other keys take any. Where two keys ask
for one seat, the one that sits in a seat it did not ask for has to leave, to the last free seat.
-/
namespace ScriptHost.Script

open Number (Binary64)

/-- A number of 31 bits for a double precision number: its leading bits and its exponent, added
up. -/
def digest (x : Binary64) : Nat :=
  let (m, q) := x.parts
  if !x.isFinite || m = 0 then 0
  else
    let width := m.log2 + 1
    let lead : Int := m * 2 ^ 31 / 2 ^ width
    let sum := (q + width + if x.isNegative then -lead else lead).emod (2 ^ 32) |>.toNat
    if sum < 2 ^ 31 then sum else 2 ^ 32 - 1 - sum

/-- The seat that a key asks for among so many, a power of two; none if it takes any. -/
def askedSeat? (count : Nat) (key : Value) : Option Nat :=
  let odd := (count - 1) ||| 1
  match key with
  | .int i => some (i.toUInt64.toNat % odd)
  | .float x => some (digest x % odd)
  | .bool b => some (if b then 1 % count else 0)
  | _ => none

/-- Keys in seats, some of which are free. -/
abbrev Seats := Array (Option Value)

namespace Seats

/-- So many free seats. -/
def free (count : Nat) : Seats :=
  Array.replicate count none

/-- The keys that sit, in order. -/
def keys (s : Seats) : List Value :=
  s.toList.filterMap id

/-- The last free seat before another. -/
def lastFree? (s : Seats) : Nat → Option Nat
  | 0 => none
  | n + 1 => if s[n]? = some none then some n else s.lastFree? n

/-- Seats a new key if there is a free seat for it. A key that is no longer `living` gives its seat to
one that asks for it. -/
def seat? (s : Seats) (living : Value → Bool) (key : Value) : Option Seats :=
  match askedSeat? s.size key with
  | none => (s.findIdx? Option.isNone).map fun n => s.setIfInBounds n (some key)
  | some n =>
    match s[n]? with
    | none => none
    | some none => some (s.setIfInBounds n (some key))
    | some (some other) =>
      if !living other then some (s.setIfInBounds n (some key))
      else
        (s.lastFree? s.size).map fun m =>
          if (askedSeat? s.size other).getD n = n then s.setIfInBounds m (some key)
          else (s.setIfInBounds m (some other)).setIfInBounds n (some key)

/-- Seats keys one after the other. -/
def ofKeys (count : Nat) (keys : List Value) : Seats :=
  keys.foldl (fun s k => (s.seat? (fun _ => true) k).getD s) (free count)

end Seats

end ScriptHost.Script
