import ScriptHost.Script.Table.Association
import ScriptHost.Script.Table.Seats

/-!
# Tables of scripts

A table keeps the values of the keys 1, 2, … in a row and the values of all other keys as pairs,
whose seats say in which order walks meet them. Which keys belong to the row is decided anew when
there is no seat for another key. `Table.find_resized` says that this changes no value;
`Table.get_set_self` and `Table.get_set_of_ne` say what a table answers after a change. Where a row
has gaps a table has several lengths, and which one is told depends on the size of the row and on the
length told last.
-/
namespace ScriptHost.Script

structure Table where
  /-- The environment the table was made in. -/
  home : Nat
  /-- The values of the keys 1, 2, …. -/
  items : Array Value
  /-- The values of the other keys. -/
  pairs : List (Value × Value)
  /-- The seats of the other keys. A key that lost its value keeps its seat. -/
  seats : Seats
  /-- The length that was told last, or half the row if it is a new one. -/
  hint : Nat
  metatable : Option Nat
  deriving Repr, Inhabited

namespace Table

def empty (home : Nat) : Table :=
  ⟨home, #[], [], #[], 0, none⟩

/-- The least power of two that is no less than a number. -/
def powerFrom (n : Nat) : Nat :=
  if n ≤ 1 then 1 else 2 ^ ((n - 1).log2 + 1)

/-- How many seats are made when so many are needed. -/
def seatsFor (n : Nat) : Nat :=
  if n = 0 then 0 else powerFrom n

/-- A table for values in a row, with seats for so many other keys. -/
def ofItems (home : Nat) (items : Array Value) (others : Nat) : Table :=
  ⟨home, items, [], .free (seatsFor others), items.size / 2, none⟩

/-- A table with room for keys in a row and for other keys. -/
def withRoom (home items others : Nat) : Table :=
  ofItems home (Array.replicate items .nil) others

/-- The place in a row of a size that a key has. -/
def slotIn? (size : Nat) : Value → Option Nat
  | .int i =>
    let n := i.toInt
    if 1 ≤ n && n ≤ size then some (n.toNat - 1) else none
  | _ => none

/-- The key whose value is at a place of the row. -/
def keyAt (n : Nat) : Value :=
  .int (Int64.ofNat (n + 1))

/-- The place in `items` of a key that has one. -/
def slot? (t : Table) (key : Value) : Option Nat :=
  slotIn? t.items.size key

/-- The value of a key in its one form. -/
def find (t : Table) (key : Value) : Value :=
  match t.slot? key with
  | some n => t.items[n]?.getD .nil
  | none => lookup key t.pairs

/-- The value of a key. -/
def get (t : Table) (key : Value) : Value :=
  t.find key.toKey

/-- Gives a key a value and keeps the size of the row. -/
def put (t : Table) (key value : Value) : Table :=
  match t.slot? key with
  | some n => { t with items := t.items.setIfInBounds n value }
  | none => { t with pairs := assign key value t.pairs }

/-- The keys that leave the row when it gets a size. -/
def leavers (t : Table) (size : Nat) : List Value :=
  (List.range' size (t.items.size - size)).map keyAt

/-- Whether a key has a value. -/
def isLiving (t : Table) (key : Value) : Bool :=
  t.find key != .nil

/-- The same table with a row of another size and seats for at least so many other keys. -/
def resized (t : Table) (size others : Nat) : Table :=
  let moved := (t.leavers size).map fun k => (k, t.find k)
  let rest := t.pairs.filter fun e => (slotIn? size e.1).isNone
  let keys := t.leavers size ++ t.seats.keys.filter fun k => (slotIn? size k).isNone
  { t with
    items := if size ≤ t.items.size then t.items.extract 0 size
      else t.items ++ Array.ofFn fun i : Fin (size - t.items.size) =>
        t.find (keyAt (t.items.size + i))
    pairs := living (moved ++ rest)
    seats := .ofKeys (seatsFor others) (keys.filter t.isLiving)
    hint := size / 2 }

/-! ### Growth -/

/-- Whether a row of a size with so many values takes less space than as many pairs. -/
def isDense (size count : Nat) : Bool :=
  size ≤ count * 3

/-- The size of the row for some places: the greatest power of two whose row is dense and has a
value in its upper half. -/
def rowSize (places : List Nat) : Nat :=
  let below := fun (n : Nat) => places.countP (· < n)
  let exponents := List.range ((places.length * 3).log2 + 1)
  exponents.foldl (fun best i =>
    let size := 2 ^ i
    let count := below size
    let lower := if i = 0 then 0 else below (size / 2)
    if lower < count && isDense size count then size else best) 0

/-- The greatest place that a row may have. -/
def placeLimit : Nat :=
  2 ^ 31

/-- The same table with room for another key. -/
def grown (t : Table) (key : Value) : Table :=
  let alive := t.seats.keys.filter t.isLiving
  let others := (key :: alive).filterMap (slotIn? placeLimit)
  let (size, left) :=
    if others.isEmpty then (t.items.size, alive.length + 1)
    else
      let own := (List.range t.items.size).filter fun n => (t.items[n]?.getD .nil) ≠ .nil
      let places := others ++ own
      let size := rowSize places
      (size, alive.length + 1 + own.length - places.countP (· < size))
  let isWorn := t.seats.isEmpty || alive.length < t.seats.size
  t.resized size (if isWorn then left + left / 4 else left)

/-- The same table with a seat for a new key, if there is one. Values of keys that lost their seat are
left out when there are as many as seats. -/
def seated? (t : Table) (key : Value) : Option Table :=
  (t.seats.seat? t.isLiving key).map fun seats =>
    { t with
      seats := seats
      pairs := if t.pairs.length < seats.size then t.pairs else living t.pairs }

/-- Leaves out the value of a key that is not in the row. -/
def without (t : Table) (key : Value) : Table :=
  { t with pairs := t.pairs.filter (·.1 ≠ key) }

/-- The same table with a place for a key for which there is room. -/
def admitting (t : Table) (key : Value) : Table :=
  if (t.slot? key).isSome then t else (t.seated? key).getD t

/-- Gives a key a value. -/
def set (t : Table) (key value : Value) : Table :=
  let key := key.toKey
  if (t.slot? key).isSome || t.seats.contains (some key) then t.put key value
  else if value = .nil then t.without key
  else
    match t.seated? key with
    | some t => t.put key value
    | none => ((t.grown key).admitting key).put key value

/-- Gives the whole numbers after `skip` the values of a row. -/
def setRow (t : Table) (skip : Nat) (row : List Value) : Table :=
  let last := skip + row.length
  let t := if t.items.size < last then t.resized last t.seats.size else t
  { t with items := row.zipIdx.foldl (fun a (v, n) => a.setIfInBounds (skip + n) v) t.items }

/-! ### What a table answers -/

theorem slotIn?_lt {size n : Nat} {key : Value} (h : slotIn? size key = some n) : n < size := by
  unfold slotIn? at h
  split at h
  · simp only [Option.ite_none_right_eq_some, Bool.and_eq_true, decide_eq_true_eq,
      Option.some.injEq] at h
    omega
  · simp at h

/-- The key at the place a key has is this key. -/
theorem keyAt_of_slotIn? {size n : Nat} {key : Value} (h : slotIn? size key = some n) :
    keyAt n = key := by
  unfold slotIn? at h
  split at h
  · rename_i i
    simp only [Option.ite_none_right_eq_some, Bool.and_eq_true, decide_eq_true_eq,
      Option.some.injEq] at h
    have hn : n + 1 = i.toInt.toNat := by omega
    have hi : (i.toInt.toNat : Int) = i.toInt := Int.toNat_of_nonneg (by omega)
    rw [keyAt, hn, ← Int64.ofInt_eq_ofNat, hi, Int64.ofInt_toInt]
  · simp at h

/-- Two keys with the same slot are the same. -/
theorem slotIn?_inj {size n : Nat} {key other : Value} (h : slotIn? size key = some n)
    (h' : slotIn? size other = some n) : other = key := by
  rw [← keyAt_of_slotIn? h, ← keyAt_of_slotIn? h']

/-- A key that has a slot in a row has it in every row that reaches so far. -/
theorem slotIn?_of_lt {size other n : Nat} {key : Value} (h : slotIn? size key = some n)
    (hn : n < other) : slotIn? other key = some n := by
  unfold slotIn? at h ⊢
  split at h
  · simp only [Option.ite_none_right_eq_some, Bool.and_eq_true, decide_eq_true_eq,
      Option.some.injEq] at h ⊢
    omega
  · simp at h

private theorem lookup_filter_key (p : Value → Bool) (key : Value) (l : List (Value × Value)) :
    lookup key (l.filter fun e => p e.1) = if p key then lookup key l else .nil := by
  induction l with
  | nil => simp [lookup]
  | cons e rest ih =>
    by_cases he : p e.1 <;> by_cases hk : e.1 = key <;> simp_all [List.filter, lookup]

private theorem lookup_map_append (f : Value → Value) (key : Value) (keys : List Value)
    (l : List (Value × Value)) :
    lookup key (keys.map (fun k => (k, f k)) ++ l)
      = if key ∈ keys then f key else lookup key l := by
  induction keys with
  | nil => simp
  | cons k rest ih =>
    by_cases hk : k = key
    · simp [lookup, hk]
    · simp [lookup, hk, ih, Ne.symm hk]

private theorem find_of_slot? {t : Table} {key : Value} {n : Nat} (h : t.slot? key = some n) :
    t.find key = t.items[n]?.getD .nil := by
  simp [find, h]

private theorem find_of_slot?_none {t : Table} {key : Value} (h : t.slot? key = none) :
    t.find key = lookup key t.pairs := by
  simp [find, h]

private theorem size_items_resized (t : Table) (size room : Nat) :
    (t.resized size room).items.size = size := by
  simp only [resized]
  split <;> simp <;> omega

private theorem getElem?_items_resized (t : Table) {size room n : Nat} (hn : n < size) :
    (t.resized size room).items[n]?.getD .nil
      = if n < t.items.size then t.items[n]?.getD .nil else t.find (keyAt n) := by
  simp only [resized]
  split
  · have hs : n < t.items.size := by omega
    have hm : n < min size t.items.size := by omega
    simp [hm, hs]
  · by_cases hs : n < t.items.size
    · simp [Array.getElem?_append, hs]
    · have hlt : n - t.items.size < size - t.items.size := by omega
      have he : t.items.size + (n - t.items.size) = n := by omega
      simp [Array.getElem?_append, hs, hlt, he]

private theorem mem_leavers {t : Table} {size n : Nat} {key : Value} (h : t.slot? key = some n)
    (hn : size ≤ n) : key ∈ t.leavers size := by
  have hlt := slotIn?_lt h
  simp only [leavers, List.mem_map, List.mem_range'_1]
  exact ⟨n, by omega, keyAt_of_slotIn? h⟩

/-- The size of the row is no part of what a table says. -/
@[simp] theorem find_resized (t : Table) (size room : Nat) (key : Value) :
    (t.resized size room).find key = t.find key := by
  have hsize := size_items_resized t size room
  cases h : slotIn? size key with
  | some n =>
    have hs : (t.resized size room).slot? key = some n := by rw [slot?, hsize, h]
    rw [find_of_slot? hs, getElem?_items_resized t (slotIn?_lt h)]
    split
    · rename_i hn
      exact (find_of_slot? (slotIn?_of_lt h hn)).symm
    · rw [keyAt_of_slotIn? h]
  | none =>
    have hs : (t.resized size room).slot? key = none := by rw [slot?, hsize, h]
    rw [find_of_slot?_none hs]
    simp only [resized, lookup_living, lookup_map_append, lookup_filter_key
      (fun k => (slotIn? size k).isNone), h]
    split
    · rfl
    · rename_i hm
      cases ho : t.slot? key with
      | some n =>
        have hn : ¬n < size := fun hlt => by simp [slotIn?_of_lt ho hlt] at h
        exact absurd (mem_leavers ho (by omega)) hm
      | none => simp [find_of_slot?_none ho]

@[simp] theorem find_grown (t : Table) (key other : Value) :
    (t.grown key).find other = t.find other := by
  simp only [grown]
  split <;> exact find_resized ..

@[simp] theorem find_put_self (t : Table) (key value : Value) :
    (t.put key value).find key = value := by
  cases h : t.slot? key with
  | some n => simp [put, find, slot?, slotIn?_lt h, show slotIn? t.items.size key = some n from h]
  | none => simp [put, find, slot?, show slotIn? t.items.size key = none from h]

theorem find_put_of_ne {t : Table} {key other : Value} (hne : other ≠ key) (value : Value) :
    (t.put key value).find other = t.find other := by
  cases h : t.slot? key with
  | some n =>
    have hp : t.put key value = { t with items := t.items.setIfInBounds n value } := by
      simp only [put, h]
    have hs : (t.put key value).slot? other = t.slot? other := by simp [slot?, hp]
    cases ho : t.slot? other with
    | some m =>
      have hnm : n ≠ m := fun e => hne (slotIn?_inj h (e ▸ ho))
      rw [find_of_slot? (hs.trans ho), find_of_slot? ho, hp]
      simp [Array.getElem?_setIfInBounds_ne hnm]
    | none => rw [find_of_slot?_none (hs.trans ho), find_of_slot?_none ho, hp]
  | none =>
    have hp : t.put key value = { t with pairs := assign key value t.pairs } := by
      simp only [put, h]
    have hs : (t.put key value).slot? other = t.slot? other := by simp [slot?, hp]
    cases ho : t.slot? other with
    | some m => rw [find_of_slot? (hs.trans ho), find_of_slot? ho, hp]
    | none =>
      rw [find_of_slot?_none (hs.trans ho), find_of_slot?_none ho, hp]
      exact lookup_assign_of_ne hne value t.pairs

/-- A seat for a key changes no value. -/
theorem find_seated? {t seated : Table} {key : Value} (h : t.seated? key = some seated)
    (other : Value) : seated.find other = t.find other := by
  simp only [seated?, Option.map_eq_some_iff] at h
  obtain ⟨seats, -, rfl⟩ := h
  simp only [find, slot?]
  split
  · rfl
  · split <;> simp

@[simp] theorem find_admitting (t : Table) (key other : Value) :
    (t.admitting key).find other = t.find other := by
  rw [admitting]
  split
  · rfl
  · cases h : t.seated? key with
    | none => rfl
    | some s => exact find_seated? h other

theorem find_without_self {t : Table} {key : Value} (h : t.slot? key = none) :
    (t.without key).find key = .nil := by
  have hs : (t.without key).slot? key = none := h
  rw [find_of_slot?_none hs]
  exact lookup_filter_self ..

theorem find_without_of_ne {t : Table} {key other : Value} (hne : other ≠ key) :
    (t.without key).find other = t.find other := by
  simp only [find, slot?, without]
  split
  · rfl
  · exact lookup_filter_of_ne hne t.pairs

/-! ### Changes leave the metatable alone -/

@[simp] theorem metatable_put (t : Table) (key value : Value) :
    (t.put key value).metatable = t.metatable := by
  unfold put
  split <;> rfl

@[simp] theorem metatable_grown (t : Table) (key : Value) :
    (t.grown key).metatable = t.metatable := by
  simp only [grown]
  split <;> rfl

theorem metatable_seated? {t seated : Table} {key : Value} (h : t.seated? key = some seated) :
    seated.metatable = t.metatable := by
  simp only [seated?, Option.map_eq_some_iff] at h
  obtain ⟨seats, -, rfl⟩ := h
  rfl

@[simp] theorem metatable_admitting (t : Table) (key : Value) :
    (t.admitting key).metatable = t.metatable := by
  rw [admitting]
  split
  · rfl
  · cases h : t.seated? key with
    | none => rfl
    | some s => exact metatable_seated? h

@[simp] theorem metatable_set (t : Table) (key value : Value) :
    (t.set key value).metatable = t.metatable := by
  simp only [set]
  split
  · exact metatable_put ..
  · split
    · rfl
    · split
      · rename_i h
        rw [metatable_put, metatable_seated? h]
      · rw [metatable_put, metatable_admitting, metatable_grown]

@[simp] theorem metatable_setRow (t : Table) (skip : Nat) (row : List Value) :
    (t.setRow skip row).metatable = t.metatable := by
  simp only [setRow]
  split <;> rfl

/-! ### What a table answers after a change -/

/-- A key that was given a value has it in its one form. -/
theorem find_set_self (t : Table) (key value : Value) :
    (t.set key value).find key.toKey = value := by
  simp only [set]
  split
  · exact find_put_self ..
  · rename_i h
    have hs : t.slot? key.toKey = none := by simp_all
    split
    · rename_i hn
      rw [hn]
      exact find_without_self hs
    · split <;> exact find_put_self ..

theorem find_set_of_ne {t : Table} {key other : Value} (hne : other ≠ key.toKey) (value : Value) :
    (t.set key value).find other = t.find other := by
  simp only [set]
  split
  · exact find_put_of_ne hne value
  · split
    · exact find_without_of_ne hne
    · split
      · rename_i h
        rw [find_put_of_ne hne, find_seated? h]
      · rw [find_put_of_ne hne, find_admitting, find_grown]

/-- A key that was given a value has it. -/
@[simp] theorem get_set_self (t : Table) (key value : Value) : (t.set key value).get key = value :=
  find_set_self t key value

/-- All other keys keep theirs. -/
theorem get_set_of_ne {t : Table} {key other : Value} (hne : other.toKey ≠ key.toKey)
    (value : Value) : (t.set key value).get other = t.get other :=
  find_set_of_ne hne value

@[simp] theorem find_empty (home : Nat) (key : Value) : (empty home).find key = .nil := by
  cases hs : (empty home).slot? key with
  | some n => exact absurd (slotIn?_lt hs) (Nat.not_lt_zero n)
  | none => simp only [find, hs]; rfl

/-- What a table has that was made of a row is in the row, under whole numbers. -/
theorem mem_of_find_ofItems {home others : Nat} {items : Array Value} {key : Value}
    (h : (ofItems home items others).find key ≠ .nil) :
    (∃ n, key = keyAt n) ∧ (ofItems home items others).find key ∈ items := by
  cases hs : (ofItems home items others).slot? key with
  | none => exact absurd (find_of_slot?_none hs) h
  | some n =>
    have hn : n < items.size := slotIn?_lt hs
    rw [find_of_slot? hs]
    refine ⟨⟨n, (keyAt_of_slotIn? hs).symm⟩, ?_⟩
    simp [ofItems, hn]

private theorem getD_foldl_setIfInBounds (skip n : Nat) (row : List (Value × Nat))
    (items : Array Value) :
    let a := row.foldl (fun a (v, n) => a.setIfInBounds (skip + n) v) items
    a.size = items.size ∧
      (a[n]?.getD .nil = items[n]?.getD .nil ∨ a[n]?.getD .nil ∈ row.map (·.1)) := by
  induction row generalizing items with
  | nil => exact ⟨rfl, .inl rfl⟩
  | cons e row ih =>
    obtain ⟨v, k⟩ := e
    obtain ⟨hsize, hvalue⟩ := ih (items.setIfInBounds (skip + k) v)
    refine ⟨by simpa using hsize, ?_⟩
    rw [List.foldl_cons, List.map_cons, List.mem_cons]
    rcases hvalue with hvalue | hvalue
    · rw [hvalue]
      by_cases hk : skip + k = n
      · subst hk
        by_cases hn : skip + k < items.size
        · exact .inr (.inl (by simp [hn]))
        · exact .inl (by simp [hn])
      · exact .inl (by rw [Array.getElem?_setIfInBounds_ne hk])
    · exact .inr (.inr hvalue)

/-- Where a table does not answer what it did, the answer is in the row it was given. -/
theorem find_setRow (t : Table) (skip : Nat) (row : List Value) (key : Value) :
    (t.setRow skip row).find key = t.find key ∨
      (∃ n, key = keyAt n) ∧ (t.setRow skip row).find key ∈ row := by
  let wide := if t.items.size < skip + row.length then t.resized (skip + row.length) t.seats.size else t
  have hwide : wide.find key = t.find key := by
    dsimp only [wide]
    split
    · exact find_resized ..
    · rfl
  have hrow : row.zipIdx.map (·.1) = row := by simp
  cases hs : wide.slot? key with
  | none =>
    have hsize := (getD_foldl_setIfInBounds skip 0 row.zipIdx wide.items).1
    have hs' : (t.setRow skip row).slot? key = none := by
      rw [← hs]
      exact congrArg (slotIn? · key) hsize
    exact .inl ((find_of_slot?_none hs').trans ((find_of_slot?_none hs).symm.trans hwide))
  | some n =>
    obtain ⟨hsize, hvalue⟩ := getD_foldl_setIfInBounds skip n row.zipIdx wide.items
    have hs' : (t.setRow skip row).slot? key = some n := by
      rw [← hs]
      exact congrArg (slotIn? · key) hsize
    rw [find_of_slot? hs', ← hwide, find_of_slot? hs]
    rw [hrow] at hvalue
    exact hvalue.imp_right fun h => ⟨⟨n, (keyAt_of_slotIn? hs).symm⟩, h⟩

/-! ### Lengths -/

/-- Whether a key of the row, counted from 1, has no value. -/
def isGap (t : Table) (n : Nat) : Bool :=
  (t.items[n - 1]?.getD .nil) == .nil

/-- How far around the hint a length is searched one by one. -/
def vicinity : Nat := 4

/-- A length below a gap: near by, or by halving. -/
def lengthBelow (t : Table) (gap : Nat) : Nat :=
  near t vicinity gap
where
  near (t : Table) : Nat → Nat → Nat
    | 0, n => halve t 0 n n
    | left + 1, n =>
      if n ≤ 1 then halve t 0 n n
      else if t.isGap (n - 1) then near t left (n - 1)
      else n - 1
  /-- Halves the distance between a place that has a value (or zero) and a gap. -/
  halve (t : Table) (low high : Nat) : Nat → Nat
    | 0 => low
    | left + 1 =>
      if high ≤ low + 1 then low
      else
        let mid := (low + high) / 2
        if t.isGap mid then halve t low mid left else halve t mid high left

/-- A length within the row from a place that has a value on, if there is a gap near by or at its
end. -/
def lengthAbove? (t : Table) (place : Nat) : Option Nat :=
  near t vicinity place
where
  near (t : Table) : Nat → Nat → Option Nat
    | 0, n => last? t n
    | left + 1, n =>
      if t.items.size ≤ n then last? t n
      else if t.isGap (n + 1) then some n
      else near t left (n + 1)
  last? (t : Table) (n : Nat) : Option Nat :=
    let size := t.items.size
    if t.isGap size then some (lengthBelow.halve t n size size) else none

/-- How many whole numbers after the row have a value, one after the other. -/
def lengthOutward (t : Table) (n : Nat) : Nat → Nat
  | 0 => n
  | left + 1 => if lookup (keyAt n) t.pairs == .nil then n else lengthOutward t (n + 1) left

/-- A length of a table: a count such that the key of that number has a value, or it is zero, and
the next has none. -/
def length (t : Table) : Nat :=
  let size := t.items.size
  let outward := lengthOutward t size t.pairs.length
  if size = 0 then outward
  else
    let start := max t.hint 1
    if t.isGap start then lengthBelow t start
    else (lengthAbove? t start).getD outward

/-- The same table after a length was told. -/
def told (t : Table) (length : Nat) : Table :=
  { t with hint := min length t.items.size }

@[simp] theorem get_told (t : Table) (length : Nat) (key : Value) :
    (t.told length).get key = t.get key := rfl

/-! ### Walks -/

/-- How many places a walk has: those of the row and then the seats. -/
def span (t : Table) : Nat :=
  t.items.size + t.seats.size

/-- The key at a place of a walk. -/
def keyAt? (t : Table) (n : Nat) : Option Value :=
  if n < t.items.size then some (keyAt n) else (t.seats[n - t.items.size]?).join

/-- The place of a key in a walk. -/
def placeOf? (t : Table) (key : Value) : Option Nat :=
  match t.slot? key with
  | some n => some n
  | none => (t.seats.findIdx? (· == some key)).map (t.items.size + ·)

/-- The key at a place of a walk with its value, if it has one. -/
def entryAt? (t : Table) (n : Nat) : Option (Value × Value) :=
  (t.keyAt? n).bind fun key =>
    let value := t.find key
    if value = .nil then none else some (key, value)

/-- The entries that have a value, in their order. -/
def entries (t : Table) : List (Value × Value) :=
  (List.range t.span).filterMap t.entryAt?

/-- The first entry with a value from a place on, in so many places. -/
def entryFrom? (t : Table) (n : Nat) : Nat → Option (Value × Value)
  | 0 => none
  | left + 1 =>
    match t.entryAt? n with
    | some e => some e
    | none => entryFrom? t (n + 1) left

/-- Where a walk goes on after a key: at the first place for nil, and nowhere for a key without
one. -/
def placeAfter? (t : Table) (key : Value) : Option Nat :=
  match key.toKey with
  | .nil => some 0
  | key => (t.placeOf? key).map (· + 1)

/-- The entry that a walk meets first from a place on. -/
def nextEntry? (t : Table) (n : Nat) : Option (Value × Value) :=
  t.entryFrom? n (t.span - n)

/-- Each entry of a walk has the value that the table answers for its key. -/
theorem find_of_entryAt? {t : Table} {n : Nat} {key value : Value}
    (h : t.entryAt? n = some (key, value)) : t.find key = value ∧ value ≠ .nil := by
  simp only [entryAt?, Option.bind_eq_some_iff, Option.ite_none_left_eq_some, Option.some.injEq,
    Prod.mk.injEq] at h
  obtain ⟨k, -, hn, rfl, rfl⟩ := h
  exact ⟨rfl, hn⟩

theorem find_of_entryFrom? {t : Table} {n left : Nat} {key value : Value}
    (h : t.entryFrom? n left = some (key, value)) : t.find key = value ∧ value ≠ .nil := by
  induction left generalizing n with
  | zero => cases h
  | succ left ih =>
    unfold entryFrom? at h
    split at h
    · rename_i hentry
      exact find_of_entryAt? (hentry.trans h)
    · exact ih h

end Table

end ScriptHost.Script
