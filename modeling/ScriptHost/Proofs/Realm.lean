import ScriptHost.Script.Environment

/-!
# Realms

What the scripts of one environment can come to, of all that is on the heap: some library functions,
and tables, cells, functions, threads and objects of the host by their places. A heap is within a
realm if nothing of the realm leads out of it (`Heap.Within`); the lemmas say which changes of a
heap keep it so.
-/
namespace ScriptHost.Script

open Text (Bytes)

/-- What scripts of an environment can come to. -/
structure Realm where
  home : Nat
  natives : Native → Prop
  tables : Nat → Prop
  cells : Nat → Prop
  functions : Nat → Prop
  threads : Nat → Prop
  /-- The objects of the host. -/
  foreigns : Nat → Prop
  /-- The library functions that have been called before. -/
  past : List Native

namespace Realm

/-- A value is in the realm. -/
def Has (r : Realm) : Value → Prop
  | .native f => r.natives f
  | .table p => r.tables p
  | .function p => r.functions p
  | .thread p => r.threads p
  | .foreign p => r.foreigns p
  | .nil | .bool _ | .int _ | .float _ | .text _ => True

def HasAll (r : Realm) (vs : List Value) : Prop :=
  ∀ v ∈ vs, r.Has v

variable {r : Realm} {v w : Value} {vs ws : List Value}

theorem has_bool {b : Bool} : r.Has (.bool b) := trivial

theorem has_int {i : Int64} : r.Has (.int i) := trivial

theorem has_text {b : Bytes} : r.Has (.text b) := trivial

theorem hasAll_nil : r.HasAll [] := nofun

theorem hasAll_cons : r.HasAll (v :: vs) ↔ r.Has v ∧ r.HasAll vs :=
  List.forall_mem_cons

theorem HasAll.cons (hv : r.Has v) (h : r.HasAll vs) : r.HasAll (v :: vs) :=
  hasAll_cons.2 ⟨hv, h⟩

theorem hasAll_one (hv : r.Has v) : r.HasAll [v] :=
  .cons hv hasAll_nil

theorem hasAll_two (hv : r.Has v) (hw : r.Has w) : r.HasAll [v, w] :=
  .cons hv (hasAll_one hw)

theorem HasAll.append (h : r.HasAll vs) (h' : r.HasAll ws) : r.HasAll (vs ++ ws) :=
  List.forall_mem_append.2 ⟨h, h'⟩

theorem HasAll.sublist (h : r.HasAll vs) (hs : ws.Sublist vs) : r.HasAll ws :=
  fun v hv => h v (hs.subset hv)

theorem HasAll.drop (h : r.HasAll vs) (n : Nat) : r.HasAll (vs.drop n) :=
  h.sublist (List.drop_sublist n vs)

theorem HasAll.take (h : r.HasAll vs) (n : Nat) : r.HasAll (vs.take n) :=
  h.sublist (List.take_sublist n vs)

theorem hasAll_replicate (n : Nat) (hv : r.Has v) : r.HasAll (List.replicate n v) := by
  intro w hw
  rw [List.eq_of_mem_replicate hw]
  exact hv

theorem HasAll.first (h : r.HasAll vs) : r.Has (firstOf vs) := by
  cases vs with
  | nil => trivial
  | cons v _ => exact h v (by simp)

theorem HasAll.getD (h : r.HasAll vs) (n : Nat) : r.Has (vs[n]?.getD .nil) := by
  cases hn : vs[n]? with
  | none => trivial
  | some v => exact h v (List.mem_of_getElem? hn)

theorem has_toKey (hv : r.Has v) : r.Has v.toKey := by
  cases v with
  | float x =>
    dsimp only [Value.toKey]
    split <;> trivial
  | _ => exact hv

end Realm

/-- What a table has is in the realm. -/
structure Table.Within (r : Realm) (t : Table) : Prop where
  entry : ∀ {key}, t.find key ≠ .nil → r.Has key ∧ r.Has (t.find key)
  metatable : ∀ {m}, t.metatable = some m → r.tables m

/-- The variables a function shares with others are in the realm, and it is of the environment. -/
structure Closure.Within (r : Realm) (c : Closure) : Prop where
  home : c.home = r.home
  upvalues : ∀ n ∈ c.upvalues, r.cells n

/-- Nothing of the realm leads out of it, and what is new is in it. -/
structure Heap.Within (r : Realm) (h : Heap) : Prop where
  table : ∀ {p}, r.tables p → (h.table p).Within r
  cell : ∀ {n}, r.cells n → r.Has (h.cell n)
  closure : ∀ {p c}, r.functions p → h.functions[p]? = some c → c.Within r
  thread : ∀ {p t}, r.threads p → h.threads[p]? = some t → r.Has t.function
  newTable : ∀ {p}, h.tables.size ≤ p → r.tables p
  newCell : ∀ {n}, h.cells.size ≤ n → r.cells n
  newFunction : ∀ {p}, h.functions.size ≤ p → r.functions p
  newThread : ∀ {p}, h.threads.size ≤ p → r.threads p
  globals : r.tables (h.environment r.home).globals
  texts : r.tables (h.environment r.home).texts
  objects : ∀ {p}, r.foreigns p → r.tables (h.environment r.home).objects
  called : ∃ fs, h.called.toList = r.past ++ fs ∧ ∀ f ∈ fs, r.natives f

variable {r : Realm}

/-! ### Tables -/

namespace Table.Within

variable {t : Table} {key value : Value}

theorem find (ht : t.Within r) (key : Value) : r.Has (t.find key) := by
  by_cases hn : t.find key = .nil
  · rw [hn]
    trivial
  · exact (ht.entry hn).2

theorem get (ht : t.Within r) (key : Value) : r.Has (t.get key) :=
  ht.find key.toKey

theorem set (ht : t.Within r) (hk : r.Has key) (hv : r.Has value) : (t.set key value).Within r where
  entry {other} hn := by
    by_cases he : other = key.toKey
    · subst he
      rw [find_set_self]
      exact ⟨Realm.has_toKey hk, hv⟩
    · rw [find_set_of_ne he] at hn ⊢
      exact ht.entry hn
  metatable := by
    rw [metatable_set]
    exact ht.metatable

theorem setRow {vs : List Value} (ht : t.Within r) (skip : Nat) (hv : r.HasAll vs) :
    (t.setRow skip vs).Within r where
  entry {key} hn := by
    rcases find_setRow t skip vs key with he | ⟨⟨n, rfl⟩, hm⟩
    · rw [he] at hn ⊢
      exact ht.entry hn
    · exact ⟨trivial, hv _ hm⟩
  metatable := by
    rw [metatable_setRow]
    exact ht.metatable

theorem withMetatable {m : Option Nat} (ht : t.Within r) (hm : ∀ {p}, m = some p → r.tables p) :
    ({ t with metatable := m } : Table).Within r :=
  ⟨ht.entry, hm⟩

theorem told (ht : t.Within r) (length : Nat) : (t.told length).Within r :=
  ⟨ht.entry, ht.metatable⟩

theorem next (ht : t.Within r) {n : Nat} (h : t.nextEntry? n = some (key, value)) :
    r.Has key ∧ r.Has value := by
  obtain ⟨hv, hn⟩ := find_of_entryFrom? h
  rw [← hv] at hn ⊢
  exact ht.entry hn

end Table.Within

theorem within_ofItems {items : Array Value} (home others : Nat) (h : ∀ v ∈ items, r.Has v) :
    (Table.ofItems home items others).Within r where
  entry hn := by
    obtain ⟨⟨n, hk⟩, hm⟩ := Table.mem_of_find_ofItems hn
    rw [hk]
    exact ⟨trivial, hk ▸ h _ hm⟩
  metatable := nofun

theorem within_withRoom (home items others : Nat) :
    (Table.withRoom home items others).Within r := by
  refine within_ofItems home others fun v hv => ?_
  rw [(Array.mem_replicate.1 hv).2]
  trivial

namespace Heap

theorem table_changeTable (h : Heap) (place : Nat) (f : Table → Table) (p : Nat) :
    (h.changeTable place f).table p = h.table p ∨
      p = place ∧ (h.changeTable place f).table p = f (h.table p) := by
  by_cases hp : place = p
  · subst hp
    by_cases hs : place < h.tables.size
    · exact .inr ⟨rfl, table_changeTable_self hs f⟩
    · refine .inl ?_
      simp [table, changeTable, Array.getElem?_eq_none (Nat.not_lt.1 hs), Array.getElem?_modify]
  · exact .inl (table_changeTable_of_ne hp f)

theorem table_addTable (h : Heap) (t : Table) (p : Nat) :
    (h.addTable t).table p = h.table p ∨ (h.addTable t).table p = t := by
  simp only [table, addTable, Array.getElem?_push]
  split
  · exact .inr rfl
  · exact .inl rfl

namespace Within

variable {h : Heap} {key value : Value}

theorem changeTable (hw : h.Within r) (place : Nat) {f : Table → Table}
    (hf : ∀ t : Table, t.Within r → (f t).Within r) : (h.changeTable place f).Within r :=
  { hw with
    table := fun {p} hp => by
      rcases table_changeTable h place f p with he | ⟨-, he⟩ <;> rw [he]
      · exact hw.table hp
      · exact hf _ (hw.table hp)
    newTable := fun {p} hp => hw.newTable (by simpa [Heap.changeTable] using hp) }

theorem rawSet (hw : h.Within r) (place : Nat) (hk : r.Has key) (hv : r.Has value) :
    (h.rawSet place key value).Within r :=
  hw.changeTable place fun _ ht => ht.set hk hv

theorem setTable (hw : h.Within r) (place : Nat) {t : Table} (ht : r.tables place → t.Within r) :
    (h.setTable place t).Within r :=
  { hw with
    table := fun {p} hp => by
      by_cases he : place = p
      · subst he
        by_cases hs : place < h.tables.size
        · rw [table_setTable_self hs]
          exact ht hp
        · have hsame : (h.setTable place t).table place = h.table place := by
            simp [Heap.table, Heap.setTable, hs]
          rw [hsame]
          exact hw.table hp
      · rw [table_setTable_of_ne he]
        exact hw.table hp
    newTable := fun {p} hp => hw.newTable (by simpa [Heap.setTable] using hp) }

theorem measure (hw : h.Within r) (place : Nat) : (h.measure place).2.Within r := by
  unfold Heap.measure
  dsimp only
  split
  · exact hw
  · exact hw.setTable place fun hp => (hw.table hp).told _

theorem addTable (hw : h.Within r) {t : Table} (ht : t.Within r) : (h.addTable t).Within r :=
  { hw with
    table := fun {p} hp => by
      rcases table_addTable h t p with he | he <;> rw [he]
      · exact hw.table hp
      · exact ht
    newTable := fun {p} hp => hw.newTable (by simp [Heap.addTable] at hp; omega) }

theorem addCell (hw : h.Within r) (hv : r.Has value) : (h.addCell value).Within r :=
  { hw with
    cell := fun {n} hn => by
      simp only [Heap.cell, Heap.addCell, Array.getElem?_push]
      split
      · exact hv
      · exact hw.cell hn
    newCell := fun {n} hn => hw.newCell (by simp [Heap.addCell] at hn; omega) }

theorem setCell (hw : h.Within r) (place : Nat) (hv : r.Has value) :
    (h.setCell place value).Within r :=
  { hw with
    cell := fun {n} hn => by
      simp only [Heap.cell, Heap.setCell, Array.getElem?_setIfInBounds]
      split
      · split
        · exact hv
        · trivial
      · exact hw.cell hn
    newCell := fun {n} hn => hw.newCell (by simpa [Heap.setCell] using hn) }

theorem addFunction (hw : h.Within r) {c : Closure} (hc : c.Within r) :
    ({ h with functions := h.functions.push c } : Heap).Within r :=
  { hw with
    closure := fun {p c'} hp hc' => by
      simp only [Array.getElem?_push] at hc'
      split at hc'
      · cases hc'
        exact hc
      · exact hw.closure hp hc'
    newFunction := fun {p} hp => hw.newFunction (by simp at hp; omega) }

theorem addThread (hw : h.Within r) {t : Thread} (ht : r.Has t.function) :
    ({ h with threads := h.threads.push t } : Heap).Within r :=
  { hw with
    thread := fun {p t'} hp ht' => by
      simp only [Array.getElem?_push] at ht'
      split at ht'
      · cases ht'
        exact ht
      · exact hw.thread hp ht'
    newThread := fun {p} hp => hw.newThread (by simp at hp; omega) }

theorem setRandomness (hw : h.Within r) (home : Nat) (s : Randomness) :
    (h.setRandomness home s).Within r := by
  have same : ∀ n, ((h.setRandomness home s).environment n).globals = (h.environment n).globals ∧
      ((h.setRandomness home s).environment n).texts = (h.environment n).texts ∧
      ((h.setRandomness home s).environment n).objects = (h.environment n).objects := by
    intro n
    simp only [environment, Heap.setRandomness, Array.getElem?_modify]
    split
    · cases h.environments[n]? <;> exact ⟨rfl, rfl, rfl⟩
    · exact ⟨rfl, rfl, rfl⟩
  obtain ⟨hg, ht, ho⟩ := same r.home
  exact { hw with
    globals := hg ▸ hw.globals
    texts := ht ▸ hw.texts
    objects := ho ▸ hw.objects }

theorem call (hw : h.Within r) {f : Native} (hf : r.natives f) : (h.call f).Within r :=
  { hw with
    called := by
      obtain ⟨fs, hfs, hall⟩ := hw.called
      refine ⟨fs ++ [f], by simp [Heap.call, hfs], ?_⟩
      exact List.forall_mem_append.2 ⟨hall, List.forall_mem_singleton.2 hf⟩ }

theorem rawGet (hw : h.Within r) {place : Nat} (hp : r.tables place) (key : Value) :
    r.Has (h.rawGet place key) :=
  (hw.table hp).get key

end Within

end Heap

end ScriptHost.Script
