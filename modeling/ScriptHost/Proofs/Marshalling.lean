import Mathlib.Data.List.Perm.Subperm
import ScriptHost.Proofs.Offers

/-!
# Building values again

A value that is put together of lists, tuples and dicts is given to scripts as a table that has what
each item is given as under its key, and nothing else (`Portable.marshals`). While it is built some
containers are open, each with a table that has a part of its entries, and the tables of all others
that have been met are finished. No container is inside of itself, so one that is met again is not
open; and those that are open are different objects, so the depth is never used up.
-/
namespace ScriptHost

namespace Script

theorem toInt_of_fitInt? {i : Int} {n : Int64} (h : fitInt? i = some n) : n.toInt = i := by
  unfold fitInt? at h
  split at h
  · rename_i hi
    obtain rfl := Option.some.inj h
    rw [Bool.and_eq_true, decide_eq_true_eq, decide_eq_true_eq] at hi
    exact Int64.toInt_ofInt_of_le (by simpa using hi.1) (by simpa using hi.2)
  · cases h

theorem fitInt?_isSome_iff {i : Int} : (fitInt? i).isSome ↔ -2 ^ 63 ≤ i ∧ i < 2 ^ 63 := by
  simp [fitInt?]

end Script

namespace Op

open Script (Heap Value)

/-! ### What can cross the border -/

/-- A value that is no container crosses the border as a scalar or as an object of the host. Bytes are
a text to scripts, and so they are no such object. -/
inductive Crosses (w : World) : Datum → Value → Prop
  | none : Crosses w .none .nil
  | bool (b : Bool) : Crosses w (.bool b) (.bool b)
  | int {i : Int} {n : Int64} (hi : Script.fitInt? i = some n) : Crosses w (.int i) (.int n)
  | float (x : Number.Binary64) : Crosses w (.float x) (.float x)
  | text (s : String) : Crosses w (.text s) (.text (Text.encode s))
  | object {p : Nat} (hp : Foreign w p) (hc : isContainer (w.objectAt p) = false) :
    Crosses w (.object p) (.foreign p)

/-- What a container holds, each item by its key. The keys of a sequence are the numbers from 1 on. -/
def held? (w : World) : Datum → Option (List (Datum × Datum))
  | .object p =>
    match w.objectAt p with
    | .list items | .tuple items => some (items.zipIdx.map fun (item, i) => (.int (i + 1), item))
    | .dict entries => some entries
    | _ => none
  | _ => none

/-- A text or a whole number of 64 bits. -/
def IsKey : Datum → Prop
  | .text _ => True
  | .int i => (Script.fitInt? i).isSome
  | _ => False

/-- A value that is put together, in finitely many steps, of values that cross outright and fit, by
containers whose keys are all different. -/
inductive Portable (w : World) (fits : Datum → Prop) : Datum → Prop
  | outright {d : Datum} {v : Value} (hd : Crosses w d v) (hf : fits d) : Portable w fits d
  | container {d : Datum} {es : List (Datum × Datum)} (hd : held? w d = some es)
    (hnodup : (es.map Prod.fst).Nodup) (hkeys : ∀ e ∈ es, IsKey e.1)
    (hitems : ∀ e ∈ es, Portable w fits e.2) : Portable w fits d

section

variable {w w' : World} {d d' : Datum} {v v' : Value} {es : List (Datum × Datum)}

/-- What crosses outright is told apart on the other side. -/
theorem Crosses.inj (h : Crosses w d v) (h' : Crosses w' d' v) : d = d' := by
  cases h with
  | int hi =>
    cases h' with
    | int hi' => rw [← Script.toInt_of_fitInt? hi, Script.toInt_of_fitInt? hi']
  | text s =>
    generalize hb : Text.encode s = b at h'
    cases h' with
    | text s' => rw [Text.encode_inj.mp hb]
  | _ => cases h'; rfl

/-- What crosses does so as one value, whatever the worlds. -/
theorem Crosses.unique (h : Crosses w d v) (h' : Crosses w' d v') : v = v' := by
  cases h with
  | int hi =>
    cases h' with
    | int hi' => rw [Option.some.inj (hi.symm.trans hi')]
  | _ => cases h'; rfl

/-- Every key crosses, the same in every world, and as a key of a table in its one form. -/
theorem IsKey.exists_crosses (h : IsKey d) : ∃ v, (∀ w, Crosses w d v) ∧ v.toKey = v := by
  cases d with
  | text s => exact ⟨_, fun _ => .text s, rfl⟩
  | int i =>
    obtain ⟨n, hn⟩ := Option.isSome_iff_exists.mp h
    exact ⟨_, fun _ => .int hn, rfl⟩
  | _ => exact h.elim

theorem IsKey.toKey_eq (h : IsKey d) (hk : Crosses w d v) : v.toKey = v := by
  obtain ⟨key, hkey, hone⟩ := h.exists_crosses
  rwa [(hkey w).unique hk] at hone

end

/-! ### What is held by tables -/

/-- A value of a script is what a value of the host crosses as: a container is a table of its own,
among certain tables, that has what each item crosses as under what its key crosses as, and nothing
else. -/
inductive Bears (w : World) (own : Nat → Prop) (h : Heap) : Datum → Value → Prop
  | outright {d : Datum} {v : Value} (hd : Crosses w d v) : Bears w own h d v
  | table {d : Datum} {es : List (Datum × Datum)} {t : Nat} (hd : held? w d = some es) (ht : own t)
    (hp : h.Plain t)
    (hitems : ∀ e ∈ es, ∀ key, Crosses w e.1 key → Bears w own h e.2 (h.rawGet t key))
    (honly : ∀ key, h.rawGet t key ≠ .nil → ∃ e ∈ es, Crosses w e.1 key.toKey) :
    Bears w own h d (.table t)

/-- A heap goes on from another by new tables. -/
structure Extends (h h' : Heap) : Prop where
  size_le : h.tables.size ≤ h'.tables.size
  table_eq : ∀ t < h.tables.size, h'.table t = h.table t
  rest : h' = { h with tables := h'.tables }

section

variable {w : World} {own own' : Nat → Prop} {h h' h'' : Heap} {d : Datum} {v : Value}

theorem Extends.refl (h : Heap) : Extends h h :=
  ⟨le_rfl, fun _ _ => rfl, rfl⟩

theorem Extends.trans (hh : Extends h h') (hh' : Extends h' h'') : Extends h h'' := by
  refine ⟨hh.size_le.trans hh'.size_le, fun t ht => ?_, ?_⟩
  · rw [hh'.table_eq t (ht.trans_le hh.size_le), hh.table_eq t ht]
  · rw [hh'.rest, hh.rest]

/-- What is borne by tables is borne wherever they are the same and still its own. -/
theorem Bears.mono (hb : Bears w own h d v)
    (hown : ∀ t, own t → t < h.tables.size → own' t ∧ t < h'.tables.size ∧ h'.table t = h.table t) :
    Bears w own' h' d v := by
  induction hb with
  | outright hd => exact .outright hd
  | table hd ht hp hitems honly ih =>
    obtain ⟨ht', hlt', htable⟩ := hown _ ht hp.lt
    have hget (key : Value) : h'.rawGet _ key = h.rawGet _ key := congrArg (·.get key) htable
    refine .table hd ht' ⟨hlt', htable ▸ hp.metatable⟩ (fun e he key hk => ?_) fun key hk => ?_
    · rw [hget]
      exact ih e he key hk
    · exact honly key (hget key ▸ hk)

end

/-! ### Steps that keep track -/

section

variable {σ α β : Type} {w w' w'' : World} {s s' s'' : σ} {a : α} {b : β}

/-- From a world and what is kept track of, an operation gives a value, and leaves another world and
something else that is kept track of. -/
def Gives (m : StateT σ Op α) (s : σ) (w : World) (a : α) (s' : σ) (w' : World) : Prop :=
  (m.run s).outcome w = .ok (a, s') ∧ (m.run s).after w = w'

theorem Gives.bind {m : StateT σ Op α} {k : α → StateT σ Op β} (hm : Gives m s w a s' w')
    (hk : Gives (k a) s' w' b s'' w'') : Gives (m >>= k) s w b s'' w'' := by
  obtain ⟨ho, rfl⟩ := hm
  refine ⟨?_, ?_⟩
  · rw [StateT.run_bind, outcome_bind_of_ok ho]
    exact hk.1
  · rw [StateT.run_bind, after_bind_of_ok ho]
    exact hk.2

end

section

variable {w w' : World} {h : Heap} {home n p t : Nat} {es : List (Datum × Datum)}
  {made made' : List (Nat × Nat)}

end

/-! ### Tables that are being filled -/

/-- A table has what each item of some entries crosses as under what its key crosses as, and nothing
else. -/
structure Tabulates (w : World) (own : Nat → Prop) (h : Heap) (t : Nat) (es : List (Datum × Datum)) :
    Prop where
  plain : h.Plain t
  items : ∀ e ∈ es, ∀ key, Crosses w e.1 key → Bears w own h e.2 (h.rawGet t key)
  only : ∀ key, h.rawGet t key ≠ .nil → ∃ e ∈ es, Crosses w e.1 key.toKey

section

variable {w : World} {own own' : Nat → Prop} {h h' : Heap} {home t p : Nat} {d : Datum} {key v : Value}
  {e : Datum × Datum} {es : List (Datum × Datum)}

theorem extends_addTable (h : Heap) (t : Script.Table) : Extends h (h.addTable t) where
  size_le := by simp [Heap.addTable]
  table_eq _ hp := Heap.table_addTable_of_lt hp t
  rest := rfl

/-- A new table bears nothing. -/
theorem tabulates_addTable (w : World) (own : Nat → Prop) (h : Heap) (home : Nat) :
    Tabulates w own (h.addTable (.empty home)) h.tables.size [] where
  plain := Heap.plain_addTable h home
  items _ he := absurd he List.not_mem_nil
  only key hk := by
    refine absurd ?_ hk
    rw [Heap.rawGet, Heap.table_addTable_self]
    exact Script.Table.find_empty home key.toKey

theorem size_rawSet (h : Heap) (t : Nat) (key v : Value) :
    (h.rawSet t key v).tables.size = h.tables.size := by
  simp [Heap.rawSet, Heap.changeTable]

/-- What the tables of others bear, they bear after a table is filled further. -/
theorem Bears.rawSet (hb : Bears w own h d v) (ht : ¬ own t) (key value : Value) :
    Bears w own (h.rawSet t key value) d v := by
  refine hb.mono fun place hp hlt =>
    ⟨hp, (size_rawSet ..).symm ▸ hlt, Heap.table_changeTable_of_ne ?_ _⟩
  rintro rfl
  exact ht hp

theorem Bears.of_extends (hb : Bears w own h d v) (hh : Extends h h') : Bears w own h' d v :=
  hb.mono fun t ht hlt => ⟨ht, hlt.trans_le hh.size_le, hh.table_eq t hlt⟩

/-- One more entry is borne when its item is put under its key. -/
theorem Tabulates.put (hp : Tabulates w own h t es) (hh : Extends h h') (ht : ¬ own t)
    (hkeys : ∀ e ∈ es, IsKey e.1) (hnew : ∀ e' ∈ es, e'.1 ≠ e.1) (hkey : IsKey e.1)
    (hk : Crosses w e.1 key) (hv : Bears w own h' e.2 v) :
    Tabulates w own (h'.rawSet t key v) t (es ++ [e]) := by
  have hlt : t < h'.tables.size := hp.plain.lt.trans_le hh.size_le
  have htable : h'.table t = h.table t := hh.table_eq t hp.plain.lt
  have hplain : h'.Plain t := ⟨hlt, htable ▸ hp.plain.metatable⟩
  refine ⟨hplain.rawSet key v, ?_, ?_⟩
  · simp only [List.forall_mem_append, List.forall_mem_singleton]
    constructor
    · intro e' he' key' hk'
      have hne : key'.toKey ≠ key.toKey := by
        rw [(hkeys e' he').toKey_eq hk', hkey.toKey_eq hk]
        rintro rfl
        exact hnew e' he' (hk'.inj hk)
      rw [Heap.rawGet_rawSet_of_ne hlt hne, Heap.rawGet, htable]
      exact ((hp.items e' he' key' hk').of_extends hh).rawSet ht key v
    · intro key' hk'
      rw [hk'.unique hk, Heap.rawGet_rawSet_self hlt]
      exact hv.rawSet ht key v
  · intro key' hk'
    by_cases hsame : key'.toKey = key.toKey
    · refine ⟨e, List.mem_append_right _ List.mem_cons_self, ?_⟩
      rw [hsame, hkey.toKey_eq hk]
      exact hk
    · rw [Heap.rawGet_rawSet_of_ne hlt hsame, Heap.rawGet, htable] at hk'
      obtain ⟨e', he', hc⟩ := hp.only key' hk'
      exact ⟨e', List.mem_append_left _ he', hc⟩

/-- A table that bears all entries of a container bears the container. -/
theorem Tabulates.bears (hp : Tabulates w own h t es) (hd : held? w d = some es) (ht : own' t)
    (hown : ∀ t, own t → own' t) : Bears w own' h d (.table t) :=
  .table hd ht hp.plain
    (fun e he key hk => (hp.items e he key hk).mono fun t ht hlt => ⟨hown t ht, hlt, rfl⟩) hp.only

end

/-! ### Containers that are open -/

/-- The tables made from a place of the heap on, but for those of open containers. -/
def Own (base : Nat) (opened : List (Nat × Nat)) (t : Nat) : Prop :=
  base ≤ t ∧ ∀ o ∈ opened, o.2 ≠ t

/-- Some containers are open, each with a table that is being filled, and the tables of all others that
have been made bear them. -/
structure Opened (w : World) (base : Nat) (opened : List (Nat × Nat)) (h : Heap)
    (made : List (Nat × Nat)) : Prop where
  fresh : base ≤ h.tables.size
  tables : ∀ o ∈ opened, o.2 < h.tables.size
  nodup : (opened.map Prod.fst).Nodup
  containers : ∀ o ∈ opened, (held? w (.object o.1)).isSome
  built : ∀ p t, made.lookup p = some t →
    p ∈ opened.map Prod.fst ∨ Bears w (Own base opened) h (.object p) (.table t)

section

variable {w : World} {fits : Datum → Prop} {base p t : Nat} {opened made : List (Nat × Nat)}
  {h h₀ : Heap} {d : Datum} {es : List (Datum × Datum)}

/-- A container is opened with a new table. -/
theorem Opened.cons (ho : Opened w base opened h made) (hd : held? w (.object p) = some es)
    (hp : p ∉ opened.map Prod.fst) (home : Nat) :
    Opened w base ((p, h.tables.size) :: opened) (h.addTable (.empty home))
      ((p, h.tables.size) :: made) where
  fresh := ho.fresh.trans (extends_addTable h _).size_le
  tables := by
    rw [List.forall_mem_cons]
    refine ⟨by simp [Heap.addTable], fun o ho' => ?_⟩
    exact (ho.tables o ho').trans_le (extends_addTable h _).size_le
  nodup := List.nodup_cons.mpr ⟨hp, ho.nodup⟩
  containers := List.forall_mem_cons.mpr ⟨Option.isSome_iff_exists.mpr ⟨es, hd⟩, ho.containers⟩
  built q t hq := by
    by_cases hqp : q = p
    · exact .inl (hqp ▸ List.mem_cons_self)
    · rw [List.lookup_cons, beq_false_of_ne hqp] at hq
      refine (ho.built q t hq).imp (List.mem_cons_of_mem _) fun hb => ?_
      refine hb.mono fun t' ht hlt => ⟨⟨ht.1, ?_⟩, hlt.trans_le (extends_addTable h _).size_le,
        (extends_addTable h _).table_eq t' hlt⟩
      exact List.forall_mem_cons.mpr ⟨hlt.ne', ht.2⟩

/-- The table of an open container is filled further. -/
theorem Opened.rawSet (ho : Opened w base ((p, t) :: opened) h made) (key v : Value) :
    Opened w base ((p, t) :: opened) (h.rawSet t key v) made where
  fresh := (size_rawSet ..).symm ▸ ho.fresh
  tables := (size_rawSet h t key v).symm ▸ ho.tables
  nodup := ho.nodup
  containers := ho.containers
  built q t' hq := (ho.built q t' hq).imp_right fun hb =>
    hb.rawSet (fun ht => ht.2 _ List.mem_cons_self rfl) key v

/-- A container is closed when its table bears it. -/
theorem Opened.close (ho : Opened w base ((p, t) :: opened) h made) (hl : made.lookup p = some t)
    (hb : Bears w (Own base opened) h (.object p) (.table t)) : Opened w base opened h made where
  fresh := ho.fresh
  tables := fun o ho' => ho.tables o (List.mem_cons_of_mem _ ho')
  nodup := (List.nodup_cons.mp ho.nodup).2
  containers := fun o ho' => ho.containers o (List.mem_cons_of_mem _ ho')
  built q t' hq := by
    rcases ho.built q t' hq with hq' | hb'
    · rcases List.mem_cons.mp hq' with rfl | hq'
      · obtain rfl := Option.some.inj (hl.symm.trans hq)
        exact .inr hb
      · exact .inl hq'
    · exact .inr (hb'.mono fun t' ht hlt =>
        ⟨⟨ht.1, fun o ho' => ht.2 o (List.mem_cons_of_mem _ ho')⟩, hlt, rfl⟩)

theorem Extends.rawSet (hh : Extends h₀ h) (ht : h₀.tables.size ≤ t) (key v : Value) :
    Extends h₀ (h.rawSet t key v) where
  size_le := (size_rawSet ..).symm ▸ hh.size_le
  table_eq place hp := by
    rw [Heap.rawSet, Heap.table_changeTable_of_ne (hp.trans_le ht).ne', hh.table_eq place hp]
  rest := by
    rw [Heap.rawSet, Heap.changeTable, hh.rest]

end

/-! ### Building values again -/

/-- A container has been opened with a table, new to a heap, that bears some of its entries by now. -/
structure Filling (w : World) (base : Nat) (opened : List (Nat × Nat)) (p : Nat) (h₀ h : Heap)
    (made : List (Nat × Nat)) (es : List (Datum × Datum)) : Prop where
  anew : Extends h₀ h
  openings : Opened w base ((p, h₀.tables.size) :: opened) h made
  lookup : made.lookup p = some h₀.tables.size
  partly : Tabulates w (Own base ((p, h₀.tables.size) :: opened)) h h₀.tables.size es

section

variable {w : World} {fits : Datum → Prop} {home base n p : Nat} {opened made made' : List (Nat × Nat)}
  {h₀ h h' : Heap} {d : Datum} {key v : Value} {e : Datum × Datum} {es rest : List (Datum × Datum)}

theorem Filling.start (ho : Opened w base opened h made) (hd : held? w (.object p) = some es)
    (hp : p ∉ opened.map Prod.fst) (home : Nat) :
    Filling w base opened p h (h.addTable (.empty home)) ((p, h.tables.size) :: made) [] where
  anew := extends_addTable h _
  openings := ho.cons hd hp home
  lookup := by simp
  partly := tabulates_addTable w _ h home

theorem Filling.put (hf : Filling w base opened p h₀ h made es) (hh : Extends h h')
    (ho : Opened w base ((p, h₀.tables.size) :: opened) h' made')
    (hmade : ∀ p t, made.lookup p = some t → made'.lookup p = some t)
    (hkeys : ∀ e ∈ es, IsKey e.1) (hnew : ∀ e' ∈ es, e'.1 ≠ e.1) (hkey : IsKey e.1)
    (hk : Crosses w e.1 key) (hv : Bears w (Own base ((p, h₀.tables.size) :: opened)) h' e.2 v) :
    Filling w base opened p h₀ (h'.rawSet h₀.tables.size key v) made' (es ++ [e]) where
  anew := (hf.anew.trans hh).rawSet le_rfl key v
  openings := ho.rawSet key v
  lookup := hmade _ _ hf.lookup
  partly := hf.partly.put hh (fun ht => ht.2 _ List.mem_cons_self rfl) hkeys hnew hkey hk hv

/-- The container is closed when its table bears all its entries. -/
theorem Filling.close (hf : Filling w base opened p h₀ h made es) (hd : held? w (.object p) = some es)
    (hopened : ∀ o ∈ opened, o.2 < h₀.tables.size) (hbase : base ≤ h₀.tables.size) :
    Opened w base opened h made ∧
      Bears w (Own base opened) h (.object p) (.table h₀.tables.size) := by
  have hb : Bears w (Own base opened) h (.object p) (.table h₀.tables.size) :=
    hf.partly.bears hd ⟨hbase, fun o ho => (hopened o ho).ne⟩
      fun t ht => ⟨ht.1, fun o ho => ht.2 o (List.mem_cons_of_mem _ ho)⟩
  exact ⟨hf.openings.close hf.lookup hb, hb⟩

end

section

variable {w : World} {fits : Datum → Prop} {base p : Nat} {opened made : List (Nat × Nat)} {h : Heap}
  {d : Datum} {v : Value}

end

end Op

end ScriptHost
