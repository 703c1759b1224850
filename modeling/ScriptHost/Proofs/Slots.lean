import Mathlib.Data.List.Nodup
import ScriptHost.Proofs.Sandbox

/-!
# Fields of global tables

A global table and a name have a slot. Where the globals that are tables are plain and each its own
(`Heap.Spaced`), what is written in one slot is found there and nowhere else, but for one table: the
globals themselves, whose slots are the globals.
-/
namespace ScriptHost

namespace Text

theorem encode_inj {s t : String} : encode s = encode t ↔ s = t :=
  ⟨fun h => String.toByteArray_inj.mp (ByteArray.ext (Array.toList_inj.mp h)), fun h => h ▸ rfl⟩

end Text

namespace Script

theorem Value.ofString_inj {s t : String} : Value.ofString s = Value.ofString t ↔ s = t :=
  Value.text.injEq .. ▸ Text.encode_inj

/-! ### Plain tables -/

/-- There is a table at a place, without a metatable. -/
structure Heap.Plain (h : Heap) (place : Nat) : Prop where
  lt : place < h.tables.size
  metatable : (h.table place).metatable = none

/-- What is looked up in a heap is known, and the heap stays. -/
theorem Eval.look_bind {α β : Type} (f : Heap → α) (k : α → Eval β) (h : Heap) :
    (Eval.look f >>= k) h = k (f h) h :=
  rfl

section
variable {h : Heap} {place : Nat} (hp : h.Plain place)
include hp

/-- A plain table is indexed without any calls. -/
theorem index_of_plain (c : Context) (key : Value) :
    c.index (.table place) key h = .done (.value (h.rawGet place key) h) := by
  have hm : Script.metamethod h c.site.home (.table place) "__index" = .nil := by
    rw [Script.metamethod, metatable?, hp.metatable]
  show Context.index.go key c (.table place) (1999 + 1) h = _
  rw [Context.index.go]
  show (if h.rawGet place key ≠ .nil then _ else _ : Eval Value) h = _
  split
  · rfl
  · next hf =>
    refine (Eval.look_bind (Script.metamethod · c.site.home (.table place) "__index") _ h).trans ?_
    rw [hm, not_not.mp hf]
    rfl

theorem setIndex_of_plain (c : Context) (x : String) (v : Value) :
    c.setIndex (.table place) (.ofString x) v h =
      .done (.value () (h.rawSet place (.ofString x) v)) := by
  have hm : Script.metamethod h c.site.home (.table place) "__newindex" = .nil := by
    rw [Script.metamethod, metatable?, hp.metatable]
  have hn : (if h.rawGet place (.ofString x) != Value.nil then Value.nil
      else Script.metamethod h c.site.home (.table place) "__newindex") = .nil := by
    rw [hm, ite_self]
  show Context.setIndex.go (.ofString x) v c (.table place) (1999 + 1) h = _
  rw [Context.setIndex.go]
  refine (Eval.look_bind _ _ h).trans ?_
  rw [hn]
  rfl

end

namespace Heap

variable {h : Heap} {place other g : Nat}

theorem Plain.rawSet (hp : h.Plain place) (key value : Value) :
    (h.rawSet other key value).Plain place where
  lt := by
    rw [Heap.rawSet, changeTable, Array.size_modify]
    exact hp.lt
  metatable := by
    by_cases he : other = place
    · subst he
      rw [Heap.rawSet, table_changeTable_self hp.lt, Table.metatable_set]
      exact hp.metatable
    · rw [Heap.rawSet, table_changeTable_of_ne he]
      exact hp.metatable

theorem table_addTable_of_lt (hp : place < h.tables.size) (t : Table) :
    (h.addTable t).table place = h.table place := by
  simp [table, addTable, Array.getElem?_push_lt hp, hp]

theorem table_addTable_self (h : Heap) (t : Table) : (h.addTable t).table h.tables.size = t := by
  simp [table, addTable]

theorem Plain.addTable (hp : h.Plain place) (t : Table) : (h.addTable t).Plain place where
  lt := by
    rw [Heap.addTable, Array.size_push]
    exact Nat.lt_succ_of_lt hp.lt
  metatable := by
    rw [table_addTable_of_lt hp.lt]
    exact hp.metatable

theorem plain_addTable (h : Heap) (home : Nat) :
    (h.addTable (.empty home)).Plain h.tables.size where
  lt := by
    rw [Heap.addTable, Array.size_push]
    exact Nat.lt_succ_self _
  metatable := by
    rw [table_addTable_self]
    rfl

/-- A plain table answers for a name it was given a value for, and for no other. -/
theorem rawGet_rawSet (hp : place < h.tables.size) (x y : String) (v : Value) :
    (h.rawSet place (.ofString x) v).rawGet place (.ofString y) =
      if y = x then v else h.rawGet place (.ofString y) := by
  split
  · next he => rw [he, rawGet_rawSet_self hp]
  · next he =>
    have hk : (Value.ofString y).toKey ≠ (Value.ofString x).toKey :=
      fun h => he (Value.ofString_inj.mp h)
    exact rawGet_rawSet_of_ne hp hk v

/-! ### Slots -/

/-- What the global table of a name has under another name. -/
def slot (h : Heap) (g : Nat) (space name : String) : Value :=
  match h.rawGet g (.ofString space) with
  | .table t => h.rawGet t (.ofString name)
  | _ => .nil

theorem slot_of_table {space : String} {t : Nat} (ht : h.rawGet g (.ofString space) = .table t)
    (name : String) : h.slot g space name = h.rawGet t (.ofString name) := by
  rw [slot, ht]

theorem slot_of_not_table {space : String} (hn : ∀ t, h.rawGet g (.ofString space) ≠ .table t)
    (name : String) : h.slot g space name = .nil := by
  unfold slot
  split
  · next t ht => exact absurd ht (hn t)
  · rfl

/-- A global is the table of the globals. -/
def Loops (h : Heap) (g : Nat) (space : String) : Prop :=
  h.rawGet g (.ofString space) = .table g

instance (h : Heap) (g : Nat) (space : String) : Decidable (h.Loops g space) :=
  inferInstanceAs (Decidable (_ = _))

/-- Where only one of the globals changes, a slot changes if its table is that of the globals. -/
theorem slot_of_globals {h' : Heap} {name s y : String} {v : Value}
    (hg : h'.rawGet g (.ofString s) = h.rawGet g (.ofString s))
    (hy : h'.rawGet g (.ofString y) = if y = name then v else h.rawGet g (.ofString y))
    (hother : ∀ t, t ≠ g → h.rawGet g (.ofString s) = .table t →
      h'.rawGet t (.ofString y) = h.rawGet t (.ofString y)) :
    h'.slot g s y = if h.Loops g s ∧ y = name then v else h.slot g s y := by
  by_cases ht : ∃ t, h.rawGet g (.ofString s) = .table t
  · obtain ⟨t, ht⟩ := ht
    rw [slot_of_table (hg.trans ht), slot_of_table ht]
    by_cases hl : t = g
    · subst hl
      rw [hy]
      exact if_congr (and_iff_right ht).symm rfl rfl
    · rw [hother t hl ht, if_neg fun h => hl (Value.table.inj (ht.symm.trans h.1))]
  · rw [not_exists] at ht
    rw [slot_of_not_table (fun t h => ht t (hg.symm.trans h)), slot_of_not_table ht,
      if_neg fun h => ht g h.1]

/-- The globals that are tables are plain, and each is the only one that is its table. -/
structure Spaced (h : Heap) (g : Nat) : Prop where
  globals : h.Plain g
  tables : ∀ {s t}, h.rawGet g (.ofString s) = .table t → h.Plain t
  apart : ∀ {s s' t}, h.rawGet g (.ofString s) = .table t →
    h.rawGet g (.ofString s') = .table t → s = s'

/-- Whoever indexes the globals by a name, and what is there by another, finds a value at once. -/
def Finds (h : Heap) (g : Nat) (space name : String) (v : Value) : Prop :=
  ∀ c : Context, (c.index (.table g) (.ofString space) >>= fun t => c.index t (.ofString name)) h =
    .done (.value v h)

namespace Spaced

variable {space name : String} {v : Value} (hs : h.Spaced g)
include hs

/-- What is in a slot is found there. -/
theorem finds_slot (hn : h.slot g space name ≠ .nil) :
    h.Finds g space name (h.slot g space name) := by
  by_cases ht : ∃ t, h.rawGet g (.ofString space) = .table t
  · obtain ⟨t, ht⟩ := ht
    intro c
    rw [slot_of_table ht]
    have hi := index_of_plain hs.globals c (.ofString space)
    rw [ht] at hi
    show (c.index (.table g) (.ofString space) h).bind _ = _
    rw [hi]
    exact index_of_plain (hs.tables ht) c (.ofString name)
  · exact absurd (slot_of_not_table (fun t h => ht ⟨t, h⟩) name) hn

/-! #### A global that is no table -/

section
variable (hv : ∀ t, v ≠ .table t)
include hv

theorem setGlobal : (h.rawSet g (.ofString name) v).Spaced g := by
  have old {s : String} {t : Nat}
      (ht : (h.rawSet g (.ofString name) v).rawGet g (.ofString s) = .table t) :
      h.rawGet g (.ofString s) = .table t := by
    rw [rawGet_rawSet hs.globals.lt] at ht
    split at ht
    · exact absurd ht (hv t)
    · exact ht
  exact ⟨hs.globals.rawSet _ _, fun ht => (hs.tables (old ht)).rawSet _ _,
    fun ht ht' => hs.apart (old ht) (old ht')⟩

theorem slot_setGlobal (s y : String) : (h.rawSet g (.ofString name) v).slot g s y =
    if s = name then .nil else if h.Loops g s ∧ y = name then v else h.slot g s y := by
  have hg := rawGet_rawSet hs.globals.lt name s v
  split at hg
  · next he =>
    rw [if_pos he]
    exact slot_of_not_table (fun t ht => hv t (hg.symm.trans ht)) y
  · next he =>
    rw [if_neg he]
    exact slot_of_globals hg (rawGet_rawSet hs.globals.lt name y v) fun t hl _ =>
      rawGet_rawSet_of_place_ne (Ne.symm hl) _ _ _

end

/-! #### A field of a global table -/

section
variable {t : Nat} (ht : h.rawGet g (.ofString space) = .table t)
  (hn : ∀ t', h.slot g space name ≠ .table t') (hv : ∀ t, v ≠ .table t)
include ht

include hv

theorem setField : (h.rawSet t (.ofString name) v).Spaced g := by
  by_cases hl : t = g
  · subst hl
    exact hs.setGlobal hv
  · have old {s : String} {t' : Nat}
        (h' : (h.rawSet t (.ofString name) v).rawGet g (.ofString s) = .table t') :
        h.rawGet g (.ofString s) = .table t' :=
      (rawGet_rawSet_of_place_ne hl _ _ _).symm.trans h'
    exact ⟨hs.globals.rawSet _ _, fun h' => (hs.tables (old h')).rawSet _ _,
      fun h' h'' => hs.apart (old h') (old h'')⟩

include hn

/-- No global table is lost or won. -/
theorem rawGet_setField_iff (s : String) (t' : Nat) :
    (h.rawSet t (.ofString name) v).rawGet g (.ofString s) = .table t' ↔
      h.rawGet g (.ofString s) = .table t' := by
  by_cases hl : t = g
  · subst hl
    rw [slot_of_table ht] at hn
    rw [rawGet_rawSet hs.globals.lt]
    split
    · next he =>
      subst he
      exact iff_of_false (hv t') (hn t')
    · exact Iff.rfl
  · rw [rawGet_rawSet_of_place_ne hl]

/-- What is put in a slot is found there and in no other. In the globals themselves this may take a
global away, but none that is a table. -/
theorem slot_setField (s y : String) : (h.rawSet t (.ofString name) v).slot g s y =
    if s = space ∧ y = name then v else h.slot g s y := by
  by_cases hl : t = g
  · subst hl
    rw [hs.slot_setGlobal hv]
    rw [slot_of_table ht] at hn
    have hne : space ≠ name := fun he => hn t (he ▸ ht)
    by_cases he : s = name
    · subst he
      rw [if_pos rfl, if_neg fun h => hne h.1.symm, slot_of_not_table hn]
    · rw [if_neg he]
      refine if_congr (and_congr_left fun _ => ⟨fun h => hs.apart h ht, fun h => ?_⟩) rfl rfl
      rw [h]
      exact ht
  · have hg : (h.rawSet t (.ofString name) v).rawGet g (.ofString s) =
        h.rawGet g (.ofString s) := rawGet_rawSet_of_place_ne hl _ _ _
    by_cases he : s = space
    · subst he
      rw [slot_of_table (hg.trans ht), slot_of_table ht, rawGet_rawSet (hs.tables ht).lt]
      exact if_congr (and_iff_right rfl).symm rfl rfl
    · rw [if_neg fun h => he h.1]
      by_cases ht' : ∃ t', h.rawGet g (.ofString s) = .table t'
      · obtain ⟨t', ht'⟩ := ht'
        rw [slot_of_table (hg.trans ht'), slot_of_table ht']
        refine rawGet_rawSet_of_place_ne (fun hp => he ?_) _ _ _
        subst hp
        exact hs.apart ht' ht
      · rw [not_exists] at ht'
        rw [slot_of_not_table (fun t h => ht' t (hg.symm.trans h)), slot_of_not_table ht']

end

/-! #### A new global table -/

end Spaced

/-- The heap with a new global table. -/
def withSpace (h : Heap) (g home : Nat) (space : String) : Heap :=
  (h.addTable (.empty home)).rawSet g (.ofString space) (.table h.tables.size)

theorem rawGet_addTable (hp : place < h.tables.size) (t : Table) (key : Value) :
    (h.addTable t).rawGet place key = h.rawGet place key := by
  rw [rawGet, table_addTable_of_lt hp, rawGet]

theorem rawGet_withSpace (hg : g < h.tables.size) (home : Nat) (space s : String) :
    (h.withSpace g home space).rawGet g (.ofString s) =
      if s = space then .table h.tables.size else h.rawGet g (.ofString s) := by
  have hg' : g < (h.addTable (.empty home)).tables.size := by
    rw [addTable, Array.size_push]
    exact Nat.lt_succ_of_lt hg
  rw [withSpace, rawGet_rawSet hg', rawGet_addTable hg]

namespace Spaced

variable {space : String} (hs : h.Spaced g) (hn : ∀ t, h.rawGet g (.ofString space) ≠ .table t)
include hs

theorem withSpace (home : Nat) (space : String) : (h.withSpace g home space).Spaced g where
  globals := (hs.globals.addTable _).rawSet _ _
  tables {s t} ht := by
    rw [rawGet_withSpace hs.globals.lt] at ht
    split at ht
    · cases ht
      exact (plain_addTable h home).rawSet _ _
    · exact ((hs.tables ht).addTable _).rawSet _ _
  apart {s s' t} ht ht' := by
    rw [rawGet_withSpace hs.globals.lt] at ht ht'
    have fresh {s : String} : h.rawGet g (.ofString s) ≠ .table h.tables.size :=
      fun h => Nat.lt_irrefl _ (hs.tables h).lt
    split at ht <;> split at ht'
    · next he he' => exact he.trans he'.symm
    · cases ht
      exact absurd ht' fresh
    · cases ht'
      exact absurd ht fresh
    · exact hs.apart ht ht'

include hn

/-- A new global table is empty, and is found where the globals themselves are a global table. -/
theorem slot_withSpace (home : Nat) (s y : String) : (h.withSpace g home space).slot g s y =
    if h.Loops g s ∧ y = space then .table h.tables.size else h.slot g s y := by
  have hg := rawGet_withSpace hs.globals.lt home space s
  split at hg
  · next he =>
    subst he
    have hne : g ≠ h.tables.size := Nat.ne_of_lt hs.globals.lt
    rw [slot_of_table hg, slot_of_not_table hn, if_neg fun h => hn g h.1, Heap.withSpace,
      rawGet_rawSet_of_place_ne hne, rawGet, table_addTable_self]
    exact Table.find_empty home _
  · refine slot_of_globals hg (rawGet_withSpace hs.globals.lt home space y) fun t hl ht => ?_
    rw [Heap.withSpace, rawGet_rawSet_of_place_ne (Ne.symm hl), rawGet_addTable (hs.tables ht).lt]

end Spaced

end Heap

/-! ### A new environment -/

/-- A table of named fields has the value of each, where no name comes twice. -/
theorem Table.find_ofFields_of_mem {home : Nat} {fields : List (String × Value)}
    (hn : (fields.map (·.1)).Nodup) {x : String} {v : Value} (hm : (x, v) ∈ fields) :
    (ofFields home fields).find (.ofString x) = v := by
  have kept (fields : List (String × Value)) (hx : x ∉ fields.map (·.1)) (t : Table) :
      (fields.foldl (fun t e => t.set (.ofString e.1) e.2) t).find (.ofString x) =
        t.find (.ofString x) := by
    induction fields generalizing t with
    | nil => rfl
    | cons e fields ih =>
      rw [List.map_cons, List.mem_cons, not_or] at hx
      have hne : Value.ofString x ≠ (Value.ofString e.1).toKey :=
        fun h => hx.1 (Value.ofString_inj.mp h)
      exact (ih hx.2 _).trans (find_set_of_ne hne _)
  obtain ⟨front, back, rfl⟩ := List.append_of_mem hm
  rw [List.map_append, List.map_cons, List.nodup_append, List.nodup_cons] at hn
  rw [ofFields, List.foldl_append, List.foldl_cons]
  exact (kept back hn.2.1.1 _).trans (find_set_self _ (.ofString x) v)

section
variable {h : Heap} {absent : Nat} {keep : List String}

theorem Heap.table_globals :
    (h.openEnvironment (.foreign absent) keep).table h.layout.globals =
      .ofFields h.environments.size
        ((keptGlobals keep).map fun (x, i) => (x, i.value h.layout)) :=
  Heap.table_openEnvironment (i := 0) rfl

/-- A table that is a global of a new environment is a default global that is kept. -/
theorem Heap.exists_of_rawGet_globals {s : String} {t : Nat}
    (ht : (h.openEnvironment (.foreign absent) keep).rawGet h.layout.globals (.ofString s) =
      .table t) : ∃ i, (s, i) ∈ defaultGlobals ∧ s ∈ keep ∧ i.value h.layout = .table t := by
  rw [rawGet, table_globals] at ht
  have hn : (Table.ofFields h.environments.size
      ((keptGlobals keep).map fun (x, i) => (x, i.value h.layout))).find (.ofString s) ≠ .nil :=
    fun he => by cases he.symm.trans ht
  obtain ⟨x, hx, hm⟩ := Table.mem_of_find_ofFields hn
  obtain rfl := Value.ofString_inj.mp hx
  obtain ⟨⟨x, i⟩, hk, he⟩ := List.mem_map.mp hm
  obtain ⟨rfl, hi⟩ := Prod.mk.inj he
  obtain ⟨hd, hk⟩ := List.mem_filter.mp hk
  exact ⟨i, hd, by simpa using hk, hi.trans ht⟩

/-- Default globals that are tables are different tables. -/
theorem Initial.eq_of_value {l : Layout} {i i' : Initial} {t : Nat} (h : i.value l = .table t)
    (h' : i'.value l = .table t) : i = i' := by
  have apart (k : Library.Kind) : l.globals ≠ l.library k := by
    simp only [Layout.globals, Layout.library]
    omega
  cases i with
  | native f | text s => cases h
  | globals =>
    cases i' with
    | native f | text s => cases h'
    | globals => rfl
    | library k => exact absurd (Value.table.inj (h.trans h'.symm)) (apart k)
  | library k =>
    cases i' with
    | native f | text s => cases h'
    | globals => exact absurd (Value.table.inj (h'.trans h.symm)) (apart k)
    | library k' =>
      have he : l.library k = l.library k' := Value.table.inj (h.trans h'.symm)
      have hk : k.index = k'.index := Nat.add_left_cancel he
      exact congrArg Initial.library
        ((List.idxOf_inj (show k ∈ Library.Kind.all by cases k <;> decide)).mp hk)

theorem nodup_defaultGlobals :
    (defaultGlobals.map (·.1)).Nodup ∧ (defaultGlobals.map (·.2)).Nodup := by
  decide +kernel

theorem eq_of_mem_defaultGlobals {s s' : String} {i : Initial} (h : (s, i) ∈ defaultGlobals)
    (h' : (s', i) ∈ defaultGlobals) : s = s' :=
  congrArg Prod.fst (List.inj_on_of_nodup_map nodup_defaultGlobals.2 h h' rfl)

theorem Heap.spaced_openEnvironment :
    (h.openEnvironment (.foreign absent) keep).Spaced h.layout.globals where
  globals := by
    refine ⟨?_, ?_⟩
    · rw [size_openEnvironment]
      exact Nat.lt_add_of_pos_right (by decide)
    · rw [table_globals, Table.metatable_ofFields]
  tables {s t} ht := by
    obtain ⟨i, -, -, hi⟩ := exists_of_rawGet_globals ht
    have hh : h.layout.Holds absent (.table t) := hi ▸ h.layout.holds_initial absent i
    obtain ⟨fields, -, he⟩ := exists_fields keep hh
    refine ⟨?_, by rw [he, Table.metatable_ofFields]⟩
    obtain ⟨n, hn, rfl⟩ := hh
    rw [size_openEnvironment]
    exact Nat.add_lt_add_left hn _
  apart {s s' t} ht ht' := by
    obtain ⟨i, hd, -, hi⟩ := exists_of_rawGet_globals ht
    obtain ⟨i', hd', -, hi'⟩ := exists_of_rawGet_globals ht'
    obtain rfl := Initial.eq_of_value hi hi'
    exact eq_of_mem_defaultGlobals hd hd'

/-- The globals themselves are a global where that is kept. -/
theorem Heap.loops_openEnvironment_iff {s : String} :
    (h.openEnvironment (.foreign absent) keep).Loops h.layout.globals s ↔
      s = "_G" ∧ "_G" ∈ keep := by
  have hd : ("_G", Initial.globals) ∈ defaultGlobals := by decide
  refine ⟨fun hl => ?_, ?_⟩
  · obtain ⟨i, hd', hk, hi⟩ := exists_of_rawGet_globals hl
    obtain rfl : i = .globals := Initial.eq_of_value hi rfl
    obtain rfl := eq_of_mem_defaultGlobals hd hd'
    exact ⟨rfl, hk⟩
  · rintro ⟨rfl, hk⟩
    rw [Loops, rawGet, table_globals]
    refine Table.find_ofFields_of_mem ?_ (List.mem_map.mpr
      ⟨("_G", .globals), List.mem_filter.mpr ⟨hd, by simpa using hk⟩, rfl⟩)
    rw [List.map_map]
    exact nodup_defaultGlobals.1.sublist (List.filter_sublist.map _)

end

end Script

end ScriptHost
