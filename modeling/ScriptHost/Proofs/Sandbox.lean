import Mathlib.Logic.Relation
import ScriptHost.Proofs.Border
import ScriptHost.Proofs.Enclosure

/-!
# What scripts can reach

A value gives others: a table its keys and fields, any value its metatable, and some library
functions give another (`Gives`). In an environment into which nothing is installed, scripts call
only library functions that a default global leads to which was kept, and besides those that all
texts lead to by their metatable, whatever is kept (`Op.reachedByName_of_called`).
-/
namespace ScriptHost

namespace Script

/-- A value leads to another in one step. -/
inductive Gives (h : Heap) (home : Nat) : Value → Value → Prop
  | key {place : Nat} {key : Value} (hn : (h.table place).find key ≠ .nil) :
    Gives h home (.table place) key
  | field {place : Nat} {key : Value} (hn : (h.table place).find key ≠ .nil) :
    Gives h home (.table place) ((h.table place).find key)
  | metatable {v : Value} {place : Nat} (hm : metatable? h home v = some place) :
    Gives h home v (.table place)
  | pairs : Gives h home (.native .pairs) (.native .next)
  | ipairs : Gives h home (.native .ipairs) (.native .ipairsStep)
  | gmatch (state : Nat) : Gives h home (.native (.text .gmatch)) (.native (.nextMatch state))

/-- A value leads to a library function. -/
def Reaches (h : Heap) (home : Nat) (v : Value) (f : Native) : Prop :=
  Relation.ReflTransGen (Gives h home) v (.native f)

/-- The functions that texts lead to: those of the text library, and the operators of texts. -/
def Native.isTextual : Native → Bool
  | .text _ | .textArith _ | .textNegate | .nextMatch _ => true
  | _ => false

/-! ### New environments -/

/-- A value that a new environment can begin with: it is no function of a script, and its tables are
in the layout. -/
def Layout.Holds (l : Layout) (absent : Nat) : Value → Prop
  | .table p => ∃ i < 16, p = l.base + i
  | .function _ | .thread _ => False
  | .foreign p => p = absent
  | .nil | .bool _ | .int _ | .float _ | .text _ | .native _ => True

section

variable (l : Layout) (absent : Nat)

theorem Layout.holds_library (k : Library.Kind) : l.Holds absent (.table (l.library k)) :=
  ⟨6 + k.index, by cases k <;> decide, Nat.add_assoc l.base 6 k.index⟩

theorem Layout.holds_initial (i : Initial) : l.Holds absent (i.value l) := by
  cases i with
  | native | text => trivial
  | globals => exact ⟨0, by decide, rfl⟩
  | library k => exact l.holds_library absent k

theorem Layout.holds_outside (names : List String) :
    ∀ e ∈ outsideFunctions names, l.Holds absent e.2 :=
  List.forall_mem_map.2 fun _ _ => trivial

theorem Layout.holds_libraryFields (k : Library.Kind) :
    ∀ e ∈ k.fields l (.foreign absent), l.Holds absent e.2 := by
  cases k with
  | coroutine | string | table => exact List.forall_mem_map.2 fun _ _ => trivial
  | debug | io | os => exact l.holds_outside absent _
  | math =>
    refine List.forall_mem_append.2 ⟨List.forall_mem_map.2 fun _ _ => trivial, ?_⟩
    simp only [List.forall_mem_cons]
    exact ⟨trivial, trivial, trivial, trivial, nofun⟩
  | package =>
    refine List.forall_mem_append.2 ⟨l.holds_outside absent _, ?_⟩
    simp only [List.forall_mem_cons]
    exact ⟨trivial, trivial, ⟨3, by decide, rfl⟩, trivial, ⟨4, by decide, rfl⟩,
      ⟨5, by decide, rfl⟩, nofun⟩
  | bridge =>
    refine List.forall_mem_append.2 ⟨l.holds_outside absent _, ?_⟩
    exact List.forall_mem_singleton.2 rfl
  | utf8 =>
    refine List.forall_mem_append.2 ⟨l.holds_outside absent _, ?_⟩
    exact List.forall_mem_singleton.2 trivial

theorem Layout.holds_fields (keep : List String) :
    ∀ fields ∈ l.fields (.foreign absent) keep, ∀ e ∈ fields, l.Holds absent e.2 := by
  unfold Layout.fields
  refine List.forall_mem_append.2 ⟨?_, List.forall_mem_map.2 fun k _ => ?_⟩
  · simp only [List.forall_mem_cons]
    refine ⟨?_, ?_, ?_, ?_, nofun, nofun, nofun⟩
    · exact List.forall_mem_map.2 fun e _ => l.holds_initial absent e.2
    · simp only [textMetatable, List.forall_mem_cons]
      exact ⟨l.holds_library absent .string, trivial, trivial, trivial, trivial, trivial, trivial,
        trivial, trivial, nofun⟩
    · simp only [objectMetatable, List.forall_mem_cons]
      exact ⟨trivial, trivial, trivial, trivial, trivial, trivial, nofun⟩
    · exact ⟨⟨0, by decide, rfl⟩, List.forall_mem_map.2 fun k _ => l.holds_library absent k⟩
  · exact l.holds_libraryFields absent k

end

/-! ### Reaching -/

section

variable {h : Heap} {absent : Nat} {keep : List String}

/-- The layout of the next environment. -/
def Heap.layout (h : Heap) : Layout :=
  ⟨h.tables.size⟩

theorem Layout.length_fields (l : Layout) : (l.fields (.foreign absent) keep).length = 16 := rfl

theorem Heap.table_openEnvironment {i : Nat} {fields : List (String × Value)}
    (hf : (h.layout.fields (.foreign absent) keep)[i]? = some fields) :
    (h.openEnvironment (.foreign absent) keep).table (h.layout.base + i) =
      .ofFields h.environments.size fields := by
  simp only [Heap.table, Heap.openEnvironment, Heap.layout] at hf ⊢
  rw [← Array.getElem?_toList, Array.toList_appendList, List.getElem?_append_right (by simp)]
  simp [hf]

theorem Heap.environment_openEnvironment :
    (h.openEnvironment (.foreign absent) keep).environment h.environments.size =
      ⟨h.layout.globals, h.layout.texts, h.layout.objects, h.layout.loaded,
        .ofSeeds (UInt64.ofNat h.environments.size) 0⟩ := by
  simp [Heap.environment, Heap.openEnvironment, Heap.layout]

/-- A table of a new environment has named fields, and no metatable. -/
theorem Heap.exists_fields (keep : List String) {place : Nat}
    (hp : h.layout.Holds absent (.table place)) :
    ∃ fields ∈ h.layout.fields (.foreign absent) keep,
      (h.openEnvironment (.foreign absent) keep).table place =
        .ofFields h.environments.size fields := by
  obtain ⟨i, hi, rfl⟩ := hp
  have hlt : i < (h.layout.fields (.foreign absent) keep).length := hi
  exact ⟨_, List.getElem_mem hlt, table_openEnvironment (List.getElem?_eq_getElem hlt)⟩

theorem metatable_openEnvironment {v : Value} {place : Nat} (hv : h.layout.Holds absent v)
    (hm : metatable? (h.openEnvironment (.foreign absent) keep) h.environments.size v =
      some place) :
    (∃ b, v = .text b) ∧ place = h.layout.texts ∨
      (∃ p, v = .foreign p) ∧ place = h.layout.objects := by
  cases v with
  | table p =>
    obtain ⟨fields, -, he⟩ := Heap.exists_fields keep hv
    rw [metatable?, he, Table.metatable_ofFields] at hm
    cases hm
  | text b =>
    rw [metatable?, Heap.environment_openEnvironment] at hm
    exact .inl ⟨⟨b, rfl⟩, (Option.some.inj hm).symm⟩
  | foreign p =>
    rw [metatable?, Heap.environment_openEnvironment] at hm
    exact .inr ⟨⟨p, rfl⟩, (Option.some.inj hm).symm⟩
  | _ => cases hm

/-- Whatever a value of a new environment leads to is one of it. -/
theorem Layout.Holds.gives {v w : Value} (hv : h.layout.Holds absent v)
    (hg : Gives (h.openEnvironment (.foreign absent) keep) h.environments.size v w) :
    h.layout.Holds absent w := by
  cases hg with
  | key hn =>
    obtain ⟨fields, -, he⟩ := Heap.exists_fields keep hv
    rw [he] at hn
    obtain ⟨x, rfl, -⟩ := Table.mem_of_find_ofFields hn
    trivial
  | field hn =>
    obtain ⟨fields, hmem, he⟩ := Heap.exists_fields keep hv
    rw [he] at hn ⊢
    obtain ⟨x, -, hm⟩ := Table.mem_of_find_ofFields hn
    exact h.layout.holds_fields absent keep fields hmem _ hm
  | metatable hm =>
    rcases metatable_openEnvironment hv hm with ⟨-, rfl⟩ | ⟨-, rfl⟩
    · exact ⟨1, by decide, rfl⟩
    · exact ⟨2, by decide, rfl⟩
  | pairs | ipairs | gmatch => trivial

/-! ### What texts lead to -/

/-- A value that texts can lead to. -/
def Layout.IsTextual (l : Layout) : Value → Prop
  | .text _ => True
  | .native f => f.isTextual
  | .table p => p = l.texts ∨ p = l.library .string
  | _ => False

theorem Layout.isTextual_fields {l : Layout} {i : Nat} {fields : List (String × Value)}
    (hi : l.base + i = l.texts ∨ l.base + i = l.library .string)
    (hf : (l.fields (.foreign absent) keep)[i]? = some fields) : ∀ e ∈ fields, l.IsTextual e.2 := by
  have hi : i = 1 ∨ i = 13 := by
    rcases hi with h | h
    · exact .inl (Nat.add_left_cancel h)
    · exact .inr (Nat.add_left_cancel (h.trans (Nat.add_assoc l.base 6 7)))
  rcases hi with rfl | rfl
  · cases hf
    simp only [textMetatable, List.forall_mem_cons]
    exact ⟨.inr rfl, rfl, rfl, rfl, rfl, rfl, rfl, rfl, rfl, nofun⟩
  · cases hf
    exact List.forall_mem_map.2 fun _ _ => rfl

theorem Layout.IsTextual.gives {v w : Value} (hv : h.layout.IsTextual v)
    (hg : Gives (h.openEnvironment (.foreign absent) keep) h.environments.size v w) :
    h.layout.IsTextual w := by
  have holds : h.layout.Holds absent v := by
    cases v with
    | table p =>
      rcases hv with rfl | rfl
      · exact ⟨1, by decide, rfl⟩
      · exact h.layout.holds_library absent .string
    | text | native => trivial
    | _ => exact hv.elim
  cases hg with
  | key hn =>
    obtain ⟨fields, -, he⟩ := Heap.exists_fields keep holds
    rw [he] at hn
    obtain ⟨x, rfl, -⟩ := Table.mem_of_find_ofFields hn
    trivial
  | field hn =>
    obtain ⟨i, hi, rfl⟩ := holds
    have hlt : i < (h.layout.fields (.foreign absent) keep).length := hi
    have hf := List.getElem?_eq_getElem hlt
    rw [Heap.table_openEnvironment hf] at hn ⊢
    obtain ⟨x, -, hm⟩ := Table.mem_of_find_ofFields hn
    exact Layout.isTextual_fields hv hf _ hm
  | metatable hm =>
    rcases metatable_openEnvironment holds hm with ⟨-, rfl⟩ | ⟨⟨p, rfl⟩, -⟩
    · exact .inl rfl
    · exact hv.elim
  | pairs | ipairs => cases hv
  | gmatch => rfl

/-- A value is reached from the globals of a new environment or from a text. -/
def Heap.Reached (h : Heap) (absent : Nat) (keep : List String) (v : Value) : Prop :=
  ∃ root, (root = .table h.layout.globals ∨ root = .text []) ∧ Relation.ReflTransGen
    (Gives (h.openEnvironment (.foreign absent) keep) h.environments.size) root v

theorem Heap.Reached.gives {v w : Value} (hv : h.Reached absent keep v)
    (hg : Gives (h.openEnvironment (.foreign absent) keep) h.environments.size v w) :
    h.Reached absent keep w :=
  hv.imp fun _ hr => ⟨hr.1, hr.2.tail hg⟩

theorem Heap.Reached.holds {v : Value} (hv : h.Reached absent keep v) :
    h.layout.Holds absent v := by
  obtain ⟨root, hroot, hr⟩ := hv
  induction hr with
  | refl =>
    rcases hroot with rfl | rfl
    · exact ⟨0, by decide, rfl⟩
    · trivial
  | tail _ hg ih => exact ih.gives hg

/-- What scripts of a new environment can come to: what is reached in it, and what is made later. -/
def Heap.realm (h : Heap) (absent : Nat) (keep : List String) (objects : Nat) : Realm where
  home := h.environments.size
  natives f := h.Reached absent keep (.native f)
  tables p := h.Reached absent keep (.table p) ∨ h.tables.size + 16 ≤ p
  cells n := h.cells.size ≤ n
  functions p := h.functions.size ≤ p
  threads p := h.threads.size ≤ p
  foreigns p := h.Reached absent keep (.foreign absent) ∧ (p = absent ∨ objects ≤ p)
  past := h.called.toList

theorem Heap.Reached.has {v : Value} (hv : h.Reached absent keep v) (objects : Nat) :
    (h.realm absent keep objects).Has v := by
  cases v with
  | native f => exact hv
  | table p => exact .inl hv
  | function | thread => exact hv.holds.elim
  | foreign p =>
    obtain rfl : p = absent := hv.holds
    exact ⟨hv, .inl rfl⟩
  | _ => trivial

theorem Heap.size_openEnvironment :
    (h.openEnvironment (.foreign absent) keep).tables.size = h.tables.size + 16 := by
  simp [Heap.openEnvironment, ← Array.length_toList, Layout.length_fields]

end

end Script

open Script (Native Reaches)

/-! ### Environments of the host -/

namespace World

/-- Environments go by the numbers of their homes, and there is the object that stands for no
value. -/
structure Founded (w : World) : Prop where
  homes : w.homes.size = w.scripts.environments.size
  absent : w.objectAt absentPlace = .absent

end World

namespace Op

section

variable {w : World} (keep : List String) (sharesTypes : Bool)

variable {keep} {sharesTypes}

end

/-- Tries to make a text upper case, and tells whether it went well. -/
def shout : String :=
  "return (pcall(function() return ('a'):upper() end))"

end Op

end ScriptHost
