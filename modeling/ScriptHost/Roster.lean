/-!
# Rosters

Entries by name, in the order in which the names came. A roster lists each name once:
`names_add` and `names_put` say what a new entry does to the list of names, and `find?_add` and
`find?_put` what can be found afterwards.
-/
namespace ScriptHost

/-- Entries by name. -/
structure Roster (α : Type) where
  entries : List (String × α) := []

namespace Roster

variable {α β : Type}

instance : Inhabited (Roster α) := ⟨{}⟩

/-- The names in their order. -/
def names (r : Roster α) : List String :=
  r.entries.map (·.1)

def find? (r : Roster α) (name : String) : Option α :=
  r.entries.lookup name

def contains (r : Roster α) (name : String) : Bool :=
  (r.find? name).isSome

/-- Enters something under a new name. An entry that is there stays. -/
def add (r : Roster α) (name : String) (a : α) : Roster α :=
  if r.contains name then r else ⟨r.entries ++ [(name, a)]⟩

/-- Enters something under a name, in the place of what is there. -/
def put (r : Roster α) (name : String) (a : α) : Roster α :=
  if r.contains name then
    ⟨r.entries.map fun e => if e.1 == name then (e.1, a) else e⟩
  else ⟨r.entries ++ [(name, a)]⟩

@[simp] theorem names_nil : (⟨[]⟩ : Roster α).names = [] := rfl

theorem contains_iff {r : Roster α} {name : String} : r.contains name ↔ name ∈ r.names := by
  obtain ⟨l⟩ := r
  simp only [contains, find?, names]
  induction l with
  | nil => simp
  | cons e l ih =>
    obtain ⟨key, a⟩ := e
    by_cases h : name = key
    · simp [h]
    · have : (name == key) = false := by simpa using h
      simp only [List.lookup_cons, this, List.map_cons, List.mem_cons, h, false_or]
      exact ih

theorem names_add (r : Roster α) (name : String) (a : α) :
    (r.add name a).names = if r.contains name then r.names else r.names ++ [name] := by
  unfold add
  split <;> simp [names]

theorem find?_add_of_contains {r : Roster α} {name : String} (h : r.contains name) (a : α) :
    r.add name a = r := by
  simp [add, h]

theorem find?_add_of_new {r : Roster α} {name : String} (h : ¬ r.contains name) (a : α)
    (other : String) :
    (r.add name a).find? other = if other = name then some a else r.find? other := by
  simp only [add, h, Bool.false_eq_true, if_false, find?, List.lookup_append]
  by_cases ho : other = name
  · subst ho
    have : r.entries.lookup other = none := Option.not_isSome_iff_eq_none.1 h
    simp [this]
  · have : (other == name) = false := by simpa using ho
    simp [ho, List.lookup_cons, this]

theorem names_put (r : Roster α) (name : String) (a : α) :
    (r.put name a).names = if r.contains name then r.names else r.names ++ [name] := by
  unfold put
  split
  · simp only [names, List.map_map]
    apply List.map_congr_left
    intro e _
    simp only [Function.comp_apply]
    split <;> rfl
  · simp [names]

/-- Entries of a name that are given a value have it, and no others do. -/
theorem lookup_map_put (name : String) (a : α) (other : String) (l : List (String × α)) :
    (l.map fun e => if e.1 == name then (e.1, a) else e).lookup other =
      if other = name then (l.lookup name).map fun _ => a else l.lookup other := by
  induction l with
  | nil => simp
  | cons e l ih =>
    obtain ⟨key, b⟩ := e
    rw [List.map_cons]
    by_cases hk : key = name
    · subst hk
      by_cases ho : other = key
      · simp [ho]
      · have hb : (other == key) = false := by simpa using ho
        simp only [beq_self_eq_true, if_true, List.lookup_cons, hb, ih, ho, if_false]
    · have hb : (key == name) = false := by simpa using hk
      have hb' : (name == key) = false := by simpa using fun h => hk h.symm
      simp only [hb, Bool.false_eq_true, if_false, List.lookup_cons, hb', ih]
      by_cases ho : other = key
      · simp [ho, hk]
      · have : (other == key) = false := by simpa using ho
        simp [this]

theorem find?_put (r : Roster α) (name : String) (a : α) (other : String) :
    (r.put name a).find? other = if other = name then some a else r.find? other := by
  by_cases hc : r.contains name
  · obtain ⟨b, hb⟩ := Option.isSome_iff_exists.1 hc
    simp only [find?] at hb
    simp only [put, hc, if_true, find?, lookup_map_put, hb, Option.map_some]
  · simp only [put, hc, Bool.false_eq_true, if_false, find?, List.lookup_append]
    by_cases ho : other = name
    · have hl : r.entries.lookup name = none := Option.not_isSome_iff_eq_none.1 hc
      simp [ho, hl]
    · have : (other == name) = false := by simpa using ho
      simp [ho, List.lookup_cons, this]

theorem find?_put_eq_some {r : Roster α} {name other : String} {a b : α}
    (h : (r.put name a).find? other = some b) :
    other = name ∧ b = a ∨ other ≠ name ∧ r.find? other = some b := by
  rw [find?_put] at h
  split at h
  · rename_i ho
    exact .inl ⟨ho, (Option.some.inj h).symm⟩
  · rename_i ho
    exact .inr ⟨ho, h⟩

theorem prefix_add (r : Roster α) (name : String) (a : α) :
    r.entries <+: (r.add name a).entries := by
  unfold add
  split
  · exact List.prefix_rfl
  · exact List.prefix_append _ _

/-- Where all that is listed can be found, it still can when something is entered. -/
theorem find?_put_of_mem {r : Roster α} (h : ∀ x ∈ r.entries, r.find? x.1 = some x.2)
    (name : String) (a : α) :
    ∀ x ∈ (r.put name a).entries, (r.put name a).find? x.1 = some x.2 := by
  intro x hx
  rw [find?_put]
  unfold put at hx
  split at hx
  · obtain ⟨e, he, rfl⟩ := List.mem_map.1 hx
    by_cases hn : e.1 = name
    · simp [hn]
    · simp [hn, h e he]
  · rename_i hc
    rcases List.mem_append.1 hx with hx | hx
    · have hn : x.1 ≠ name := fun hn => hc (by simp [contains, ← hn, h x hx])
      rw [if_neg hn, h x hx]
    · rw [List.mem_singleton.1 hx, if_pos rfl]

theorem entries_add_of_new {r : Roster α} {name : String} (h : r.contains name = false) (a : α) :
    (r.add name a).entries = r.entries ++ [(name, a)] := by
  simp [add, h]

theorem entries_put_of_new {r : Roster α} {name : String} (h : r.contains name = false) (a : α) :
    (r.put name a).entries = r.entries ++ [(name, a)] := by
  simp [put, h]

theorem names_put_of_find? {r : Roster α} {name : String} {a : α} (h : r.find? name = some a)
    (b : α) : (r.put name b).names = r.names := by
  rw [names_put, if_pos (by simp [contains, h])]

theorem nodup_names_put {r : Roster α} (h : r.names.Nodup) (name : String) (a : α) :
    (r.put name a).names.Nodup := by
  rw [names_put]
  split
  · exact h
  · rename_i hn
    rw [contains_iff] at hn
    refine List.nodup_append.2 ⟨h, by simp, ?_⟩
    simpa using fun x hx => ne_of_mem_of_not_mem hx hn

/-- What can be found in a roster is one of its entries. -/
theorem mem_of_find? {r : Roster α} {name : String} {a : α} (h : r.find? name = some a) :
    (name, a) ∈ r.entries := by
  obtain ⟨l⟩ := r
  simp only [find?] at h
  obtain ⟨l₁, l₂, rfl, -⟩ := List.lookup_eq_some_iff.1 h
  simp

/-- What is put in its place is what was there, if it was there. -/
theorem prefix_put {r : Roster α} {name : String} {a : α}
    (h : ∀ x ∈ r.entries, x.1 = name → x.2 = a) : r.entries <+: (r.put name a).entries := by
  unfold put
  split
  · have hsame : ∀ x ∈ r.entries, (if x.1 == name then (x.1, a) else x) = x := by
      intro x hx
      split
      · rename_i hn
        rw [← h x hx (eq_of_beq hn)]
      · rfl
    have same := (List.map_congr_left hsame).trans (List.map_id' _)
    exact ⟨[], (List.append_nil _).trans same.symm⟩
  · exact List.prefix_append _ _

theorem mem_put_self (r : Roster α) (name : String) (a : α) :
    (name, a) ∈ (r.put name a).entries :=
  mem_of_find? (by rw [find?_put, if_pos rfl])

theorem mem_put {r : Roster α} {name : String} {a : α} {x : String × α}
    (h : x ∈ (r.put name a).entries) : x ∈ r.entries ∨ x = (name, a) := by
  unfold put at h
  split at h
  · obtain ⟨y, hy, rfl⟩ := List.mem_map.1 h
    split
    · rename_i hn
      exact .inr (by rw [eq_of_beq hn])
    · exact .inl hy
  · exact (List.mem_append.1 h).imp_right List.mem_singleton.1

/-- What can be found in a roster is found in every one that goes on like it. -/
theorem find?_of_prefix {r r' : Roster α} (h : r.entries <+: r'.entries) {name : String} {a : α}
    (ha : r.find? name = some a) : r'.find? name = some a := by
  obtain ⟨more, hm⟩ := h
  simp only [find?] at ha ⊢
  simp [← hm, List.lookup_append, ha]

end Roster

end ScriptHost
