import ScriptHost.Proofs.Outcome
import ScriptHost.Settings.Defaults

/-!
# Settings over settings

A file goes over the default settings entry by entry, and so does a section of it over the section of
the same name. A file has no key twice, so each key has in the end what the file says of it, and what
the file does not mention stays. Nothing comes of a key at the top that is left empty, but a section
takes it as it is: there it reads as nothing (`merge_top`, `merge_inside`).
-/
namespace ScriptHost.Settings

/-! ### Finding what has been put -/

namespace Value

theorem sameKey_text_iff {key : Value} {name : String} :
    key.sameKey (.text name) = true ↔ key = .text name := by
  cases key <;> simp [sameKey]

theorem text_sameKey_iff {key : Value} {name : String} :
    (text name).sameKey key = true ↔ key = .text name := by
  cases key <;> simp [sameKey, eq_comm]

end Value

open Value

theorem find?_cons (e : Value × Value) (es : Entries) (name : String) :
    find? (e :: es) (.text name) =
      if e.1.sameKey (.text name) then some e.2 else find? es (.text name) := by
  simp only [find?, List.find?_cons]
  cases e.1.sameKey (.text name) <;> rfl

theorem find?_append (es es' : Entries) (name : String) :
    find? (es ++ es') (.text name) = (find? es (.text name)).or (find? es' (.text name)) := by
  simp only [find?, List.find?_append, Option.map_or]

theorem find?_eq_none_iff {es : Entries} {name : String} :
    find? es (.text name) = none ↔ ∀ e ∈ es, e.1 ≠ .text name := by
  simp [find?, sameKey_text_iff]

/-- What is put under a name is found there, and nothing else changes. -/
theorem find?_putEntry (es : Entries) (key v : Value) (name : String) :
    find? (putEntry es key v) (.text name) =
      if key.sameKey (.text name) then some v else find? es (.text name) := by
  have hchanged (es : Entries) :
      find? (es.map fun e => if e.1.sameKey key then (e.1, v) else e) (.text name) =
        if key.sameKey (.text name) then (find? es (.text name)).map fun _ => v
        else find? es (.text name) := by
    induction es with
    | nil => simp [find?]
    | cons e es ih =>
      rw [List.map_cons, find?_cons, find?_cons, ih]
      by_cases hk : key = .text name
      · subst hk
        by_cases he : e.1 = .text name <;> simp [sameKey_text_iff, he]
      · by_cases he : e.1 = .text name
        · simp [sameKey_text_iff, text_sameKey_iff, he, hk]
        · split <;> simp [sameKey_text_iff, he, hk]
  unfold putEntry
  split
  · rename_i hany
    rw [hchanged]
    by_cases hk : key = .text name
    · subst hk
      have hs : find? es (.text name) ≠ none := by
        rw [Ne, find?_eq_none_iff]
        simpa [sameKey_text_iff] using hany
      obtain ⟨old, hold⟩ := Option.ne_none_iff_exists'.mp hs
      simp [sameKey_text_iff, hold]
    · simp [sameKey_text_iff, hk]
  · rename_i hany
    rw [find?_append, find?_cons]
    by_cases hk : key = .text name
    · subst hk
      have hn : find? es (.text name) = none := by
        rw [find?_eq_none_iff]
        exact fun e he hn => hany (List.any_eq_true.mpr ⟨e, he, sameKey_text_iff.mpr hn⟩)
      simp [sameKey_text_iff, hn]
    · simp [sameKey_text_iff, hk, find?]

/-- Settings over others, entry by entry. -/
def putAll (es news : Entries) : Entries :=
  news.foldl (fun acc (k, v) => putEntry acc k v) es

/-- No key is given twice. -/
def Distinct (es : Entries) : Prop :=
  (es.map Prod.fst).Pairwise fun a b => a.sameKey b = false

theorem Distinct.find?_eq_none {key v : Value} {es : Entries} (h : Distinct ((key, v) :: es))
    {name : String} (hk : key.sameKey (.text name)) : find? es (.text name) = none := by
  rw [find?_eq_none_iff]
  intro e he hn
  have hne := (List.pairwise_cons.mp h).1 e.1 (List.mem_map_of_mem he)
  rw [sameKey_text_iff.mp hk, hn] at hne
  exact absurd (sameKey_text_iff.mpr rfl) (ne_true_of_eq_false hne)

/-- Of distinct keys each has the value it is given, and all others have what they had. -/
theorem find?_putAll {news : Entries} (hd : Distinct news) (es : Entries) (name : String) :
    find? (putAll es news) (.text name) = (find? news (.text name)).or (find? es (.text name)) := by
  induction news generalizing es with
  | nil => rfl
  | cons e news ih =>
    obtain ⟨key, v⟩ := e
    rw [putAll, List.foldl_cons, ← putAll, ih (List.pairwise_cons.mp hd).2, find?_putEntry,
      find?_cons]
    by_cases hk : key.sameKey (.text name)
    · rw [hd.find?_eq_none hk, if_pos hk, if_pos hk]
      rfl
    · rw [if_neg hk, if_neg hk]

/-- What an entry of a file makes of the value that its key has. -/
def overlaid (old : Option Value) : Value → Option Value
  | .null => old
  | .map news =>
    match old with
    | some (.map olds) => some (.map (putAll olds news))
    | _ => some (.map news)
  | v => some v

theorem find?_mergeEntry (es : Entries) (key v : Value) (name : String) :
    find? (mergeEntry es key v) (.text name) =
      if key.sameKey (.text name) then overlaid (find? es (.text name)) v
      else find? es (.text name) := by
  by_cases hk : key = .text name
  · subst hk
    rw [if_pos (sameKey_text_iff.mpr rfl)]
    unfold mergeEntry
    split
    · rfl
    · rename_i hold
      rw [find?_putEntry, if_pos (sameKey_text_iff.mpr rfl), hold]
      rfl
    · rename_i hnull hmap
      rw [find?_putEntry, if_pos (sameKey_text_iff.mpr rfl)]
      unfold overlaid
      split
      · exact absurd rfl hnull
      · split
        · rename_i hold
          exact absurd hold (hmap _ _ rfl)
        · rfl
      · rfl
  · rw [if_neg (mt sameKey_text_iff.mp hk)]
    unfold mergeEntry
    split
    · rfl
    · rw [find?_putEntry, if_neg (mt sameKey_text_iff.mp hk)]
    · rw [find?_putEntry, if_neg (mt sameKey_text_iff.mp hk)]

/-- What a file says of a key is laid over what there is, and all it does not mention stays. -/
theorem find?_merge {news : Entries} (hd : Distinct news) (es : Entries) (name : String) :
    find? (merge es news) (.text name) =
      match find? news (.text name) with
      | some v => overlaid (find? es (.text name)) v
      | none => find? es (.text name) := by
  induction news generalizing es with
  | nil => rfl
  | cons e news ih =>
    obtain ⟨key, v⟩ := e
    rw [merge, List.foldl_cons, ← merge, ih (List.pairwise_cons.mp hd).2, find?_mergeEntry,
      find?_cons]
    by_cases hk : key.sameKey (.text name)
    · rw [hd.find?_eq_none hk, if_pos hk, if_pos hk]
    · rw [if_neg hk, if_neg hk]

/-! ### What is read has distinct keys -/

/-- A text that is said to be a scalar is one. -/
theorem isScalar_of_read {k : Kind} {s : String} {v : Value} (h : k.read s = .ok v) :
    v.isScalar = true := by
  cases k
  case moment =>
    change Kind.readMoment s = .ok v at h
    unfold Kind.readMoment at h
    split at h
    · cases h
    · dsimp only at h
      split at h <;> split at h <;> cases h <;> rfl
  case bool =>
    obtain ⟨_, -, rfl⟩ := exists_of_except_map (x := Kind.readBool s) h
    rfl
  case int =>
    obtain ⟨_, -, rfl⟩ := exists_of_except_map (x := Kind.readInt s) h
    rfl
  case float =>
    obtain ⟨_, -, rfl⟩ := exists_of_except_map (x := Kind.readFloat s) h
    rfl
  case bytes =>
    obtain ⟨_, -, rfl⟩ := exists_of_except_map (x := Kind.readBytes s) h
    rfl
  all_goals
    cases h
    try rfl

namespace Leveled

theorem mem_of_all {α : Type} {rs : List (Leveled α)} {as : List α} (h : all rs = .ok as) :
    ∀ a ∈ as, .ok a ∈ rs := by
  induction rs generalizing as with
  | nil =>
    cases h
    exact nofun
  | cons r rs ih =>
    cases r with
    | error e => cases hrs : all rs <;> simp [all, both, hrs, Except.map] at h
    | ok x =>
      cases hrs : all rs with
      | error e => simp [all, both, hrs, Except.map] at h
      | ok xs =>
        simp only [all, both, hrs, Except.map, Except.ok.injEq] at h
        subst h
        intro a ha
        rcases List.mem_cons.mp ha with rfl | ha
        · exact List.mem_cons_self
        · exact List.mem_cons_of_mem _ (ih hrs a ha)

theorem ok_of_at {α : Type} {level : Nat} {r : Except Fault α} {a : α}
    (h : at_ level r = .ok a) : r = .ok a := by
  cases r with
  | error f => cases h
  | ok b => exact congrArg _ (Except.ok.inj h)

end Leveled

/-- A map that is read is put together entry by entry, of values that are read. -/
theorem exists_of_value_map {level n : Nat} {node : Node} {es : Entries}
    (h : node.value level n = .ok (.map es)) :
    ∃ news : Entries, es = putAll [] news ∧
      ∀ e ∈ news, ∃ level n, ∃ node : Node, node.value level n = .ok e.2 := by
  cases n with
  | zero => cases h
  | succ n =>
    unfold Node.value at h
    dsimp only at h
    split at h
    case h_6 =>
      obtain ⟨news, hnews, hes⟩ := exists_of_except_map h
      refine ⟨news, (Value.map.inj hes).symm, fun e he => ?_⟩
      split at hnews
      · cases hnews
      · obtain ⟨⟨k, v⟩, -, hread⟩ := List.mem_map.mp (Leveled.mem_of_all hnews e he)
        dsimp only at hread
        split at hread
        · split at hread <;> cases hread
        · split at hread
          · obtain ⟨a, hv, rfl⟩ := exists_of_except_map hread
            exact ⟨_, _, _, hv⟩
          · cases hread
    case h_12 => exact absurd (isScalar_of_read (Leveled.ok_of_at h)) nofun
    case h_13 =>
      obtain ⟨_, -, hv⟩ := exists_of_except_bind (Leveled.ok_of_at h)
      cases hv
    case h_14 =>
      obtain ⟨_, -, hv⟩ := exists_of_except_bind (Leveled.ok_of_at h)
      exact absurd (isScalar_of_read hv) nofun
    case h_4 | h_7 | h_10 =>
      obtain ⟨_, -, hv⟩ := exists_of_except_map h
      cases hv
    all_goals cases h

theorem Distinct.nil : Distinct [] :=
  List.Pairwise.nil

theorem keys_putEntry_of_any {es : Entries} {key : Value} (h : es.any fun e => e.1.sameKey key)
    (v : Value) : (putEntry es key v).map Prod.fst = es.map Prod.fst := by
  rw [putEntry, if_pos h, List.map_map]
  refine List.map_congr_left fun e _ => ?_
  dsimp only [Function.comp_apply]
  split <;> rfl

theorem Distinct.putEntry {es : Entries} (hd : Distinct es) (key v : Value) :
    Distinct (Value.putEntry es key v) := by
  by_cases h : es.any fun e => e.1.sameKey key
  · rw [Distinct, keys_putEntry_of_any h]
    exact hd
  · rw [Distinct, Value.putEntry, if_neg h, List.map_append, List.pairwise_append]
    refine ⟨hd, List.pairwise_singleton _ _, fun a ha b hb => ?_⟩
    obtain ⟨e, he, rfl⟩ := List.mem_map.mp ha
    obtain rfl : b = key := by simpa using hb
    exact Bool.eq_false_iff.mpr fun hs => h (List.any_eq_true.mpr ⟨e, he, hs⟩)

theorem distinct_putAll {es : Entries} (hd : Distinct es) (news : Entries) :
    Distinct (putAll es news) := by
  induction news generalizing es with
  | nil => exact hd
  | cons e news ih => exact ih (hd.putEntry e.1 e.2)

theorem mem_putEntry {es : Entries} {key v : Value} {e : Value × Value}
    (h : e ∈ putEntry es key v) : e ∈ es ∨ e.2 = v := by
  unfold putEntry at h
  split at h
  · obtain ⟨old, hold, rfl⟩ := List.mem_map.mp h
    split
    · exact .inr rfl
    · exact .inl hold
  · exact (List.mem_append.mp h).imp_right fun h => by rw [List.mem_singleton.mp h]

theorem mem_putAll {es news : Entries} {e : Value × Value} (h : e ∈ putAll es news) :
    e ∈ es ∨ ∃ new ∈ news, e.2 = new.2 := by
  induction news generalizing es with
  | nil => exact .inl h
  | cons new news ih =>
    rcases ih h with h | ⟨other, hm, heq⟩
    · exact (mem_putEntry h).imp_right fun heq => ⟨new, List.mem_cons_self, heq⟩
    · exact .inr ⟨other, List.mem_cons_of_mem _ hm, heq⟩

/-- No key is given twice, in the settings or in a section of them. -/
structure Orderly (es : Entries) : Prop where
  distinct : Distinct es
  inner : ∀ key news, (key, .map news) ∈ es → Distinct news

theorem Orderly.inner_of_find? {es news : Entries} {name : String} (h : Orderly es)
    (hn : find? es (.text name) = some (.map news)) : Distinct news := by
  obtain ⟨⟨key, v⟩, hfound, rfl⟩ := Option.map_eq_some_iff.mp hn
  exact h.inner _ _ (List.mem_of_find?_eq_some hfound)

/-- What a file holds has no key twice. -/
theorem orderly_of_ofText {s : String} {es : Entries} (h : Value.ofText s = .ok (.map es)) :
    Orderly es := by
  have hread : ∃ level n, ∃ node : Node, node.value level n = .ok (.map es) := by
    obtain ⟨ts, -, h⟩ := exists_of_except_bind h
    obtain ⟨⟨made, rest⟩, -, h⟩ := exists_of_except_bind h
    dsimp only at h
    split at h
    · cases h
    · rename_i node
      cases hv : node.value 0 (2 * depthLimit + 2) with
      | error f =>
        rw [hv] at h
        cases h
      | ok v =>
        rw [hv] at h
        exact ⟨_, _, node, hv.trans (congrArg _ (Except.ok.inj h))⟩
  obtain ⟨_, _, _, hvalue⟩ := hread
  obtain ⟨news, rfl, hnews⟩ := exists_of_value_map hvalue
  refine ⟨distinct_putAll .nil _, fun key inner hm => ?_⟩
  rcases mem_putAll hm with hm | ⟨new, hm, heq⟩
  · cases hm
  · obtain ⟨level, n, node, hv⟩ := hnews new hm
    obtain ⟨rest, rfl, -⟩ := exists_of_value_map (hv.trans (congrArg _ heq.symm))
    exact distinct_putAll .nil _

/-! ### What a file leaves empty -/

/-- A place for a value in a file: a key at its top, or one in a section. -/
inductive Gap where
  | top (key : Value)
  | inside (name : String) (key : Value)

/-- Settings that leave a gap empty, and the same without its key. -/
inductive LeavesEmpty : Gap → Entries → Entries → Prop
  | top (before after : Entries) (key : Value) :
    LeavesEmpty (.top key) (before ++ (key, .null) :: after) (before ++ after)
  | inside (before after news rest : Entries) (name : String) (key : Value) {olds : Entries}
    (h : find? defaults (.text name) = some (.map olds)) :
    LeavesEmpty (.inside name key)
      (before ++ (.text name, .map (news ++ (key, .null) :: rest)) :: after)
      (before ++ (.text name, .map (news ++ rest)) :: after)

variable {before after es es' : Entries} {key : Value} {name : String}

/-- A key among distinct keys has no other place. -/
theorem find?_around {v : Value} (hd : Distinct (before ++ (key, v) :: after))
    (hk : key.sameKey (.text name)) :
    find? before (.text name) = none ∧ find? after (.text name) = none := by
  rw [Distinct, List.map_append, List.pairwise_append] at hd
  obtain ⟨-, hafter, hcross⟩ := hd
  refine ⟨?_, Distinct.find?_eq_none hafter hk⟩
  rw [find?_eq_none_iff]
  intro e he hn
  have hne : e.1.sameKey key = false := hcross e.1 (List.mem_map_of_mem he) key List.mem_cons_self
  rw [sameKey_text_iff.mp hk, hn] at hne
  exact absurd (sameKey_text_iff.mpr rfl) (ne_true_of_eq_false hne)

/-- What a key has among distinct keys is what it is given there. -/
theorem find?_mid {v : Value} (hd : Distinct (before ++ (key, v) :: after)) (name : String) :
    find? (before ++ (key, v) :: after) (.text name) =
      if key.sameKey (.text name) then some v else find? (before ++ after) (.text name) := by
  rw [find?_append, find?_append, find?_cons]
  split
  · rename_i hk
    rw [(find?_around hd hk).1, Option.none_or]
  · rfl

/-- Nothing is made of a key at the top that is left empty. -/
theorem merge_top (h : LeavesEmpty (.top key) es es') : merge defaults es = merge defaults es' := by
  cases h
  simp only [merge, List.foldl_append, List.foldl_cons]
  rfl

/-- A section that is left empty in a place differs from the one without it in that place alone. -/
theorem merge_inside (h : LeavesEmpty (.inside name key) es es') (ho : Orderly es) (ho' : Orderly es') :
    (∀ s, s ≠ name →
      find? (merge defaults es) (.text s) = find? (merge defaults es') (.text s)) ∧
    ∃ olds made made', find? defaults (.text name) = some (.map olds) ∧
      find? (merge defaults es) (.text name) = some (.map made) ∧
      find? (merge defaults es') (.text name) = some (.map made') ∧
      ∀ k, find? made (.text k) =
          (if key.sameKey (.text k) then some .null else find? made' (.text k)) ∧
        (key.sameKey (.text k) → find? made' (.text k) = find? olds (.text k)) := by
  obtain _ | @⟨before, after, news, rest, _, _, olds, holds⟩ := h
  have hname : (Value.text name).sameKey (.text name) := sameKey_text_iff.mpr rfl
  constructor
  · intro s hs
    have hne : ¬ (Value.text name).sameKey (.text s) := fun h =>
      hs (Value.text.inj (sameKey_text_iff.mp h)).symm
    rw [find?_merge ho.distinct, find?_merge ho'.distinct, find?_mid ho.distinct,
      find?_mid ho'.distinct, if_neg hne, if_neg hne]
  · have hin := ho.inner _ _ (List.mem_append_right _ List.mem_cons_self)
    have hin' := ho'.inner _ _ (List.mem_append_right _ List.mem_cons_self)
    refine ⟨olds, putAll olds (news ++ (key, .null) :: rest), putAll olds (news ++ rest), holds,
      ?_, ?_, fun k => ?_⟩
    · rw [find?_merge ho.distinct, find?_mid ho.distinct, if_pos hname, holds]
      rfl
    · rw [find?_merge ho'.distinct, find?_mid ho'.distinct, if_pos hname, holds]
      rfl
    · rw [find?_putAll hin, find?_putAll hin', find?_mid hin]
      constructor
      · split <;> rfl
      · intro hk
        obtain ⟨hnews, hrest⟩ := find?_around hin hk
        rw [find?_append, hnews, hrest, Option.none_or, Option.none_or]

theorem sectionOf_elsewhere (h : LeavesEmpty (.inside name key) es es') (ho : Orderly es)
    (ho' : Orderly es') {s : String} (hs : s ≠ name) :
    sectionOf (merge defaults es) s = sectionOf (merge defaults es') s := by
  rw [sectionOf, sectionOf, (merge_inside h ho ho').1 s hs]

/-- All other places read the same. -/
theorem read_elsewhere (h : LeavesEmpty (.inside name key) es es') (ho : Orderly es)
    (ho' : Orderly es') {s k : String} (hne : ¬ (s = name ∧ key = .text k)) (other : Value) :
    (sectionOf (merge defaults es) s).field k = (sectionOf (merge defaults es') s).field k ∧
    (sectionOf (merge defaults es) s).fieldOr k other =
      (sectionOf (merge defaults es') s).fieldOr k other := by
  obtain ⟨-, olds, made, made', -, hmade, hmade', hkeys⟩ := merge_inside h ho ho'
  by_cases hs : s = name
  · subst hs
    have hk : find? made (.text k) = find? made' (.text k) := by
      rw [(hkeys k).1, if_neg fun hk => hne ⟨rfl, sameKey_text_iff.mp hk⟩]
    simp only [sectionOf, hmade, hmade', Option.getD_some, field, fieldOr, hk, and_self]
  · rw [sectionOf_elsewhere h ho ho' hs]
    exact ⟨rfl, rfl⟩

/-- The place itself reads as nothing, and without its key as the default. -/
theorem read_there {key : String} (h : LeavesEmpty (.inside name (.text key)) es es') (ho : Orderly es)
    (ho' : Orderly es') (other : Value) :
    (sectionOf (merge defaults es) name).field key = .ok .null ∧
    (sectionOf (merge defaults es) name).fieldOr key other = .ok .null ∧
    (sectionOf (merge defaults es') name).fieldOr key other =
      (sectionOf defaults name).fieldOr key other := by
  obtain ⟨-, olds, made, made', hdef, hmade, hmade', hkeys⟩ := merge_inside h ho ho'
  obtain ⟨hk, hk'⟩ := hkeys key
  rw [if_pos (sameKey_text_iff.mpr rfl)] at hk
  unfold sectionOf
  rw [hmade, hmade', hdef]
  simp only [Option.getD_some, field, fieldOr, hk, hk' (sameKey_text_iff.mpr rfl), and_self]

end ScriptHost.Settings
