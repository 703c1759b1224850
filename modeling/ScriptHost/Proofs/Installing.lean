import ScriptHost.Proofs.Offers

/-!
# First come, first bound

Functions of any make are installed one after the other, several of them perhaps under one name. Each
takes its slot if nothing was there before and none of those before it took it, and all else stays
(`installAll_iff`). It takes that the host can read what is there already.
-/
namespace ScriptHost

open Script (Value Heap)

/-- The global table of a function and its name there. -/
def FunctionDescriptor.pair (d : FunctionDescriptor) : String × String :=
  (d.space, d.name)

namespace Op

variable {host : Responder} {home : Nat} {w w₁ : World} {d : FunctionDescriptor}
  {marks : FunctionDescriptor → List (String × List Picture)}

/-! ### What the host can read -/

/-- A value of a script that the host can read: all are, but for texts that are no UTF-8. -/
def Legible : Value → Prop
  | .text b => (Text.decode b).isOk
  | _ => True

instance : DecidablePred Legible := fun v => by
  unfold Legible
  split <;> infer_instance

theorem ends_toHost_iff (home : Nat) (w : World) {v : Value} :
    (toHost home v).Ends w ↔ Legible v := by
  cases v with
  | text b =>
    rw [toHost, Legible]
    cases Text.decode b <;> exact Iff.rfl
  | foreign p => exact iff_of_true rfl trivial
  | _ => exact iff_of_true rfl trivial

/-! ### Functions -/

/-- A function that an environment can be given: an object that can be called, or a function of the
environment itself. -/
def IsFunction (w : World) (home : Nat) : Datum → Prop
  | .object p => p ≠ absentPlace ∧ isCallableObject w p
  | .script home' (.function _) | .script home' (.native _) => home' = home
  | _ => False

/-- A function in the slot of a global table. -/
structure Binding (v : Value) : Prop where
  some : ¬ IsNone v
  legible : Legible v
  not_table : ∀ t, v ≠ .table t

theorem exists_toScript_of_isFunction {f : Datum} (h : IsFunction w home f) :
    ∃ v, (toScript home f).outcome w = .ok v ∧ (toScript home f).after w = w ∧ Binding v := by
  unfold IsFunction at h
  split at h
  · next p =>
    obtain ⟨ho, ha⟩ := toScript_of_foreign (foreign_of_callable h.2) home
    exact ⟨_, ho, ha, by simpa [IsNone] using h.1, trivial, by simp⟩
  · next home' f =>
    subst h
    exact ⟨.function f, by simp [toScript], by simp [toScript], by simp [IsNone], trivial, by simp⟩
  · next home' f =>
    subst h
    exact ⟨.native f, by simp [toScript], by simp [toScript], by simp [IsNone], trivial, by simp⟩
  · exact h.elim

/-- A world has the classes of another and all of its objects. -/
structure Later (w w₁ : World) : Prop where
  objects : w.objects.toList <+: w₁.objects.toList
  classes : w₁.classes = w.classes

theorem Later.trans {w₂ : World} (h : Later w w₁) (h' : Later w₁ w₂) : Later w w₂ :=
  ⟨h.objects.trans h'.objects, h'.classes.trans h.classes⟩

/-- What making the function of a descriptor does in a world: scripts and books stay as they are, and
notes tell that it was made. -/
structure Crafts (host : Responder) (home : Nat)
    (marks : FunctionDescriptor → List (String × List Picture)) (d : FunctionDescriptor)
    (w : World) (f : Datum) : Prop where
  outcome : (perform host d.bind).outcome w = .ok f
  function : IsFunction ((perform host d.bind).after w) home f
  scripts : ((perform host d.bind).after w).scripts = w.scripts
  books : ((perform host d.bind).after w).functionBooks = w.functionBooks
  notes : ((perform host d.bind).after w).notes = w.notes ++ (marks d).toArray
  later : Later w ((perform host d.bind).after w)

/-- A value is the function that a descriptor has made at some time. -/
def CraftedBy (host : Responder) (home : Nat)
    (marks : FunctionDescriptor → List (String × List Picture)) (d : FunctionDescriptor)
    (v : Value) : Prop :=
  ∃ w f, Crafts host home marks d w f ∧
    (toScript home f).outcome ((perform host d.bind).after w) = .ok v

/-- A function can be made for a descriptor in a world and in all later ones. -/
def CanCraft (host : Responder) (home : Nat)
    (marks : FunctionDescriptor → List (String × List Picture)) (w : World)
    (d : FunctionDescriptor) : Prop :=
  ∀ u, Later w u → ∃ f, Crafts host home marks d u f

theorem CanCraft.mono (h : CanCraft host home marks w d) (hl : Later w w₁) :
    CanCraft host home marks w₁ d :=
  fun u hu => h u (hl.trans hu)

/-! ### Installing one function -/

/-- The host can read what has the names of a function. -/
def Readable (w : World) (home : Nat) (d : FunctionDescriptor) : Prop :=
  Legible (w.scripts.rawGet (globalsAt w home) (.ofString d.space)) ∧
    Legible (w.scripts.slot (globalsAt w home) d.space d.name)

/-- The globals are plain tables, each its own, and none of them is the table of the globals. -/
structure Bare (w : World) (home : Nat) : Prop where
  spaced : w.scripts.Spaced (globalsAt w home)
  loops : ∀ s, ¬ w.scripts.Loops (globalsAt w home) s

/-- What installing a function does: the function that is made, if one is, takes its slot. -/
structure Puts (host : Responder) (home : Nat)
    (marks : FunctionDescriptor → List (String × List Picture)) (d : FunctionDescriptor)
    (w : World) (v : Option Value) (w' : World) : Prop where
  scripts : ∃ t w₁, Comes w home d.space t w₁ ∧ w'.scripts =
    (v.map (w₁.scripts.rawSet t (.ofString d.name))).getD w₁.scripts
  free : v.isSome ↔ IsNone (w.scripts.slot (globalsAt w home) d.space d.name)
  made : ∀ f, v = some f → Binding f ∧ CraftedBy host home marks d f
  installed : w'.functionBooks.installed =
    w.functionBooks.installed ++ if v.isSome then [d.qualified] else []
  skipped : w'.functionBooks.skipped =
    w.functionBooks.skipped ++ if v.isSome then [] else [d.qualified]
  notes : w'.notes = w.notes ++ (if v.isSome then marks d else []).toArray
  later : Later w w'

theorem ends_spaceTable_iff (host : Responder) (hb : Bare w home) (space : String) :
    (spaceTable host home space).Ends w ↔
      Legible (w.scripts.rawGet (globalsAt w home) (.ofString space)) := by
  obtain ⟨ho, ha⟩ := getGlobal_of_plain hb.spaced.globals host space
  rw [← ends_toHost_iff home w, spaceTable, ends_bind_iff, ends_iff, ho]
  refine exists_congr fun d => and_iff_left ?_
  rw [ha]
  split
  · rfl
  · exact ends_iff.2 ⟨_, (makeSpace_of_spaced hb.spaced host space).1⟩

namespace Comes

variable {space : String} {t : Nat} (hc : Comes w home space t w₁)
include hc

theorem later : Later w w₁ := by
  cases hc <;> exact ⟨List.prefix_rfl, rfl⟩

theorem functionBooks_eq : w₁.functionBooks = w.functionBooks := by
  cases hc <;> rfl

theorem notes_eq : w₁.notes = w.notes := by
  cases hc <;> rfl

variable (hb : Bare w home)
include hb

theorem bare : Bare w₁ home where
  spaced := hc.globalsAt_eq ▸ hc.spaced hb.spaced
  loops s := hc.globalsAt_eq ▸ fun h => hb.loops s ((hc.loops_iff hb.spaced s).1 h)

theorem slot_eq_of_bare (s x : String) :
    w₁.scripts.slot (globalsAt w home) s x = w.scripts.slot (globalsAt w home) s x :=
  (hc.slot_eq hb.spaced s x).resolve_right fun h => hb.loops s h.1

theorem place_ne : t ≠ globalsAt w home := fun he =>
  (hc.bare hb).loops space (by rw [hc.globalsAt_eq]; exact he ▸ hc.rawGet_eq hb.spaced)

end Comes

/-- What is done with the global table of a function. -/
def installAt (host : Responder) (home : Nat) (d : FunctionDescriptor) (t : Value) : Op Bool := do
  if (← getField host home t d.name) != .none then
    modifyFunctionBooks fun b => { b with skipped := b.skipped ++ [d.qualified] }
    debug "luahost.functions" s!"Skipped: {d.qualified} (already exists)"
    return false
  let f ← perform host d.bind
  setField host home t d.name f
  modifyFunctionBooks fun b => { b with installed := b.installed ++ [d.qualified] }
  debug "luahost.functions" s!"Registered: {d.qualified}"
  return true

theorem install_eq (host : Responder) (home : Nat) (d : FunctionDescriptor) :
    install host home d = spaceTable host home d.space >>= installAt host home d := rfl

section
variable {t : Nat} (hb : Bare w home) (hc : Comes w home d.space t w₁)
include hb hc

/-- The host looks at the slot of the function. -/
theorem getField_of_comes (host : Responder) :
    (getField host home (.table t) d.name).outcome w₁ =
        (toHost home (w.scripts.slot (globalsAt w home) d.space d.name)).outcome w₁ ∧
      (getField host home (.table t) d.name).after w₁ = w₁ := by
  have ht := hc.rawGet_eq hb.spaced
  have hp : w₁.scripts.Plain t := (hc.spaced hb.spaced).tables ht
  rw [← hc.slot_eq_of_bare hb, Heap.slot_of_table ht]
  exact getField_of_plain hp host home d.name

theorem not_ends_installAt (host : Responder)
    (hr : ¬ Legible (w.scripts.slot (globalsAt w home) d.space d.name)) :
    ¬ (installAt host home d (.table t)).Ends w₁ := fun he => by
  obtain ⟨x, hx, -⟩ := ends_bind_iff.1 he
  exact hr ((ends_toHost_iff home w₁).1 (ends_iff.2 ⟨x, (getField_of_comes hb hc host).1.symm.trans hx⟩))

theorem installAt_of_taken (hr : Legible (w.scripts.slot (globalsAt w home) d.space d.name))
    (ht : ¬ IsNone (w.scripts.slot (globalsAt w home) d.space d.name)) :
    (installAt host home d (.table t)).Ends w₁ ∧
      Puts host home marks d w none ((installAt host home d (.table t)).after w₁) := by
  obtain ⟨x, hx⟩ := ends_iff.1 ((ends_toHost_iff home w₁).2 hr)
  obtain ⟨hgo, hga⟩ := getField_of_comes hb hc host
  have hsome : x ≠ .none := by
    rintro rfl
    exact ht (toHost_eq_none_iff.1 hx)
  have hbooks := hc.functionBooks_eq
  rw [installAt, Ends, outcome_bind_of_ok (hgo.trans hx), after_bind_of_ok (hgo.trans hx), hga,
    if_pos (by simpa using hsome)]
  refine ⟨rfl, ⟨t, w₁, hc, rfl⟩, iff_of_false Bool.false_ne_true ht, by simp, ?_, ?_, ?_,
    hc.later.objects, hc.later.classes⟩
  · exact (congrArg FunctionBooks.installed hbooks).trans (List.append_nil _).symm
  · exact congrArg (fun b => b.skipped ++ [d.qualified]) hbooks
  · exact hc.notes_eq.trans Array.append_empty.symm

theorem installAt_of_free (hm : CanCraft host home marks w d)
    (ht : IsNone (w.scripts.slot (globalsAt w home) d.space d.name)) :
    (installAt host home d (.table t)).Ends w₁ ∧
      ∃ v, Puts host home marks d w (some v) ((installAt host home d (.table t)).after w₁) := by
  obtain ⟨f, hf⟩ := hm w₁ hc.later
  obtain ⟨v, hto, hta, hbind⟩ := exists_toScript_of_isFunction hf.function
  have hp : ((perform host d.bind).after w₁).scripts.Plain t :=
    hf.scripts ▸ (hc.spaced hb.spaced).tables (hc.rawGet_eq hb.spaced)
  obtain ⟨hso, hsa⟩ := setField_of_plain hp ⟨hto, hta⟩ host d.name
  obtain ⟨hgo, hga⟩ := getField_of_comes hb hc host
  have hgo' := hgo.trans (toHost_eq_none_iff.2 ht)
  have hbooks := hf.books.trans hc.functionBooks_eq
  have hlater := hc.later.trans hf.later
  rw [installAt, Ends, outcome_bind_of_ok hgo', after_bind_of_ok hgo', hga, if_neg (by simp),
    outcome_bind_of_ok hf.outcome, after_bind_of_ok hf.outcome, outcome_bind_of_ok hso,
    after_bind_of_ok hso, hsa]
  refine ⟨rfl, v, ⟨t, w₁, hc, ?_⟩, iff_of_true rfl ht, ?_, ?_, ?_, ?_, hlater.objects,
    hlater.classes⟩
  · exact congrArg (Heap.rawSet · t (.ofString d.name) v) hf.scripts
  · rintro _ ⟨⟩
    exact ⟨hbind, w₁, f, hf, hto⟩
  · exact congrArg (fun b => b.installed ++ [d.qualified]) hbooks
  · exact (congrArg FunctionBooks.skipped hbooks).trans (List.append_nil _).symm
  · exact hf.notes.trans (congrArg (· ++ (marks d).toArray) hc.notes_eq)

end

/-- Step: a function can be installed iff the host can read what has its names. -/
theorem install_iff (hb : Bare w home) (hm : CanCraft host home marks w d) :
    ((install host home d).Ends w ↔ Readable w home d) ∧
      ((install host home d).Ends w →
        ∃ v, Puts host home marks d w v ((install host home d).after w)) := by
  by_cases hg : Legible (w.scripts.rawGet (globalsAt w home) (.ofString d.space))
  swap
  · have hn : ¬ (install host home d).Ends w := fun he => by
      obtain ⟨_, ho, -⟩ := ends_bind_iff.1 he
      exact hg ((ends_spaceTable_iff host hb d.space).1 (ends_iff.2 ⟨_, ho⟩))
    exact ⟨iff_of_false hn fun h => hg h.1, fun he => absurd he hn⟩
  obtain ⟨_, hv⟩ := ends_iff.1 ((ends_spaceTable_iff host hb d.space).2 hg)
  obtain ⟨t, rfl, hc⟩ := comes_of_spaceTable hb.spaced hv
  rw [install_eq, Ends, outcome_bind_of_ok hv, after_bind_of_ok hv, Readable, and_iff_right hg]
  by_cases hr : Legible (w.scripts.slot (globalsAt w home) d.space d.name)
  swap
  · have hn := not_ends_installAt hb hc host hr
    exact ⟨iff_of_false hn hr, fun he => absurd he hn⟩
  by_cases ht : IsNone (w.scripts.slot (globalsAt w home) d.space d.name)
  · obtain ⟨he, v, hp⟩ := installAt_of_free hb hc hm ht
    exact ⟨iff_of_true he hr, fun _ => ⟨some v, hp⟩⟩
  · obtain ⟨he, hp⟩ := installAt_of_taken hb hc hr ht
    exact ⟨iff_of_true he hr, fun _ => ⟨none, hp⟩⟩

/-! ### What one function leaves -/

/-- A key that is not a name stands for no name. -/
theorem toKey_ne_ofString {key : Value} {x : String} (h : key ≠ .ofString x) :
    key.toKey ≠ (Value.ofString x).toKey := by
  cases key with
  | float y =>
    rw [Value.toKey]
    split <;> nofun
  | _ => exact h

namespace Puts

variable {v : Option Value} {w' : World} (h : Puts host home marks d w v w')
include h

theorem globalsAt_eq : globalsAt w' home = globalsAt w home := by
  obtain ⟨t, w₁, hc, hs⟩ := h.scripts
  rw [← hc.globalsAt_eq, globalsAt, globalsAt, hs]
  cases v <;> rfl

variable (hb : Bare w home)
include hb

/-- The slot of a function that is put somewhere was free, and tables do not change. -/
theorem exists_setField : ∃ t w₁, Comes w home d.space t w₁ ∧
    w₁.scripts.rawGet (globalsAt w home) (.ofString d.space) = .table t ∧
    w₁.scripts.Spaced (globalsAt w home) ∧
    ((v = none ∧ w'.scripts = w₁.scripts) ∨
      ∃ f, v = some f ∧ (∀ t', f ≠ .table t') ∧
        (∀ t', w₁.scripts.slot (globalsAt w home) d.space d.name ≠ .table t') ∧
        w'.scripts = w₁.scripts.rawSet t (.ofString d.name) f) := by
  obtain ⟨t, w₁, hc, hs⟩ := h.scripts
  refine ⟨t, w₁, hc, hc.rawGet_eq hb.spaced, hc.spaced hb.spaced, ?_⟩
  cases v with
  | none => exact .inl ⟨rfl, hs⟩
  | some f =>
    refine .inr ⟨f, rfl, (h.made f rfl).1.not_table, fun t' he => ?_, hs⟩
    rw [hc.slot_eq_of_bare hb] at he
    exact isNone_of_table (he ▸ h.free.1 rfl)

theorem slot_eq (s x : String) : w'.scripts.slot (globalsAt w home) s x =
    (if d.pair = (s, x) then v else none).getD (w.scripts.slot (globalsAt w home) s x) := by
  obtain ⟨t, w₁, hc, ht, hspaced, ⟨rfl, hs⟩ | ⟨f, rfl, hf, hn, hs⟩⟩ := h.exists_setField hb
  · rw [hs, ite_self, hc.slot_eq_of_bare hb]
    rfl
  · rw [hs, hspaced.slot_setField ht hn hf, hc.slot_eq_of_bare hb]
    by_cases he : d.pair = (s, x)
    · obtain ⟨rfl, rfl⟩ := Prod.mk.inj he
      rw [if_pos ⟨rfl, rfl⟩, if_pos he]
      rfl
    · rw [if_neg he, if_neg fun hsx => he (by rw [FunctionDescriptor.pair, hsx.1, hsx.2])]
      rfl

theorem bare : Bare w' home := by
  obtain ⟨t, w₁, hc, ht, hspaced, ⟨rfl, hs⟩ | ⟨f, rfl, hf, hn, hs⟩⟩ := h.exists_setField hb
  · refine ⟨?_, fun s => ?_⟩
    · rw [h.globalsAt_eq, hs]
      exact hspaced
    · rw [h.globalsAt_eq, hs, ← hc.globalsAt_eq]
      exact (hc.bare hb).loops s
  · refine ⟨?_, fun s hl => ?_⟩
    · rw [h.globalsAt_eq, hs]
      exact hspaced.setField ht hf
    · rw [h.globalsAt_eq, hs] at hl
      refine (hc.bare hb).loops s ?_
      rw [hc.globalsAt_eq]
      exact (hspaced.rawGet_setField_iff ht hn hf s _).1 hl

/-- What is written in a global table is not written in the globals. -/
theorem rawGet_globals_eq (key : Value) : ∃ t w₁, Comes w home d.space t w₁ ∧
    w'.scripts.rawGet (globalsAt w home) key = w₁.scripts.rawGet (globalsAt w home) key := by
  obtain ⟨t, w₁, hc, ht, -, ⟨rfl, hs⟩ | ⟨f, rfl, -, -, hs⟩⟩ := h.exists_setField hb
  · exact ⟨t, w₁, hc, by rw [hs]⟩
  · refine ⟨t, w₁, hc, ?_⟩
    rw [hs, Heap.rawGet_rawSet_of_place_ne (hc.place_ne hb)]

/-- A global is as it was if it is a table or has another name. -/
theorem kept {key : Value} (hk : key ≠ .ofString d.space ∨
      ∃ t, w.scripts.rawGet (globalsAt w home) key = .table t) :
    w'.scripts.rawGet (globalsAt w home) key = w.scripts.rawGet (globalsAt w home) key := by
  obtain ⟨t, w₁, hc, he⟩ := h.rawGet_globals_eq hb key
  rw [he]
  cases hc with
  | found => rfl
  | made hn ht =>
    have hne : key ≠ .ofString d.space := by
      rcases hk with hk | ⟨t', ht'⟩
      · exact hk
      · rintro rfl
        exact hn t' ht'
    have hlt := hb.spaced.globals.lt
    have hlt' : globalsAt w home < (w.scripts.addTable (.empty home)).tables.size := by
      rw [Heap.addTable, Array.size_push]
      exact Nat.lt_succ_of_lt hlt
    show (w.scripts.withSpace _ _ _).rawGet _ _ = _
    rw [Heap.withSpace, Heap.rawGet_rawSet_of_ne hlt' (toKey_ne_ofString hne),
      Heap.rawGet_addTable hlt]

theorem exists_table :
    ∃ t, w'.scripts.rawGet (globalsAt w home) (.ofString d.space) = .table t := by
  obtain ⟨t, w₁, hc, he⟩ := h.rawGet_globals_eq hb (.ofString d.space)
  exact ⟨t, he.trans (hc.rawGet_eq hb.spaced)⟩

/-- What the host could read it still can. -/
theorem readable_iff (hr : Readable w home d) {d' : FunctionDescriptor} :
    Readable w' home d' ↔ Readable w home d' := by
  unfold Readable
  rw [h.globalsAt_eq, h.slot_eq hb]
  have hglobal : Legible (w'.scripts.rawGet (globalsAt w home) (.ofString d'.space)) ↔
      Legible (w.scripts.rawGet (globalsAt w home) (.ofString d'.space)) := by
    by_cases he : d'.space = d.space
    · rw [he]
      obtain ⟨t, ht⟩ := h.exists_table hb
      exact iff_of_true (ht ▸ trivial) hr.1
    · rw [h.kept hb (.inl fun hs => he (Script.Value.ofString_inj.1 hs))]
  have hslot : Legible ((if d.pair = (d'.space, d'.name) then v else none).getD
      (w.scripts.slot (globalsAt w home) d'.space d'.name)) ↔
      Legible (w.scripts.slot (globalsAt w home) d'.space d'.name) := by
    by_cases he : d.pair = (d'.space, d'.name)
    · obtain ⟨hs, hx⟩ := Prod.mk.inj he
      rw [if_pos he, ← hs, ← hx]
      cases v with
      | none => exact Iff.rfl
      | some f => exact iff_of_true (h.made f rfl).1.legible hr.2
    · rw [if_neg he]
      exact Iff.rfl
  rw [hglobal, hslot]

end Puts

/-! ### Installing functions -/

/-- The turns of functions, each with the value it has been installed as, if it has been. -/
abbrev Turns := List (FunctionDescriptor × Option Value)

namespace Turns

/-- The functions that have been installed. -/
def bound (turns : Turns) : List FunctionDescriptor :=
  (turns.filter (·.2.isSome)).map (·.1)

/-- The functions that have not. -/
def refused (turns : Turns) : List FunctionDescriptor :=
  (turns.filter (·.2.isNone)).map (·.1)

/-- The value that the first function of a slot has been installed as, if it has been. -/
def first (turns : Turns) (s x : String) : Option Value :=
  (turns.find? (·.1.pair = (s, x))).bind (·.2)

theorem length_bound_add (turns : Turns) :
    turns.bound.length + turns.refused.length = turns.length := by
  simp only [bound, refused, List.length_map]
  induction turns with
  | nil => rfl
  | cons e turns ih =>
    obtain ⟨d, v⟩ := e
    cases v <;> simp <;> omega

end Turns

/-- What turns of functions come to. -/
structure Fills (host : Responder) (home : Nat)
    (marks : FunctionDescriptor → List (String × List Picture)) (w : World) (turns : Turns)
    (v : World) : Prop where
  globals : globalsAt v home = globalsAt w home
  /-- A function is installed just when its slot was free and none before it is of the same slot. -/
  free : ∀ pre d f post, turns = pre ++ (d, f) :: post → (f.isSome ↔
    IsNone (w.scripts.slot (globalsAt w home) d.space d.name) ∧ ∀ e ∈ pre, e.1.pair ≠ d.pair)
  slot : ∀ s x, v.scripts.slot (globalsAt w home) s x =
    (turns.first s x).getD (w.scripts.slot (globalsAt w home) s x)
  kept : ∀ key, (∀ e ∈ turns, key ≠ .ofString e.1.space) ∨
      (∃ t, w.scripts.rawGet (globalsAt w home) key = .table t) →
    v.scripts.rawGet (globalsAt w home) key = w.scripts.rawGet (globalsAt w home) key
  tables : ∀ e ∈ turns,
    ∃ t, v.scripts.rawGet (globalsAt w home) (.ofString e.1.space) = .table t
  made : ∀ d f, (d, some f) ∈ turns → ¬ IsNone f ∧ CraftedBy host home marks d f
  installed : v.functionBooks.installed = w.functionBooks.installed ++ turns.bound.map (·.qualified)
  skipped : v.functionBooks.skipped = w.functionBooks.skipped ++ turns.refused.map (·.qualified)
  notes : v.notes = w.notes ++ (turns.bound.flatMap marks).toArray

theorem fills_nil (host : Responder) (home : Nat)
    (marks : FunctionDescriptor → List (String × List Picture)) (w : World) :
    Fills host home marks w [] w where
  globals := rfl
  free pre d f post he := absurd he (by simp)
  slot _ _ := rfl
  kept _ _ := rfl
  tables := nofun
  made := nofun
  installed := (List.append_nil _).symm
  skipped := (List.append_nil _).symm
  notes := Array.append_empty.symm

/-- No function has been installed in a slot that was taken. -/
theorem Fills.first_eq_none {turns : Turns} {v : World} (h : Fills host home marks w turns v)
    {s x : String} (ht : ¬ IsNone (w.scripts.slot (globalsAt w home) s x)) :
    turns.first s x = none := by
  rw [Turns.first, Option.bind_eq_none_iff]
  rintro ⟨d, f⟩ he
  obtain ⟨hd, pre, post, hsplit, -⟩ := List.find?_eq_some_iff_append.1 he
  obtain ⟨rfl, rfl⟩ : d.space = s ∧ d.name = x := by
    simpa [FunctionDescriptor.pair] using hd
  cases f with
  | none => rfl
  | some f => exact absurd ((h.free pre d _ post hsplit).1 rfl).1 ht

section
variable {f : Option Value} (hb : Bare w home) (h : Puts host home marks d w f w₁)
include hb h

/-- The slot of a function that has had its turn is taken. -/
theorem Puts.not_isNone :
    ¬ IsNone (w₁.scripts.slot (globalsAt w home) d.space d.name) := by
  rw [h.slot_eq hb, if_pos (show d.pair = (d.space, d.name) from rfl)]
  cases f with
  | none => exact fun hn => Bool.false_ne_true (h.free.2 hn)
  | some f => exact (h.made f rfl).1.some

variable {turns : Turns} {v : World} (h' : Fills host home marks w₁ turns v)
include h'

theorem Fills.free_cons (pre : Turns) (d' : FunctionDescriptor) (f' : Option Value) (post : Turns)
    (he : (d, f) :: turns = pre ++ (d', f') :: post) : f'.isSome ↔
      IsNone (w.scripts.slot (globalsAt w home) d'.space d'.name) ∧
        ∀ e ∈ pre, e.1.pair ≠ d'.pair := by
  cases pre with
  | nil =>
    cases he
    exact h.free.trans (and_iff_left nofun).symm
  | cons e pre =>
    obtain ⟨rfl, hrest⟩ := List.cons.inj he
    rw [h'.free pre d' f' post hrest, List.forall_mem_cons, h.globalsAt_eq]
    by_cases hp : d.pair = d'.pair
    · obtain ⟨hs, hx⟩ := Prod.mk.inj hp
      rw [← hs, ← hx]
      exact iff_of_false (fun hn => h.not_isNone hb hn.1) fun hn => hn.2.1 hp
    · rw [h.slot_eq hb, if_neg (show d.pair ≠ (d'.space, d'.name) from hp)]
      simp [hp]

theorem Fills.slot_cons (s x : String) : v.scripts.slot (globalsAt w home) s x =
    (Turns.first ((d, f) :: turns) s x).getD (w.scripts.slot (globalsAt w home) s x) := by
  have hg := h.globalsAt_eq
  rw [← hg, h'.slot, hg, h.slot_eq hb, Turns.first, Turns.first, List.find?_cons]
  by_cases hp : d.pair = (s, x)
  · obtain ⟨rfl, rfl⟩ := Prod.mk.inj hp
    have hnone : turns.first d.space d.name = none :=
      h'.first_eq_none (hg.symm ▸ h.not_isNone hb)
    rw [Turns.first] at hnone
    simp [hp, hnone]
  · simp [hp]

theorem Fills.kept_cons {key : Value} (hk : (∀ e ∈ (d, f) :: turns, key ≠ .ofString e.1.space) ∨
      ∃ t, w.scripts.rawGet (globalsAt w home) key = .table t) :
    v.scripts.rawGet (globalsAt w home) key = w.scripts.rawGet (globalsAt w home) key := by
  have he := h.kept hb (hk.imp_left fun hk => hk (d, f) List.mem_cons_self)
  rw [← he, ← h.globalsAt_eq]
  refine h'.kept key (hk.imp (fun hk e he => hk e (List.mem_cons_of_mem _ he)) ?_)
  exact fun ⟨t, ht⟩ => ⟨t, by rw [h.globalsAt_eq, he, ht]⟩

theorem Fills.cons : Fills host home marks w ((d, f) :: turns) v where
  globals := h'.globals.trans h.globalsAt_eq
  free := h'.free_cons hb h
  slot := h'.slot_cons hb h
  kept _ := h'.kept_cons hb h
  tables := by
    have hg := h.globalsAt_eq
    refine List.forall_mem_cons.2 ⟨?_, hg ▸ h'.tables⟩
    obtain ⟨t, ht⟩ := h.exists_table hb
    rw [← hg] at ht ⊢
    exact ⟨t, (h'.kept _ (.inr ⟨t, ht⟩)).trans ht⟩
  made d' f' he := by
    rcases List.mem_cons.1 he with he | he
    · obtain ⟨rfl, rfl⟩ := Prod.mk.inj he
      exact ⟨(h.made f' rfl).1.some, (h.made f' rfl).2⟩
    · exact h'.made d' f' he
  installed := by
    rw [h'.installed, h.installed]
    cases f <;> simp [Turns.bound]
  skipped := by
    rw [h'.skipped, h.skipped]
    cases f <;> simp [Turns.refused]
  notes := by
    rw [h'.notes, h.notes]
    cases f <;> simp [Turns.bound]

end

/-- Run: functions can be installed one after the other iff the host can read what has the names of
each. -/
theorem forM_install_iff (ds : List FunctionDescriptor) (hb : Bare w home)
    (hm : ∀ d ∈ ds, CanCraft host home marks w d) :
    let m : Op PUnit := ds.forM fun d => discard (install host home d)
    (m.Ends w ↔ ∀ d ∈ ds, Readable w home d) ∧
      (m.Ends w → ∃ turns : Turns, turns.map (·.1) = ds ∧
        Fills host home marks w turns (m.after w)) := by
  induction ds generalizing w with
  | nil => exact ⟨iff_of_true rfl nofun, fun _ => ⟨[], rfl, fills_nil host home marks w⟩⟩
  | cons d ds ih =>
    rw [List.forall_mem_cons] at hm
    obtain ⟨hiff, hputs⟩ := install_iff hb hm.1
    intro m
    have hsplit : m = (discard (install host home d) >>= fun _ =>
      ds.forM fun d => discard (install host home d)) := rfl
    rw [hsplit, discard_bind, List.forall_mem_cons]
    by_cases hr : Readable w home d
    · obtain ⟨_, ho⟩ := ends_iff.1 (hiff.2 hr)
      obtain ⟨v, hv⟩ := hputs (hiff.2 hr)
      obtain ⟨hiff', hfills⟩ := ih (hv.bare hb) fun d' hd' => (hm.2 d' hd').mono hv.later
      have hread : (∀ d' ∈ ds, Readable ((install host home d).after w) home d') ↔
          ∀ d' ∈ ds, Readable w home d' :=
        forall₂_congr fun d' _ => hv.readable_iff hb hr
      rw [Ends, outcome_bind_of_ok ho, after_bind_of_ok ho]
      refine ⟨hiff'.trans (hread.trans (and_iff_right hr).symm), fun he => ?_⟩
      obtain ⟨turns, hturns, hf⟩ := hfills he
      exact ⟨(d, v) :: turns, by rw [List.map_cons, hturns], hf.cons hb hv⟩
    · have hn : ¬ (install host home d >>= fun _ =>
          ds.forM fun d => discard (install host home d)).Ends w := fun he => by
        obtain ⟨_, ho, -⟩ := ends_bind_iff.1 he
        exact hr (hiff.1 (ends_iff.2 ⟨_, ho⟩))
      exact ⟨iff_of_false hn fun h => hr h.1, fun he => absurd he hn⟩

/-- Functions are installed in an environment whose global tables are plain and each its own, from
descriptors that each make one. This ends iff the host can read what has their names. A slot that was
taken stays as it was, a free one has what the first function of the slot was made as, and all other
slots and globals are as they were, but that the names of global tables are those of tables. The books
tell what was installed and what was not, in order, and notes tell that a function was made for just
those that were installed. -/
theorem installAll_iff (host : Responder) (home : Nat)
    (marks : FunctionDescriptor → List (String × List Picture)) (ds : List FunctionDescriptor)
    {w : World} (spaced : w.scripts.Spaced (globalsAt w home))
    (loops : ∀ s, ¬ w.scripts.Loops (globalsAt w home) s)
    (makes : ∀ d ∈ ds, CanCraft host home marks w d) :
    let g := globalsAt w home
    let v := (installAll host home ds).after w
    ((installAll host home ds).Ends w ↔ ∀ d ∈ ds, Readable w home d) ∧
    ((installAll host home ds).Ends w → ∃ turns : Turns, turns.map (·.1) = ds ∧
      (∀ pre d f post, turns = pre ++ (d, f) :: post → (f.isSome ↔
        IsNone (w.scripts.slot g d.space d.name) ∧ ∀ e ∈ pre, e.1.pair ≠ d.pair)) ∧
      (∀ s x, v.scripts.slot g s x =
        if IsNone (w.scripts.slot g s x) then (turns.first s x).getD (w.scripts.slot g s x)
        else w.scripts.slot g s x) ∧
      (∀ d f, (d, some f) ∈ turns → ¬ IsNone f ∧ CraftedBy host home marks d f) ∧
      (∀ key, (∀ d ∈ ds, key ≠ .ofString d.space) ∨
          (∃ t, w.scripts.rawGet g key = .table t) →
        v.scripts.rawGet g key = w.scripts.rawGet g key) ∧
      (∀ d ∈ ds, ∃ t, v.scripts.rawGet g (.ofString d.space) = .table t) ∧
      v.functionBooks = ⟨turns.bound.map (·.qualified), turns.refused.map (·.qualified)⟩ ∧
      v.functionBooks.installed.length + v.functionBooks.skipped.length = ds.length ∧
      (installAll host home ds).outcome w = .ok v.functionBooks.installed.length ∧
      v.notes = w.notes ++ (turns.bound.flatMap marks).toArray) := by
  let w₀ : World := { w with functionBooks := {} }
  let m : Op PUnit := ds.forM fun d => discard (install host home d)
  have hb : Bare w₀ home := ⟨spaced, loops⟩
  obtain ⟨hiff, hfills⟩ := forM_install_iff ds hb
    fun d hd u hu => makes d hd u ⟨hu.objects, hu.classes⟩
  have hends : (installAll host home ds).Ends w ↔ m.Ends w₀ := by
    show (m >>= fun _ => _).Ends w₀ ↔ _
    exact ends_bind_iff.trans ((exists_congr fun _ => and_iff_left rfl).trans ends_iff.symm)
  intro g v
  refine ⟨hends.trans hiff, fun he => ?_⟩
  obtain ⟨_, ho⟩ := ends_iff.1 (hends.1 he)
  have hout : (installAll host home ds).outcome w =
      .ok (m.after w₀).functionBooks.installed.length :=
    outcome_bind_of_ok (m := m) ho _
  have hafter : v = m.after w₀ := after_bind_of_ok (m := m) ho _
  obtain ⟨turns, hturns, hf⟩ := hfills (hends.1 he)
  rw [← hafter] at hout hf
  have hbooks : v.functionBooks = ⟨turns.bound.map (·.qualified), turns.refused.map (·.qualified)⟩ :=
    congrArg₂ FunctionBooks.mk hf.installed hf.skipped
  have hall (p : FunctionDescriptor → Prop) : (∀ e ∈ turns, p e.1) ↔ ∀ d ∈ ds, p d := by
    rw [← hturns, List.forall_mem_map]
  refine ⟨turns, hturns, hf.free, fun s x => ?_, hf.made,
    fun key hk => hf.kept key (hk.imp_left (hall _).2), (hall _).1 hf.tables, hbooks, ?_, hout,
    hf.notes⟩
  · split
    · exact hf.slot s x
    · next ht =>
      refine (hf.slot s x).trans ?_
      rw [hf.first_eq_none ht]
      rfl
  · rw [hbooks]
    simp only [List.length_map]
    rw [turns.length_bound_add, ← hturns, List.length_map]

/-! ### A few functions -/

theorem isCallableObject_of_later {p : Nat} (h : Later w w₁) (hp : isCallableObject w p) :
    isCallableObject w₁ p := by
  obtain ⟨o, ho⟩ : ∃ o, w.objects[p]? = some o := by
    by_contra hn
    rw [isCallableObject, World.objectAt, Option.eq_none_iff_forall_ne_some.2 fun o ho => hn ⟨o, ho⟩]
      at hp
    cases hp
  have ho' : w₁.objects[p]? = some o := by
    rw [← Array.getElem?_toList] at ho ⊢
    obtain ⟨hi, rfl⟩ := List.getElem?_eq_some_iff.1 ho
    exact List.prefix_iff_getElem?.1 h.objects p hi
  have he : w₁.objectAt p = w.objectAt p := by
    rw [World.objectAt, World.objectAt, ho, ho']
  have hc (cls : Class) : w₁.classInfo cls = w.classInfo cls := by
    rw [World.classInfo, World.classInfo, h.classes]
  unfold isCallableObject at hp ⊢
  rw [he]
  simpa only [hc] using hp

/-- A function that is noted when it is made. -/
def noted (space name : String) (p : Nat) : FunctionDescriptor where
  space := space
  name := name
  bind := do
    Program.order (.note "made" [.text space, .text name])
    return .object p

/-- The note of a function. -/
def noteOf (d : FunctionDescriptor) : List (String × List Picture) :=
  [("made", [.text d.space, .text d.name])]

theorem canCraft_noted (n home : Nat) {p : Nat} (hp : p ≠ absentPlace)
    (hc : isCallableObject w p) (space name : String) :
    CanCraft (respond (n + 1)) home noteOf w (noted space name p) := fun u hu =>
  have hu' : isCallableObject u p := isCallableObject_of_later hu hc
  ⟨.object p, rfl, ⟨hp, hu'⟩, rfl, rfl, rfl, List.prefix_rfl, rfl⟩

/-- A world with two functions of the host and an environment with one library. -/
def workshop : World :=
  withHome ["string"]
    { objects := #[.absent, .callable listenFunction, .callable listenFunction] }

/-- The world in which a global has a value. -/
def workshopWith (name : String) (v : Value) : World :=
  { workshop with
    scripts := workshop.scripts.rawSet (globalsAt workshop 0) (.ofString name) v }

theorem bare_workshop {name : String} {v : Value} (hv : ∀ t, v ≠ .table t) :
    Bare (workshopWith name v) 0 where
  spaced := (Heap.spaced_openEnvironment (h := {})).setGlobal hv
  loops s hl := by
    have hs : workshop.scripts.Spaced (globalsAt workshop 0) := Heap.spaced_openEnvironment
    rw [Heap.Loops, show globalsAt (workshopWith name v) 0 = globalsAt workshop 0 from rfl,
      workshopWith, Heap.rawGet_rawSet hs.globals.lt] at hl
    split at hl
    · exact hv _ hl
    · exact absurd (Heap.loops_openEnvironment_iff.1 hl).2 (by decide)

/-- Functions of which one is there already and two have the same names. -/
def wares : List FunctionDescriptor :=
  [noted "string" "len" 1, noted "string" "shout" 1, noted "B" "y" 2, noted "B" "y" 1]

/-- A world in which the name of a global table is that of a truth value. -/
def bench : World :=
  workshopWith "B" (.bool true)

/-- A function of a library stays, and a global that is no table becomes one. -/
theorem installAll_of_wares :
    let m := installAll (respond 1) 0 wares
    let v := m.after bench
    m.outcome bench = .ok 2 ∧ v.functionBooks.installed = ["string.shout", "B.y"] ∧
      v.functionBooks.skipped = ["string.len", "B.y"] ∧
      v.scripts.slot (globalsAt bench 0) "string" "len" =
        bench.scripts.slot (globalsAt bench 0) "string" "len" ∧
      ∃ t, v.scripts.rawGet (globalsAt bench 0) (.ofString "B") = .table t := by
  have hb : Bare bench 0 := bare_workshop nofun
  have hm : ∀ d ∈ wares, CanCraft (respond 1) 0 noteOf bench d := by
    simp only [wares, List.forall_mem_cons]
    refine ⟨?_, ?_, ?_, ?_, nofun⟩
    all_goals exact canCraft_noted 0 0 (by decide) (by decide +kernel) _ _
  have hr : ∀ d ∈ wares, Readable bench 0 d := by
    unfold Readable
    decide +kernel
  obtain ⟨hiff, hrun⟩ := installAll_iff (respond 1) 0 noteOf wares hb.spaced hb.loops hm
  obtain ⟨turns, -, -, hslots, -, -, htables, -, -, hout, -⟩ := hrun (hiff.2 hr)
  have hbooks : ((installAll (respond 1) 0 wares).after bench).functionBooks.installed =
      ["string.shout", "B.y"] ∧
      ((installAll (respond 1) 0 wares).after bench).functionBooks.skipped =
        ["string.len", "B.y"] := by
    decide +kernel
  refine ⟨?_, hbooks.1, hbooks.2, ?_, htables (noted "B" "y" 2) (by simp [wares])⟩
  · rw [hbooks.1] at hout
    exact hout
  · rw [hslots, if_neg]
    decide +kernel

/-- A global that the host cannot read stops the installation of a function of its name. -/
theorem not_ends_installAll_of_illegible :
    let w := workshopWith "A" (.text [0xff])
    Bare w 0 ∧ CanCraft (respond 1) 0 noteOf w (noted "A" "x" 1) ∧
      ¬ (installAll (respond 1) 0 [noted "A" "x" 1]).Ends w := by
  have hb : Bare (workshopWith "A" (.text [0xff])) 0 := bare_workshop nofun
  have hm : CanCraft (respond 1) 0 noteOf (workshopWith "A" (.text [0xff])) (noted "A" "x" 1) :=
    canCraft_noted 0 0 (by decide) (by decide +kernel) _ _
  refine ⟨hb, hm, ?_⟩
  decide +kernel
end Op

end ScriptHost
