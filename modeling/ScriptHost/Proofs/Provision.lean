import ScriptHost.Proofs.Offers

/-!
# What scripts are provided with

A function that is offered under two names is to be what scripts find under them. It is, unless its
identifier was taken by another pair of names, the function to subscribe with takes the place of its
table, or its table is that of the globals and its name that of a table (`reached_iff`).
-/
namespace ScriptHost

open Files (Path)
open Script (Value Heap)

namespace Offer

/-- What the catalog has of a function on offer. -/
def entry (o : Offer) : FunctionFactory :=
  callableEntry o.space o.name (.object o.function)

/-- Both names are there. -/
def Named (o : Offer) : Prop :=
  o.space ≠ "" ∧ o.name ≠ ""

/-- The function to subscribe with, as it is on offer itself. -/
def bridge (function : Nat) : Offer :=
  ⟨"Bridge", "ListenTo", function⟩

/-- Takes up an offer, unless one of its identifier was taken up. -/
def take (taken : List Offer) (o : Offer) : List Offer :=
  if o.ident ∈ taken.map ident then taken else taken ++ [o]

/-- The offers that are taken up of those made one after the other. -/
def taken (os : List Offer) : List Offer :=
  os.foldl take []

/-- An offer is the first of its identifier. -/
def First (os : List Offer) (o : Offer) : Prop :=
  os.find? (fun o' => o'.ident = o.ident) = some o

instance (os : List Offer) (o : Offer) : Decidable (First os o) :=
  inferInstanceAs (Decidable (_ = _))

theorem named_bridge (function : Nat) : (bridge function).Named :=
  ⟨by simp [bridge], by simp [bridge]⟩

theorem value_entry {o : Offer} (h : o.Named) : o.entry.value? = some o.descriptor := by
  have hn : ¬ (o.space = "" ∨ o.name = "") := fun hn => hn.elim h.1 h.2
  unfold entry callableEntry Program.value? Program.result?
  simp only [Bool.or_eq_true, decide_eq_true_eq, if_neg hn]
  rfl

theorem result_entry (o : Offer) : o.entry.result?.isSome := by
  unfold entry callableEntry Program.result?
  by_cases hn : o.space = "" ∨ o.name = ""
  · simp only [Bool.or_eq_true, decide_eq_true_eq, if_pos hn]
    rfl
  · simp only [Bool.or_eq_true, decide_eq_true_eq, if_neg hn]
    rfl

/-! ### Taking up offers -/

section
variable {os : List Offer} {o : Offer}

theorem taken_append_singleton (os : List Offer) (o : Offer) :
    taken (os ++ [o]) = take (taken os) o := by
  rw [taken, List.foldl_append]
  rfl

theorem mem_idents_taken_iff : ∀ q, q ∈ (taken os).map ident ↔ q ∈ os.map ident := by
  induction os using List.reverseRecOn with
  | nil => exact fun _ => Iff.rfl
  | append_singleton os o ih =>
    intro q
    rw [taken_append_singleton, take, List.map_append, List.mem_append, List.map_singleton,
      List.mem_singleton]
    split
    · next ho =>
      rw [ih]
      exact ⟨.inl, fun h => h.elim id fun h => h ▸ (ih o.ident).mp ho⟩
    · rw [List.map_append, List.mem_append, ih, List.map_singleton, List.mem_singleton]

/-- Those offers are taken up that are the first of their identifiers. -/
theorem mem_taken_iff : o ∈ taken os ↔ First os o := by
  induction os using List.reverseRecOn with
  | nil => exact iff_of_false nofun nofun
  | append_singleton os o' ih =>
    have hnone : os.find? (fun o' => o'.ident = o.ident) = none ↔ o.ident ∉ os.map ident := by
      simp [List.find?_eq_none]
    rw [taken_append_singleton, take, First, List.find?_append]
    rw [First] at ih
    by_cases hm : o.ident ∈ os.map ident
    · obtain ⟨o₁, h₁⟩ := Option.ne_none_iff_exists'.mp (mt hnone.mp (not_not.mpr hm))
      have hne : o'.ident ∉ (taken os).map ident → o ≠ o' := fun hn he =>
        hn ((mem_idents_taken_iff _).mpr (he ▸ hm))
      rw [h₁] at ih ⊢
      rw [Option.some_or, ← ih]
      split
      · rfl
      · next hn => simp [hne hn]
    · rw [hnone.mpr hm] at ih ⊢
      have ho : o ∉ taken os := fun h => nomatch ih.mp h
      rw [Option.none_or]
      split
      · next hn =>
        have hne : o'.ident ≠ o.ident := fun he => hm (he ▸ (mem_idents_taken_iff _).mp hn)
        exact iff_of_false ho (by simp [hne])
      · rw [List.mem_append, or_iff_right ho, List.mem_singleton, List.find?_singleton]
        constructor
        · rintro rfl
          simp
        · intro h
          split at h
          · exact (Option.some.inj h).symm
          · cases h

/-- No two offers that are taken up have the same names. -/
theorem pairwise_taken (os : List Offer) :
    (taken os).Pairwise fun o o' => ¬ (o.space = o'.space ∧ o.name = o'.name) := by
  induction os using List.reverseRecOn with
  | nil => exact .nil
  | append_singleton os o ih =>
    rw [taken_append_singleton, take]
    split
    · exact ih
    · next hn =>
      refine List.pairwise_append.mpr ⟨ih, List.pairwise_singleton _ _, ?_⟩
      refine fun o₁ h₁ o₂ h₂ he => hn ?_
      obtain rfl := List.mem_singleton.mp h₂
      exact List.mem_map.mpr ⟨o₁, h₁, by rw [ident, ident, he.1, he.2]⟩

/-- The catalog of the offers that were taken up. -/
def shelved (os : List Offer) : Roster FunctionFactory :=
  ⟨os.map fun o => (o.ident, o.entry)⟩

theorem add_shelved (os : List Offer) (o : Offer) :
    (shelved os).add o.ident o.entry = shelved (take os o) := by
  have hn : (shelved os).names = os.map ident := List.map_map
  have hc : (shelved os).contains o.ident ↔ o.ident ∈ os.map ident := hn ▸ Roster.contains_iff
  rw [Roster.add, take, if_congr hc rfl rfl]
  split
  · rfl
  · simp [shelved]

/-- The functions of a catalog are made in the order in which they were taken up. -/
theorem filterMap_shelved (h : ∀ o ∈ os, o.Named) :
    ((shelved os).entries.filterMap fun x => x.2.value?) = os.map descriptor := by
  rw [shelved, List.filterMap_map, ← List.filterMap_eq_map]
  exact List.filterMap_congr fun o ho => value_entry (h o ho)

theorem stateless_shelved (os : List Offer) : Stateless (shelved os).entries :=
  List.forall_mem_map.mpr fun o _ => result_entry o

end

end Offer

namespace Op

open Offer

/-! ### Offering functions -/

/-- Offers functions one after the other. -/
def offerAll (os : List Offer) : Op Unit :=
  os.forM fun o => discard (addCallable o.space o.name none (.object o.function))

/-- Prepares a session. Functions are offered before and after that. -/
def provide (before later : List Offer) (allowlist : List Settings.Value) (root : Option Path)
    (extension : String) : Op Unit := do
  offerAll before
  openSession allowlist root extension
  offerAll later

section
variable {w : World} {os : List Offer}

theorem run_addFunction (ident : String) (make : FunctionFactory) (w : World) :
    ∃ b, (addFunction ident make).outcome w = .ok b ∧
      ((addFunction ident make).after w).catalog.functions = w.catalog.functions.add ident make ∧
      ((addFunction ident make).after w).objects = w.objects := by
  rw [addFunction, outcome_get_bind, after_get_bind, Catalog.addFunction?, Roster.add]
  cases hc : w.catalog.functions.contains ident <;> exact ⟨_, rfl, rfl, rfl⟩

/-- What is offered is taken up, unless its identifier is taken. -/
theorem run_offerAll (h : w.catalog.functions = shelved os) (more : List Offer) :
    (offerAll more).outcome w = .ok () ∧
      ((offerAll more).after w).catalog.functions = shelved (more.foldl take os) ∧
      ((offerAll more).after w).objects = w.objects := by
  induction more generalizing w os with
  | nil => exact ⟨rfl, h, rfl⟩
  | cons o more ih =>
    obtain ⟨b, ho, hc, hobj⟩ := run_addFunction o.ident o.entry w
    rw [h, add_shelved] at hc
    have hs : offerAll (o :: more) = addFunction o.ident o.entry >>= fun _ => offerAll more :=
      discard_bind (addFunction o.ident o.entry) fun _ => offerAll more
    rw [hs, outcome_bind_of_ok ho, after_bind_of_ok ho, ← hobj]
    exact ih hc

/-- The function to subscribe with is offered when the session is prepared. -/
theorem run_openSession (h : w.catalog.functions = shelved os) (allowlist : List Settings.Value)
    (root : Option Path) (extension : String) :
    (openSession allowlist root extension).outcome w = .ok () ∧
      ((openSession allowlist root extension).after w).catalog.functions =
        shelved (take os (bridge w.objects.size)) := by
  let w₁ : World := { w with objects := w.objects.push (.callable listenFunction) }
  have hn : (newObject (.callable listenFunction)).outcome w = .ok w.objects.size ∧
    (newObject (.callable listenFunction)).after w = w₁ := ⟨rfl, rfl⟩
  have hadd : w₁.catalog.functions.add "Bridge.ListenTo" (listenEntry w.objects.size) =
      shelved (take os (bridge w.objects.size)) := by
    rw [← add_shelved, ← h]
    rfl
  rw [openSession, outcome_bind_of_ok hn.1, after_bind_of_ok hn.1, hn.2, outcome_get_bind,
    after_get_bind]
  obtain ⟨b, ho, hc, -⟩ :=
    run_addFunction "Bridge.ListenTo" (listenEntry w.objects.size) w₁
  by_cases ht : w₁.catalog.functions.contains "Bridge.ListenTo"
  · rw [if_neg (by simp [ht])]
    rw [Roster.add, if_pos ht] at hadd
    exact ⟨rfl, hadd⟩
  · rw [if_pos (by simp [ht]), discard_bind, outcome_bind_of_ok ho, after_bind_of_ok ho]
    exact ⟨rfl, hc.trans hadd⟩

/-- The catalog has the first offer of each identifier. The function to subscribe with is on offer
between those that were offered before and after. -/
theorem after_provide (h : w.catalog.functions = {}) (before later : List Offer)
    (allowlist : List Settings.Value) (root : Option Path) (extension : String) :
    ((provide before later allowlist root extension).after w).catalog.functions =
      shelved (taken (before ++ bridge w.objects.size :: later)) := by
  have hnone : w.catalog.functions = shelved [] := h
  obtain ⟨ho, hc, hobj⟩ := run_offerAll hnone before
  obtain ⟨ho', hc'⟩ := run_openSession hc allowlist root extension
  rw [hobj] at hc'
  obtain ⟨-, hc'', -⟩ := run_offerAll hc' later
  rw [provide, after_bind_of_ok ho, after_bind_of_ok ho', hc'', taken, List.foldl_append]
  rfl

end

/-! ### Furnishing an environment -/

section
variable {host : Responder} {w : World} {os : List Offer} {home g : Nat}

theorem foreign_newObject (c : Callable) (w : World) :
    Foreign { w with objects := w.objects.push (.callable c) } w.objects.size := by
  simp [Foreign, World.objectAt]

/-- When an environment is furnished, functions have been installed in it one after the other, and
the function to subscribe with has become a global. -/
theorem laid_furnish (hg : globalsAt w home = g) (hs : w.scripts.Spaced g)
    (hf : ∀ o ∈ os, Foreign w o.function)
    (ho : os.Pairwise fun o o' => ¬ (o.space = o'.space ∧ o.name = o'.name))
    (he : (furnish host home (os.map descriptor)).Ends w) :
    let furnished := (furnish host home (os.map descriptor)).after w
    ∃ v, Laid w.scripts home g (os.map space) os v ∧
      furnished.scripts = v.scripts.rawSet g (.ofString "ListenTo") (.foreign w.objects.size) ∧
      furnished.functionBooks = v.functionBooks ∧ furnished.session = w.session := by
  intro furnished
  obtain ⟨_, he⟩ := ends_iff.mp he
  obtain ⟨n, hi, -, ha⟩ := exists_of_bind_ok he
  let w₁ : World := { w with functionBooks := {} }
  have hm : (modifyFunctionBooks fun _ => {}).outcome w = .ok () ∧
    (modifyFunctionBooks fun _ => {}).after w = w₁ := ⟨rfl, rfl⟩
  have ha : furnished = _ := ha
  rw [ha]
  rw [installAll, outcome_bind_of_ok hm.1, hm.2] at hi
  rw [installAll, after_bind_of_ok hm.1, hm.2]
  obtain ⟨_, hi, -, ha⟩ := exists_of_bind_ok hi
  obtain ⟨hl, hobj, hses⟩ := laid_forM_install host os (Laid.start (w := w₁) hg hs rfl) hf ho
    (ends_iff.mpr ⟨_, hi⟩)
  rw [ha]
  generalize ((os.map descriptor).forM fun d => discard (install host home d)).after w₁ = v
    at hl hobj hses ⊢
  refine ⟨v, hl, ?_⟩
  let v₁ : World := { v with objects := v.objects.push (.callable listenFunction) }
  have hn : (newObject (.callable listenFunction)).outcome v = .ok v.objects.size ∧
    (newObject (.callable listenFunction)).after v = v₁ := ⟨rfl, rfl⟩
  have hp : v₁.scripts.Plain (globalsAt v₁ home) := hl.globals.symm ▸ hl.spaced.globals
  obtain ⟨hso, hsa⟩ := setGlobal_of_plain hp
    (toScript_of_foreign (foreign_newObject listenFunction v) home) host "ListenTo"
  rw [after_get_bind, after_pure, after_bind_of_ok hn.1, hn.2, after_bind_of_ok hso, hsa, ← hobj,
    ← hl.globals]
  exact ⟨rfl, rfl, hses⟩

theorem after_fire_of_none {phase : Phase} (h : w.session.hooks.at phase = []) (args : List Datum) :
    (fire host phase args).after w = w := by
  obtain ⟨n, hn⟩ := Nat.exists_eq_add_one.mpr (Nat.two_pow_pos 32)
  have hl : hookLimit + (w.session.hooks.at phase).length = n + 1 := by
    rw [h]
    exact hn
  rw [fire, after_get_bind]
  show (fireFrom host phase args (hookLimit + _) 0).after w = w
  rw [hl, fireFrom, after_get_bind, h]
  rfl

/-- An environment is opened only if the allowlist is not refused. -/
theorem exists_kept_of_ends (he : (buildEnvironment host).Ends w) :
    ∃ keep, w.session.kept = .ok keep := by
  obtain ⟨_, he⟩ := ends_iff.mp he
  obtain ⟨_, ho, -, -⟩ := exists_of_bind_ok he
  rw [openHome, outcome_get_bind] at ho
  obtain ⟨keep, hk, -, -⟩ := exists_of_bind_ok ho
  exact ⟨keep, (outcome_ofExcept w.session.kept w).symm.trans hk⟩

/-- The world in which the session has been given an environment. -/
def movedIn (home : Nat) (w : World) : World :=
  { w with
    session := { w.session with environment := some home }
    history := w.history.push (.occupy home)
    objects := w.objects.push (.environment home) }

/-- Without hooks, the session has the new environment as it was furnished. -/
theorem after_moveIn_of_none {v : World} (hb : (buildEnvironment host).outcome w = .ok home)
    (ha : (buildEnvironment host).after w = v) (hh : v.session.hooks.registered = []) :
    (moveIn host).after w = movedIn home v := by
  rw [moveIn, after_bind_of_ok hb, ha]
  have hm : (movedIn home v).session.hooks.at .registered = [] := hh
  exact after_fire_of_none hm [.object v.objects.size]

-- Its tables are known by what was proved of them.
attribute [local irreducible] Script.Heap.openEnvironment

section
variable (hc : w.catalog.functions = shelved os) (hn : ∀ o ∈ os, o.Named)
  (hf : ∀ o ∈ os, Foreign w o.function)
  (ho : os.Pairwise fun o o' => ¬ (o.space = o'.space ∧ o.name = o'.name)) (hw : w.Founded)
  (hev : Stateless w.catalog.events.entries)
include hc hn hf ho hw hev

/-- In a new environment the functions of the catalog have been installed. -/
theorem laid_buildEnvironment (hb : (buildEnvironment host).outcome w = .ok home) :
    let built := (buildEnvironment host).after w
    let g := w.scripts.layout.globals
    home = w.homes.size ∧ ∃ keep v, w.session.kept = .ok keep ∧
      Laid (withHome keep w).scripts home g (os.map space) os v ∧
      built.scripts = v.scripts.rawSet g (.ofString "ListenTo") (.foreign w.objects.size) ∧
      built.functionBooks = v.functionBooks ∧ built.session = w.session := by
  intro built g
  obtain ⟨keep, hk⟩ := exists_kept_of_ends (ends_iff.mpr ⟨_, hb⟩)
  obtain ⟨l, -, hbo, hba⟩ :=
    exists_buildEnvironment hk hev (hc ▸ stateless_shelved os) host
  rw [hc, filterMap_shelved hn] at hbo hba
  let w₁ : World := { stocked keep w with log := l }
  obtain ⟨_, hfu, hp, hfa⟩ := exists_of_bind_ok (hbo.symm.trans hb)
  have hg : globalsAt w₁ w.homes.size = g := by
    rw [hw.homes]
    exact congrArg Script.Environment.globals Heap.environment_openEnvironment
  have hs : w₁.scripts.Spaced g := Script.Heap.spaced_openEnvironment
  have hl := laid_furnish (w := w₁) hg hs hf ho (ends_iff.mpr ⟨_, hfu⟩)
  obtain rfl : w.homes.size = home := Except.ok.inj hp
  rw [show built = _ from hba.trans hfa]
  obtain ⟨v, hl, hv⟩ := hl
  exact ⟨rfl, keep, v, hk, hl, hv⟩

/-- What is there when a script is about to run, if no hooks come before it. -/
theorem laid_prepareScript {path : Path} (hh : w.session.hooks.registered = [])
    (he : (prepareScript host path).Ends w) :
    let ready := (prepareScript host path).after w
    let g := w.scripts.layout.globals
    ∃ keep v, w.session.kept = .ok keep ∧
      Laid (withHome keep w).scripts w.homes.size g (os.map space) os v ∧
      ready.session.environment = some w.homes.size ∧
      ready.scripts = v.scripts.rawSet g (.ofString "ListenTo") (.foreign w.objects.size) ∧
      ready.functionBooks = v.functionBooks := by
  intro ready g
  obtain ⟨_, he⟩ := ends_iff.mp he
  obtain ⟨_, hm, -, ha⟩ := exists_of_bind_ok he
  obtain ⟨home, hb, -, -⟩ := exists_of_bind_ok hm
  obtain ⟨rfl, keep, v, hk, hl, hs, hbooks, hses⟩ :=
    laid_buildEnvironment hc hn hf ho hw hev hb
  have ha : ready = movedIn w.homes.size ((buildEnvironment host).after w) :=
    ha.trans ((after_readSource path _).trans (after_moveIn_of_none hb rfl (hses ▸ hh)))
  rw [ha]
  exact ⟨keep, v, hk, hl, rfl, hs, hbooks⟩

end

/-! ### What scripts find -/

/-- What is in the slot of a global table of the environment of a session. -/
def slotAt (w : World) (home : Nat) (s x : String) : Value :=
  w.scripts.slot (globalsAt w home) s x

/-- No default global that is kept has anything where a function is on offer. -/
def Vacant (keep : List String) (w : World) (o : Offer) : Prop :=
  IsNone (slotAt (withHome keep w) w.homes.size o.space o.name)

instance (keep : List String) (w : World) (o : Offer) : Decidable (Vacant keep w o) :=
  inferInstanceAs (Decidable (IsNone _))

/-- When a script is about to run, it finds a function that was offered where no default global was
iff the function was offered first under its identifier, its table is not named as the function to
subscribe with, and, if its table is that of the globals, it is named neither so nor as the table of
a function that was taken up. What is found is found by indexing, and what was installed was offered
first under its identifier. -/
theorem reached_iff {before later : List Offer} {allowlist : List Settings.Value}
    {root : Option Path} {extension : String} {w₀ w : World} {path : Path}
    (h₀ : w₀.catalog.functions = {})
    (hc : w.catalog.functions =
      ((provide before later allowlist root extension).after w₀).catalog.functions)
    (named : ∀ o ∈ before ++ later, o.Named)
    (callable : ∀ o ∈ before ++ bridge w₀.objects.size :: later,
      isCallableObject w o.function)
    (founded : w.Founded) (events : Stateless w.catalog.events.entries)
    (hooks : w.session.hooks.registered = []) (starts : (prepareScript host path).Ends w) :
    let offers := before ++ bridge w₀.objects.size :: later
    let ready := (prepareScript host path).after w
    ∃ keep, w.session.kept = .ok keep ∧ ready.session.environment = some w.homes.size ∧
      (∀ o ∈ offers, Vacant keep w o →
        (slotAt ready w.homes.size o.space o.name = .foreign o.function ↔
          First offers o ∧ o.space ≠ "ListenTo" ∧ (o.space = "_G" → "_G" ∈ keep →
            o.name ≠ "ListenTo" ∧ ∀ o', First offers o' → o'.space ≠ o.name))) ∧
      (∀ s x, slotAt ready w.homes.size s x ≠ .nil → ready.scripts.Finds
        (globalsAt ready w.homes.size) s x (slotAt ready w.homes.size s x)) ∧
      ∀ q ∈ ready.functionBooks.installed, ∃ o, First offers o ∧ o.ident = q ∧ Vacant keep w o := by
  intro offers ready
  rw [after_provide h₀] at hc
  have hmem : ∀ o ∈ taken offers, o ∈ offers := fun o ho =>
    List.mem_of_find?_eq_some (mem_taken_iff.mp ho)
  have hf : ∀ o ∈ offers, Foreign w o.function := fun o ho => foreign_of_callable (callable o ho)
  have hnamed : ∀ o ∈ offers, o.Named := by
    intro o ho
    rcases List.mem_append.mp ho with ho | ho
    · exact named o (List.mem_append_left _ ho)
    · rcases List.mem_cons.mp ho with rfl | ho
      · exact named_bridge _
      · exact named o (List.mem_append_right _ ho)
  obtain ⟨keep, v, hk, hl, henv, hs, hbooks⟩ := laid_prepareScript hc
    (fun o ho => hnamed o (hmem o ho)) (fun o ho => hf o (hmem o ho)) (pairwise_taken offers)
    founded events hooks starts
  have hg : globalsAt (withHome keep w) w.homes.size = w.scripts.layout.globals := by
    rw [founded.homes]
    exact congrArg Script.Environment.globals Heap.environment_openEnvironment
  have hgr : globalsAt ready w.homes.size = w.scripts.layout.globals := by
    rw [globalsAt, hs]
    exact hl.globals
  have hv : ∀ t, Value.foreign w.objects.size ≠ .table t := nofun
  refine ⟨keep, hk, henv, fun o ho hvac => ?_, fun s x hn => ?_, fun q hq => ?_⟩
  · have habsent : o.function ≠ absentPlace := fun he => by
      have hf := he ▸ hf o ho
      rw [Foreign, founded.absent] at hf
      exact hf
    have hnew : o.function ≠ w.objects.size := fun he => by
      have hf := he ▸ hf o ho
      simp [Foreign, World.objectAt] at hf
    rw [Vacant, slotAt, hg] at hvac
    rw [slotAt, hgr, hs, hl.slot_iff hvac habsent hnew, mem_taken_iff,
      show (withHome keep w).scripts.Loops _ o.space ↔ _ from Heap.loops_openEnvironment_iff]
    simp only [List.mem_map, mem_taken_iff, not_exists, not_and, and_imp]
    rfl
  · rw [slotAt, hgr, hs] at hn ⊢
    exact (hl.spaced.setGlobal hv).finds_slot hn
  · rw [hbooks] at hq
    obtain ⟨o, ho, rfl, hfree⟩ := hl.listed q hq
    refine ⟨o, mem_taken_iff.mp ho, rfl, ?_⟩
    rw [Vacant, slotAt, hg]
    exact hfree

end

/-- A world with two functions and a script. -/
def market : World where
  objects := #[.absent, .callable listenFunction, .callable listenFunction]
  files := (default : Files.Node).put (.file (Text.encode "x = 1")) ["a.lua"]

/-- Functions whose names make the same identifier, and one in a table that is to be a function. -/
def dotted : List Offer :=
  [⟨"A.b", "c", 1⟩, ⟨"A", "b.c", 2⟩, ⟨"ListenTo", "x", 2⟩]

/-- A session over these functions. -/
def bazaar : World :=
  (provide dotted [] [] none ".lua").after market

theorem reached_of_dotted :
    (∀ o ∈ dotted ++ bridge 3 :: [], isCallableObject bazaar o.function) ∧ bazaar.Founded ∧
      (prepareScript (respond 1) ⟨"", ["a.lua"]⟩).Ends bazaar ∧
      slotAt ((prepareScript (respond 1) ⟨"", ["a.lua"]⟩).after bazaar) 0 "A.b" "c" =
        .foreign 1 := by
  have hcallable : ∀ o ∈ dotted ++ bridge 3 :: [], isCallableObject bazaar o.function := by
    decide +kernel
  have hfounded : bazaar.Founded := ⟨by decide +kernel, rfl⟩
  have hends : (prepareScript (respond 1) ⟨"", ["a.lua"]⟩).Ends bazaar := by decide +kernel
  have hnamed : ∀ o ∈ dotted ++ [], o.Named := by
    simp [dotted, Named]
  have hcatalog : bazaar.catalog.functions =
      ((provide dotted [] [] none ".lua").after market).catalog.functions := rfl
  obtain ⟨keep, hk, -, h, -⟩ :=
    reached_iff rfl hcatalog hnamed hcallable hfounded (by decide) rfl hends
  have hkeep : keep = [] := by
    cases hk
    rfl
  refine ⟨hcallable, hfounded, hends, (h ⟨"A.b", "c", 1⟩ (by decide) ?_).mpr ?_⟩
  · rw [hkeep]
    decide +kernel
  · exact ⟨by decide, by decide, fun hs => absurd hs (by decide)⟩

/-- Two different pairs of names make one identifier, and the second function is not taken up. A
table of functions that were installed gives way to the function to subscribe with. -/
theorem not_reached_of_dotted :
    let ready := (prepareScript (respond 1) ⟨"", ["a.lua"]⟩).after bazaar
    (prepareScript (respond 1) ⟨"", ["a.lua"]⟩).Ends bazaar ∧
      bazaar.session.kept = .ok [] ∧ (∀ o ∈ dotted, Vacant [] bazaar o) ∧
      slotAt ready 0 "A" "b.c" = .nil ∧
      "ListenTo.x" ∈ ready.functionBooks.installed ∧ slotAt ready 0 "ListenTo" "x" = .nil := by
  refine ⟨?_, ?_, ?_, ?_, ?_, ?_⟩
  all_goals decide +kernel

end Op

end ScriptHost
