import ScriptHost.Proofs.Answers

/-!
# What a load promises

A load is to end in a value whatever goes wrong, and to leave nothing behind unless a script is loaded
then. Whether it ends in a value depends on the steps that nothing guards (`ends_load_iff`); what it
leaves depends on what foreign code loads and listens to while the load is undone
(`contained_load_iff`).
-/
namespace ScriptHost

/-- There is no script, nor anything of one. -/
structure World.Idle (w : World) : Prop where
  loaded : w.session.loaded = false
  environment : w.session.environment = none
  path : w.session.path = none
  active : w.eventBooks.active.entries = []

namespace Op

open World
open Files (Path)

variable {host : Responder}

/-! ### Steps that nothing guards -/

/-- While an environment is built, nothing raises a fault that is not contained. -/
structure CanBuild (host : Responder) (w : World) : Prop where
  opened : (openHome host).Tame w
  /-- No function is offered while the functions on offer are made. -/
  made : ∀ home, (openHome host).outcome w = .ok home →
    (createFunctions host).Tame ((openHome host).after w)
  /-- What is made is bound. -/
  bound : ∀ home functions, (openHome host).outcome w = .ok home →
    (createFunctions host).outcome ((openHome host).after w) = .ok functions →
      (furnish host home functions).Tame ((createFunctions host).after ((openHome host).after w))

/-- While a script is brought up, nothing fails that is not guarded. -/
structure CanBringUp (host : Responder) (path : Path) (w : World) : Prop where
  built : CanBuild host w
  /-- It can be told whether there is a file. -/
  read : (buildEnvironment host).Ends w → (readSource path).Tame ((moveIn host).after w)
  /-- The subscriptions of a script that has failed can be ended. -/
  ended : ∀ f, (runScript host path).outcome w = .error f →
    (unsubscribeAll host).Ends ((record .teardown).after
      ((report host f .error).after ((runScript host path).after w)))
  asked : (runScript host path).Ends w →
    CanAsk host "OnLoad" ((takeUp host path).after ((runScript host path).after w))

/-- The world in which a script is loaded, once the one before is unloaded. -/
def cleared (host : Responder) (w : World) : World :=
  if w.session.loaded then (unload host).after w else w

/-- While a script is loaded in place of another, nothing fails that is not guarded. -/
structure CanLoad (host : Responder) (path : Path) (w : World) : Prop where
  unloaded : w.session.loaded = true → CanUnload host w
  brought : CanBringUp host path (opening path (cleared host w))

theorem tame_buildEnvironment_iff {w : World} :
    (buildEnvironment host).Tame w ↔ CanBuild host w := by
  have last : ∀ home functions w, Tame (do furnish host home functions; return home) w ↔
      (furnish host home functions).Tame w := by
    intro home functions w
    rw [tame_bind_iff]
    exact ⟨And.left, fun h => ⟨h, fun _ _ => trivial⟩⟩
  unfold buildEnvironment
  constructor
  · intro h
    obtain ⟨hopen, h⟩ := tame_bind_iff.1 h
    refine ⟨hopen, fun home ho => (tame_bind_iff.1 (h home ho)).1, fun home functions ho hc => ?_⟩
    exact (last _ _ _).1 ((tame_bind_iff.1 (h home ho)).2 functions hc)
  · intro h
    refine tame_bind_iff.2 ⟨h.opened, fun home ho => tame_bind_iff.2 ⟨h.made home ho, ?_⟩⟩
    exact fun functions hc => (last _ _ _).2 (h.bound home functions ho hc)

theorem tame_moveIn_iff {w : World} :
    (moveIn host).Tame w ↔ (buildEnvironment host).Tame w := by
  unfold moveIn
  rw [tame_bind_iff]
  refine ⟨And.left, fun h => ⟨h, fun home _ => tame_of_ends ?_⟩⟩
  refine ends_bind_iff.2 ⟨(), rfl, ends_bind_iff.2 ⟨(), rfl, ?_⟩⟩
  exact ends_bind_iff.2 ⟨_, rfl, ends_fire _ _ _⟩

/-- What a text does is contained; so a script fails as its environment and its file do. -/
theorem tame_runScript_iff {path : Path} {w : World} :
    (runScript host path).Tame w ↔ CanBuild host w ∧
      ((buildEnvironment host).Ends w → (readSource path).Tame ((moveIn host).after w)) := by
  have he : runScript host path =
      moveIn host >>= fun _ => readSource path >>= runText host path := by
    unfold runScript prepareScript
    rw [bind_assoc]
  have hread : ∀ w, (readSource path >>= runText host path).Tame w ↔ (readSource path).Tame w := by
    intro w
    rw [tame_bind_iff]
    exact ⟨And.left, fun h => ⟨h, fun text _ => tame_runText _ _ _⟩⟩
  rw [he, tame_bind_iff, tame_moveIn_iff, tame_buildEnvironment_iff, ← ends_moveIn_iff]
  refine and_congr_right fun _ => ⟨fun h hm => ?_, fun h u hu => ?_⟩
  · obtain ⟨u, hu⟩ := ends_iff.1 hm
    exact (hread _).1 (h u hu)
  · exact (hread _).2 (h (ends_iff.2 ⟨u, hu⟩))

theorem ends_bringUp_iff {path : Path} {w : World} :
    (bringUp host path).Ends w ↔ CanBringUp host path w := by
  have whole : CanBringUp host path w ↔ (runScript host path).Tame w ∧
      (∀ f, (runScript host path).outcome w = .error f →
        (undo host f).Ends ((runScript host path).after w)) ∧
      ((runScript host path).Ends w →
        (becomeLoaded host path).Ends ((runScript host path).after w)) := by
    rw [tame_runScript_iff]
    simp only [ends_undo_iff, ends_becomeLoaded_iff]
    exact ⟨fun h => ⟨⟨h.1, h.2⟩, h.3, h.4⟩, fun h => ⟨h.1.1, h.1.2, h.2.1, h.2.2⟩⟩
  rw [whole]
  cases hr : (runScript host path).outcome w with
  | ok u =>
    have hends : (runScript host path).Ends w := ends_iff.2 ⟨u, hr⟩
    rw [Ends, (bringUp_of_ok hr).1]
    refine ends_bind_pure_iff.trans ⟨fun h => ⟨tame_of_ends hends, fun f he => ?_, fun _ => h⟩,
      fun h => h.2.2 hends⟩
    cases he
  | error f =>
    have hn : ¬ (runScript host path).Ends w := not_ends_of_error hr
    rcases bringUp_of_error hr with ⟨hf, ho, _⟩ | ⟨hf, ho, _⟩
    · have ht : (runScript host path).Tame w := by
        rw [Tame, hr]
        exact hf
      rw [Ends, ho]
      refine ends_bind_pure_iff.trans
        ⟨fun h => ⟨ht, ?_, fun he => absurd he hn⟩, fun h => h.2.1 f rfl⟩
      rintro g ⟨⟩
      exact h
    · have ht : ¬ (runScript host path).Tame w := by
        rw [Tame, hr]
        exact fun h => Bool.false_ne_true (hf.symm.trans h)
      exact iff_of_false (not_ends_of_error ho) fun h => ht h.1

theorem ends_unload_iff {w : World} (hl : w.session.loaded = true) :
    (unload host).Ends w ↔ CanUnload host w := by
  obtain ⟨text, ho, _⟩ := unload_of_loaded host hl
  rw [← ends_letGo_iff, Ends, ho]
  constructor
  · intro h
    obtain ⟨_, h, _⟩ := ends_bind_iff.1 h
    exact ends_iff.2 ⟨_, h⟩
  · intro h
    obtain ⟨_, h⟩ := ends_iff.1 h
    exact ends_bind_iff.2 ⟨_, h, rfl⟩

theorem ends_loadPath_iff {path : Path} {w : World} :
    (loadPath host path).Ends w ↔ CanBringUp host path (opening path w) := by
  rw [← ends_bringUp_iff, Ends, Ends, outcome_loadPath]

/-- A load ends in a value iff none of its steps fails that nothing guards. -/
theorem ends_load_iff (host : Responder) (s : String) (w : World) :
    (load host (.text s)).Ends w ↔ CanLoad host (Path.ofString s) w := by
  cases hl : w.session.loaded with
  | false =>
    have hc : cleared host w = w := by simp [cleared, hl]
    rw [Ends, (load_of_not_loaded host s hl).1]
    refine ends_loadPath_iff.trans ⟨fun h => ⟨fun h' => ?_, hc.symm ▸ h⟩, fun h => hc ▸ h.brought⟩
    rw [hl] at h'
    cases h'
  | true =>
    have hc : cleared host w = (unload host).after w := by simp [cleared, hl]
    rw [Ends, (load_of_loaded host s hl).1]
    refine ends_bind_iff.trans ⟨?_, fun h => ?_⟩
    · rintro ⟨_, hu, h⟩
      exact ⟨fun _ => (ends_unload_iff hl).1 (ends_iff.2 ⟨_, hu⟩),
        hc.symm ▸ ends_loadPath_iff.1 h⟩
    · obtain ⟨_, hu⟩ := ends_iff.1 ((ends_unload_iff hl).2 (h.unloaded hl))
      exact ⟨_, hu, ends_loadPath_iff.2 (hc ▸ h.brought)⟩

/-! ### What a load that fails leaves -/

/-- Where a load ends without its script, it has been undone. -/
theorem exists_undo_of_loadPath (hh : host.Follows) {path : Path} {w : World}
    (hl : w.session.loaded = false) (ho : (loadPath host path).outcome w = .ok false) :
    ∃ f own w₁, (∃ ds, Leads w own ds w₁) ∧ (undo host f).Ends w₁ ∧
      (loadPath host path).after w = (undo host f).after w₁ := by
  rw [outcome_loadPath] at ho
  have ha := after_loadPath_of_ok ho
  obtain ⟨own, ⟨ds, hrun⟩, _⟩ := exists_does_runScript hh path (opening path w)
  have hleads := (leads_opening path hl).trans hrun
  cases hr : (runScript host path).outcome (opening path w) with
  | ok u =>
    rw [(bringUp_of_ok hr).1] at ho
    obtain ⟨_, _, ho, _⟩ := exists_of_bind_ok ho
    cases ho
  | error f =>
    rcases bringUp_of_error hr with ⟨_, ho', ha'⟩ | ⟨_, ho', _⟩
    · rw [ho'] at ho
      obtain ⟨_, hu, _, ha''⟩ := exists_of_bind_ok ho
      exact ⟨f, _, _, ⟨_, hleads⟩, ends_iff.2 ⟨_, hu⟩, ha.trans (ha'.trans ha'')⟩
    · rw [ho'] at ho
      cases ho

/-- Before it was undone, the script that was loaded was given up. -/
theorem exists_undo_of_load (hh : host.Follows) {s : String} {w : World}
    (ho : (load host (.text s)).outcome w = .ok false) :
    ∃ f own w₁, (∃ ds, Leads w own ds w₁ ∧ (w.session.loaded = true → .vacate ∈ ds)) ∧
      (undo host f).Ends w₁ ∧ (load host (.text s)).after w = (undo host f).after w₁ := by
  cases hl : w.session.loaded with
  | false =>
    obtain ⟨ho', ha'⟩ := load_of_not_loaded host s hl
    obtain ⟨f, own, w₁, ⟨ds, h⟩, hu, ha⟩ := exists_undo_of_loadPath hh hl (ho'.symm.trans ho)
    exact ⟨f, own, w₁, ⟨ds, h, nofun⟩, hu, ha'.trans ha⟩
  | true =>
    obtain ⟨ho', ha'⟩ := load_of_loaded host s hl
    obtain ⟨_, hu, ho'', ha''⟩ := exists_of_bind_ok (ho'.symm.trans ho)
    obtain ⟨es, hun⟩ := follows_unload hh w
    have hn := loaded_after_unload (ends_iff.2 ⟨_, hu⟩)
    have hv : .vacate ∈ es := by
      by_contra hv
      have hr : (w.session.holding.replay es).loaded = true :=
        Holding.loaded_replay_iff.2 (.inr ⟨hl, hv⟩)
      rw [← hun.holding] at hr
      exact Bool.false_ne_true (hn.symm.trans hr)
    obtain ⟨f, own, w₁, ⟨ds, h⟩, hu', ha⟩ := exists_undo_of_loadPath hh hn ho''
    refine ⟨f, _, w₁, ⟨es ++ ds, hun.trans h, fun _ => ?_⟩, hu', ha'.trans (ha''.trans ha)⟩
    exact List.mem_append_left _ hv

theorem holding_after_undo {f : Fault} {w : World} (he : (undo host f).Ends w) :
    ((undo host f).after w).session.environment = none ∧
      ((undo host f).after w).session.path = none := by
  obtain ⟨_, he⟩ := ends_iff.1 he
  obtain ⟨_, _, he, ha⟩ := exists_of_bind_ok he
  obtain ⟨_, _, _, ha'⟩ := exists_of_bind_ok he
  rw [undo, ha, rollBack, ha']
  exact ⟨rfl, rfl⟩

theorem forget_mem_rollBack (hh : host.Follows) {w : World} (he : (rollBack host).Ends w) :
    .forget ∈ (rollBack host).deeds w := by
  have hend := (ends_endSubscriptions_iff w).2 ((ends_rollBack_iff w).1 he)
  obtain ⟨_, hd⟩ := ends_iff.1 hend
  have hdeeds : (rollBack host).deeds w =
      (endSubscriptions host).deeds w ++ giveUp.deeds ((endSubscriptions host).after w) :=
    deeds_bind hd (does_endSubscriptions hh w) (does_giveUp _)
  rw [hdeeds]
  exact List.mem_append_left _ (forget_mem_deeds hh hend)

theorem forget_mem_undo (hh : host.Follows) {f : Fault} {w : World} (he : (undo host f).Ends w) :
    .forget ∈ (undo host f).deeds w := by
  obtain ⟨_, hr⟩ := ends_iff.1 (ends_report host f .error w)
  let w₁ := (report host f .error).after w
  have hroll : (rollBack host).Ends w₁ := (ends_rollBack_iff w₁).2 ((ends_undo_iff f w).1 he)
  have hdeeds : (undo host f).deeds w =
      (report host f .error).deeds w ++ (rollBack host).deeds w₁ :=
    deeds_bind hr ((follows_report hh f .error).does w) ((does_rollBack hh w₁).1 hroll)
  rw [hdeeds]
  exact List.mem_append_right _ (forget_mem_rollBack hh hroll)

/-- No load that has succeeded stands, and nothing that scripts have begun to listen to. -/
structure LeavesNothing (ds : List Deed) : Prop where
  unloaded : ¬ Stands (· == .vacate) .succeed ds
  forgotten : ∀ name, ¬ Stands (· == .forget) (.listen name) ds

theorem idle_after_load_iff (hh : host.Follows) {s : String} {w : World}
    (ho : (load host (.text s)).outcome w = .ok false) :
    ((load host (.text s)).after w).Idle ↔ LeavesNothing ((load host (.text s)).deeds w) := by
  obtain ⟨f, own, w₁, ⟨ds, hl, hv⟩, hu, ha⟩ := exists_undo_of_load hh ho
  have hundo := ((does_undo hh f w₁).1 hu).leads
  obtain ⟨henv, hpath⟩ := holding_after_undo hu
  have hforget := forget_mem_undo hh hu
  have hall := hl.trans hundo
  rw [← ha] at hall henv hpath
  have hds : (load host (.text s)).deeds w = ds ++ (undo host f).deeds w₁ := hall.deeds_eq.symm
  have hloaded : ((load host (.text s)).after w).session.loaded = true ↔
      Stands (· == .vacate) .succeed (ds ++ (undo host f).deeds w₁) := by
    have hr := congrArg Holding.loaded hall.holding
    change Session.loaded _ = _ at hr
    rw [hr, Holding.loaded_replay_iff]
    exact or_iff_left fun ⟨h, hn⟩ => hn (List.mem_append_left _ (hv h))
  have hactive : ∀ name, name ∈ ((load host (.text s)).after w).eventBooks.active.names ↔
      Stands (· == .forget) (.listen name) (ds ++ (undo host f).deeds w₁) := by
    intro name
    rw [hall.active, mem_listening_iff]
    exact or_iff_left fun ⟨_, hn⟩ => hn (List.mem_append_right _ hforget)
  have hnone : ((load host (.text s)).after w).eventBooks.active.entries = [] ↔
      ∀ name, name ∉ ((load host (.text s)).after w).eventBooks.active.names := by
    rw [← List.eq_nil_iff_forall_not_mem, Roster.names, List.map_eq_nil_iff]
  rw [hds]
  constructor
  · intro h
    refine ⟨fun hs => ?_, fun name hs => hnone.1 h.active name ((hactive name).2 hs)⟩
    exact Bool.false_ne_true (h.loaded.symm.trans (hloaded.2 hs))
  · intro h
    refine ⟨Bool.eq_false_iff.2 fun hs => h.unloaded (hloaded.1 hs), henv, hpath, ?_⟩
    exact hnone.2 fun name hm => h.forgotten name ((hactive name).1 hm)

/-- An operation ends in a value, and unless that is true there is no script afterwards. -/
def Contained (m : Op Bool) (w : World) : Prop :=
  ∃ b, m.outcome w = .ok b ∧ (b = false → (m.after w).Idle)

/-- A load keeps what is promised of it iff none of its steps fails that nothing guards and, where it
is undone, nothing stays that was loaded or listened to meanwhile. -/
theorem contained_load_iff (n : Nat) (s : String) (w : World) :
    Contained (load (respond n) (.text s)) w ↔
      CanLoad (respond n) (Path.ofString s) w ∧
        ((load (respond n) (.text s)).outcome w = .ok false →
          LeavesNothing ((load (respond n) (.text s)).deeds w)) := by
  have hidle := @idle_after_load_iff (respond n) (follows_respond n) s w
  rw [← ends_load_iff, ends_iff]
  constructor
  · rintro ⟨b, ho, hb⟩
    refine ⟨⟨b, ho⟩, fun hf => (hidle hf).1 (hb ?_)⟩
    rw [ho] at hf
    exact Except.ok.inj hf
  · rintro ⟨⟨b, ho⟩, hn⟩
    refine ⟨b, ho, ?_⟩
    rintro rfl
    exact (hidle ho).2 (hn ho)

/-- A function is on offer that cannot be bound. -/
def unbindable : World where
  catalog := { functions := ⟨[("A.x",
    pure ⟨"A", "x", throw (.raised "RuntimeError" "bind failed")⟩)]⟩ }

/-- Functions are bound without a guard, so with one that cannot be bound no script is loaded, and
the fault is not reported. -/
theorem not_contained_load_of_unbindable :
    ¬ Contained (load (respond 5) (.text "a.lua")) unbindable := by
  have h : ¬ (load (respond 5) (.text "a.lua")).Ends unbindable := by decide +kernel
  rintro ⟨b, ho, _⟩
  exact h (ends_iff.2 ⟨b, ho⟩)

end Op

end ScriptHost
