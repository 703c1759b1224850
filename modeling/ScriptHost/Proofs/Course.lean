import ScriptHost.Proofs.Containment

/-!
# The course of a call

What `unload` and `load` do themselves, from the first deed to the last, where nothing fails that is
not guarded. For a load it takes that nobody else loads or unloads anything meanwhile
(`exists_course`).
-/
namespace ScriptHost.Op

open World
open Files (Path)

variable {host : Responder}

/-- What unloading a script does, from the first deed to the last. -/
def farewell (hooks : List Nat) (home : Option Nat) : List Deed :=
  .unload :: (hooks.map (.hook .unloaded) ++ [.tell home "OnUnload", .teardown, .vacate])

theorem does_unload (hh : host.Follows) {w : World} (hl : w.session.loaded = true)
    (hc : CanUnload host w) :
    ∃ hooks home, (unload host).Does w (farewell hooks home) ∧
      w.session.hooks.at .unloaded <+: hooks ∧
      hooks <+: ((unload host).after w).session.hooks.at .unloaded := by
  have hends := (ends_letGo_iff w).2 hc
  obtain ⟨_, hg⟩ := ends_iff.1 hends
  obtain ⟨hooks, hall, honly, hown, _⟩ := begins_letGo hh w hl
  obtain ⟨text, _, ha⟩ := unload_of_loaded host hl
  have hdoes : (letGo host).Does w (farewell hooks _) := (hown hends).leads
  have hlast : (info "luahost.session" text).Follows := follows_log _ _ _ _
  have hwhole := hdoes.bind_of_ok (k := fun _ => info "luahost.session" text) hg (hlast.does _)
  rw [List.append_nil] at hwhole
  refine ⟨hooks, (leaving host w).session.environment, ?_, hall, ?_⟩
  · rw [Does, ha]
    exact hwhole
  · rw [ha, after_bind_of_ok hg]
    exact honly

/-- A script is told that it is unloaded by a global of its own environment. -/
theorem eq_of_admitsAll_farewell {s : Holding} {hooks : List Nat} {home : Option Nat}
    (h : s.AdmitsAll (farewell hooks home)) : s.environment = home := by
  have hhooks : s.replay (hooks.map (.hook .unloaded)) = s := s.replay_of_isSteady isSteady_hook
  have hrest := (Holding.admitsAll_append.1 h.2).2
  change (s.replay (hooks.map (.hook .unloaded))).AdmitsAll _ at hrest
  rw [hhooks] at hrest
  exact hrest.1

/-- What a load does once its text has been run, or has failed to run. -/
def ending (path : Path) (hooks : List Nat) (home : Option Nat) : Bool → List Deed
  | true => .adopt path :: (hooks.map (.hook .loaded) ++ [.tell home "OnLoad", .succeed])
  | false => [.teardown, .fail]

/-- What a load does before its text is run. -/
def beginning (functions : List String) (home : Nat) (hooks : List Nat) : List Deed :=
  functions.map .make ++ .occupy home :: hooks.map (.hook .registered)

theorem replay_beginning (s : Holding) (functions : List String) (home : Nat) (hooks : List Nat) :
    s.replay (beginning functions home hooks) = { s with environment := some home } := by
  rw [beginning, Holding.replay_append, s.replay_of_isSteady isSteady_make, Holding.replay_cons]
  exact Holding.replay_of_isSteady _ isSteady_hook

/-- A text runs in the environment that was built for it, unless there is another by then. -/
theorem eq_of_admitsAll_body {s : Holding} {functions : List String} {home ran : Nat}
    {hooks : List Nat} {path : Path} {rest : List Deed}
    (h : s.AdmitsAll (beginning functions home hooks ++ .body ran path :: rest)) : ran = home := by
  rw [Holding.admitsAll_append, replay_beginning] at h
  exact (Option.some.inj h.2.1).symm

/-- It is told that it is loaded by a global of this environment. -/
theorem eq_of_admitsAll_tell {s : Holding} {functions : List String} {home ran : Nat}
    {registered told : List Nat} {path : Path} {asked : Option Nat}
    (h : s.AdmitsAll (beginning functions home registered ++
      ([.body ran path] ++ ending path told asked true))) : asked = some home := by
  have htold : ∀ s : Holding, s.replay (told.map (.hook .loaded)) = s := fun s =>
    s.replay_of_isSteady isSteady_hook
  rw [Holding.admitsAll_append, replay_beginning] at h
  have hend := (Holding.admitsAll_append.1 h.2).2.2
  rw [Holding.admitsAll_append, htold] at hend
  exact hend.2.1.symm

/-- How a script is brought up: the functions that are made, the environment it gets, the hooks that
are run before and after it, the environment its text runs in, if it does, and whether it is loaded
in the end. -/
structure Course (host : Responder) (path : Path) (w : World) (functions : List String) (home : Nat)
    (registered told : List Nat) (ran : Option Nat) (loaded : Bool) : Prop where
  does : (bringUp host path).Does w (beginning functions home registered ++
    (ran.toList.map (.body · path) ++ ending path told ran loaded))
  outcome : (bringUp host path).outcome w = .ok loaded
  loaded_iff : loaded = true ↔ (runScript host path).Ends w
  ran_iff : ran.isSome ↔ (sourceAt ((moveIn host).after w) path).isOk
  made_all : w.catalog.functions.names <+: functions
  made_only : functions <+: ((bringUp host path).after w).catalog.functions.names
  registered_all : w.session.hooks.at .registered <+: registered
  registered_only : registered <+: ((bringUp host path).after w).session.hooks.at .registered
  told_all : loaded = true → w.session.hooks.at .loaded <+: told
  told_only : loaded = true → told <+: ((bringUp host path).after w).session.hooks.at .loaded

/-- From the entrance on, nothing is lost. -/
theorem Entrance.course {path : Path} {w : World} {functions : List String} {home : Nat}
    {registered told : List Nat} {ran : Option Nat} {loaded : Bool}
    (h : Entrance host w home functions registered)
    (hdoes : (bringUp host path).Does w (beginning functions home registered ++
      (ran.toList.map (.body · path) ++ ending path told ran loaded)))
    (ho : (bringUp host path).outcome w = .ok loaded)
    (hgrown : Grown ((moveIn host).after w) ((bringUp host path).after w))
    (hloaded : loaded = true ↔ (runScript host path).Ends w)
    (hran : ran.isSome ↔ (sourceAt ((moveIn host).after w) path).isOk)
    (htold : loaded = true → w.session.hooks.at .loaded <+: told ∧
      told <+: ((bringUp host path).after w).session.hooks.at .loaded) :
    Course host path w functions home registered told ran loaded where
  does := hdoes
  outcome := ho
  loaded_iff := hloaded
  ran_iff := hran
  made_all := h.made_all
  made_only := h.made_only.trans hgrown.names
  registered_all := h.hooked_all
  registered_only := h.hooked_only.trans (hgrown.hooks _)
  told_all hl := (htold hl).1
  told_only hl := (htold hl).2

section

variable {path : Path} {w : World} {functions : List String} {home : Nat} {registered : List Nat}

/-- A text that runs, where nobody else loads or unloads anything, runs in the environment that was
built, and its script is loaded or undone. -/
theorem Entrance.exists_course_of_ran (hh : host.Follows)
    (h : Entrance host w home functions registered) (hends : (bringUp host path).Ends w)
    (alone : ∀ own, Woven.Alone own ((bringUp host path).deeds w)) {ran : Nat}
    (hs : (sourceAt ((moveIn host).after w) path).isOk) {es : List Deed}
    (hrun : Leads ((moveIn host).after w) [.body ran path] es ((runScript host path).after w)) :
    ∃ told loaded, Course host path w functions ran registered told (some ran) loaded := by
  obtain ⟨ds, hmove⟩ := h.does
  have hscript := hmove.trans hrun
  cases hr : (runScript host path).outcome w with
  | ok u =>
    obtain ⟨told, asked, htold, htold', hloaded, -⟩ := leads_bringUp_of_ok hh hr
    obtain ⟨ho, fs, hend⟩ := hloaded hends
    rw [List.cons_append, List.append_assoc] at hend
    have hdoes : (bringUp host path).Does w _ := ⟨_, hscript.trans hend⟩
    rw [List.append_assoc] at hdoes
    have hadmits := hdoes.leads.woven.admitsAll (alone _) hdoes.leads.admits
    obtain rfl := eq_of_admitsAll_tell hadmits
    obtain rfl := eq_of_admitsAll_body hadmits
    exact ⟨told, true, h.course hdoes ho (hrun.grown.trans hend.grown)
      (iff_of_true rfl (ends_iff.2 ⟨_, hr⟩)) (iff_of_true rfl hs)
      fun _ => ⟨(hscript.grown.hooks _).trans htold, htold'⟩⟩
  | error f =>
    obtain ⟨ho, fs, hundo⟩ := (leads_bringUp_of_error hh hr).1 hends
    have hdoes : (bringUp host path).Does w _ := ⟨_, hscript.trans hundo⟩
    rw [List.append_assoc] at hdoes
    have hadmits := hdoes.leads.woven.admitsAll (alone _) hdoes.leads.admits
    obtain rfl := eq_of_admitsAll_body hadmits
    exact ⟨[], false, h.course hdoes ho (hrun.grown.trans hundo.grown)
      (iff_of_false Bool.false_ne_true (not_ends_of_error hr)) (iff_of_true rfl hs) nofun⟩

/-- A text that does not run, where nobody else loads or unloads anything, is one that cannot be
read. -/
theorem Entrance.course_of_not_ran (hh : host.Follows)
    (h : Entrance host w home functions registered) (hends : (bringUp host path).Ends w)
    (alone : ∀ own, Woven.Alone own ((bringUp host path).deeds w))
    (hnot : (sourceAt ((moveIn host).after w) path).isOk = false ∨
      ((moveIn host).after w).session.environment = none)
    (hn : ¬ (runScript host path).Ends w)
    (ha : (runScript host path).after w = (moveIn host).after w) :
    Course host path w functions home registered [] none false := by
  obtain ⟨ds, hmove⟩ := h.does
  cases hr : (runScript host path).outcome w with
  | ok u => exact absurd (ends_iff.2 ⟨u, hr⟩) hn
  | error f =>
    obtain ⟨ho, es, hundo⟩ := (leads_bringUp_of_error hh hr).1 hends
    rw [ha] at hundo
    have hunread : (sourceAt ((moveIn host).after w) path).isOk = false := by
      refine hnot.resolve_right fun hnone => ?_
      -- Where nobody else does anything, the environment is the one that was built.
      have hd : (bringUp host path).deeds w = ds ++ es := (hmove.trans hundo).deeds_eq.symm
      have hmoved := (hmove.woven.alone_of_append hundo.woven (hd ▸ alone _)).1
      have hholds := hmove.holding.trans (hmove.woven.replay_eq hmoved _)
      have henv := congrArg Holding.environment (hholds.trans (replay_beginning _ _ _ _))
      cases hnone.symm.trans henv
    refine h.course ⟨_, hmove.trans hundo⟩ ho hundo.grown (iff_of_false Bool.false_ne_true hn) ?_ nofun
    rw [hunread]
    rfl

end

/-- Where nobody else loads or unloads anything, functions are made, hooks are run, and the text runs
if it can be read. -/
theorem exists_course (hh : host.Follows) {path : Path} {w : World}
    (hb : (buildEnvironment host).Ends w) (hc : CanBringUp host path w)
    (alone : Woven.Alone [] ((bringUp host path).deeds w)) :
    ∃ functions home registered told ran loaded,
      Course host path w functions home registered told ran loaded := by
  obtain ⟨home, hb⟩ := ends_iff.1 hb
  obtain ⟨functions, registered, h⟩ := exists_entrance hh hb
  have hends : (bringUp host path).Ends w := ends_bringUp_iff.2 hc
  have alone_own : ∀ own, Woven.Alone own ((bringUp host path).deeds w) := fun own =>
    Nat.le_trans alone (Nat.zero_le _)
  rcases runScript_cases hh hb path with ⟨ran, hs, es, hrun⟩ | ⟨hnot, hn, ha⟩
  · obtain ⟨told, loaded, hc⟩ := h.exists_course_of_ran hh hends alone_own hs hrun
    exact ⟨functions, ran, registered, told, some ran, loaded, hc⟩
  · exact ⟨functions, home, registered, [], none, false,
      h.course_of_not_ran hh hends alone_own hnot hn ha⟩

theorem loaded_replay_course (s : Holding) (functions : List String) (home : Nat)
    (registered told : List Nat) (path : Path) (ran : Option Nat) (loaded : Bool) :
    (s.replay (beginning functions home registered ++
      (ran.toList.map (.body · path) ++ ending path told ran loaded))).loaded =
        (s.loaded || loaded) := by
  have hran : ∀ s : Holding, s.replay (ran.toList.map (.body · path)) = s := by
    cases ran <;> exact fun _ => rfl
  rw [Holding.replay_append, replay_beginning, Holding.replay_append, hran]
  cases loaded with
  | true => simp [ending, Holding.step]
  | false => simp [ending, Holding.step]

/-! ### Loads -/

theorem deeds_loadPath (hh : host.Follows) {path : Path} {w : World}
    (hl : w.session.loaded = false) (hc : CanBringUp host path (opening path w)) :
    (loadPath host path).after w = (bringUp host path).after (opening path w) ∧
      (loadPath host path).deeds w = .load path :: (bringUp host path).deeds (opening path w) ∧
      ∃ own, (bringUp host path).Does (opening path w) own := by
  obtain ⟨b, ho⟩ := ends_iff.1 (ends_bringUp_iff.2 hc)
  have ha := after_loadPath_of_ok ho
  obtain ⟨own, ⟨ds, hrun⟩, -⟩ := exists_does_runScript hh path (opening path w)
  obtain ⟨own', es, hrest⟩ := exists_leads_bringUp hh path (opening path w)
  have hown : (bringUp host path).Does (opening path w) (own ++ own') := ⟨_, hrun.trans hrest⟩
  have hl := (leads_opening path hl).trans hown.leads
  rw [← ha] at hl
  exact ⟨ha, hl.deeds_eq.symm, own ++ own', hown⟩

/-- A load in place of nothing takes the course of bringing up its script. -/
theorem exists_course_of_loadPath (hh : host.Follows) {path : Path} {w : World}
    (hl : w.session.loaded = false) (hb : (buildEnvironment host).Ends (opening path w))
    (hc : CanBringUp host path (opening path w))
    (alone : Woven.Alone [.load path] ((loadPath host path).deeds w)) :
    ∃ functions home registered told ran loaded,
      Course host path (opening path w) functions home registered told ran loaded ∧
        (loadPath host path).Does w (.load path :: (beginning functions home registered ++
          (ran.toList.map (.body · path) ++ ending path told ran loaded))) := by
  obtain ⟨ha, hd, _⟩ := deeds_loadPath hh hl hc
  rw [hd] at alone
  have alone' : Woven.Alone [] ((bringUp host path).deeds (opening path w)) :=
    Nat.le_of_succ_le_succ alone
  obtain ⟨functions, home, registered, told, ran, loaded, h⟩ := exists_course hh hb hc alone'
  refine ⟨functions, home, registered, told, ran, loaded, h, ?_⟩
  rw [Does, ha]
  exact ⟨_, (leads_opening path hl).trans h.does.leads⟩

end ScriptHost.Op
