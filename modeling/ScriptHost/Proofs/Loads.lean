import ScriptHost.Proofs.Steps

/-!
# Loads and unloadings as a whole

What a call of `unload` or `load` does itself, step after step, and when it ends in a value. Seen from
around it, each is one block, whatever the foreign code does that it runs.
-/
namespace ScriptHost.Op

open World
open Files (Path)

variable {α : Type} {host : Responder}

/-- A change of the session and the deed it goes with, and what comes after. -/
theorem Does.enact (w : World) {f : Session → Session} {d : Deed} {m : Op α} {own : List Deed}
    (hd : d.isQuiet = false) (hooks : (f w.session).hooks = w.session.hooks)
    (holding : (f w.session).holding = w.session.holding.step d)
    (admits : w.session.holding.Admits d)
    (hm : m.Does { w with session := f w.session, history := w.history.push d } own)
    (housed : ∀ home, d = .occupy home → home < w.homes.size := by intro _ h; cases h) :
    (do modifySession f; record d; m).Does w (d :: own) := by
  obtain ⟨ds, hm⟩ := hm
  exact ⟨d :: ds, (leads_enter w (f w.session) d hd hooks holding admits housed).trans hm⟩

theorem does_enact (w : World) {f : Session → Session} {d : Deed} (hd : d.isQuiet = false)
    (hooks : (f w.session).hooks = w.session.hooks)
    (holding : (f w.session).holding = w.session.holding.step d)
    (admits : w.session.holding.Admits d)
    (housed : ∀ home, d = .occupy home → home < w.homes.size := by intro _ h; cases h) :
    (do modifySession f; record d).Does w [d] :=
  ⟨[d], leads_enter w (f w.session) d hd hooks holding admits housed⟩

theorem isSteady_make {idents : List String} : ∀ d ∈ idents.map Deed.make, d.isSteady := by
  intro d hd
  obtain ⟨ident, _, rfl⟩ := List.mem_map.1 hd
  rfl

theorem isSteady_hook {phase : Phase} {hooks : List Nat} :
    ∀ d ∈ hooks.map (Deed.hook phase), d.isSteady := by
  intro d hd
  obtain ⟨hook, _, rfl⟩ := List.mem_map.1 hd
  rfl

theorem isPlain_hook {phase : Phase} {hooks : List Nat} :
    ∀ d ∈ hooks.map (Deed.hook phase), d.isPlain :=
  fun d hd => Deed.isPlain_of_isSteady (isSteady_hook d hd)

/-- Hooks that are run before a script is told something. -/
theorem isPlain_told {phase : Phase} {hooks : List Nat} {asked : Option Nat} {name : String} :
    ∀ d ∈ hooks.map (Deed.hook phase) ++ [.tell asked name], d.isPlain :=
  List.forall_mem_append.2 ⟨isPlain_hook, List.forall_mem_singleton.2 rfl⟩

theorem isSteady_told {phase : Phase} {hooks : List Nat} {asked : Option Nat} :
    ∀ d ∈ hooks.map (Deed.hook phase) ++ [.tell asked "OnLoad"], d.isSteady :=
  List.forall_mem_append.2 ⟨isSteady_hook, List.forall_mem_singleton.2 rfl⟩

/-! ### Unloading -/

theorem ends_takeLeave (host : Responder) (w : World) : (takeLeave host).Ends w :=
  ends_bind_iff.2 ⟨(), rfl, ends_fire _ _ _⟩

theorem begins_takeLeave (hh : host.Follows) (w : World) (hl : w.session.loaded = true) :
    ∃ hooks, (takeLeave host).Begins w .unload (hooks.map (.hook .unloaded)) ∧
      w.session.hooks.at .unloaded <+: hooks ∧
      hooks <+: ((takeLeave host).after w).session.hooks.at .unloaded := by
  obtain ⟨hooks, hdoes, hall, honly⟩ := does_fire hh .unloaded [] ((record .unload).after w)
  have first : (record .unload).Begins w .unload [] := begins_record w rfl rfl hl
  exact ⟨hooks, first.bind_of_ok rfl hdoes, hall, honly⟩

/-- The world in which a script that is unloaded is told so. -/
def leaving (host : Responder) (w : World) : World :=
  (takeLeave host).after w

/-- The world in which the subscriptions of a script that is unloaded end. -/
def parting (host : Responder) (w : World) : World :=
  (record .teardown).after ((tell host "OnUnload").after (leaving host w))

/-- Nothing that is not guarded fails while the script is unloaded. -/
structure CanUnload (host : Responder) (w : World) : Prop where
  asked : CanAsk host "OnUnload" (leaving host w)
  ended : (unsubscribeAll host).Ends (parting host w)

theorem does_vacate (w : World) : vacate.Does w [.vacate] :=
  does_enact w rfl rfl rfl trivial

theorem ends_letGo_iff (w : World) : (letGo host).Ends w ↔ CanUnload host w := by
  obtain ⟨_, hleave⟩ := ends_iff.1 (ends_takeLeave host w)
  constructor
  · intro h
    obtain ⟨_, _, h⟩ := ends_bind_iff.1 h
    obtain ⟨_, htell, h⟩ := ends_bind_iff.1 h
    obtain ⟨_, hend, _⟩ := ends_bind_iff.1 h
    exact ⟨(ends_tell_iff _ _).1 (ends_iff.2 ⟨_, htell⟩),
      (ends_endSubscriptions_iff _).1 (ends_iff.2 ⟨_, hend⟩)⟩
  · intro h
    obtain ⟨_, htell⟩ := ends_iff.1 ((ends_tell_iff _ _).2 h.asked)
    obtain ⟨_, hend⟩ := ends_iff.1 ((ends_endSubscriptions_iff _).2 h.ended)
    exact ends_bind_iff.2 ⟨_, hleave, ends_bind_iff.2 ⟨_, htell, ends_bind_iff.2 ⟨_, hend, rfl⟩⟩⟩

/-- After the hooks, the script is told and its subscriptions end before it is given up. -/
theorem does_tell_then (hh : host.Follows) (w : World) :
    let m : Op Unit := do tell host "OnUnload"; endSubscriptions host; vacate
    (m.Ends w → m.Does w [.tell w.session.environment "OnUnload", .teardown, .vacate]) ∧
      (¬ m.Ends w → ∃ mid, (∀ d ∈ mid, d.isPlain) ∧ m.Does w mid) := by
  intro m
  have htell := does_tell hh "OnUnload" w
  cases ht : (tell host "OnUnload").outcome w with
  | error f =>
    refine ⟨fun h => absurd h (not_ends_bind_of_error ht), fun _ => ⟨_, ?_, htell.bind_of_error ht⟩⟩
    simp [Deed.isPlain]
  | ok _ =>
    let w₁ := (tell host "OnUnload").after w
    have hend := does_endSubscriptions hh w₁
    cases he : (endSubscriptions host).outcome w₁ with
    | error f =>
      refine ⟨fun h => ?_, fun _ => ⟨_, ?_, htell.bind_of_ok ht (hend.bind_of_error he)⟩⟩
      · exact absurd ((ends_bind_iff_of_ok ht).1 h) (not_ends_bind_of_error he)
      · simp [Deed.isPlain]
    | ok _ =>
      have hm : m.Does w _ := htell.bind_of_ok ht (hend.bind_of_ok he (does_vacate _))
      refine ⟨fun _ => hm, fun hn => absurd ?_ hn⟩
      exact (ends_bind_iff_of_ok ht).2 ((ends_bind_iff_of_ok he).2 rfl)

/-- Unloading runs the hooks, tells the script and ends its subscriptions, and then gives it up. Where
it breaks off, it has done a part of that. -/
theorem begins_letGo (hh : host.Follows) (w : World) (hl : w.session.loaded = true) :
    ∃ hooks, w.session.hooks.at .unloaded <+: hooks ∧
      hooks <+: ((letGo host).after w).session.hooks.at .unloaded ∧
      ((letGo host).Ends w → (letGo host).Begins w .unload (hooks.map (.hook .unloaded) ++
        [.tell (leaving host w).session.environment "OnUnload", .teardown, .vacate])) ∧
      (¬ (letGo host).Ends w →
        ∃ mid, (∀ d ∈ mid, d.isPlain) ∧ (letGo host).Begins w .unload mid) := by
  obtain ⟨hooks, hleave, hall, honly⟩ := begins_takeLeave hh w hl
  obtain ⟨_, ho⟩ := ends_iff.1 (ends_takeLeave host w)
  obtain ⟨hends, hbroken⟩ := does_tell_then hh (leaving host w)
  let m : Op Unit := do tell host "OnUnload"; endSubscriptions host; vacate
  have ha : (letGo host).after w = m.after (leaving host w) := after_bind_of_ok ho _
  have he : (letGo host).Ends w ↔ m.Ends (leaving host w) := ends_bind_iff_of_ok ho
  have hgrown : Grown (leaving host w) ((letGo host).after w) := by
    rw [ha]
    by_cases hm : m.Ends (leaving host w)
    · exact (hends hm).grown
    · obtain ⟨mid, _, hdoes⟩ := hbroken hm
      exact hdoes.grown
  refine ⟨hooks, hall, honly.trans (hgrown.hooks _), fun h => ?_, fun h => ?_⟩
  · exact hleave.bind_of_ok ho (hends (he.1 h))
  · obtain ⟨mid, hplain, hdoes⟩ := hbroken fun hm => h (he.2 hm)
    exact ⟨_, List.forall_mem_append.2 ⟨isPlain_hook, hplain⟩, hleave.bind_of_ok ho hdoes⟩

theorem follows_letGo (hh : host.Follows) {w : World} (hl : w.session.loaded = true) :
    (letGo host).Does w [] := by
  obtain ⟨hooks, _, _, hends, hbroken⟩ := begins_letGo hh w hl
  by_cases he : (letGo host).Ends w
  · have hb := hends he
    refine hb.does ?_ (by simp)
    have hs : ∀ hooks : List Nat, ∀ e, hooks.map (.hook .unloaded) ++
        [.tell e "OnUnload", .teardown, .vacate] =
          (hooks.map (.hook .unloaded) ++ [.tell e "OnUnload", .teardown]) ++ [Deed.vacate] := by
      simp
    rw [hs]
    refine .unloaded (List.forall_mem_append.2 ⟨isPlain_hook, ?_⟩)
      ⟨.tell (leaving host w).session.environment "OnUnload", by simp, rfl⟩
    simp [Deed.isPlain]
  · obtain ⟨mid, hplain, hb⟩ := hbroken he
    refine hb.does (.unload hplain) fun home hm => ?_
    have hm : .occupy home ∈ mid := by simpa using hm
    exact absurd (hplain _ hm) Bool.false_ne_true

theorem unload_of_loaded (host : Responder) {w : World} (hl : w.session.loaded = true) :
    ∃ text, (unload host).outcome w = (do letGo host; info "luahost.session" text).outcome w ∧
      (unload host).after w = (do letGo host; info "luahost.session" text).after w := by
  unfold unload
  simp only [outcome_get_bind, after_get_bind, hl, if_true]
  exact ⟨_, rfl, rfl⟩

theorem unload_of_not_loaded (host : Responder) {w : World} (hl : w.session.loaded = false) :
    (unload host).outcome w = .ok () ∧ (unload host).after w =
      (debug "luahost.session" "No Lua script loaded, nothing to unload").after w := by
  unfold unload
  simp only [outcome_get_bind, after_get_bind, hl, Bool.false_eq_true, if_false]
  exact ⟨rfl, trivial⟩

theorem follows_unload (hh : host.Follows) : (unload host).Follows := by
  intro w
  cases hl : w.session.loaded with
  | false =>
    rw [(unload_of_not_loaded host hl).2]
    exact follows_log _ _ _ _ w
  | true =>
    obtain ⟨text, _, ha⟩ := unload_of_loaded host hl
    rw [ha]
    cases ho : (letGo host).outcome w with
    | error f => exact (follows_letGo hh hl).bind_of_error ho
    | ok _ => exact (follows_letGo hh hl).bind_of_ok ho ((follows_log _ _ _ _).does _)

/-! ### A new environment -/

theorem ends_moveIn_iff (host : Responder) (w : World) :
    (moveIn host).Ends w ↔ (buildEnvironment host).Ends w := by
  constructor
  · intro h
    obtain ⟨home, hb, _⟩ := ends_bind_iff.1 h
    exact ends_iff.2 ⟨home, hb⟩
  · intro h
    obtain ⟨home, hb⟩ := ends_iff.1 h
    refine ends_bind_iff.2 ⟨home, hb, ends_bind_iff.2 ⟨(), rfl, ends_bind_iff.2 ⟨(), rfl, ?_⟩⟩⟩
    exact ends_bind_iff.2 ⟨_, rfl, ends_fire _ _ _⟩

/-- What moving into a new environment does: a function is made for each offer, the environment
becomes that of the session, and hooks are run. -/
structure Entrance (host : Responder) (w : World) (home : Nat) (idents : List String)
    (hooks : List Nat) : Prop where
  new : w.homes.size ≤ home
  does : (moveIn host).Does w (idents.map .make ++ .occupy home :: hooks.map (.hook .registered))
  made_all : w.catalog.functions.names <+: idents
  made_only : idents <+: ((moveIn host).after w).catalog.functions.names
  hooked_all : w.session.hooks.at .registered <+: hooks
  hooked_only : hooks <+: ((moveIn host).after w).session.hooks.at .registered

theorem exists_entrance (hh : host.Follows) {w : World} {home : Nat}
    (hb : (buildEnvironment host).outcome w = .ok home) :
    ∃ idents hooks, Entrance host w home idents hooks := by
  obtain ⟨idents, hmake, honly, hall⟩ := does_buildEnvironment hh w
  obtain ⟨hsize, hlt⟩ := home_of_buildEnvironment hh hb
  let w₁ := (buildEnvironment host).after w
  let w₂ : World := { w₁ with
    session := { w₁.session with environment := some home }
    history := w₁.history.push (.occupy home) }
  let m : Op Unit := do
    let env ← newObject (.environment home)
    fire host .registered [.object env]
  have hnew := follows_newObject (.environment home) w₂
  obtain ⟨hooks, hfire, hhall, hhonly⟩ := does_fire hh .registered [.object w₂.objects.size]
    ((newObject (.environment home)).after w₂)
  have hm : m.Does w₂ (hooks.map (.hook .registered)) := Does.bind_of_ok rfl hnew hfire
  have hrest : (do modifySession fun s => { s with environment := some home }
                   record (.occupy home)
                   m).Does w₁ (.occupy home :: hooks.map (.hook .registered)) :=
    Does.enact w₁ rfl rfl rfl trivial hm fun _ h => Deed.occupy.inj h ▸ hlt
  have ha : (moveIn host).after w = m.after w₂ := after_bind_of_ok hb _
  have hgrown : Grown w₁ ((moveIn host).after w) := by
    rw [ha]
    exact hrest.grown
  refine ⟨idents, hooks, hsize.ge, hmake.bind_of_ok hb hrest, hall (ends_iff.2 ⟨home, hb⟩),
    honly.trans hgrown.names, ?_, ?_⟩
  · exact (hmake.grown.hooks _).trans hhall
  · rw [ha]
    exact hhonly

/-! ### Running the script -/

theorem after_readSource (path : Path) (w : World) : (readSource path).after w = w := by
  unfold readSource
  rw [after_get_bind, after_ofExcept]

theorem outcome_readSource (path : Path) (w : World) :
    (readSource path).outcome w = sourceAt w path := by
  unfold readSource
  rw [outcome_get_bind, outcome_ofExcept]

theorem after_runText (path : Path) (source : String) (w : World) :
    (runText host path source).after w = (runBody host path source).after w := by
  unfold runText
  rw [after_attempt_bind]
  cases (runBody host path source).outcome w <;> rfl

/-- A text that fails is contained. -/
theorem tame_runText (path : Path) (source : String) (w : World) :
    (runText host path source).Tame w := by
  unfold Tame runText
  rw [outcome_attempt_bind]
  cases (runBody host path source).outcome w <;> trivial

theorem begins_runText (hh : host.Follows) (path : Path) (source : String) {w : World} {home : Nat}
    (he : w.session.environment = some home) :
    (runText host path source).Begins w (.body home path) [] := by
  have ha : w.session.holding.Admits (.body home path) := he
  have first : (record (.body home path)).Begins w (.body home path) [] :=
    begins_record w rfl rfl ha
  rw [Begins, after_runText, runBody, after_get_bind, he]
  exact first.bind_of_ok rfl ((follows_execute hh home source).discard.does _)

theorem runText_of_no_environment (host : Responder) (path : Path) (source : String) {w : World}
    (he : w.session.environment = none) :
    ¬ (runText host path source).Ends w ∧ (runText host path source).after w = w := by
  have ho : (runBody host path source).outcome w = .error (.noAttribute "NoneType" "execute") := by
    rw [runBody, outcome_get_bind, he]
    rfl
  have ha : (runBody host path source).after w = w := by
    rw [runBody, after_get_bind, he]
    rfl
  refine ⟨?_, by rw [after_runText, ha]⟩
  rw [runText, Ends, outcome_attempt_bind, ho]
  exact Bool.false_ne_true

/-- Once the session has moved in, the text is read, and then it runs. -/
theorem runScript_of_built {w : World} {home : Nat}
    (hb : (buildEnvironment host).outcome w = .ok home) (path : Path) :
    (runScript host path).outcome w =
        (readSource path >>= runText host path).outcome ((moveIn host).after w) ∧
      (runScript host path).after w =
        (readSource path >>= runText host path).after ((moveIn host).after w) := by
  obtain ⟨_, hm⟩ := ends_iff.1 ((ends_moveIn_iff host w).2 (ends_iff.2 ⟨home, hb⟩))
  have he : runScript host path = moveIn host >>= fun _ => readSource path >>= runText host path := by
    unfold runScript prepareScript
    rw [bind_assoc]
  rw [he]
  exact ⟨outcome_bind_of_ok hm _, after_bind_of_ok hm _⟩

/-- What is left undone where no environment can be built. -/
theorem runScript_of_unbuilt {w : World} {f : Fault}
    (hb : (buildEnvironment host).outcome w = .error f) (path : Path) :
    (runScript host path).outcome w = .error f ∧
      (runScript host path).after w = (buildEnvironment host).after w := by
  have hm : (moveIn host).outcome w = .error f := outcome_bind_of_error hb _
  have hma : (moveIn host).after w = (buildEnvironment host).after w := after_bind_of_error hb _
  have hp : (prepareScript host path).outcome w = .error f := outcome_bind_of_error hm _
  have hpa : (prepareScript host path).after w = (buildEnvironment host).after w := by
    rw [← hma]
    exact after_bind_of_error hm _
  refine ⟨outcome_bind_of_error hp _, ?_⟩
  rw [← hpa]
  exact after_bind_of_error hp _

/-- Once the session has moved in, the text begins to run if it can be read and there is an environment
to run it in. Nothing happens otherwise. -/
theorem runScript_cases (hh : host.Follows) {w : World} {home : Nat}
    (hb : (buildEnvironment host).outcome w = .ok home) (path : Path) :
    (∃ ran, (sourceAt ((moveIn host).after w) path).isOk ∧
      ∃ ds, Leads ((moveIn host).after w) [.body ran path] ds ((runScript host path).after w)) ∨
    (((sourceAt ((moveIn host).after w) path).isOk = false ∨
        ((moveIn host).after w).session.environment = none) ∧
      ¬ (runScript host path).Ends w ∧
      (runScript host path).after w = (moveIn host).after w) := by
  obtain ⟨ho, ha⟩ := runScript_of_built hb path
  let w₁ := (moveIn host).after w
  cases hs : sourceAt w₁ path with
  | error f =>
    have hr : (readSource path).outcome w₁ = .error f := by rw [outcome_readSource, hs]
    refine .inr ⟨.inl rfl, ?_, ?_⟩
    · exact not_ends_of_error (ho.trans (outcome_bind_of_error hr _))
    · rw [ha, after_bind_of_error hr, after_readSource]
  | ok text =>
    have hr : (readSource path).outcome w₁ = .ok text := by rw [outcome_readSource, hs]
    have ho' : (runScript host path).outcome w = (runText host path text).outcome w₁ := by
      rw [ho, outcome_bind_of_ok hr, after_readSource]
    have ha' : (runScript host path).after w = (runText host path text).after w₁ := by
      rw [ha, after_bind_of_ok hr, after_readSource]
    cases he : w₁.session.environment with
    | none =>
      obtain ⟨hn, haw⟩ := runText_of_no_environment host path text he
      refine .inr ⟨.inr rfl, ?_, by rw [ha', haw]⟩
      rw [Ends, ho']
      exact hn
    | some ran =>
      refine .inl ⟨ran, rfl, ?_⟩
      rw [ha']
      exact (begins_runText hh path text he).leads

/-! ### Becoming loaded -/

theorem ends_takeUp (host : Responder) (path : Path) (w : World) : (takeUp host path).Ends w :=
  ends_bind_iff.2 ⟨(), rfl, ends_bind_iff.2 ⟨(), rfl, ends_fire _ _ _⟩⟩

theorem does_takeUp (hh : host.Follows) (path : Path) (w : World) :
    ∃ hooks, (takeUp host path).Does w (.adopt path :: hooks.map (.hook .loaded)) ∧
      w.session.hooks.at .loaded <+: hooks ∧
      hooks <+: ((takeUp host path).after w).session.hooks.at .loaded := by
  obtain ⟨hooks, hfire, hall, honly⟩ := does_fire hh .loaded []
    { w with
      session := { w.session with path := some path }
      history := w.history.push (.adopt path) }
  exact ⟨hooks, Does.enact w rfl rfl rfl trivial hfire, hall, honly⟩

theorem does_settle (w : World) : settle.Does w [.succeed] :=
  does_enact w rfl rfl rfl trivial

theorem ends_becomeLoaded_iff (path : Path) (w : World) :
    (becomeLoaded host path).Ends w ↔ CanAsk host "OnLoad" ((takeUp host path).after w) := by
  constructor
  · intro h
    obtain ⟨_, _, h⟩ := ends_bind_iff.1 h
    obtain ⟨_, ht, _⟩ := ends_bind_iff.1 h
    exact (ends_tell_iff _ _).1 (ends_iff.2 ⟨_, ht⟩)
  · intro h
    obtain ⟨_, hu⟩ := ends_iff.1 (ends_takeUp host path w)
    obtain ⟨_, ht⟩ := ends_iff.1 ((ends_tell_iff _ _).2 h)
    exact ends_bind_iff.2 ⟨_, hu, ends_bind_iff.2 ⟨_, ht, rfl⟩⟩

/-- A script that has run gets its path, hooks are run and it is told, before it is loaded. -/
theorem does_becomeLoaded (hh : host.Follows) (path : Path) (w : World) :
    ∃ hooks, w.session.hooks.at .loaded <+: hooks ∧
      hooks <+: ((becomeLoaded host path).after w).session.hooks.at .loaded ∧
      let told := .adopt path :: (hooks.map (.hook .loaded) ++
        [.tell ((takeUp host path).after w).session.environment "OnLoad"])
      ((becomeLoaded host path).Ends w → (becomeLoaded host path).Does w (told ++ [.succeed])) ∧
      (¬ (becomeLoaded host path).Ends w → (becomeLoaded host path).Does w told) := by
  obtain ⟨hooks, htake, hall, honly⟩ := does_takeUp hh path w
  obtain ⟨_, hu⟩ := ends_iff.1 (ends_takeUp host path w)
  let w₁ := (takeUp host path).after w
  have htell := does_tell hh "OnLoad" w₁
  refine ⟨hooks, hall, ?_⟩
  cases ht : (tell host "OnLoad").outcome w₁ with
  | error f =>
    have hdoes : (becomeLoaded host path).Does w _ := htake.bind_of_ok hu (htell.bind_of_error ht)
    have ha : (becomeLoaded host path).after w = (tell host "OnLoad").after w₁ := by
      rw [becomeLoaded, after_bind_of_ok hu, after_bind_of_error ht]
    refine ⟨?_, fun he => ?_, fun _ => hdoes⟩
    · rw [ha]
      exact honly.trans (htell.grown.hooks _)
    · exact absurd ((ends_bind_iff_of_ok hu).1 he) (not_ends_bind_of_error ht)
  | ok _ =>
    let last : Unit → Op Unit := fun _ => do
      settle
      info "luahost.session" s!"Lua script loaded: {path}"
    have hlast : (last ()).Does ((tell host "OnLoad").after w₁) [.succeed] :=
      (does_settle _).bind_of_ok rfl ((follows_log _ _ _ _).does _)
    have hrest := htell.bind_of_ok (k := last) ht hlast
    have hdoes : (becomeLoaded host path).Does w _ := htake.bind_of_ok hu hrest
    have ha : (becomeLoaded host path).after w = _ := after_bind_of_ok hu _
    refine ⟨?_, fun _ => ?_, fun hn => absurd ?_ hn⟩
    · rw [ha]
      exact honly.trans (hrest.grown.hooks _)
    · simpa using hdoes
    · exact ends_bind_iff.2 ⟨_, hu, ends_bind_iff.2 ⟨_, ht, rfl⟩⟩

/-! ### Undoing a load -/

theorem ends_rollBack_iff (w : World) :
    (rollBack host).Ends w ↔ (unsubscribeAll host).Ends ((record .teardown).after w) := by
  rw [← ends_endSubscriptions_iff]
  constructor
  · intro h
    obtain ⟨_, he, _⟩ := ends_bind_iff.1 h
    exact ends_iff.2 ⟨_, he⟩
  · intro h
    obtain ⟨_, he⟩ := ends_iff.1 h
    exact ends_bind_iff.2 ⟨_, he, rfl⟩

theorem does_giveUp (w : World) : giveUp.Does w [.fail] :=
  does_enact w rfl rfl rfl trivial

theorem does_rollBack (hh : host.Follows) (w : World) :
    ((rollBack host).Ends w → (rollBack host).Does w [.teardown, .fail]) ∧
      (¬ (rollBack host).Ends w → (rollBack host).Does w [.teardown]) := by
  have hend := does_endSubscriptions hh w
  cases he : (endSubscriptions host).outcome w with
  | error f =>
    exact ⟨fun h => absurd h (not_ends_bind_of_error he), fun _ => hend.bind_of_error he⟩
  | ok _ =>
    refine ⟨fun _ => hend.bind_of_ok he (does_giveUp _), fun hn => absurd ?_ hn⟩
    exact (ends_bind_iff_of_ok he).2 rfl

/-! ### Loading -/

theorem bringUp_of_ok {path : Path} {w : World} (hr : (runScript host path).outcome w = .ok ()) :
    (bringUp host path).outcome w =
        (do becomeLoaded host path; return true).outcome ((runScript host path).after w) ∧
      (bringUp host path).after w =
        (do becomeLoaded host path; return true).after ((runScript host path).after w) := by
  unfold bringUp
  rw [outcome_attempt_bind, after_attempt_bind, hr]
  exact ⟨rfl, rfl⟩

/-- A load is undone if it fails in a way that is contained. -/
def undo (host : Responder) (f : Fault) : Op Unit := do
  report host f .error
  rollBack host

theorem bringUp_of_error {path : Path} {w : World} {f : Fault}
    (hr : (runScript host path).outcome w = .error f) :
    (f.isContained = true ∧
      (bringUp host path).outcome w =
        (do undo host f; return false).outcome ((runScript host path).after w) ∧
      (bringUp host path).after w =
        (do undo host f; return false).after ((runScript host path).after w)) ∨
    (f.isContained = false ∧ (bringUp host path).outcome w = .error f ∧
      (bringUp host path).after w = (runScript host path).after w) := by
  unfold bringUp undo
  rw [outcome_attempt_bind, after_attempt_bind, hr]
  cases hf : f.isContained with
  | true =>
    refine .inl ⟨rfl, ?_⟩
    simp only [hf, if_true, bind_assoc]
    exact ⟨trivial, trivial⟩
  | false =>
    refine .inr ⟨rfl, ?_⟩
    simp only [hf, Bool.false_eq_true, if_false]
    exact ⟨rfl, rfl⟩

theorem ends_undo_iff (f : Fault) (w : World) : (undo host f).Ends w ↔
    (unsubscribeAll host).Ends ((record .teardown).after ((report host f .error).after w)) := by
  obtain ⟨_, hr⟩ := ends_iff.1 (ends_report host f .error w)
  rw [← ends_rollBack_iff]
  exact ends_bind_iff_of_ok hr

theorem does_undo (hh : host.Follows) (f : Fault) (w : World) :
    ((undo host f).Ends w → (undo host f).Does w [.teardown, .fail]) ∧
      (¬ (undo host f).Ends w → (undo host f).Does w [.teardown]) := by
  obtain ⟨_, hr⟩ := ends_iff.1 (ends_report host f .error w)
  have hreport := (follows_report hh f .error).does w
  obtain ⟨hends, hbroken⟩ := does_rollBack hh ((report host f .error).after w)
  have he : (undo host f).Ends w ↔ (rollBack host).Ends ((report host f .error).after w) :=
    ends_bind_iff_of_ok hr
  exact ⟨fun h => hreport.bind_of_ok hr (hends (he.1 h)),
    fun h => hreport.bind_of_ok hr (hbroken fun hn => h (he.2 hn))⟩

/-- The deeds of a script that is to run, however far it gets. -/
theorem exists_does_runScript (hh : host.Follows) (path : Path) (w : World) :
    ∃ own, (runScript host path).Does w own ∧ (∀ d ∈ own, d.isRising) ∧
      (∀ home, .occupy home ∈ own → w.homes.size ≤ home) ∧
      ((runScript host path).Ends w → ∃ home ran a b, (∀ d ∈ a, d.isSteady) ∧
        (∀ d ∈ b, d.isSteady) ∧ own = a ++ .occupy home :: (b ++ [.body ran path])) := by
  cases hb : (buildEnvironment host).outcome w with
  | error f =>
    obtain ⟨idents, hmake, _, _⟩ := does_buildEnvironment hh w
    obtain ⟨ho, ha⟩ := runScript_of_unbuilt hb path
    refine ⟨idents.map .make, ?_, fun d hd => Deed.isRising_of_isSteady (isSteady_make d hd),
      by simp, ?_⟩
    · rw [Does, ha]
      exact hmake
    · intro he
      rw [Ends, ho] at he
      exact absurd he Bool.false_ne_true
  | ok home =>
    obtain ⟨idents, hooks, h⟩ := exists_entrance hh hb
    have hnew := h.new
    have hrising : ∀ d ∈ idents.map Deed.make ++ .occupy home :: hooks.map (.hook .registered),
        d.isRising :=
      List.forall_mem_append.2 ⟨fun d hd => Deed.isRising_of_isSteady (isSteady_make d hd),
        List.forall_mem_cons.2
          ⟨rfl, fun d hd => Deed.isRising_of_isSteady (isSteady_hook d hd)⟩⟩
    obtain ⟨ds, hmove⟩ := h.does
    rcases runScript_cases hh hb path with ⟨ran, _, es, hrun⟩ | ⟨_, hn, ha⟩
    · refine ⟨_, ⟨_, hmove.trans hrun⟩,
        List.forall_mem_append.2 ⟨hrising, List.forall_mem_singleton.2 rfl⟩, by simpa, fun _ => ?_⟩
      exact ⟨home, ran, _, _, isSteady_make, isSteady_hook, List.append_assoc ..⟩
    · rw [← ha] at hmove
      exact ⟨_, ⟨_, hmove⟩, hrising, by simpa, fun he => absurd he hn⟩

/-! ### Bringing up a script

What is left of it once its text has run to its end, or has failed to. -/

/-- A script that has run is loaded, unless it cannot be told so. -/
theorem leads_bringUp_of_ok (hh : host.Follows) {path : Path} {w : World}
    (hr : (runScript host path).outcome w = .ok ()) :
    ∃ hooks asked, ((runScript host path).after w).session.hooks.at .loaded <+: hooks ∧
      hooks <+: ((bringUp host path).after w).session.hooks.at .loaded ∧
      let told := .adopt path :: (hooks.map (.hook .loaded) ++ [.tell asked "OnLoad"])
      ((bringUp host path).Ends w → (bringUp host path).outcome w = .ok true ∧
        ∃ ds, Leads ((runScript host path).after w) (told ++ [.succeed]) ds
          ((bringUp host path).after w)) ∧
      (¬ (bringUp host path).Ends w →
        ∃ ds, Leads ((runScript host path).after w) told ds ((bringUp host path).after w)) := by
  obtain ⟨ho, ha⟩ := bringUp_of_ok hr
  have hiff : (bringUp host path).Ends w ↔
      (becomeLoaded host path).Ends ((runScript host path).after w) := by
    rw [Ends, ho]
    exact ends_bind_pure_iff
  obtain ⟨hooks, hall, honly, hends, hbroken⟩ :=
    does_becomeLoaded hh path ((runScript host path).after w)
  rw [ha, after_bind_pure]
  refine ⟨hooks, _, hall, honly, fun h => ⟨?_, hends (hiff.1 h)⟩, fun h => hbroken (mt hiff.2 h)⟩
  obtain ⟨_, hb⟩ := ends_iff.1 (hiff.1 h)
  exact ho.trans (outcome_bind_of_ok hb _)

/-- A script that has failed is undone, unless the fault is not contained or its subscriptions do not
end. -/
theorem leads_bringUp_of_error (hh : host.Follows) {path : Path} {w : World} {f : Fault}
    (hr : (runScript host path).outcome w = .error f) :
    ((bringUp host path).Ends w → (bringUp host path).outcome w = .ok false ∧
      ∃ ds, Leads ((runScript host path).after w) [.teardown, .fail] ds
        ((bringUp host path).after w)) ∧
    (¬ (bringUp host path).Ends w → ∃ own, (∀ d ∈ own, d = .teardown) ∧
      ∃ ds, Leads ((runScript host path).after w) own ds ((bringUp host path).after w)) := by
  rcases bringUp_of_error hr with ⟨_, ho, ha⟩ | ⟨_, ho, ha⟩
  · have hiff : (bringUp host path).Ends w ↔ (undo host f).Ends ((runScript host path).after w) := by
      rw [Ends, ho]
      exact ends_bind_pure_iff
    obtain ⟨hends, hbroken⟩ := does_undo hh f ((runScript host path).after w)
    rw [ha, after_bind_pure]
    refine ⟨fun h => ⟨?_, hends (hiff.1 h)⟩, fun h =>
      ⟨_, fun _ => List.mem_singleton.1, hbroken (mt hiff.2 h)⟩⟩
    obtain ⟨_, hu⟩ := ends_iff.1 (hiff.1 h)
    exact ho.trans (outcome_bind_of_ok hu _)
  · refine ⟨fun h => absurd h (not_ends_of_error ho), fun _ => ⟨[], List.forall_mem_nil _, [], ?_⟩⟩
    rw [ha]
    exact Leads.refl _

theorem exists_leads_bringUp (hh : host.Follows) (path : Path) (w : World) :
    ∃ own ds, Leads ((runScript host path).after w) own ds ((bringUp host path).after w) := by
  cases hr : (runScript host path).outcome w with
  | ok _ =>
    obtain ⟨hooks, asked, -, -, hends, hbroken⟩ := leads_bringUp_of_ok hh hr
    by_cases he : (bringUp host path).Ends w
    · exact ⟨_, (hends he).2⟩
    · exact ⟨_, hbroken he⟩
  | error f =>
    obtain ⟨hends, hbroken⟩ := leads_bringUp_of_error hh hr
    by_cases he : (bringUp host path).Ends w
    · exact ⟨_, (hends he).2⟩
    · exact (hbroken he).imp fun _ h => h.2

/-- How bringing up a script ends, and what it has done then: the script is loaded, or all is undone,
or it breaks off somewhere on the way. The environment it gets, if it gets one, is new. -/
theorem bringUp_cases (hh : host.Follows) (path : Path) (w : World) :
    ((bringUp host path).outcome w = .ok true ∧
      ∃ home ran a b c, (∀ d ∈ a, d.isSteady) ∧ (∀ d ∈ b, d.isSteady) ∧ (∀ d ∈ c, d.isSteady) ∧
        w.homes.size ≤ home ∧ (bringUp host path).Does w (a ++ .occupy home ::
          (b ++ .body ran path :: .adopt path :: (c ++ [.succeed])))) ∨
    ((bringUp host path).outcome w = .ok false ∧
      ∃ mid, (∀ d ∈ mid, d.isRising) ∧ (∀ home, .occupy home ∈ mid → w.homes.size ≤ home) ∧
        (bringUp host path).Does w (mid ++ [.fail])) ∨
    (¬ (bringUp host path).Ends w ∧
      ∃ mid, (∀ d ∈ mid, d.isRising) ∧ (∀ home, .occupy home ∈ mid → w.homes.size ≤ home) ∧
        (bringUp host path).Does w mid) := by
  obtain ⟨own, ⟨ds, hrun⟩, hrising, hnew, hown⟩ := exists_does_runScript hh path w
  cases hr : (runScript host path).outcome w with
  | ok _ =>
    obtain ⟨hooks, asked, -, -, hends, hbroken⟩ := leads_bringUp_of_ok hh hr
    by_cases he : (bringUp host path).Ends w
    · obtain ⟨ho, es, hload⟩ := hends he
      obtain ⟨home, ran, a, b, ha, hb, rfl⟩ := hown (ends_iff.2 ⟨_, hr⟩)
      refine .inl ⟨ho, home, ran, a, b, hooks.map (.hook .loaded) ++ [.tell asked "OnLoad"], ha, hb,
        isSteady_told, hnew home (by simp), ds ++ es, ?_⟩
      simpa using hrun.trans hload
    · obtain ⟨es, hload⟩ := hbroken he
      refine .inr (.inr ⟨he, _, List.forall_mem_append.2 ⟨hrising, List.forall_mem_cons.2 ⟨rfl, ?_⟩⟩,
        by simpa using hnew, _, hrun.trans hload⟩)
      exact fun d hd => Deed.isRising_of_isSteady (isSteady_told d hd)
  | error f =>
    obtain ⟨hends, hbroken⟩ := leads_bringUp_of_error hh hr
    by_cases he : (bringUp host path).Ends w
    · obtain ⟨ho, es, hundo⟩ := hends he
      refine .inr (.inl ⟨ho, own ++ [.teardown],
        List.forall_mem_append.2 ⟨hrising, List.forall_mem_singleton.2 rfl⟩,
        by simpa using hnew, ds ++ es, ?_⟩)
      simpa using hrun.trans hundo
    · obtain ⟨own', hteardown, es, hundo⟩ := hbroken he
      refine .inr (.inr ⟨he, own ++ own', List.forall_mem_append.2 ⟨hrising, fun d hd => ?_⟩,
        fun home hm => ?_, _, hrun.trans hundo⟩)
      · rw [hteardown d hd]
        rfl
      · exact hnew home ((List.mem_append.1 hm).resolve_right fun hm => nomatch hteardown _ hm)

/-- The world in which a script is brought up. -/
def opening (path : Path) (w : World) : World :=
  (record (.load path)).after w

theorem outcome_loadPath (host : Responder) (path : Path) (w : World) :
    (loadPath host path).outcome w = (bringUp host path).outcome (opening path w) := by
  unfold loadPath opening
  rw [outcome_bind_of_ok rfl, outcome_attempt_bind]
  cases (bringUp host path).outcome _ <;> rfl

theorem after_loadPath_of_ok {path : Path} {w : World} {b : Bool}
    (h : (bringUp host path).outcome (opening path w) = .ok b) :
    (loadPath host path).after w = (bringUp host path).after (opening path w) := by
  unfold opening at h
  unfold loadPath opening
  rw [after_bind_of_ok rfl, after_attempt_bind, h]
  rfl

theorem after_loadPath_of_error {path : Path} {w : World} {f : Fault}
    (h : (bringUp host path).outcome (opening path w) = .error f) :
    (loadPath host path).after w =
      (record .abort).after ((bringUp host path).after (opening path w)) := by
  unfold opening at h
  unfold loadPath opening
  rw [after_bind_of_ok rfl, after_attempt_bind, h]
  rfl

theorem leads_opening (path : Path) {w : World} (hl : w.session.loaded = false) :
    Leads w [.load path] [.load path] (opening path w) :=
  leads_enter w w.session (.load path) rfl rfl rfl hl

/-- Seen from around it, a load is one block, however it ends. -/
theorem follows_loadPath (hh : host.Follows) (path : Path) {w : World}
    (hl : w.session.loaded = false) : (loadPath host path).Does w [] := by
  have hopen := leads_opening path hl
  rcases bringUp_cases hh path (opening path w) with
    ⟨ho, home, ran, a, b, c, hpa, hpb, hpc, hnew, ds, hup⟩ | ⟨ho, mid, hrising, hnew, ds, hup⟩ |
      ⟨hn, mid, hrising, hnew, ds, hup⟩
  · have hb : Block (.load path :: (a ++ .occupy home :: (b ++ .body ran path ::
        .adopt path :: (c ++ [.succeed])))) := by
      have hnone : ∀ d ∈ ([] : List Deed), d.isSteady := List.forall_mem_nil _
      simpa using @Block.loaded path home ran a b [] c hpa hpb hnone hpc
    have hown : ∀ new, .occupy new ∈ Deed.load path :: (a ++ .occupy home :: (b ++ .body ran path ::
        .adopt path :: (c ++ [.succeed]))) → w.homes.size ≤ new := by
      intro new hm
      have hsteady : ∀ {ds : List Deed}, (∀ d ∈ ds, d.isSteady) → .occupy new ∉ ds := fun hs hm =>
        Bool.false_ne_true (hs _ hm)
      have hm : new = home := by
        simpa [hsteady hpa, hsteady hpb, hsteady hpc] using hm
      exact hm ▸ hnew
    rw [Does, after_loadPath_of_ok ho]
    exact ⟨_, (hopen.trans hup).block hb hup.woven hown⟩
  · rw [Does, after_loadPath_of_ok ho]
    exact ⟨_, (hopen.trans hup).block (.failed hrising) hup.woven fun new hm =>
      hnew new (by simpa using hm)⟩
  · cases ho : (bringUp host path).outcome (opening path w) with
    | ok b => exact absurd (ends_iff.2 ⟨b, ho⟩) hn
    | error f =>
      have habort : Leads ((bringUp host path).after (opening path w)) [.abort] [.abort]
          ((record .abort).after ((bringUp host path).after (opening path w))) :=
        leads_enter _ _ .abort rfl rfl rfl trivial
      have hrest := hup.trans habort
      rw [Does, after_loadPath_of_error ho]
      exact ⟨_, (hopen.trans hrest).block (.aborted hrising) hrest.woven fun new hm =>
        hnew new (by simpa using hm)⟩

/-! ### Loading in place of a script -/

theorem holding_after_letGo {w : World} (he : (letGo host).Ends w) :
    ((letGo host).after w).session.holding = {} := by
  obtain ⟨_, he⟩ := ends_iff.1 he
  obtain ⟨_, _, he, ha⟩ := exists_of_bind_ok he
  obtain ⟨_, _, he, ha'⟩ := exists_of_bind_ok he
  obtain ⟨_, _, _, ha''⟩ := exists_of_bind_ok he
  rw [letGo, ha, ha', ha'']
  rfl

/-- A session that has been unloaded holds nothing. -/
theorem holding_after_unload {w : World} (hl : w.session.loaded = true)
    (he : (unload host).Ends w) : ((unload host).after w).session.holding = {} := by
  obtain ⟨text, ho, ha⟩ := unload_of_loaded host hl
  obtain ⟨_, he⟩ := ends_iff.1 he
  rw [ho] at he
  obtain ⟨_, hg, _, ha'⟩ := exists_of_bind_ok he
  rw [ha, ha']
  exact holding_after_letGo (ends_iff.2 ⟨_, hg⟩)

theorem loaded_after_unload {w : World} (he : (unload host).Ends w) :
    ((unload host).after w).session.loaded = false := by
  cases hl : w.session.loaded with
  | false =>
    rw [(unload_of_not_loaded host hl).2]
    exact hl
  | true =>
    have hh := holding_after_unload hl he
    exact congrArg Holding.loaded hh

/-- A load in place of nothing. -/
theorem load_of_not_loaded (host : Responder) (s : String) {w : World}
    (hl : w.session.loaded = false) :
    (load host (.text s)).outcome w = (loadPath host (Path.ofString s)).outcome w ∧
      (load host (.text s)).after w = (loadPath host (Path.ofString s)).after w := by
  unfold load
  simp only [outcome_get_bind, after_get_bind, hl, Bool.false_eq_true, if_false]
  exact ⟨trivial, trivial⟩

/-- A load in place of a script unloads it first, and goes on only if that ends in a value. -/
theorem load_of_loaded (host : Responder) (s : String) {w : World}
    (hl : w.session.loaded = true) :
    (load host (.text s)).outcome w =
        (unload host >>= fun _ => loadPath host (Path.ofString s)).outcome w ∧
      (load host (.text s)).after w =
        (unload host >>= fun _ => loadPath host (Path.ofString s)).after w := by
  unfold load
  simp only [outcome_get_bind, after_get_bind, hl, if_true]
  exact ⟨trivial, trivial⟩

/-- Where no script is loaded, what a load does next is to be seen from around it too. -/
theorem does_load (hh : host.Follows) (path : Datum) {w : World} (hl : w.session.loaded = false) :
    Does (match path with
      | .text s => loadPath host (Path.ofString s)
      | d => do throw (.mismatch (.path ((← get).typeName d)))) w [] := by
  split
  · exact follows_loadPath hh _ hl
  · exact (follows_get.bind fun _ => follows_throw _).does w

theorem follows_load (hh : host.Follows) (path : Datum) : (load host path).Follows := by
  intro w
  cases hl : w.session.loaded with
  | false =>
    unfold load
    simp only [after_get_bind, hl, Bool.false_eq_true, if_false]
    exact does_load hh path hl
  | true =>
    unfold load
    simp only [after_get_bind, hl, if_true]
    have hun := (follows_unload hh).does w
    cases ho : (unload host).outcome w with
    | error f => exact hun.bind_of_error ho
    | ok _ => exact hun.bind_of_ok ho (does_load hh path (loaded_after_unload (ends_iff.2 ⟨_, ho⟩)))

end ScriptHost.Op
