import ScriptHost.Application.Respond
import ScriptHost.Proofs.Lifetimes

/-!
# Answers that are alike

What foreign code asks is answered alike for every bond, if what has to do with events is done
alike. Some requests lead to a load or an unloading (`Request.governs`), and some change the handlers
of a signal past the books (`Request.meddles`); all others need less, and a host that answers only
these keeps more.
-/
namespace ScriptHost

open Files (Path)

namespace Request

/-- Whether a request can lead to a load or an unloading, to new events, or to the end of all
subscriptions. -/
def governs : Request → Bool
  | load _ | unload | tryLoad _ | command .. | applyPending | boot | shutDown | live | loop | tick _
  | endpoint _ | discover | unsubscribeAll => true
  | _ => false

/-- Whether a request lets time pass: the clock goes on, or files begin or cease to wait. -/
def stirs : Request → Bool
  | queue _ | applyPending | watch .. | seeChanges | live | loop | tick _ => true
  | _ => false

/-- Whether a request changes what is connected to a signal, past the books. -/
def meddles : Request → Bool
  | connect .. | disconnect .. | clearHandlers _ | subscribe _ | unsubscribe _ => true
  | _ => false

end Request

namespace Op

open World

variable {α : Type} {R : World → World → Prop} {p : Fault → Prop}

/-! ### Classes and settings -/

mutual

theorem alike_ofSetting (B : Bond R p) (v : Settings.Value) :
    Alike R (ofSetting v) (ofSetting v) := by
  cases v with
  | bytes b => exact (alike_newObject B _).map _
  | date d => exact (alike_newObject B _).map _
  | moment m => exact (alike_newObject B _).map _
  | pair k v =>
    unfold ofSetting
    refine (alike_ofSetting B k).bind fun _ => (alike_ofSetting B v).bind fun _ => ?_
    exact (alike_newObject B _).bind fun _ => alike_pure _
  | set items =>
    unfold ofSetting
    refine (alike_ofSettings B items).bind fun _ =>
      alike_get B (fun _ => by simp only [World.spell_bare]) fun _ => ?_
    exact (alike_newObject B _).bind fun _ => alike_pure _
  | list items =>
    unfold ofSetting
    exact (alike_ofSettings B items).bind fun _ => alike_newList B _
  | map entries =>
    unfold ofSetting
    refine (alike_ofEntries B entries).bind fun _ => ?_
    exact (alike_newObject B _).bind fun _ => alike_pure _
  | _ => unfold ofSetting; exact alike_pure _

theorem alike_ofSettings (B : Bond R p) (vs : List Settings.Value) :
    Alike R (ofSettings vs) (ofSettings vs) := by
  cases vs with
  | nil => unfold ofSettings; exact alike_pure _
  | cons v rest =>
    unfold ofSettings
    refine (alike_ofSetting B v).bind fun _ => ?_
    exact (alike_ofSettings B rest).bind fun _ => alike_pure _

theorem alike_ofEntries (B : Bond R p) (es : List (Settings.Value × Settings.Value)) :
    Alike R (ofEntries es) (ofEntries es) := by
  cases es with
  | nil => unfold ofEntries; exact alike_pure _
  | cons e rest =>
    obtain ⟨k, v⟩ := e
    unfold ofEntries
    refine (alike_ofSetting B k).bind fun _ => (alike_ofSetting B v).bind fun _ => ?_
    exact (alike_ofEntries B rest).bind fun _ => alike_pure _

end

section

variable (B : Bond R p)

include B

theorem alike_registerType (cls : Class) : Alike R (registerType cls) (registerType cls) := by
  intro w w' h
  have hsame : w.bare.exposed = w'.bare.exposed := congrArg World.exposed (B.bare h)
  change w.exposed = w'.exposed at hsame
  simp only [registerType, outcome_get_bind, after_get_bind, ← hsame]
  split
  · exact ((alike_log B _ _ _).bind fun _ => alike_pure _) w w' h
  · next hc =>
    have hnew : cls ∉ w.exposed := by simpa using hc
    have hnew' : cls ∉ w'.exposed := hsame ▸ hnew
    simp only [outcome_modify_bind, after_modify_bind]
    refine ((alike_log B _ _ _).bind fun _ => alike_pure _) _ _
      (B.apart h (apart_expose hnew) (apart_expose hnew') ?_)
    exact congrArg (fun x : World => { x with exposed := x.exposed ++ [cls] }) (B.bare h)

theorem alike_settingText (v : Settings.Value) : Alike R (settingText v) (settingText v) :=
  (alike_ofSetting B v).bind fun _ =>
    alike_get B (fun _ => by simp only [World.shown_bare]) fun _ => alike_pure _

theorem alike_modifyApplication {f : Application → Application} (hf : ∀ a, (f a).tick = a.tick) :
    Alike R (modifyApplication f) (modifyApplication f) :=
  alike_modify B (fun _ => rfl) fun w => w.apart_application (hf w.application)

theorem alike_setting (section_ key : String) (other : Settings.Value) :
    Alike R (setting section_ key other) (setting section_ key other) :=
  (alike_get B (fun _ => rfl) fun _ => alike_pure _).bind fun _ => alike_ofExcept _

/-! ### Reloading -/

section

variable (S : Restless R)

include S

theorem alike_queueReload (path : String) : Alike R (queueReload path) (queueReload path) := by
  have resolve : ∀ p, Alike R (resolvePath p) (resolvePath p) := fun p =>
    alike_check (alike_get B (fun _ => rfl) fun _ => alike_pure _)
  refine (resolve _).bind fun p => alike_get B (fun _ => rfl) fun w => .ite (alike_pure _) ?_
  have waits : Alike R (modify fun v => { v with pending := enqueue w.pending p } : Op Unit)
      (modify fun v => { v with pending := enqueue w.pending p }) := fun _ _ h =>
    ⟨rfl, S.queue (fun _ => enqueue w.pending p) h⟩
  exact waits.bind fun _ => alike_log B _ _ _

theorem alike_takeChanges (extension : String) (changes : List (String × String)) :
    Alike R (takeChanges extension changes) (takeChanges extension changes) := by
  refine alike_forM (fun change => .ite ?_ (alike_pure _)) changes
  exact (alike_queueReload B S _).bind fun _ => alike_log B _ _ _

theorem alike_watch (folder : Path) (extension : String)
    (batches : List (List (String × String))) :
    Alike R (watch folder extension batches) (watch folder extension batches) :=
  (alike_log B _ _ _).bind fun _ => alike_forM (alike_takeChanges B S extension) batches

theorem alike_watchChanges : Alike R watchChanges watchChanges := by
  refine alike_get B (fun _ => rfl) fun w => ?_
  dsimp only
  split
  · exact alike_pure _
  · refine (alike_modifyApplication B (by intro _; rfl)).bind fun _ =>
      alike_get B (fun _ => rfl) fun _ => ?_
    exact alike_watch B S _ _ _

end

/-! ### The catalog -/

/-- An offer that is new joins the catalog, and one that is not is logged. -/
theorem alike_enter (enter : Catalog → Option Catalog) {refuse : Op Bool}
    (he : ∀ {c c'}, enter c = some c' → c.functions.entries <+: c'.functions.entries ∧
      c.events.entries <+: c'.events.entries) (hr : Alike R refuse refuse) :
    Alike R (do
      match enter (← get).catalog with
      | some c => do
        modify fun w => { w with catalog := c }
        return true
      | none => refuse) (do
      match enter (← get).catalog with
      | some c => do
        modify fun w => { w with catalog := c }
        return true
      | none => refuse) := by
  intro w w' h
  have hc : w.bare.catalog = w'.bare.catalog := congrArg World.catalog (B.bare h)
  change w.catalog = w'.catalog at hc
  simp only [outcome_get_bind, after_get_bind, ← hc]
  cases ha : enter w.catalog with
  | none => exact hr w w' h
  | some c =>
    obtain ⟨hf, hv⟩ := he ha
    have hw : Apart w { w with catalog := c } := { functions := hf, offers := hv }
    have hw' : Apart w' { w' with catalog := c } := { functions := hc ▸ hf, offers := hc ▸ hv }
    exact ⟨rfl, B.apart h hw hw' (congrArg (fun x : World => { x with catalog := c }) (B.bare h))⟩

theorem alike_addFunction (ident : String) (make : FunctionFactory) :
    Alike R (addFunction ident make) (addFunction ident make) := by
  refine alike_enter B (fun c => c.addFunction? ident make) (fun h => ?_)
    ((alike_log B _ _ _).bind fun _ => alike_pure _)
  simp only [Catalog.addFunction?, Option.ite_none_left_eq_some, Option.some.injEq] at h
  exact h.2 ▸ ⟨Roster.prefix_add _ _ _, List.prefix_rfl⟩

theorem alike_addEvent (ident : String) (make : EventFactory) :
    Alike R (addEvent ident make) (addEvent ident make) := by
  refine alike_enter B (fun c => c.addEvent? ident make) (fun h => ?_)
    ((alike_log B _ _ _).bind fun _ => alike_pure _)
  simp only [Catalog.addEvent?, Option.ite_none_left_eq_some, Option.some.injEq] at h
  exact h.2 ▸ ⟨List.prefix_rfl, Roster.prefix_add _ _ _⟩

theorem alike_addCallable (space name : String) (ident : Option String) (function : Datum) :
    Alike R (addCallable space name ident function) (addCallable space name ident function) :=
  alike_addFunction B _ _

/-! ### Hosts and commands -/

theorem alike_openSurface : Alike R openSurface openSurface := by
  refine (alike_setting B _ _ _).bind fun _ => .ite ?_ (alike_pure _)
  refine (alike_setting B _ _ _).bind fun _ => (alike_settingText B _).bind fun _ => ?_
  refine (alike_setting B _ _ _).bind fun _ => (alike_settingText B _).bind fun _ => ?_
  exact (alike_modifyApplication B (by intro _; rfl)).bind fun _ => alike_log B _ _ _

theorem alike_beginWatch : Alike R beginWatch beginWatch := by
  refine (alike_setting B _ _ _).bind fun _ => .ite ?_ (alike_pure _)
  refine alike_get B (fun _ => rfl) fun w => ?_
  split
  · refine (alike_ofExcept _).bind fun found => ?_
    split
    · exact alike_modifyApplication B (by intro _; rfl)
    · exact alike_pure _
  · exact alike_pure _

theorem alike_rest (S : Restless R) : Alike R rest rest := by
  refine (alike_watchChanges B S).bind fun _ => Alike.bind ?_ fun _ => ?_
  · exact alike_get B (fun _ => rfl) fun w =>
      .ite (alike_modifyApplication B (by intro _; rfl)) (alike_pure _)
  · refine alike_get B (fun _ => rfl) fun w => .ite ?_ (alike_pure _)
    exact (alike_modifyApplication B (by intro _; rfl)).bind fun _ => alike_throw _

theorem alike_shownPath : Alike R shownPath shownPath := by
  refine alike_get B (fun _ => rfl) fun w => ?_
  split <;> exact alike_pure _

theorem alike_helpLines (lead : String) : Alike R (helpLines lead) (helpLines lead) :=
  alike_get B (fun _ => rfl) fun _ => alike_pure _

/-! ### Looking around -/

theorem alike_newDict (entries : List (String × Datum)) :
    Alike R (newDict entries) (newDict entries) :=
  (alike_newObject B _).map _

theorem alike_status : Alike R status status := by
  refine alike_get B (fun _ => by simp only [World.names_active_bare, World.names_known_bare]; rfl)
    fun w => (alike_newTexts B _).bind fun _ => ?_
  exact (alike_newTexts B _).bind fun _ => alike_newDict B _

theorem alike_books : Alike R books books := by
  refine alike_get B (fun _ => rfl) fun w => (alike_newTexts B _).bind fun _ => ?_
  refine (alike_newTexts B _).bind fun _ => (alike_newTexts B _).bind fun _ => ?_
  exact (alike_newTexts B _).bind fun _ => alike_newDict B _

theorem alike_functionEntry (place : Nat) :
    Alike R (functionEntry place) (functionEntry place) := by
  refine (alike_object B _).bind fun o => ?_
  split <;> exact alike_pure _

theorem alike_eventEntry (place : Nat) : Alike R (eventEntry place) (eventEntry place) := by
  refine (alike_object B _).bind fun o => ?_
  split <;> exact alike_pure _

theorem alike_environmentOf (d : Datum) : Alike R (environmentOf d) (environmentOf d) := by
  refine alike_get B (fun _ => rfl) fun w => ?_
  dsimp only
  split
  · split
    · exact alike_pure _
    · exact alike_throw _
  · exact alike_throw _

theorem alike_placeOf (path : String) : Alike R (placeOf path) (placeOf path) :=
  alike_get B (fun _ => rfl) fun _ => alike_pure _

theorem alike_copy (n : Nat) (d : Datum) : Alike R (copy n d) (copy n d) := by
  induction n generalizing d with
  | zero => cases d <;> exact alike_pure _
  | succ n ih =>
    cases d with
    | object p =>
      unfold copy
      refine (alike_object B _).bind fun o => ?_
      split
      · exact alike_pure _
      · exact (alike_mapM ih _).bind fun _ => alike_newList B _
      · refine (alike_mapM ih _).bind fun _ => ?_
        exact (alike_newObject B _).bind fun _ => alike_pure _
      · refine (alike_mapM (fun e : Datum × Datum => ?_) _).bind fun _ => ?_
        · exact (ih e.1).bind fun _ => (ih e.2).bind fun _ => alike_pure _
        · exact (alike_newObject B _).bind fun _ => alike_pure _
      · refine (alike_mapM (fun e : String × Datum => ?_) _).bind fun _ => ?_
        · exact (ih e.2).bind fun _ => alike_pure _
        · exact (alike_newObject B _).bind fun _ => alike_pure _
      · exact (alike_newObject B _).bind fun _ => alike_pure _
    | _ => exact alike_pure _

/-- Hooks are only ever added. -/
theorem alike_addHook (phase : Phase) (hook : Nat) :
    Alike R (modifySession fun s => { s with hooks := s.hooks.append phase hook })
      (modifySession fun s => { s with hooks := s.hooks.append phase hook }) := by
  refine alike_modify B (fun _ => rfl) fun w => { hooks := fun other => ?_ }
  cases phase <;> cases other <;> simp [Hooks.append, Hooks.at]

section

variable {host host' : Responder} (hh : host.Alike R host')

include hh

theorem alike_contribute (h : PluginHost) (c : Contribution) :
    Alike R (contribute host h c) (contribute host' h c) := by
  cases c with
  | callable space name ident f =>
    exact (alike_newObject B _).bind fun _ => (alike_addCallable B _ _ _ _).discard
  | event ident make => exact (alike_addEvent B _ _).discard
  | exposes cls => exact alike_perform hh _
  | fails f => exact alike_throw f

theorem alike_loadPlugins (h : PluginHost) (names : List String) :
    Alike R (loadPlugins host h names) (loadPlugins host' h names) := by
  refine Alike.bind ?_ fun _ => alike_pure _
  refine alike_mapM (fun name => Alike.bind (Alike.attempt ?_) fun r => ?_) names
  · refine alike_get B (fun _ => rfl) fun w => ?_
    split
    · exact alike_throw _
    · exact (alike_forM (alike_contribute B hh h) _).bind fun _ => alike_pure _
  · split
    · exact (alike_log B _ _ _).bind fun _ => alike_pure _
    · split
      · exact (alike_log B _ _ _).bind fun _ => alike_pure _
      · exact alike_throw _

theorem alike_global (name : String) : Alike R (global host name) (global host' name) := by
  refine alike_get B (fun _ => rfl) fun w => ?_
  split
  · exact alike_pure _
  · exact alike_getGlobal B hh _ _

theorem alike_globals (names : List String) :
    Alike R (globals host names) (globals host' names) := by
  refine alike_get B (fun _ => rfl) fun w => ?_
  split
  · exact alike_pure _
  · exact (alike_mapM (alike_getGlobal B hh _) _).bind fun _ => alike_newList B _

end

/-! ### Most requests -/

/-- What hosts do at the request of others about events is alike, and so are their answers. They may
report calls that fail and events that are refused. -/
structure Attends (R : World → World → Prop) (host host' : Responder)
    (p : Fault → Prop := fun _ => True) : Prop where
  answers : host.Alike R host'
  listen : ∀ name, Alike R (listen host name) (listen host' name)
  emit : ∀ signal args, Alike R (emit host signal args) (emit host' signal args)
  count : ∀ signal, Alike R (do return Datum.int (← handlers signal).length)
    (do return Datum.int (← handlers signal).length)
  failed : ∀ shown f, p (.callFailed shown f) := by intros; trivial
  refused : ∀ name w f, (Op.listen host name).outcome w = .error f → p f := by intros; trivial

section

variable {host host' : Responder} (ha : Attends R host host' p)

include ha

theorem alike_post (author : Datum) (text : String) :
    Alike R (post host author text) (post host' author text) :=
  (alike_newObject B _).bind fun _ => ha.emit _ _

omit B ha in
theorem Alike.andNone {m m' : Op Unit} (hm : Alike R m m') :
    Alike R (do m; return Datum.none) (do m'; return Datum.none) :=
  hm.bind fun _ => alike_pure _

/-- A request that neither governs nor meddles is answered alike. -/
theorem alike_answer_of_plain {q : Request} (hs : q.stirs → Restless R) (hg : q.governs = false)
    (hm : q.meddles = false) : Alike R (answerRequest host q) (answerRequest host' q) := by
  have hh := ha.answers
  cases q with
  | note sheet items => exact Alike.andNone (alike_note B _ _)
  | log level logger text => exact Alike.andNone (alike_log B _ _ _)
  | find name =>
    refine (alike_find B _).bind fun found => ?_
    split <;> exact alike_pure _
  | loaded => exact alike_get B (fun _ => rfl) fun _ => alike_pure _
  | listenTo args => exact (alike_listenTo B hh ha.listen _ ha.refused).bind fun _ => alike_pure _
  | callFunction name args => exact Alike.andNone (alike_callFunction B hh _ _ ha.failed)
  | emit signal args => exact (ha.emit _ _).bind fun _ => alike_pure _
  | handlerCount signal => exact ha.count _
  | global name => exact alike_global B hh _
  | globals names => exact alike_globals B hh _
  | globalNames =>
    refine alike_get B (fun _ => rfl) fun w => ?_
    split
    · exact alike_pure _
    · exact (alike_globalNames B _).bind fun _ => alike_newTexts B _
  | setGlobal environment name value =>
    refine (alike_environmentOf B _).bind fun _ => ?_
    exact Alike.andNone (alike_setGlobal B hh _ _ _)
  | books => exact alike_books B
  | addFunction ident entry =>
    refine (alike_functionEntry B _).bind fun _ => ?_
    exact (alike_addFunction B _ _).bind fun _ => alike_pure _
  | addCallable space name ident f =>
    exact (alike_addCallable B _ _ _ _).bind fun _ => alike_pure _
  | addEvent ident entry =>
    refine (alike_eventEntry B _).bind fun _ => ?_
    exact (alike_addEvent B _ _).bind fun _ => alike_pure _
  | registerType cls => exact (alike_registerType B _).bind fun _ => alike_pure _
  | types =>
    refine alike_get B (fun _ => rfl) fun w => Alike.bind ?_ fun _ => alike_newList B _
    exact alike_mapM (fun c => (alike_newObject B _).map _) _
  | isActive event =>
    exact alike_get B (fun _ => by simp only [World.contains_active_bare]) fun _ => alike_pure _
  | addHook phase hook => exact Alike.andNone (alike_addHook B _ _)
  | addListener listener => exact Alike.andNone (alike_modify B (fun _ => rfl) fun _ => {})
  | registerCommand name help handler =>
    exact Alike.andNone (alike_modify B (fun _ => rfl) fun w => w.apart_outside)
  | queue path => exact Alike.andNone (alike_queueReload B (hs rfl) _)
  | pending => exact alike_get B (fun _ => rfl) fun _ => alike_newTexts B _
  | watch batches extension =>
    exact alike_get B (fun _ => rfl) fun _ => Alike.andNone (alike_watch B (hs rfl) _ _ _)
  | write path content =>
    exact (alike_placeOf B _).bind fun _ =>
      Alike.andNone (alike_modify B (fun _ => rfl) fun w => w.apart_outside)
  | delete path =>
    exact (alike_placeOf B _).bind fun _ =>
      Alike.andNone (alike_modify B (fun _ => rfl) fun w => w.apart_outside)
  | makeDirectory path =>
    refine (alike_placeOf B _).bind fun place =>
      Alike.andNone (alike_modify B (fun w => ?_) fun w => ?_)
    · have hf : w.bare.files = w.files := rfl
      simp only [hf]
      split <;> rfl
    · split <;> exact w.apart_outside
  | seeChanges => exact Alike.andNone (alike_watchChanges B (hs rfl))
  | tickCount => exact alike_get B (fun _ => rfl) fun _ => alike_pure _
  | hostName => exact alike_get B (fun _ => rfl) fun _ => alike_pure _
  | post author text => exact (alike_post B ha _ _).bind fun _ => alike_pure _
  | settings =>
    refine alike_get B (fun _ => rfl) fun w => (alike_ofEntries B _).bind fun _ => ?_
    exact (alike_newObject B _).bind fun _ => alike_pure _
  | stop => exact Alike.andNone (alike_modifyApplication B (by intro _; rfl))
  | halt => exact Alike.andNone (alike_modifyApplication B (by intro _; rfl))
  | cancel => exact Alike.andNone (alike_modifyApplication B (by intro _; rfl))
  | reach found => exact Alike.andNone (alike_modifyApplication B (by intro _; rfl))
  | copy value => exact alike_get B (fun _ => rfl) fun _ => alike_copy B _ _
  | create cls attributes => exact (alike_newObject B _).bind fun _ => alike_pure _
  | createList items => exact alike_newList B _
  | createDict entries => exact alike_newDict B _
  | call f args => exact alike_callDatum B hh _ _
  | «attribute» place name => exact alike_readAttribute B _ _
  | setAttribute place name value => exact Alike.andNone (alike_writeAttribute B _ _ _)
  | operate op args => exact alike_operate B _ _
  | «show» value =>
    exact alike_get B (fun _ => by simp only [World.shown_bare]) fun _ => alike_pure _
  | connect | disconnect | clearHandlers | subscribe | unsubscribe => cases hm
  | _ => cases hg

end

/-! ### Requests that govern -/

/-- What hosts do about events and about the life of scripts is alike. -/
structure Governs (R : World → World → Prop) (host host' : Responder)
    (p : Fault → Prop := fun _ => True) : Prop extends Attends R host host' p where
  load : ∀ path, Alike R (load host path) (load host' path)
  unload : Alike R (unload host) (unload host')
  discover : Alike R (discover host) (discover host')
  unsubscribeAll : Alike R (unsubscribeAll host) (unsubscribeAll host')

omit B in
/-- What is done about the life of scripts is alike once everything about events is. -/
theorem governs_of_attends {host host' : Responder} (L : LifeBond R) (ha : Attends R host host')
    (hd : Alike R (discover host) (discover host'))
    (hu : Alike R (unsubscribeAll host) (unsubscribeAll host')) : Governs R host host' :=
  have hm : Minds R host host' := ⟨ha.answers, hd, hu⟩
  { ha with
    load := alike_load L hm
    unload := alike_unload L hm
    discover := hd
    unsubscribeAll := hu }

section

variable {host host' : Responder} (hg : Governs R host host' p)

include hg

theorem alike_tryLoad (name : String) : Alike R (tryLoad host name) (tryLoad host' name) := by
  refine (alike_find B name).bind fun found => ?_
  split
  · exact hg.load _
  · exact alike_get B (fun _ => rfl) fun w => (alike_log B _ _ _).bind fun _ => alike_pure _

theorem alike_reloadIfCurrent (p : Path) :
    Alike R (reloadIfCurrent host p) (reloadIfCurrent host' p) := by
  refine alike_get B (fun _ => rfl) fun w => ?_
  have say : ∀ (level : LogLevel) text, ∀ b : Bool, Alike R (do
      log level "luahost.reload" text none
      return b) (do
      log level "luahost.reload" text none
      return b) := fun level text b => (alike_log B _ _ _).bind fun _ => alike_pure b
  refine .ite (say .debug _ _) ?_
  refine (hg.load _).bind fun loaded => .ite (say .info _ _) (say .warning _ _)

theorem alike_applyPendingWithin (S : Restless R) (n : Nat) :
    Alike R (applyPendingWithin host n) (applyPendingWithin host' n) := by
  induction n with
  | zero => exact alike_pure _
  | succ n ih =>
    unfold applyPendingWithin
    refine alike_get B (fun _ => rfl) fun w => ?_
    split
    · exact alike_pure _
    · rename_i p rest _
      have shorter : Alike R (modify fun v => { v with pending := rest } : Op Unit)
          (modify fun v => { v with pending := rest }) := fun _ _ h => ⟨rfl, S.queue (fun _ => rest) h⟩
      refine shorter.bind fun _ => ?_
      exact (alike_reloadIfCurrent B hg p).bind fun _ => ih.bind fun _ => alike_pure _

theorem alike_applyPending (S : Restless R) : Alike R (applyPending host) (applyPending host') :=
  alike_get B (fun _ => rfl) fun _ => alike_applyPendingWithin B hg S _

theorem alike_loadFirst : Alike R (loadFirst host) (loadFirst host') := by
  refine (alike_setting B _ _ _).bind fun name => .ite ?_ (alike_pure _)
  exact (alike_settingText B _).bind fun _ => (alike_tryLoad B hg _).discard

theorem alike_boot : Alike R (boot host) (boot host') := by
  refine alike_get B (fun _ => by simp only [World.shown_bare]) fun w =>
    alike_get B (fun _ => rfl) fun _ => (alike_log B _ _ _).bind fun _ => ?_
  have listed : Alike R listedPlugins listedPlugins :=
    alike_get B (fun _ => rfl) fun _ => .ite (alike_ofExcept _) (alike_pure _)
  refine listed.bind fun names => (alike_mapM (alike_settingText B) names).bind fun names => ?_
  refine (alike_loadPlugins B hg.answers _ _).bind fun _ => ?_
  refine (alike_modifyApplication B (by intro _; rfl)).bind fun _ => ?_
  refine hg.discover.bind fun _ => alike_get B (fun _ => rfl) fun _ => ?_
  refine (alike_log B _ _ _).bind fun _ => (alike_openSurface B).bind fun _ => ?_
  refine (alike_beginWatch B).bind fun _ => (alike_loadFirst B hg).bind fun _ => ?_
  exact (alike_modifyApplication B (by intro _; rfl)).bind fun _ => alike_log B _ _ _

theorem alike_shutDown : Alike R (shutDown host) (shutDown host') := by
  refine (alike_log B _ _ _).bind fun _ =>
    (alike_modifyApplication B (by intro _; rfl)).bind fun _ => ?_
  refine hg.unload.bind fun _ => (alike_modifyApplication B (by intro _; rfl)).bind fun _ => ?_
  refine (alike_setting B _ _ _).bind fun _ => ?_
  exact .ite ((alike_log B _ _ _).bind fun _ => alike_log B _ _ _) (alike_log B _ _ _)

section

variable (S : Restless R)

include S

theorem alike_tick : Alike R (tick host) (tick host') := by
  refine Alike.bind (fun _ _ h => ⟨rfl, S.clock (fun a => { a with tick := a.tick + 1 }) h⟩) fun _ => ?_
  refine (alike_applyPending B hg S).discard.bind fun _ => alike_get B (fun _ => rfl) fun _ => ?_
  exact (hg.emit _ _).discard

theorem alike_loopWithin (rests : Bool) (n : Nat) :
    Alike R (loopWithin host rests n) (loopWithin host' rests n) := by
  induction n with
  | zero => exact alike_pure _
  | succ n ih =>
    unfold loopWithin
    refine alike_get B (fun _ => rfl) fun w => .ite ?_ (alike_pure _)
    refine (alike_tick B hg S).bind fun _ => ?_
    exact .ite ((alike_rest B S).bind fun _ => ih) ih

theorem alike_loop : Alike R (loop host) (loop host') := by
  refine (alike_setting B _ _ _).bind fun rate => (alike_ofExcept _).bind fun _ => ?_
  exact alike_loopWithin B hg S _ tickLimit

theorem alike_runHost : Alike R (runHost host) (runHost host') := by
  refine (alike_boot B hg).bind fun _ => (alike_loop B hg S).attempt.bind fun r => ?_
  split
  · exact alike_shutDown B hg
  · exact alike_shutDown B hg
  · exact (alike_shutDown B hg).bind fun _ => alike_throw _

end

theorem alike_runCore (lead : String) (command : CoreCommand) (given : String) :
    Alike R (runCore host lead command given) (runCore host' lead command given) := by
  cases command with
  | load =>
    refine .ite (alike_pure _) ?_
    refine (alike_tryLoad B hg _).bind fun loaded => .ite ?_ (alike_pure _)
    exact (alike_shownPath B).bind fun _ => alike_pure _
  | unload => exact alike_get B (fun _ => rfl) fun _ => hg.unload.bind fun _ => alike_pure _
  | status =>
    refine alike_get B (fun _ => rfl) fun w => .ite (alike_pure _) ?_
    exact alike_get B (fun _ => by simp only [World.names_active_bare]) fun _ =>
      (alike_shownPath B).bind fun _ => alike_pure _
  | events =>
    exact alike_get B (fun _ => by simp only [World.contains_active_bare, World.names_known_bare])
      fun _ => alike_pure _
  | help => exact alike_helpLines B _

theorem alike_runCommandLine (line author : String) :
    Alike R (runCommandLine host line author) (runCommandLine host' line author) := by
  refine alike_get B (fun _ => rfl) fun w => ?_
  dsimp only
  split
  · exact alike_newList B _
  · split
    · exact (alike_callObject B hg.answers _ _).discard.bind fun _ => alike_newList B _
    · exact alike_newList B _
  · exact (alike_helpLines B _).bind fun _ => alike_newTexts B _
  · refine (alike_log B _ _ _).bind fun _ => ?_
    split
    · exact alike_newTexts B _
    · exact (alike_runCore B hg _ _ _).bind fun _ => alike_newTexts B _
    · exact alike_callObject B hg.answers _ _

theorem alike_serve (e : Endpoint) : Alike R (serve host e) (serve host' e) := by
  refine alike_get B (fun _ => rfl) fun w => alike_check ?_
  cases e with
  | status => exact alike_status B
  | load name path =>
    dsimp only
    split
    · exact (alike_throw _).bind fun _ => alike_status B
    · exact (alike_tryLoad B hg _).discard.bind fun _ => alike_status B
    · exact (hg.load _).discard.bind fun _ => alike_status B
  | unload => exact hg.unload.bind fun _ => alike_status B
  | command text author =>
    exact (alike_runCommandLine B hg _ _).bind fun _ => alike_newDict B _
  | catalog =>
    refine alike_get B (fun _ => by simp only [World.names_known_bare]; rfl) fun w =>
      (alike_newTexts B _).bind fun _ => ?_
    refine (alike_newTexts B _).bind fun _ => (alike_newTexts B _).bind fun _ => ?_
    exact (alike_newTexts B _).bind fun _ => alike_newDict B _

/-- A request that governs is answered alike. -/
theorem alike_answer_of_governs {q : Request} (hs : q.stirs → Restless R) (hq : q.governs) :
    Alike R (answerRequest host q) (answerRequest host' q) := by
  cases q with
  | load path => exact (hg.load _).bind fun _ => alike_pure _
  | unload => exact Alike.andNone hg.unload
  | tryLoad name => exact (alike_tryLoad B hg _).bind fun _ => alike_pure _
  | discover => exact hg.discover.bind fun _ => alike_pure _
  | unsubscribeAll =>
    have noted : ∀ f, Alike R (do note "errors" [.object (← newObject (.fault f))])
        (do note "errors" [.object (← newObject (.fault f))]) := fun f =>
      (alike_newObject B _).bind fun _ => alike_note B _ _
    exact hg.unsubscribeAll.bind fun faults => Alike.andNone (alike_forM noted faults)
  | command text author => exact alike_runCommandLine B hg _ _
  | applyPending => exact (alike_applyPending B hg (hs rfl)).bind fun _ => alike_newTexts B _
  | boot => exact Alike.andNone (alike_boot B hg)
  | shutDown => exact Alike.andNone (alike_shutDown B hg)
  | live => exact Alike.andNone (alike_runHost B hg (hs rfl))
  | loop => exact Alike.andNone (alike_loop B hg (hs rfl))
  | tick times => exact Alike.andNone (alike_forM (fun _ => alike_tick B hg (hs rfl)) _)
  | endpoint e => exact alike_serve B hg _
  | _ => cases hq

/-- A request is answered alike once it is if it meddles, and if time makes no difference where it
lets time pass. -/
theorem alike_answerRequest {q : Request} (hs : q.stirs → Restless R)
    (hm : q.meddles → Alike R (answerRequest host q) (answerRequest host' q)) :
    Alike R (answerRequest host q) (answerRequest host' q) := by
  cases hq : q.meddles with
  | true => exact hm hq
  | false =>
    cases hq' : q.governs with
    | true => exact alike_answer_of_governs B hg hs hq'
    | false => exact alike_answer_of_plain B hg.toAttends hs hq' hq

end

end

/-! ### Hosts that refuse something -/

/-- How a host answers that refuses some requests. -/
def refusing (refuses : Request → Bool) (f : Fault) : Nat → Responder
  | 0, _ => throw .tooDeep
  | n + 1, q => if refuses q then throw f else answerRequest (refusing refuses f n) q

end Op

end ScriptHost
