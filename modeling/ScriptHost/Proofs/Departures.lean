import ScriptHost.Proofs.Accounts
import ScriptHost.Proofs.Books
import ScriptHost.Proofs.HandOver

/-!
# How a script goes

Whatever fails while a script is unloaded, of the hooks, of the script itself, of the events it listens
to and of the listeners that hear of it, the script is gone in the end, each of these has had its turn
once, and the faults of the events are reported in their order (`departure_iff`). The one thing that
must not fail is to look up what the script is to be told by.
-/
namespace ScriptHost.Op

open World

variable {host : Responder} {w : World} {home : Nat}

/-- What comes of telling a script by a global that it has: a function is called, once, and a call that
fails is reported; anything else is left alone. -/
inductive Told (host : Responder) (home : Nat) (name : String) (a : World) : World → Prop
  | called {f v : Datum} (found : (lookUp host home (.text name)).outcome a = .ok f)
    (callable : (isCallable f).outcome ((lookUp host home (.text name)).after a) = .ok true)
    (done : (callWith host home f []).outcome ((lookUp host home (.text name)).after a) = .ok v) :
    Told host home name a
      ((callWith host home f []).after ((lookUp host home (.text name)).after a))
  | failed {f : Datum} {fault : Fault}
    (found : (lookUp host home (.text name)).outcome a = .ok f)
    (callable : (isCallable f).outcome ((lookUp host home (.text name)).after a) = .ok true)
    (done : (callWith host home f []).outcome ((lookUp host home (.text name)).after a) =
      .error fault) :
    Told host home name a ((report host (.callFailed name fault) .error).after
      ((callWith host home f []).after ((lookUp host home (.text name)).after a)))
  | skipped {f : Datum} (found : (lookUp host home (.text name)).outcome a = .ok f)
    (callable : (isCallable f).outcome ((lookUp host home (.text name)).after a) = .ok false) :
    Told host home name a
      ((skipCall name).after ((lookUp host home (.text name)).after a))

theorem after_isCallable (f : Datum) (w : World) : (isCallable f).after w = w := by
  unfold isCallable
  split <;> rfl

theorem told_tell {name : String} (hhome : w.session.environment = some home)
    (hc : CanAsk host name w) : Told host home name (asked name w) ((tell host name).after w) := by
  rw [CanAsk, hhome] at hc
  obtain ⟨f, hf⟩ := ends_iff.1 hc
  have ha : (tell host name).after w = (callFound host home name f []).after
      ((lookUp host home (.text name)).after (asked name w)) := by
    have hs : (asked name w).session.environment = some home := hhome
    change (callFunction host (.text name) []).after (asked name w) = _
    rw [callFunction, after_get_bind, hs]
    exact after_bind_of_ok hf _
  set b := (lookUp host home (.text name)).after (asked name w) with hb
  have hcall : ∃ c, (isCallable f).outcome b = .ok c := by
    unfold isCallable
    split <;> exact ⟨_, rfl⟩
  obtain ⟨c, hcall⟩ := hcall
  rw [ha, callFound, after_bind_of_ok hcall, after_isCallable]
  cases c with
  | false => exact .skipped hf hcall
  | true =>
    rw [if_pos rfl, after_attempt_bind]
    cases hd : (callWith host home f []).outcome b with
    | ok v => exact .called hf hcall hd
    | error fault => exact .failed hf hcall hd

/-- What an unloading does before subscriptions end: hooks are run and the script is told. -/
def bidFarewell (host : Responder) : Op Unit := do
  takeLeave host
  tell host "OnUnload"

theorem after_bidFarewell (host : Responder) (w : World) :
    (bidFarewell host).after w = toldIn host w := by
  obtain ⟨_, hleave⟩ := ends_iff.1 (ends_takeLeave host w)
  exact after_bind_of_ok hleave _

/-- How a script goes that is unloaded, with the faults of the events it listens to, and what is done
by those who hear of them. -/
structure Departure (host : Responder) (w : World) (home : Nat) (faults : List Fault)
    (late : List Deed) : Prop where
  holding : ((unload host).after w).session.holding = {}
  /-- Known events stay the same ones. -/
  known : ∀ {name event d}, w.eventBooks.known.find? name = some event → w.events[event]? = some d →
    ((unload host).after w).eventBooks.known.find? name = some event ∧
      ((unload host).after w).events[event]? = some d
  /-- The hooks run once and in order, and the script is told once, in its own environment. -/
  turns : ((bidFarewell host).deeds w).filter (!·.isQuiet) =
    .unload :: (w.session.hooks.unloaded.map (.hook .unloaded) ++ [.tell (some home) "OnUnload"])
  environment : (leaving host w).session.environment = some home
  /-- When the script is told, no subscription has ended, unless a hook has ended them all. -/
  active : .forget ∉ (takeLeave host).deeds w →
    w.eventBooks.active.entries <+: (leaving host w).eventBooks.active.entries
  told : Told host home "OnUnload" (asked "OnUnload" (leaving host w)) (toldIn host w)
  /-- Then each event that is listened to ceases, once and in order. -/
  deeds : (unload host).deeds w = (bidFarewell host).deeds w ++ .teardown ::
    ((toldIn host w).eventBooks.active.entries.map (fun x => .detach x.2) ++ .forget ::
      (late ++ [.vacate]))
  each : ∃ v, Unsubscribes host ((record .teardown).after (toldIn host w))
    (toldIn host w).eventBooks.active.entries faults v
  /-- Nothing is listened to unless those who hear of the faults begin to. -/
  forgotten : (∀ name, .listen name ∉ late) → ((unload host).after w).eventBooks.active = {}
  late : ∀ d ∈ late, d.isQuiet
  /-- After what hooks and the script have reported, the faults of the events are reported. -/
  reports : ((bidFarewell host).reports w).filter Fault.isOfLife = [] ∧
    ∃ rest, (unload host).reports w = (bidFarewell host).reports w ++ rest ∧
      rest.filter Fault.isOfLife = faults

/-- Where hooks do not edit the lists of hooks, those run that there are. -/
theorem exists_leads_leaving (hh : host.Follows) (hl : w.session.loaded = true)
    (hhooks : (leaving host w).session.hooks.unloaded = w.session.hooks.unloaded) :
    ∃ ds, Leads w (.unload :: w.session.hooks.unloaded.map (.hook .unloaded)) (.unload :: ds)
      (leaving host w) := by
  obtain ⟨hooks, ⟨ds, hleads, -⟩, hall, honly⟩ := begins_takeLeave hh w hl
  have hsame : w.session.hooks.unloaded = hooks :=
    hall.eq_of_length_le (honly.length_le.trans_eq (congrArg List.length hhooks))
  rw [hsame]
  exact ⟨ds, hleads⟩

/-- Hooks leave the script its environment if they load and unload nothing. -/
theorem environment_leaving {ds : List Deed} {hooks : List Nat}
    (hhome : w.session.environment = some home)
    (h : Leads w (.unload :: hooks.map (.hook .unloaded)) (.unload :: ds) (leaving host w))
    (hn : ∀ d ∈ ds, d.isStart = false) : (leaving host w).session.environment = some home := by
  have alone : Woven.Alone (.unload :: hooks.map (.hook .unloaded)) (.unload :: ds) :=
    ((Woven.alone_cons_iff rfl).2 hn).cons _
  have hrest : w.session.holding.replay (hooks.map (.hook .unloaded)) = w.session.holding :=
    Holding.replay_of_isSteady _ isSteady_hook
  have hheld := h.holding.trans (h.woven.replay_eq alone _)
  rw [Holding.replay_cons] at hheld
  exact (congrArg Holding.environment (hheld.trans hrest)).trans hhome

/-- An unloading that ends in a value ends subscriptions and gives up the script, and does no more. -/
theorem leads_rest_of_unload {n : Nat} {faults : List Fault} {ceased late : List Deed}
    (hl : w.session.loaded = true) (he : (unload (respond n)).Ends w)
    (hend : Ended (respond n) (toldIn (respond n) w) faults ceased late) :
    Leads (toldIn (respond n) w) [.teardown, .vacate]
        (.teardown :: (ceased ++ .forget :: (late ++ [.vacate]))) ((unload (respond n)).after w) ∧
      ∃ text, ((unload (respond n)).after w).log =
        ((endSubscriptions (respond n)).after (toldIn (respond n) w)).log.push
          ⟨.info, "luahost.session", text, none⟩ := by
  obtain ⟨_, hu⟩ := ends_iff.1 he
  obtain ⟨-, text, ha⟩ := after_unload_of_ok hl hu
  let u := (endSubscriptions (respond n)).after (toldIn (respond n) w)
  have hvacate : Leads u [.vacate] [.vacate] (vacate.after u) :=
    leads_enter u { u.session with environment := none, path := none, loaded := false } .vacate rfl
      rfl rfl trivial
  have hinfo : Still (vacate.after u) ((info "luahost.session" text).after (vacate.after u)) := {}
  have hall := (hend.leads.trans hvacate).trans hinfo.leads
  rw [ha]
  exact ⟨by simpa using hall, text, rfl⟩

/-- Before subscriptions end, nothing is reported about the life of a script. -/
theorem accounts_toldIn (n : Nat) (w : World) :
    World.Accounts ((record .unload).after w) [] (toldIn (respond n) w) :=
  (accounts_fire n .unloaded [] ((record .unload).after w)).trans (accounts_tell n "OnUnload" _)

theorem reports_of_parting {n : Nat} {faults : List Fault} {ceased late pre post : List Deed}
    {text : String} (hpre : (toldIn (respond n) w).history.toList =
      w.history.toList ++ .unload :: pre)
    (hpost : ((endSubscriptions (respond n)).after (toldIn (respond n) w)).history.toList =
      (toldIn (respond n) w).history.toList ++ post)
    (hlog : ((unload (respond n)).after w).log =
      ((endSubscriptions (respond n)).after (toldIn (respond n) w)).log.push
        ⟨.info, "luahost.session", text, none⟩)
    (hend : Ended (respond n) (toldIn (respond n) w) faults ceased late)
    (hn : ∀ d ∈ pre ++ post, d.isStart = false) :
    ((bidFarewell (respond n)).reports w).filter Fault.isOfLife = [] ∧
      ∃ rest, (unload (respond n)).reports w = (bidFarewell (respond n)).reports w ++ rest ∧
        rest.filter Fault.isOfLife = faults := by
  obtain ⟨es₁, ds₁, ha₁, hf₁⟩ := accounts_toldIn n w
  obtain ⟨es₂, ds₂, ha₂, hf₂⟩ := hend.accounts
  have hlog₁ : (toldIn (respond n) w).log.toList = w.log.toList ++ es₁ := ha₁.log
  have hd₁ : ds₁ = pre := ha₁.deeds_eq (hpre.trans (by simp [record]))
  have hd₂ : ds₂ = post := ha₂.deeds_eq hpost
  have hbid : (bidFarewell (respond n)).reports w = es₁.filterMap LogEntry.fault := by
    rw [Op.reports, after_bidFarewell, hlog₁, List.drop_left' (by simp)]
  refine ⟨?_, es₂.filterMap LogEntry.fault, ?_, ?_⟩
  · rw [hbid]
    exact hf₁ fun d hd => hn d (List.mem_append_left _ (hd₁ ▸ hd))
  · rw [hbid, Op.reports, hlog, Array.toList_push, ha₂.log, hlog₁, List.append_assoc,
      List.append_assoc, List.drop_left' (by simp)]
    simp
  · exact hf₂ fun d hd => hn d (List.mem_append_right _ (hd₂ ▸ hd))

theorem exists_departure {n : Nat} (ht : w.Tidy) (hl : w.session.loaded = true)
    (hhome : w.session.environment = some home)
    (haloof : (toldIn (respond n) w).Aloof (respond n))
    (hhooks : (leaving (respond n) w).session.hooks.unloaded = w.session.hooks.unloaded)
    (alone : Woven.Alone [.unload] ((unload (respond n)).deeds w))
    (he : (unload (respond n)).Ends w) :
    ∃ faults late, Departure (respond n) w home faults late := by
  have hh := follows_respond n
  obtain ⟨faults, ceased, late, hend⟩ := exists_ended n haloof
  obtain ⟨ds, hleave⟩ := exists_leads_leaving hh hl hhooks
  have htell := (does_tell hh "OnUnload" (leaving (respond n) w)).leads
  set es := (tell (respond n) "OnUnload").deeds (leaving (respond n) w)
  obtain ⟨hrest, text, hlog⟩ := leads_rest_of_unload hl he hend
  have hpre : Leads w _ _ (toldIn (respond n) w) := hleave.trans htell
  have hall := hpre.trans hrest
  have hdeeds : (unload (respond n)).deeds w = (.unload :: ds ++ es) ++
      .teardown :: (ceased ++ .forget :: (late ++ [.vacate])) := hall.deeds_eq.symm
  -- Nothing else begins.
  have hn : ∀ d ∈ ds ++ es ++ .teardown :: (ceased ++ .forget :: (late ++ [.vacate])),
      d.isStart = false :=
    (Woven.alone_cons_iff rfl).1 (hdeeds ▸ alone)
  have henv : (leaving (respond n) w).session.environment = some home :=
    environment_leaving hhome hleave fun d hd => hn d (by simp [hd])
  have hn' : ∀ d ∈ ds ++ es ++ .teardown :: (ceased ++ .forget :: late), d.isStart = false := by
    refine fun d hd => hn d ?_
    simp only [List.mem_append, List.mem_cons] at hd ⊢
    tauto
  obtain ⟨hceased, hlate⟩ := hend.ceased_eq fun d hd =>
    hn' d (List.mem_append_right _ (List.mem_cons_of_mem _ hd))
  rw [henv] at hpre
  have hbid : (bidFarewell (respond n)).deeds w = .unload :: ds ++ es := by
    rw [Op.deeds, after_bidFarewell]
    exact hpre.deeds_eq.symm
  have htake : (takeLeave (respond n)).deeds w = .unload :: ds := hleave.deeds_eq.symm
  refine ⟨faults, late, ?_⟩
  exact
    { holding := holding_after_unload hl he
      known := fun hk hd => ⟨Roster.find?_of_prefix hall.grown.known hk, hall.grown.event hd⟩
      turns := by
        have alone_pre : Woven.Alone [.unload] (.unload :: ds ++ es) :=
          (Woven.alone_cons_iff rfl).2 fun d hd => hn d (List.mem_append_left _ hd)
        rw [hbid, hpre.woven.filter_quiet_eq (alone_pre.cons _)]
        simp [Deed.isQuiet]
      environment := henv
      active := fun hf => (hleave.links ht).kept fun hm => hf (htake ▸ hm)
      told := told_tell henv ((ends_unload_iff hl).1 he).asked
      deeds := by rw [hdeeds, hbid, hceased]
      each := hend.each
      forgotten := fun hnone => Roster.eq_empty_of_names <| by
        rw [hrest.active, ← List.cons_append]
        exact listening_eq_nil fun name hm =>
          (List.mem_append.1 hm).elim (hnone name) fun hm => by simp at hm
      late := hlate
      reports := reports_of_parting hpre.history hend.leads.history hlog hend hn' }

/-- **A script goes.** Where nothing else begins to load or unload anything, hooks do not edit the lists
of hooks and events do not call back, unloading a script ends in a value iff what the script is to be
told by can be looked up, whatever hooks, the script, its events and listeners fail at. Then the script
is gone: all of them have had their turn once, and the events that did not cease are reported. -/
theorem departure_iff (n : Nat) (ht : w.Tidy) (hl : w.session.loaded = true)
    (hhome : w.session.environment = some home)
    (haloof : (toldIn (respond n) w).Aloof (respond n))
    (hhooks : (leaving (respond n) w).session.hooks.unloaded = w.session.hooks.unloaded)
    (alone : Woven.Alone [.unload] ((unload (respond n)).deeds w)) :
    ((unload (respond n)).Ends w ↔ CanAsk (respond n) "OnUnload" (leaving (respond n) w)) ∧
      ((unload (respond n)).Ends w → ∃ faults late, Departure (respond n) w home faults late) := by
  refine ⟨?_, exists_departure ht hl hhome haloof hhooks alone⟩
  obtain ⟨faults, ceased, late, hend⟩ := exists_ended n haloof
  rw [ends_unload_iff hl]
  exact ⟨CanUnload.asked, fun h => ⟨h, (ends_endSubscriptions_iff _).1 hend.ends⟩⟩

/-- A hook that fails, a script that takes all handlers from the signal of its event when it is told of
its unloading, and one that leaves a text that is not well-formed where it would be told. -/
def unruly : World where
  files := ((default : Files.Node).put
    (.file (Text.encode "function OnUnload() A.c() end ListenTo('t')")) ["a.lua"]).put
      (.file (Text.encode "OnUnload = '\\xff'")) ["b.lua"]
  objects := #[.absent, .callable ⟨"function", "<function>",
    fun _ => Program.request (.clearHandlers "s"), none⟩,
    .callable ⟨"function", "<function>", fun _ => throw (.raised "RuntimeError" "hook"), none⟩]
  signals := ({} : Roster (List Handler)).put "s" []
  session := { hooks := { unloaded := [2] } }
  catalog :=
    { functions := ⟨[("A.c", pure ⟨"A", "c", pure (.object 1)⟩)]⟩
      events := ⟨[("t", pure ⟨"t", .signal "s" "T" fun _ _ => pure ()⟩)]⟩ }

theorem tidy_unruly : unruly.Tidy := by
  refine tidy_of_unused (fun {signal hs} h => ?_) rfl rfl
  rw [unruly, Roster.find?_put] at h
  split at h
  · exact (Option.some.inj h).symm
  · cases h

/-- The script goes although its event does not cease. -/
theorem departure_of_unruly :
    let w := (load (respond 9) (.text "a.lua")).after unruly
    (unload (respond 9)).Ends w ∧
      ∃ late, Departure (respond 9) w 0 [.unsubscribing "t" (.handlerAbsent "s")] late := by
  intro w
  have ht : w.Tidy := (follows_load (follows_respond 9) (.text "a.lua")).tidy tidy_unruly
  have h : w.session.loaded = true ∧ w.session.environment = some 0 ∧
      (leaving (respond 9) w).session.hooks.unloaded = w.session.hooks.unloaded ∧
      Woven.Alone [.unload] ((unload (respond 9)).deeds w) ∧ (unload (respond 9)).Ends w ∧
      (toldIn (respond 9) w).eventBooks.active.entries = [("t", 0)] ∧
      (toldIn (respond 9) w).signalOf 0 = some "s" := by
    decide +kernel
  obtain ⟨hl, hhome, hhooks, alone, he, hactive, hsignal⟩ := h
  have hreports : ((unload (respond 9)).reports w).filter Fault.isOfLife =
      [.unsubscribing "t" (.handlerAbsent "s")] := by
    decide +kernel
  have haloof : (toldIn (respond 9) w).Aloof (respond 9) := by
    intro x hx
    rw [hactive, List.mem_singleton] at hx
    obtain ⟨d, callback, deliver, hd, hs⟩ := signalOf_eq_some_iff.1 hsignal
    refine ⟨d, hx ▸ hd, ?_⟩
    rw [EventDescriptor.Aloof, hs]
    trivial
  obtain ⟨faults, late, hgone⟩ := (departure_iff 9 ht hl hhome haloof hhooks alone).2 he
  obtain ⟨hsilent, rest, hr, hf⟩ := hgone.reports
  rw [hr, List.filter_append, hsilent, List.nil_append, hf] at hreports
  exact ⟨he, late, hreports ▸ hgone⟩

/-- What the other script leaves under the name cannot become a value of the host, and it stays. -/
theorem not_ends_unload_of_unruly :
    let w := (load (respond 5) (.text "b.lua")).after unruly
    w.session.loaded = true ∧ ¬ (unload (respond 5)).Ends w ∧
      ((unload (respond 5)).after w).session.loaded = true := by
  decide +kernel

end ScriptHost.Op
