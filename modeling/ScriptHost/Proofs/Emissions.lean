import ScriptHost.Application.Host
import ScriptHost.Proofs.Bindings

/-!
# Who is called when a signal is emitted

Emitting a signal calls the handlers that are connected when it begins, one after the other, whatever
becomes of them meanwhile. So an event is handed on to the script that is there when its turn comes,
which listens to it only if subscriptions have not ended in between, or if it has begun to listen
itself (`subscribed_iff_of_calledIn`).
-/
namespace ScriptHost

namespace World

/-- The script listens to an event. -/
def Subscribed (w : World) (event : Nat) : Prop :=
  ∃ name, (name, event) ∈ w.eventBooks.active.entries

variable {w v : World} {event : Nat}

/-- Where everything has had its turn, what is connected is listened to, unless it has just begun to
come in. -/
theorem Bound.subscribed (h : w.Bound) {t : Tenure} (ht : w.tenure = some t)
    (hn : t.begun? = none) (hc : w.Connected event) : w.Subscribed event :=
  (h.held ht hc).resolve_right fun hb => nomatch hn.symm.trans hb

/-- An event is listened to under its name iff that has not been forgotten since, or has begun
since. -/
theorem Leads.subscribed_iff {own ds : List Deed} (h : Leads w own ds v) (ht : w.Tidy) :
    v.Subscribed event ↔ (w.Subscribed event ∧ .forget ∉ ds) ∨
      ∃ name, v.eventBooks.known.find? name = some event ∧
        Stands (· == .forget) (.listen name) ds := by
  have hlinks := h.links ht
  constructor
  · rintro ⟨name, hm⟩
    have hn : name ∈ ScriptHost.listening w.eventBooks.active.names ds :=
      h.active ▸ List.mem_map_of_mem hm
    rcases mem_listening_iff.1 hn with hs | ⟨hold, hf⟩
    · exact .inr ⟨name, hlinks.tidy.known hm, hs⟩
    · obtain ⟨x, hx, hname⟩ := List.mem_map.1 hold
      have hlater := hlinks.tidy.known ((hlinks.kept hf).subset hx)
      rw [hname, hlinks.tidy.known hm] at hlater
      have hsame : event = x.2 := Option.some.inj hlater
      exact .inl ⟨⟨x.1, hsame ▸ hx⟩, hf⟩
  · rintro (⟨⟨name, hm⟩, hf⟩ | ⟨name, hk, hs⟩)
    · exact ⟨name, (hlinks.kept hf).subset hm⟩
    · have hn : name ∈ v.eventBooks.active.names := by
        rw [h.active]
        exact mem_listening_iff.2 (.inl hs)
      obtain ⟨⟨_, other⟩, hx, rfl⟩ := List.mem_map.1 hn
      obtain rfl := Option.some.inj ((hlinks.tidy.known hx).symm.trans hk)
      exact ⟨_, hx⟩

end World

/-- The environment of a session stays as long as no deed moves it. -/
theorem Holding.environment_replay_of_still (s : Holding) {ds : List Deed}
    (h : ∀ d ∈ ds, d.movesHome = false) : (s.replay ds).environment = s.environment := by
  induction ds generalizing s with
  | nil => rfl
  | cons d ds ih =>
    rw [replay_cons, ih _ fun e he => h e (by simp [he])]
    have hd := h d (by simp)
    cases d <;> first | rfl | cases hd

namespace Op

open World

variable {host : Responder} {signal : String} {args : List Datum} {w v : World}

/-- In the course of emitting a signal in one world, a handler is called in another: those before it
have been called by then. -/
def CalledIn (host : Responder) (signal : String) (args : List Datum) (w : World) (h : Handler)
    (v : World) : Prop :=
  ∃ pre post, w.signals.find? signal = some (pre ++ h :: post) ∧
    v = (callHandlers host signal args pre).after w

theorem after_forM_append {α : Type} {f : α → Op PUnit} (hf : ∀ a w, (f a).Ends w)
    (xs ys : List α) (w : World) :
    ((xs ++ ys).forM f).after w = (ys.forM f).after ((xs.forM f).after w) := by
  induction xs generalizing w with
  | nil => rfl
  | cons a xs ih =>
    obtain ⟨_, ho⟩ := ends_iff.1 (hf a w)
    rw [List.cons_append]
    change (f a >>= fun _ => (xs ++ ys).forM f).after w =
      (ys.forM f).after ((f a >>= fun _ => xs.forM f).after w)
    rw [after_bind_of_ok ho, after_bind_of_ok ho, ih]

/-- A handler that fails is logged, and those after it are called. -/
theorem ends_callNext (signal : String) (args : List Datum) (h : Handler) (w : World) :
    Ends (do
      match ← attempt (callHandler host args h) with
      | .ok _ => return ()
      | .error f => error "luahost.descriptors" s!"Signal '{signal}' handler error: {f.message}") w := by
  unfold Ends
  rw [outcome_attempt_bind]
  cases (callHandler host args h).outcome w <;> rfl

theorem ends_callHandlers (signal : String) (args : List Datum) (hs : Handlers) (w : World) :
    (callHandlers host signal args hs).Ends w :=
  ends_forM (ends_callNext signal args) hs w

theorem after_callHandlers_append (hs hs' : Handlers) (w : World) :
    (callHandlers host signal args (hs ++ hs')).after w =
      (callHandlers host signal args hs').after ((callHandlers host signal args hs).after w) :=
  after_forM_append (ends_callNext signal args) hs hs' w

/-- An emission calls its handlers in turn, and does nothing else. -/
theorem after_emit_of_find? {hs : Handlers} (hf : w.signals.find? signal = some hs) :
    (emit host signal args).after w = (callHandlers host signal args hs).after w := by
  obtain ⟨ho, ha⟩ := handlers_of_find? hf
  unfold emit
  rw [after_bind_of_ok ho, ha, after_bind]
  cases (callHandlers host signal args hs).outcome w <;> rfl

theorem follows_callHandlers (hh : host.Follows) (hs : Handlers) :
    (callHandlers host signal args hs).Follows := by
  refine follows_forM (fun h => (follows_callHandler hh args h).attempt.bind fun r => ?_) hs
  cases r with
  | ok _ => exact follows_pure _
  | error f => exact follows_log _ _ _ _

/-- From where a handler is called, an emission goes on with those after it. -/
theorem after_emit_of_calledIn {h : Handler} (hc : CalledIn host signal args w h v) : ∃ post,
    (emit host signal args).after w =
      (callHandlers host signal args post).after ((callHandlers host signal args [h]).after v) := by
  obtain ⟨pre, post, hf, rfl⟩ := hc
  refine ⟨post, ?_⟩
  rw [after_emit_of_find? hf, after_callHandlers_append, ← after_callHandlers_append [h] post]
  rfl

/-- **Who is called.** Where an event is handed on in the course of an emission, the script that is
there listens to it iff it has begun to since subscriptions last ended, or if it was listened to when
the emission began and no subscriptions have ended since. It was if everything had had its turn by
then, and the script is the same if nothing has been loaded or unloaded. -/
theorem subscribed_iff_of_calledIn (n : Nat) {event : Nat} (ht : w.Tidy)
    (hc : CalledIn (respond n) signal args w (.event event) v) :
    ∃ ds, v.history.toList = w.history.toList ++ ds ∧
      (v.Subscribed event ↔ (w.Subscribed event ∧ .forget ∉ ds) ∨
        ∃ name, v.eventBooks.known.find? name = some event ∧
          Stands (· == .forget) (.listen name) ds) ∧
      (w.Bound → ∀ t, w.tenure = some t → t.begun? = none → w.Subscribed event) ∧
      ((∀ d ∈ ds, d.movesHome = false) → v.session.environment = w.session.environment) := by
  obtain ⟨pre, post, hf, rfl⟩ := hc
  have follows : (callHandlers (respond n) signal args pre).Follows :=
    follows_callHandlers (follows_respond n) pre
  obtain ⟨ds, h⟩ := follows w
  refine ⟨ds, h.history, h.subscribed_iff ht,
    fun hb t ht hn => hb.subscribed ht hn ⟨signal, _, hf, by simp⟩, fun hstill => ?_⟩
  have he := Holding.environment_replay_of_still w.session.holding hstill
  rw [← h.holding] at he
  exact he

/-- A script that listens to an event, another that does not, and an object to connect, which asks
for something when it is called. -/
def relay (request : Request) : World where
  files := ((default : Files.Node).put (.file (Text.encode "ListenTo('t')")) ["a.lua"]).put
    (.file (Text.encode "function T() x = 1 end")) ["b.lua"]
  objects := #[.absent, .callable ⟨"function", "<function>", fun _ => Program.request request, none⟩]
  signals := ⟨[("s", [])]⟩
  catalog :=
    { events := ⟨[("t", pure ⟨"t", .signal "s" "T" deliverToScript⟩)]⟩ }

/-- The object is connected, and the script that listens is loaded. -/
def listeningTo (request : Request) : World :=
  (askAll 6 [.connect "s" 1, .load (.text "a.lua")]).after (relay request)

theorem silent_relay (request : Request) : ∀ x ∈ (relay request).signals.entries, x.2 = [] := by
  simp [relay]

theorem tidy_listeningTo (request : Request) : (listeningTo request).Tidy :=
  (follows_askAll 6 _).tidy
    (tidy_of_unused (fun h => silent_relay request _ (Roster.mem_of_find? h)) rfl rfl)

theorem bound_listeningTo (request : Request) : (listeningTo request).Bound :=
  (traced_askAll 6 _ (bound_of_unused rfl (silent_relay request))).1

/-- The event is handed on to the script that listens to it if nothing is done before. -/
theorem subscribed_of_relay :
    let v := (callHandlers (respond 6) "s" [] [.object 1]).after (listeningTo .loaded)
    v.Subscribed 0 ∧ v.session.environment = some 0 := by
  have h : (listeningTo .loaded).signals.find? "s" = some [.object 1, .event 0] ∧
      ((callHandlers (respond 6) "s" [] [.object 1]).after (listeningTo .loaded)).history.toList =
        (listeningTo .loaded).history.toList ∧
      (listeningTo .loaded).session.environment = some 0 ∧
      (listeningTo .loaded).tenure = some (.held true .free) := by decide +kernel
  obtain ⟨hf, hsame, hhome, ht⟩ := h
  obtain ⟨ds, hds, hiff, hold, hstill⟩ := subscribed_iff_of_calledIn 6 (tidy_listeningTo .loaded)
    ⟨[.object 1], [], hf, rfl⟩
  have hnil : ds = [] :=
    List.append_cancel_left (hds.symm.trans (hsame.trans (List.append_nil _).symm))
  rw [hnil] at hiff hstill
  refine ⟨hiff.2 (.inl ⟨hold (bound_listeningTo .loaded) _ ht rfl, List.not_mem_nil⟩), ?_⟩
  exact (hstill (List.forall_mem_nil _)).trans hhome

/-- If the object asks for the other script, the event is handed on to that, which does not listen to
it and has a callback of this name. -/
theorem not_subscribed_of_relay :
    let w := listeningTo (.load (.text "b.lua"))
    let v := (callHandlers (respond 6) "s" [] [.object 1]).after w
    CalledIn (respond 6) "s" [] w (.event 0) v ∧ ¬ v.Subscribed 0 ∧ v.session.environment = some 1 ∧
      (getGlobal (respond 6) 1 "x").outcome v = .ok .none ∧
      (getGlobal (respond 6) 1 "x").outcome ((emit (respond 6) "s" []).after w) = .ok (.int 1) := by
  intro w v
  have h : w.signals.find? "s" = some [.object 1, .event 0] ∧
      v.eventBooks.active.entries = [] ∧ v.session.environment = some 1 ∧
      (getGlobal (respond 6) 1 "x").outcome v = .ok .none ∧
      (getGlobal (respond 6) 1 "x").outcome ((emit (respond 6) "s" []).after w) = .ok (.int 1) := by
    decide +kernel
  obtain ⟨hf, hnone, hhome, hbefore, hafter⟩ := h
  refine ⟨⟨[.object 1], [], hf, rfl⟩, ?_, hhome, hbefore, hafter⟩
  rintro ⟨name, hm⟩
  rw [hnone] at hm
  cases hm

end Op

end ScriptHost
