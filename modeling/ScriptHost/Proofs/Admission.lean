import ScriptHost.Proofs.Listening
import ScriptHost.Proofs.Reports

/-!
# Asking to listen

A script that asks to listen to an event is told whether it does from now on, whatever fails
(`listenTo_admits`). Where it does, its event is the last of those that are listened to and nothing is
reported. Where it does not, one fault is: it is logged, and each listener hears of it once, in order
(`World.reported`). In a run in which subscriptions do not end, no event is granted twice
(`nodup_granted`).
-/
namespace ScriptHost

namespace World

/-- The world after a listener has been called with a fault. -/
def heardBy (host : Responder) (place : Nat) (w : World) (listener : Nat) : World :=
  let call := Op.callObject host listener [.object place]
  let v := call.after w
  match call.outcome w with
  | .ok _ => v
  | .error _ =>
    { v with log := v.log.push ⟨.error, "luahost.dispatch", "on_error listener failed", none⟩ }

/-- The world after a fault has been told to listeners, one after the other. -/
def toldTo (host : Responder) (f : Fault) (level : LogLevel) (w : World) (listeners : List Nat) :
    World :=
  listeners.foldl (heardBy host w.objects.size)
    { Op.logged f level w with objects := w.objects.push (.fault f) }

/-- The world after a fault has been reported: logged, and told to all listeners if there are any. -/
def reported (host : Responder) (f : Fault) (level : LogLevel) (w : World) : World :=
  if w.session.listeners.isEmpty then Op.logged f level w
  else toldTo host f level w w.session.listeners

end World

namespace Op

open World

variable {host : Responder} {w v : World} {name : String} {args : List Datum} {event : Nat}

/-! ### Reports -/

theorem after_forM {α : Type} {f : α → Op PUnit} (hf : ∀ a w, (f a).Ends w) (xs : List α)
    (w : World) : (xs.forM f).after w = xs.foldl (fun v a => (f a).after v) w := by
  induction xs generalizing w with
  | nil => rfl
  | cons a xs ih =>
    obtain ⟨_, ho⟩ := ends_iff.mp (hf a w)
    exact (after_bind_of_ok ho _).trans (ih _)

/-- Calls a listener with a fault, and logs it if that fails. -/
def callListener (host : Responder) (place listener : Nat) : Op Unit := do
  match ← attempt (callObject host listener [.object place]) with
  | .ok _ => return ()
  | .error _ => error "luahost.dispatch" "on_error listener failed"

theorem callListener_eq (host : Responder) (place listener : Nat) (w : World) :
    (callListener host place listener).Ends w ∧
      (callListener host place listener).after w = heardBy host place w listener := by
  unfold callListener heardBy Ends
  rw [outcome_attempt_bind, after_attempt_bind]
  dsimp only
  cases (callObject host listener [.object place]).outcome w <;> exact ⟨rfl, rfl⟩

theorem after_report (host : Responder) (f : Fault) (level : LogLevel) (w : World) :
    (report host f level).after w = reported host f level w := by
  rw [report_eq, after_bind_of_ok rfl]
  show (hear host f).after (logged f level w) = _
  unfold hear reported
  rw [after_get_bind]
  dsimp only [logged]
  by_cases he : w.session.listeners.isEmpty
  · rw [if_pos he, if_neg (by simp [he])]
    rfl
  · rw [if_neg he, if_pos (by simp [he]), after_bind_of_ok rfl]
    refine (after_forM (fun l v => (callListener_eq host _ l v).1) _ _).trans ?_
    simp only [(callListener_eq host _ _ _).2]
    rfl

/-- Each listener leaves the books on events alone as it hears of a fault in its turn. -/
def Discreet (host : Responder) (f : Fault) (level : LogLevel) (w : World) : Prop :=
  ∀ before listener, before ++ [listener] <+: w.session.listeners →
    let u := toldTo host f level w before
    ((callObject host listener [.object w.objects.size]).after u).eventBooks = u.eventBooks

theorem Discreet.eventBooks_reported {f : Fault} {level : LogLevel} (h : Discreet host f level w) :
    (reported host f level w).eventBooks = w.eventBooks := by
  have hall (ls : List Nat) (hls : ls <+: w.session.listeners) :
      (toldTo host f level w ls).eventBooks = w.eventBooks := by
    induction ls using List.reverseRecOn with
    | nil => rfl
    | append_singleton before listener ih =>
      rw [← ih ((List.prefix_append _ _).trans hls), ← h before listener hls]
      unfold toldTo
      rw [List.foldl_concat]
      unfold heardBy
      dsimp only
      split <;> rfl
  unfold reported
  split
  · rfl
  · exact hall _ List.prefix_rfl

/-! ### One call -/

/-- The name of the event that is asked for: an empty one where there is none. -/
def eventAsked : List Datum → Option String
  | [] | .none :: _ => some ""
  | .text name :: _ => some name
  | _ => none

theorem listenTo_eq_of_asked (host : Responder) (h : eventAsked args = some name) :
    listenTo host args = listenTo host [.text name] := by
  match args, h with
  | [], rfl | .none :: _, rfl | .text _ :: _, rfl => rfl

/-- A script is told that it does not listen, as a fault has been reported. The books on events are as
before unless the event or a listener has changed them. -/
structure Refuses (host : Responder) (args : List Datum) (f : Fault) (level : LogLevel)
    (w v : World) : Prop where
  outcome : (listenTo host args).outcome w = .ok false
  after : (listenTo host args).after w = reported host f level v
  books : v.eventBooks = w.eventBooks → Discreet host f level v →
    ((listenTo host args).after w).eventBooks = w.eventBooks

/-- The world in which scripts listen to an event from now on. -/
def admitted (name : String) (event : Nat) (w : World) : World :=
  { w with
    eventBooks := { w.eventBooks with active := w.eventBooks.active.put name event }
    history := w.history.push (.listen name)
    log := w.log.push ⟨.info, "luahost.events", s!"Started listening to event '{name}'.", none⟩ }

section

variable (hk : w.eventBooks.known.find? name = some event)
include hk

variable (hl : name ∉ w.eventBooks.active.names)
include hl

theorem listen_of_subscribe (host : Responder) :
    (listen host name).outcome w =
        ((subscribe host event).outcome w).mapError (.subscribing name) ∧
      (listen host name).after w = match (subscribe host event).outcome w with
        | .ok _ => admitted name event ((subscribe host event).after w)
        | .error _ => (subscribe host event).after w := by
  have hnot : w.eventBooks.active.contains name = false :=
    Bool.eq_false_iff.mpr (mt Roster.contains_iff.mp hl)
  cases hs : (subscribe host event).outcome w with
  | ok _ => exact listen_of_ok hk hnot hs
  | error f => exact listen_of_error hk hnot hs

end

/-- How grave it is that a script does not listen. -/
def gravity : Fault → LogLevel
  | .eventUnknown _ | .alreadyListening _ => .warning
  | _ => .error

theorem refuses_of_error {f : Fault} (ho : (listen host name).outcome w = .error f)
    (ha : (listen host name).after w = v) (hf : f.isContained) :
    Refuses host [.text name] f (gravity f) w v := by
  have hreport (level : LogLevel) (v : World) :
      (do report host f level; return false : Op Bool).outcome v = .ok false ∧
        (do report host f level; return false : Op Bool).after v = reported host f level v := by
    obtain ⟨_, hr⟩ := ends_iff.mp (ends_report host f level v)
    rw [outcome_bind_of_ok hr, after_bind_of_ok hr, after_report]
    exact ⟨rfl, rfl⟩
  have hname : w.shown (.text name) = name := rfl
  have hboth : (listenTo host [.text name]).outcome w = .ok false ∧
      (listenTo host [.text name]).after w =
        reported host f (gravity f) v := by
    unfold listenTo
    simp only [outcome_get_bind, after_get_bind, List.headD_cons, hname, outcome_attempt_bind,
      after_attempt_bind, ho, ha]
    split
    · exact hreport _ _
    · exact hreport _ _
    · next hunknown hlistening =>
      have hgrave : gravity f = .error := by
        cases f with
        | eventUnknown x => exact absurd rfl (hunknown x)
        | alreadyListening x => exact absurd rfl (hlistening x)
        | _ => rfl
      rw [if_pos hf, hgrave]
      exact hreport _ _
  exact ⟨hboth.1, hboth.2, fun hb hd => by rw [hboth.2, hd.eventBooks_reported, hb]⟩

theorem listenTo_of_ok (ho : (listen host name).outcome w = .ok ()) :
    (listenTo host [.text name]).outcome w = .ok true ∧
      (listenTo host [.text name]).after w = (listen host name).after w := by
  have hname : w.shown (.text name) = name := rfl
  unfold listenTo
  simp only [outcome_get_bind, after_get_bind, List.headD_cons, hname, outcome_attempt_bind,
    after_attempt_bind, ho]
  exact ⟨rfl, rfl⟩

theorem admits_of_ok (hk : w.eventBooks.known.find? name = some event)
    (hl : name ∉ w.eventBooks.active.names) (hs : (subscribe host event).outcome w = .ok ()) :
    (listenTo host [.text name]).outcome w = .ok true ∧
      (listenTo host [.text name]).after w =
        admitted name event ((subscribe host event).after w) := by
  obtain ⟨ho, ha⟩ := listen_of_subscribe hk hl host
  rw [hs] at ho ha
  obtain ⟨hto, hta⟩ := listenTo_of_ok ho
  exact ⟨hto, hta.trans ha⟩

theorem refuses_of_unknown (host : Responder) (hk : w.eventBooks.known.find? name = none) :
    Refuses host [.text name] (.eventUnknown name) .warning w w := by
  obtain ⟨ho, ha⟩ := listen_of_unknown hk host
  exact refuses_of_error ho ha rfl

theorem refuses_of_active (host : Responder) (hk : w.eventBooks.known.find? name = some event)
    (hl : name ∈ w.eventBooks.active.names) :
    Refuses host [.text name] (.alreadyListening name) .warning w w := by
  obtain ⟨ho, ha⟩ := listen_of_active hk (Roster.contains_iff.mpr hl) host
  exact refuses_of_error ho ha rfl

theorem refuses_of_subscribe (hk : w.eventBooks.known.find? name = some event)
    (hl : name ∉ w.eventBooks.active.names) {f : Fault}
    (hs : (subscribe host event).outcome w = .error f) :
    Refuses host [.text name] (.subscribing name f) .error w ((subscribe host event).after w) := by
  obtain ⟨ho, ha⟩ := listen_of_subscribe hk hl host
  rw [hs] at ho ha
  exact refuses_of_error ho ha rfl

/-! ### Many calls -/

/-- The event that a request is granted: one to listen to it, and it is told that it does. -/
def grantedBy (n : Nat) (q : Request) (w : World) : Option String :=
  match q with
  | .listenTo args => if (respond n q).outcome w = .ok (.bool true) then eventAsked args else none
  | _ => none

/-- The events that are granted while a host is asked for one thing after another. -/
def granted (n : Nat) : List Request → World → List String
  | [], _ => []
  | q :: qs, w => (grantedBy n q w).toList ++ granted n qs ((respond n q).after w)

/-- What is listened to still is as long as nothing is forgotten. -/
theorem mem_active_respond {n : Nat} {q : Request} (hf : .forget ∉ (respond n q).deeds w)
    (hm : name ∈ w.eventBooks.active.names) :
    name ∈ ((respond n q).after w).eventBooks.active.names := by
  rw [((follows_respond n q).does w).leads.active]
  exact mem_listening_iff.mpr (.inr ⟨hm, hf⟩)

/-- What is granted has not been listened to before, and is then. -/
theorem listens_of_grantedBy {n : Nat} {q : Request} (h : grantedBy n q w = some name) :
    name ∉ w.eventBooks.active.names ∧
      name ∈ ((respond n q).after w).eventBooks.active.names := by
  unfold grantedBy at h
  split at h
  · next args =>
    split at h
    · next ho =>
      cases n with
      | zero => cases ho
      | succ n =>
        obtain ⟨b, hb, hbool⟩ := exists_of_bind_ok (m := listenTo (respond n) args) ho
        obtain ⟨rfl, -⟩ : b = true ∧ _ := by simpa using hbool
        have hafter : (respond (n + 1) (.listenTo args)).after w =
            (listenTo (respond n) args).after w := after_bind_of_ok hb _
        rw [listenTo_eq_of_asked _ h] at hb hafter
        obtain ⟨⟨event, hk, hs⟩, hl⟩ := listenTo_iff.mp hb
        obtain ⟨_, hso⟩ := ends_iff.mp hs
        rw [hafter, (admits_of_ok hk hl hso).2]
        exact ⟨hl, List.mem_map_of_mem (Roster.mem_put_self _ _ _)⟩
    · cases h
  · cases h

/-- No event is granted twice while none is forgotten, nor one that was listened to before. -/
theorem nodup_granted (n : Nat) (qs : List Request) (w : World)
    (h : .forget ∉ (askAll n qs).deeds w) :
    (granted n qs w).Nodup ∧ ∀ name ∈ granted n qs w, name ∉ w.eventBooks.active.names := by
  induction qs generalizing w with
  | nil => exact ⟨List.nodup_nil, nofun⟩
  | cons q qs ih =>
    rw [deeds_askAll_cons, List.mem_append, not_or] at h
    obtain ⟨hnodup, hnew⟩ := ih ((respond n q).after w) h.2
    have hold (x : String) (hx : x ∈ granted n qs ((respond n q).after w)) :
        x ∉ w.eventBooks.active.names :=
      fun hm => hnew x hx (mem_active_respond h.1 hm)
    unfold granted
    cases hg : grantedBy n q w with
    | none => exact ⟨hnodup, hold⟩
    | some name =>
      obtain ⟨hfirst, hthen⟩ := listens_of_grantedBy hg
      refine ⟨List.nodup_cons.mpr ⟨fun hm => hnew name hm hthen, hnodup⟩, fun x hx => ?_⟩
      rcases List.mem_cons.mp hx with rfl | hx
      · exact hfirst
      · exact hold x hx

/-- **Asking to listen.** A script that asks to listen to an event by a text, or to none, is told whether
it does, whatever fails. It does just when the event is known, not listened to and begins: then it is
entered last, and nothing is reported. Otherwise a fault is reported to each listener once, in order:
a warning if the event is unknown or listened to already, when nothing has begun, and else an error that
carries what failed. So while subscriptions do not end, no event is granted twice. -/
theorem listenTo_admits (host : Responder) (w : World) (ha : eventAsked args = some name) :
    ((listenTo host args).outcome w = .ok true ↔
      CanSubscribe host name w ∧ name ∉ w.eventBooks.active.names) ∧
    (w.eventBooks.known.find? name = none →
      Refuses host args (.eventUnknown name) .warning w w) ∧
    (∀ event, w.eventBooks.known.find? name = some event →
      (name ∈ w.eventBooks.active.names →
        Refuses host args (.alreadyListening name) .warning w w) ∧
      (name ∉ w.eventBooks.active.names →
        let v := (subscribe host event).after w
        (∀ f, (subscribe host event).outcome w = .error f →
          Refuses host args (.subscribing name f) .error w v) ∧
        ((subscribe host event).outcome w = .ok () →
          (listenTo host args).after w = admitted name event v ∧
          (v.eventBooks = w.eventBooks → ((listenTo host args).after w).eventBooks =
            { w.eventBooks with
              active := ⟨w.eventBooks.active.entries ++ [(name, event)]⟩ })))) ∧
    ∀ n qs, .forget ∉ (askAll n qs).deeds w →
      (granted n qs w).Nodup ∧ ∀ x ∈ granted n qs w, x ∉ w.eventBooks.active.names := by
  have hsame := listenTo_eq_of_asked host ha
  have hrefuse {f : Fault} {level : LogLevel} {v : World}
      (h : Refuses host [.text name] f level w v) : Refuses host args f level w v :=
    ⟨hsame ▸ h.outcome, hsame ▸ h.after, hsame ▸ h.books⟩
  refine ⟨hsame ▸ listenTo_iff, fun hk => hrefuse (refuses_of_unknown host hk),
    fun event hk => ⟨fun hl => hrefuse (refuses_of_active host hk hl), fun hl => ?_⟩,
    fun n qs => nodup_granted n qs w⟩
  refine ⟨fun f hs => hrefuse (refuses_of_subscribe hk hl hs), fun hs => ?_⟩
  have hadmit := (admits_of_ok hk hl hs).2
  rw [hsame, hadmit]
  refine ⟨rfl, fun hb => ?_⟩
  have hnew : w.eventBooks.active.contains name = false := by
    rwa [← Bool.not_eq_true, Roster.contains_iff]
  unfold admitted
  rw [hb, ← Roster.entries_put_of_new hnew event]

/-- An event that comes in and one that cannot begin are known, and the one listener fails at all it
hears. -/
def frail : World where
  objects := #[.absent, .callable ⟨"function", "<function>", fun _ => throw .noCharacter, none⟩]
  events := #[⟨"t", .signal "s" "T" fun _ _ => pure ()⟩,
    ⟨"b", .foreign (throw .outOfMemory) (pure ())⟩]
  signals := ⟨[("s", [])]⟩
  eventBooks := { known := ⟨[("t", 0), ("b", 1)]⟩ }
  session := { listeners := [1] }

theorem discreet_frail (f : Fault) (level : LogLevel) : Discreet (respond 2) f level frail := by
  intro before listener h
  obtain ⟨rfl, rfl⟩ : before = [] ∧ listener = 1 := by
    rcases before with _ | ⟨x, _ | ⟨y, before⟩⟩ <;> simp_all [frail]
  rfl

/-- Asks for the first event, for one without a name, for the second, and for the first again. -/
def asks : List Request :=
  [.listenTo [.text "t"], .listenTo [], .listenTo [.text "b"], .listenTo [.text "t", .none]]

/-- The first is granted, and only once. What is refused leaves the books as they are, and the listener
hears of it although it fails. -/
theorem listenTo_admits_of_frail :
    ((listenTo (respond 2) [.text "t"]).after frail).eventBooks.active.entries = [("t", 0)] ∧
    Refuses (respond 2) [.text "b"] (.subscribing "b" .outOfMemory) .error frail frail ∧
    ((listenTo (respond 2) [.none, .none]).after frail).eventBooks = frail.eventBooks ∧
    granted 2 asks frail = ["t"] ∧ (granted 2 asks frail).Nodup := by
  obtain ⟨-, -, hgrant, hnodup⟩ :=
    listenTo_admits (respond 2) frail (rfl : eventAsked [.text "t"] = some "t")
  obtain ⟨-, hunknown, -⟩ :=
    listenTo_admits (respond 2) frail (rfl : eventAsked [.none, .none] = some "")
  obtain ⟨-, -, hfail, -⟩ :=
    listenTo_admits (respond 2) frail (rfl : eventAsked [.text "b"] = some "b")
  have hquiet : .forget ∉ (askAll 2 asks).deeds frail ∧ granted 2 asks frail = ["t"] := by
    decide +kernel
  refine ⟨?_, ?_, ?_, hquiet.2, (hnodup 2 asks hquiet.1).1⟩
  · have hbooks := ((hgrant 0 rfl).2 nofun).2 rfl
    rw [hbooks.2 rfl]
    rfl
  · exact ((hfail 1 rfl).2 nofun).1 _ rfl
  · exact (hunknown rfl).books rfl (discreet_frail _ _)

end Op

end ScriptHost
