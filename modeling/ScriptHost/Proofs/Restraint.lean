import ScriptHost.Proofs.Attachment
import ScriptHost.Proofs.Bindings

/-!
# Hosts under restraint

Foreign code that loads and unloads nothing, puts nothing in the queue and lets no tick pass leaves
the pulse of a world as it is (`World.pulse`). A host is under restraint where whatever else is
asked is taken back (`restrained`). There the clock stands still and the queue stays the same but
for what the host does itself (`governs_timed`), and the history tells which events are connected to
a signal (`World.Faithful`, `governs_witnessed`): those that have begun to come in and have not
ceased since.
-/
namespace ScriptHost

open Files (Path)

namespace World

variable {w v : World} {bell signal : String} {event : Nat} {hs hs' : Handlers}

/-! ### Histories and what is connected -/

/-- An event has begun to come in, and has not ceased since. -/
def Incoming (w : World) (event : Nat) : Prop :=
  Stands (· == .detach event) (.attach event) w.history.toList

/-- The history tells which events are connected to a signal, each once and to its own only. -/
structure Faithful (bell : String) (w : World) : Prop where
  nodup : ∀ {signal hs}, w.signals.find? signal = some hs → hs.Nodup
  owned : ∀ {signal hs event}, w.signals.find? signal = some hs → .event event ∈ hs →
    w.signalOf event = some signal
  made : ∀ {event}, .attach event ∈ w.history.toList → event < w.events.size
  incoming_iff : ∀ {event hs}, w.signalOf event = some bell → w.signals.find? bell = some hs →
    (.event event ∈ hs ↔ w.Incoming event)

/-- What can be told from events, signals and history. -/
theorem Faithful.congr (h : Faithful bell w) (he : v.events = w.events)
    (hs : v.signals = w.signals) (hh : v.history = w.history) : Faithful bell v where
  nodup := by
    rw [hs]
    exact h.nodup
  owned := by
    unfold signalOf
    rw [hs, he]
    exact h.owned
  made := by
    rw [hh, he]
    exact h.made
  incoming_iff := by
    unfold signalOf Incoming
    rw [hs, he, hh]
    exact h.incoming_iff

/-- The history is faithful where nothing has happened and no event is connected. -/
theorem faithful_of_nil (hh : w.history = #[])
    (hn : ∀ {signal hs}, w.signals.find? signal = some hs → hs.Nodup)
    (hs : ∀ {signal hs event}, w.signals.find? signal = some hs → .event event ∉ hs) :
    Faithful bell w where
  nodup := hn
  owned hf hm := absurd hm (hs hf)
  made hm := by
    rw [hh] at hm
    cases hm
  incoming_iff {event _} _ hf := by
    have hnot : ¬ w.Incoming event := by
      rw [Incoming, hh]
      exact not_stands_nil
    exact iff_of_false (hs hf) hnot

theorem incoming_iff_of_push {d : Deed} (h : v.history = w.history.push d) (event : Nat) :
    v.Incoming event ↔ d = .attach event ∨ (d ≠ .detach event ∧ w.Incoming event) := by
  rw [Incoming, h, Array.toList_push, stands_concat, beq_eq_false_iff_ne]
  rfl

/-- A deed that is not about an event of the signal makes no difference. -/
theorem Faithful.record (h : Faithful bell w) {d : Deed}
    (hd : ∀ event, w.signalOf event = some bell → d ≠ .attach event ∧ d ≠ .detach event)
    (hm : ∀ event, d = .attach event → event < w.events.size) :
    Faithful bell { w with history := w.history.push d } where
  nodup := h.nodup
  owned := h.owned
  made {event} he := by
    rw [Array.toList_push, List.mem_append, List.mem_singleton] at he
    exact he.elim h.made fun he => hm event he.symm
  incoming_iff {event hs} ho hf := by
    obtain ⟨ha, hnot⟩ := hd event ho
    rw [incoming_iff_of_push rfl, h.incoming_iff ho hf]
    exact ⟨fun hi => .inr ⟨hnot, hi⟩, fun hi => (hi.resolve_left ha).2⟩

/-- An event that is not connected ceases to come in. -/
theorem Faithful.detach (h : Faithful bell w)
    (hnot : w.signalOf event = some bell → ∀ {hs}, w.signals.find? bell = some hs →
      .event event ∉ hs) :
    Faithful bell { w with history := w.history.push (.detach event) } where
  nodup := h.nodup
  owned := h.owned
  made {e} he := by
    rw [Array.toList_push, List.mem_append, List.mem_singleton] at he
    exact he.elim h.made nofun
  incoming_iff {e hs} ho hf := by
    rw [incoming_iff_of_push (w := w) rfl]
    by_cases he : e = event
    · subst he
      simp [hnot ho hf]
    · refine (h.incoming_iff ho hf).trans ?_
      simp [Ne.symm he]

/-- The handlers of a signal change. If it is the one in question, its events stay. -/
theorem Faithful.setHandlers (h : Faithful bell w) (hf : w.signals.find? signal = some hs)
    (hn : hs'.Nodup) (hsub : ∀ e, Handler.event e ∈ hs' → Handler.event e ∈ hs)
    (hstay : signal = bell → ∀ e, Handler.event e ∈ hs → Handler.event e ∈ hs') :
    Faithful bell { w with signals := w.signals.put signal hs' } where
  nodup ho := by
    rcases Roster.find?_put_eq_some ho with ⟨-, rfl⟩ | ⟨-, ho⟩
    · exact hn
    · exact h.nodup ho
  owned {other hs event} ho hm := by
    rcases Roster.find?_put_eq_some ho with ⟨rfl, rfl⟩ | ⟨-, ho⟩
    · exact h.owned hf (hsub event hm)
    · exact h.owned ho hm
  made := h.made
  incoming_iff {event _} ho hf' := by
    rcases Roster.find?_put_eq_some hf' with ⟨rfl, rfl⟩ | ⟨-, hf'⟩
    · exact Iff.trans ⟨hsub event, hstay rfl event⟩ (h.incoming_iff ho hf)
    · exact h.incoming_iff ho hf'

/-- An event begins to come in through its signal, or ceases to. -/
theorem Faithful.transfer (h : Faithful bell w) {d : Deed}
    (hf : w.signals.find? signal = some hs) (hn : hs'.Nodup)
    (ho : w.signalOf event = some signal) (hd : d = .attach event ∨ d = .detach event)
    (hiff : ∀ e, Handler.event e ∈ hs' ↔
      d = .attach e ∨ (d ≠ .detach e ∧ Handler.event e ∈ hs)) :
    Faithful bell
      { w with signals := w.signals.put signal hs', history := w.history.push d } where
  nodup hf' := by
    rcases Roster.find?_put_eq_some hf' with ⟨-, rfl⟩ | ⟨-, hf'⟩
    · exact hn
    · exact h.nodup hf'
  owned {other hs e} hf' hm := by
    rcases Roster.find?_put_eq_some hf' with ⟨rfl, rfl⟩ | ⟨-, hf'⟩
    · rcases (hiff e).1 hm with rfl | ⟨-, hm⟩
      · rcases hd with hd | hd <;> cases hd
        exact ho
      · exact h.owned hf hm
    · exact h.owned hf' hm
  made {e} he := by
    rw [Array.toList_push, List.mem_append, List.mem_singleton] at he
    rcases he with he | rfl
    · exact h.made he
    · rcases hd with hd | hd <;> cases hd
      obtain ⟨_, _, _, hsome, -⟩ := signalOf_eq_some_iff.1 ho
      exact (Array.getElem?_eq_some_iff.1 hsome).1
  incoming_iff {e hs} ho' hf' := by
    rw [incoming_iff_of_push (w := w) rfl]
    rcases Roster.find?_put_eq_some hf' with ⟨rfl, rfl⟩ | ⟨hne, hf'⟩
    · rw [hiff e]
      exact or_congr_right (and_congr_right fun _ => h.incoming_iff ho' hf)
    · -- The event forwards another signal, so the deed is not about it.
      have hother : e ≠ event := by
        rintro rfl
        exact hne (Option.some.inj (ho'.symm.trans ho))
      refine (h.incoming_iff ho' hf').trans ?_
      rcases hd with rfl | rfl <;> simp [hother.symm]

/-- An event that is made known has not come in before. -/
theorem Faithful.welcome (h : Faithful bell w) (d : EventDescriptor) :
    Faithful bell (w.welcome d) := by
  have old {e : Nat} (he : e < w.events.size) : (w.welcome d).signalOf e = w.signalOf e :=
    (longer_welcome w d).signalOf_eq he
  have valid {signal : String} {hs : Handlers} {e : Nat} (hf : w.signals.find? signal = some hs)
      (hm : Handler.event e ∈ hs) : e < w.events.size := by
    obtain ⟨_, _, _, hsome, -⟩ := signalOf_eq_some_iff.1 (h.owned hf hm)
    exact (Array.getElem?_eq_some_iff.1 hsome).1
  refine ⟨h.nodup, fun hf hm => (old (valid hf hm)).trans (h.owned hf hm), fun he => ?_,
    fun {e _} ho hf => ?_⟩
  · exact Nat.lt_of_lt_of_eq (Nat.lt_succ_of_lt (h.made he)) (Array.size_push ..).symm
  · by_cases he : e < w.events.size
    · exact h.incoming_iff ((old he).symm.trans ho) hf
    · exact iff_of_false (fun hm => he (valid hf hm)) fun hi => he (h.made hi.mem)

/-! ### What is kept -/

/-- A world with a faithful history goes on from another. -/
def Witnessed (bell : String) (base w : World) : Prop :=
  Faithful bell w ∧ Onward base w

theorem Faithful.witnessed (h : Faithful bell w) : Witnessed bell w w :=
  ⟨h, .refl w⟩

theorem Witnessed.trans {u : World} (h : Witnessed bell w v) (h' : Witnessed bell v u) :
    Witnessed bell w u :=
  ⟨h'.1, h.2.trans h'.2⟩

theorem Witnessed.congr {base : World} (h : Witnessed bell base w) (he : v.events = w.events)
    (hk : v.eventBooks.known = w.eventBooks.known) (hs : v.signals = w.signals)
    (hh : v.history = w.history) : Witnessed bell base v :=
  ⟨h.1.congr he hs hh, h.2.congr he hk (by rw [hs])⟩

theorem lifeInvariant_witnessed (bell : String) (base : World) :
    LifeInvariant (Witnessed bell base) where
  apart h hv := h.congr hv.places (by rw [hv.books]) hv.signals hv.history
  log _ _ h := h.congr rfl rfl rfl rfl
  session _ h := h.congr rfl rfl rfl rfl
  record {w d} hd h := by
    have hattach : ∀ e, d ≠ .attach e := by
      rintro e rfl
      cases hd
    have hdetach : ∀ e, d ≠ .detach e := by
      rintro e rfl
      cases hd
    exact ⟨h.1.record (fun e _ => ⟨hattach e, hdetach e⟩) fun e he => absurd he (hattach e),
      h.2.congr rfl rfl rfl⟩

theorem timeless_witnessed (bell : String) (base : World) : Timeless (Witnessed bell base) where
  clock _ h := h.congr rfl rfl rfl rfl
  queue _ h := h.congr rfl rfl rfl rfl

theorem welcoming_witnessed (bell : String) (base : World) : Welcoming (Witnessed bell base) where
  toLifeInvariant := lifeInvariant_witnessed bell base
  discovered _ h := h.congr rfl rfl rfl rfl
  welcome {w} d _ h := ⟨h.1.welcome d, h.2.trans ⟨longer_welcome w d, rfl⟩⟩

/-- What stays as it is where nothing is loaded or unloaded, nothing joins the queue and no tick
passes: the clock, the queue, and how many loads and unloadings have begun. -/
def pulse (w : World) : Nat × List Path × Nat :=
  (w.application.tick, w.pending, w.history.toList.countP Deed.isStart)

/-- The clock and the queue of a world are those of another. -/
def Timed (base w : World) : Prop :=
  w.application.tick = base.application.tick ∧ w.pending = base.pending

theorem loose_timed (base : World) : Loose (Timed base) where
  apart h hv := ⟨hv.clock.trans h.1, hv.queue.trans h.2⟩
  log _ _ h := h
  session _ h := h
  record _ h := h
  signals _ _ h := h
  quiet _ h := h
  forget h := h

theorem welcoming_timed (base : World) : Welcoming (Timed base) where
  toLifeInvariant := (loose_timed base).toLifeInvariant
  discovered _ h := h
  welcome _ _ h := h

end World

/-- Whether a request tells a signal or takes all its handlers off it. -/
def Request.tampers (bell : String) : Request → Bool
  | emit signal _ | clearHandlers signal => signal == bell
  | _ => false

namespace Op

open World

variable {bell : String} {w : World} {event : Nat} {host : Responder}

/-! ### Signals -/

theorem alike_witnessed {α : Type} {m : Op α} (base : World)
    (h : ∀ w, Faithful bell w → Witnessed bell w (m.after w)) :
    Alike (Only (Witnessed bell base)) m m :=
  alike_only_iff.2 fun w hw => hw.trans (h w hw.1)

theorem witnessed_connect_object (hw : Faithful bell w) (signal : String) (place : Nat) :
    Witnessed bell w ((connect signal (.object place)).after w) := by
  rcases connect_cases signal (.object place) w with ⟨hs, hf, hm, -, ha⟩ | ⟨_, -, ha⟩
  · rw [ha]
    have hn : (hs ++ [Handler.object place]).Nodup := Handlers.nodup_connect? (hw.nodup hf) (if_neg hm)
    exact ⟨hw.setHandlers hf hn (by simp) (by simp),
      (Onward.refl w).congr rfl rfl (Roster.names_put_of_find? hf _)⟩
  · rw [ha]
    exact hw.witnessed

theorem witnessed_disconnect_object (hw : Faithful bell w) (signal : String) (place : Nat) :
    Witnessed bell w ((disconnect signal (.object place)).after w) := by
  rcases disconnect_cases signal (.object place) w with ⟨hs, hf, -, -, ha⟩ | ⟨-, _, -, ha⟩
  · rw [ha]
    have other : ∀ e, Handler.event e ≠ .object place := by simp
    exact ⟨hw.setHandlers hf ((hw.nodup hf).erase _) (fun e he => List.mem_of_mem_erase he)
      fun _ e he => (List.mem_erase_of_ne (other e)).2 he,
      (Onward.refl w).congr rfl rfl (Roster.names_put_of_find? hf _)⟩
  · rw [ha]
    exact hw.witnessed

theorem witnessed_clearHandlers (hw : Faithful bell w) {signal : String} (hne : signal ≠ bell) :
    Witnessed bell w (Op.after (do discard (handlers signal); setHandlers signal []) w) := by
  rw [discard_bind, after_handlers_bind]
  cases hf : w.signals.find? signal with
  | none => exact hw.witnessed
  | some hs =>
    exact ⟨hw.setHandlers hf List.nodup_nil nofun fun h => absurd h hne,
      (Onward.refl w).congr rfl rfl (Roster.names_put_of_find? hf _)⟩

/-! ### Subscriptions -/

section

variable (hh : ∀ base, host.Alike (Only (Witnessed bell base)) host)

include hh

theorem witnessed_perform {α : Type} (hw : Faithful bell w) (p : Program α) :
    Witnessed bell w ((perform host p).after w) :=
  alike_only_iff.1 (alike_perform (hh w) p) w hw.witnessed

/-- An event begins to come in, and the history tells so. -/
theorem witnessed_subscribe (hw : Faithful bell w) (event : Nat) :
    Witnessed bell w ((subscribe host event).after w) := by
  cases hd : w.events[event]? with
  | none =>
    rw [(subscribe_of_none hd host).2]
    exact hw.witnessed
  | some d =>
    cases ho : d.source with
    | signal signal callback deliver =>
      have hsignal : w.signalOf event = some signal :=
        signalOf_eq_some_iff.2 ⟨d, callback, deliver, hd, ho⟩
      rw [(subscribe_of_signal hd ho host).2]
      rcases connect_cases signal (.event event) w with ⟨hs, hf, hm, hok, ha⟩ | ⟨f, hf, ha⟩
      · rw [after_bind_of_ok hok, ha]
        have hn : (hs ++ [Handler.event event]).Nodup := Handlers.nodup_connect? (hw.nodup hf) (if_neg hm)
        refine ⟨hw.transfer hf hn hsignal (.inl rfl) fun e => ?_,
          (Onward.refl w).congr rfl rfl (Roster.names_put_of_find? hf _)⟩
        simp [or_comm, eq_comm]
      · rw [after_bind_of_error hf, ha]
        exact hw.witnessed
    | foreign begin_ end_ =>
      have hp := witnessed_perform hh hw begin_
      rw [(subscribe_of_foreign hd ho host).2]
      cases hr : (perform host begin_).outcome w with
      | ok _ =>
        rw [after_bind_of_ok hr]
        have hlt : event < w.events.size := (Array.getElem?_eq_some_iff.1 hd).1
        have hlater : event < ((perform host begin_).after w).events.size :=
          Nat.lt_of_lt_of_le hlt hp.2.events.length_le
        have hother : ∀ e, ((perform host begin_).after w).signalOf e = some bell → e ≠ event := by
          rintro e he rfl
          rw [hp.2.signalOf_eq hlt] at he
          obtain ⟨_, _, _, hd', ho'⟩ := signalOf_eq_some_iff.1 he
          obtain rfl := Option.some.inj (hd.symm.trans hd')
          cases ho.symm.trans ho'
        refine hp.trans ⟨hp.1.record (fun e he => ⟨?_, by simp⟩) fun e he => ?_,
          (Onward.refl _).congr rfl rfl rfl⟩
        · exact fun h => hother e he (Deed.attach.inj h).symm
        · exact Deed.attach.inj he ▸ hlater
      | error f =>
        rw [after_bind_of_error hr]
        exact hp

/-- An event ceases to come in, and the history tells so. -/
theorem witnessed_unsubscribe (hw : Faithful bell w) (event : Nat) :
    Witnessed bell w ((unsubscribe host event).after w) := by
  let w₁ : World := { w with history := w.history.push (.detach event) }
  cases hd : w.events[event]? with
  | none =>
    rw [(unsubscribe_of_none hd host).2]
    exact ⟨hw.detach fun ho => by simp [signalOf, hd] at ho,
      (Onward.refl w).congr rfl rfl rfl⟩
  | some d =>
    cases ho : d.source with
    | signal signal callback deliver =>
      have hsignal : w.signalOf event = some signal :=
        signalOf_eq_some_iff.2 ⟨d, callback, deliver, hd, ho⟩
      rw [(unsubscribe_of_signal hd ho host).2]
      rcases disconnect_cases signal (.event event) w₁ with ⟨hs, hf, -, -, ha⟩ | ⟨hnot, _, -, ha⟩
      · rw [ha]
        refine ⟨hw.transfer hf ((hw.nodup hf).erase _) hsignal (.inr rfl) fun e => ?_,
          (Onward.refl w).congr rfl rfl (Roster.names_put_of_find? hf _)⟩
        simp [(hw.nodup hf).mem_erase_iff, eq_comm]
      · -- What is not connected is not taken away.
        rw [ha]
        refine ⟨hw.detach fun hbell hs hf => hnot hs ?_, (Onward.refl w).congr rfl rfl rfl⟩
        exact Option.some.inj (hsignal.symm.trans hbell) ▸ hf
    | foreign begin_ end_ =>
      rw [(unsubscribe_of_foreign hd ho host).2]
      have h₁ : Witnessed bell w w₁ :=
        ⟨hw.detach fun hbell => by simp [signalOf, hd, EventDescriptor.signal?, ho] at hbell,
          (Onward.refl w).congr rfl rfl rfl⟩
      exact h₁.trans (witnessed_perform hh h₁.1 end_)

/-! ### Answers -/

theorem governs_witnessed (base : World) : Governs (Only (Witnessed bell base)) host host := by
  have I := lifeInvariant_witnessed bell base
  have B := I.toInvariant.bond
  refine governs_of_attends I.lifeBond
    { answers := hh base
      listen := alike_listen twins_only B ?_ fun event =>
        alike_witnessed base fun w hw => witnessed_subscribe hh hw event
      emit := alike_emit twins_only B (hh base)
      count := fun signal => (alike_handlers twins_only signal).bind fun _ => alike_pure _ }
    (alike_discover (welcoming_witnessed bell base).bond (hh base))
    (alike_unsubscribeAll twins_only B ?_ fun event =>
      alike_witnessed base fun w hw => witnessed_unsubscribe hh hw event)
  · rintro w _ name event ⟨rfl, hw⟩
    have h := hw.1.record (d := .listen name) (fun _ _ => ⟨nofun, nofun⟩) nofun
    exact ⟨rfl, h.congr rfl rfl rfl, hw.2.congr rfl rfl rfl⟩
  · rintro w _ ⟨rfl, hw⟩
    have h := hw.1.record (d := .forget) (fun _ _ => ⟨nofun, nofun⟩) nofun
    exact ⟨rfl, h.congr rfl rfl rfl, hw.2.congr rfl rfl rfl⟩

/-- The history stays faithful, whatever is asked but that all handlers be taken off the signal. -/
theorem witnessed_answer (hw : Faithful bell w) {q : Request} (hq : q ≠ .clearHandlers bell) :
    Witnessed bell w ((answerRequest host q).after w) := by
  refine alike_only_iff.1 (alike_answerRequest (lifeInvariant_witnessed bell w).toInvariant.bond
    (governs_witnessed hh w) (fun _ => (timeless_witnessed bell w).restless) fun hm => ?_) w
    hw.witnessed
  cases q with
  | connect signal handler =>
    exact (alike_witnessed w fun w hw => witnessed_connect_object hw signal handler).andNone
  | disconnect signal handler =>
    exact (alike_witnessed w fun w hw => witnessed_disconnect_object hw signal handler).andNone
  | clearHandlers signal =>
    have hne : signal ≠ bell := fun h => hq (congrArg Request.clearHandlers h)
    have h := (alike_witnessed w fun w hw => witnessed_clearHandlers hw hne).andNone
    rwa [bind_assoc] at h
  | subscribe event =>
    exact (alike_witnessed w fun w hw => witnessed_subscribe hh hw event).andNone
  | unsubscribe event =>
    exact (alike_witnessed w fun w hw => witnessed_unsubscribe hh hw event).andNone
  | _ => cases hm

end

/-! ### The clock and the queue -/

section

variable {base : World} (hh : host.Alike (Only (Timed base)) host)

include hh

theorem governs_timed : Governs (Only (Timed base)) host host := by
  have L := (loose_timed base).bond
  refine governs_of_attends L.toLifeBond
    { answers := hh
      listen := alike_loose_listen L ?_ hh
      emit := alike_emit L.twins L.toBond hh
      count := fun signal => (alike_handlers L.twins signal).bind fun _ => alike_pure _ }
    (alike_discover (welcoming_timed base).bond hh) (alike_loose_unsubscribeAll L hh)
  rintro w _ name event ⟨rfl, hw⟩
  exact ⟨rfl, hw⟩

end

/-! ### Restraint -/

/-- How a host answers that lets nothing be done to the pulse of the world, and nobody tell a signal
or take all its handlers off it: it fails, and takes back what has been done. -/
def restrained (bell : String) (f : Fault) : Nat → Responder
  | 0, _ => throw .tooDeep
  | n + 1, q => do
    if q.tampers bell then throw f
    else
      let w ← get
      let r ← attempt (answerRequest (restrained bell f n) q)
      if (← get).pulse = w.pulse then ofExcept r
      else
        modify fun _ => w
        throw f

variable (bell : String) (f : Fault)

/-- A request is refused, or it is answered like any other and leaves the pulse as it is. -/
theorem restrained_cases (n : Nat) (q : Request) (w : World) :
    (∃ g, (restrained bell f n q).outcome w = .error g ∧ (restrained bell f n q).after w = w) ∨
      ∃ m, n = m + 1 ∧ q.tampers bell = false ∧
        (restrained bell f n q).outcome w = (answerRequest (restrained bell f m) q).outcome w ∧
        (restrained bell f n q).after w = (answerRequest (restrained bell f m) q).after w ∧
        ((answerRequest (restrained bell f m) q).after w).pulse = w.pulse := by
  cases n with
  | zero => exact .inl ⟨.tooDeep, rfl, rfl⟩
  | succ n =>
    unfold restrained
    cases ht : q.tampers bell with
    | true => exact .inl ⟨f, rfl, rfl⟩
    | false =>
      simp only [Bool.false_eq_true, if_false, outcome_get_bind, after_get_bind,
        outcome_attempt_bind, after_attempt_bind]
      by_cases hp : ((answerRequest (restrained bell f n) q).after w).pulse = w.pulse
      · rw [if_pos hp, outcome_ofExcept, after_ofExcept]
        exact .inr ⟨n, rfl, trivial, rfl, rfl, hp⟩
      · rw [if_neg hp]
        exact .inl ⟨f, rfl, rfl⟩

theorem pulse_restrained (n : Nat) (q : Request) (w : World) :
    ((restrained bell f n q).after w).pulse = w.pulse := by
  rcases restrained_cases bell f n q w with ⟨_, -, ha⟩ | ⟨_, -, -, -, ha, hp⟩
  · rw [ha]
  · rw [ha, hp]

theorem alike_timed_restrained (n : Nat) (base : World) :
    (restrained bell f n).Alike (Only (Timed base)) (restrained bell f n) :=
  fun q => alike_only_iff.2 fun w hw => by
    have hp := pulse_restrained bell f n q w
    exact ⟨(congrArg Prod.fst hp).trans hw.1, (congrArg (·.2.1) hp).trans hw.2⟩

theorem alike_witnessed_restrained (n : Nat) (base : World) :
    (restrained bell f n).Alike (Only (Witnessed bell base)) (restrained bell f n) := by
  induction n generalizing base with
  | zero => exact fun _ => alike_throw _
  | succ n ih =>
    refine fun q => alike_witnessed base fun w hw => ?_
    rcases restrained_cases bell f (n + 1) q w with ⟨_, -, ha⟩ | ⟨m, hm, ht, -, ha, -⟩
    · rw [ha]
      exact hw.witnessed
    · obtain rfl := Nat.succ.inj hm
      rw [ha]
      refine witnessed_answer ih hw ?_
      rintro rfl
      simp [Request.tampers] at ht

/-- An emission leaves the pulse as it is. -/
theorem pulse_emit (n : Nat) (signal : String) (args : List Datum) (w : World) :
    ((emit (restrained bell f n) signal args).after w).pulse = w.pulse := by
  have I : Invariant fun v => v.pulse = w.pulse :=
    { apart := fun {v u} h hu => by
        rw [← h, pulse, pulse, hu.clock, hu.queue, hu.history]
      log := fun _ _ h => h }
  refine alike_only_iff.1 (alike_emit twins_only I.bond (fun q => ?_) signal args) w rfl
  exact alike_only_iff.2 fun v hv => (pulse_restrained bell f n q v).trans hv

end Op

end ScriptHost
