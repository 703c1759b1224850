import ScriptHost.Events.Subscription
import ScriptHost.Proofs.Outcome

/-!
# Signals and subscriptions, case by case

What each operation on signals and on the books of events comes to, in each of its cases: how it ends,
and in which world. A handler is connected to a signal once at most; what is done for an event is done
to the handlers of its signal, or by foreign code; subscriptions end one after the other.
-/
namespace ScriptHost.Op

variable {host : Responder} {w : World} {signal name : String} {event : Nat}

/-! ### Signals -/

theorem handlers_of_find? {hs : Handlers} (hf : w.signals.find? signal = some hs) :
    (handlers signal).outcome w = .ok hs ∧ (handlers signal).after w = w := by
  unfold handlers
  rw [outcome_get_bind, after_get_bind, hf]
  exact ⟨rfl, rfl⟩

theorem handlers_of_none (hf : w.signals.find? signal = none) :
    (handlers signal).outcome w = .error (.keyMissing (Text.quote signal)) ∧
      (handlers signal).after w = w := by
  unfold handlers
  rw [outcome_get_bind, after_get_bind, hf]
  exact ⟨rfl, rfl⟩

theorem after_handlers_bind {α : Type} (signal : String) (k : Handlers → Op α) (w : World) :
    (handlers signal >>= k).after w =
      match w.signals.find? signal with
      | some hs => (k hs).after w
      | none => w := by
  cases hf : w.signals.find? signal with
  | none => rw [after_bind_of_error (handlers_of_none hf).1, (handlers_of_none hf).2]
  | some hs => rw [after_bind_of_ok (handlers_of_find? hf).1, (handlers_of_find? hf).2]

theorem connect_of_mem {hs : Handlers} {h : Handler} (hf : w.signals.find? signal = some hs)
    (hm : h ∈ hs) : (connect signal h).outcome w = .error (.handlerPresent signal) ∧
      (connect signal h).after w = w := by
  obtain ⟨ho, ha⟩ := handlers_of_find? hf
  rw [connect, outcome_bind_of_ok ho, after_bind_of_ok ho, ha, Handlers.connect?, if_pos hm]
  exact ⟨rfl, rfl⟩

theorem connect_of_not_mem {hs : Handlers} {h : Handler} (hf : w.signals.find? signal = some hs)
    (hm : h ∉ hs) : (connect signal h).outcome w = .ok () ∧
      (connect signal h).after w = { w with signals := w.signals.put signal (hs ++ [h]) } := by
  obtain ⟨ho, ha⟩ := handlers_of_find? hf
  rw [connect, outcome_bind_of_ok ho, after_bind_of_ok ho, ha, Handlers.connect?, if_neg hm]
  exact ⟨rfl, rfl⟩

theorem disconnect_of_mem {hs : Handlers} {h : Handler} (hf : w.signals.find? signal = some hs)
    (hm : h ∈ hs) : (disconnect signal h).outcome w = .ok () ∧
      (disconnect signal h).after w = { w with signals := w.signals.put signal (hs.erase h) } := by
  obtain ⟨ho, ha⟩ := handlers_of_find? hf
  rw [disconnect, outcome_bind_of_ok ho, after_bind_of_ok ho, ha, Handlers.disconnect?, if_pos hm]
  exact ⟨rfl, rfl⟩

theorem disconnect_of_not_mem {hs : Handlers} {h : Handler}
    (hf : w.signals.find? signal = some hs) (hm : h ∉ hs) :
    (disconnect signal h).outcome w = .error (.handlerAbsent signal) ∧
      (disconnect signal h).after w = w := by
  obtain ⟨ho, ha⟩ := handlers_of_find? hf
  rw [disconnect, outcome_bind_of_ok ho, after_bind_of_ok ho, ha, Handlers.disconnect?, if_neg hm]
  exact ⟨rfl, rfl⟩

/-- A handler is connected, unless it is already or there is no such signal. -/
theorem connect_cases (signal : String) (h : Handler) (w : World) :
    (∃ hs, w.signals.find? signal = some hs ∧ h ∉ hs ∧ (connect signal h).outcome w = .ok () ∧
      (connect signal h).after w = { w with signals := w.signals.put signal (hs ++ [h]) }) ∨
    ∃ f, (connect signal h).outcome w = .error f ∧ (connect signal h).after w = w := by
  cases hf : w.signals.find? signal with
  | none =>
    obtain ⟨ho, ha⟩ := handlers_of_none hf
    exact .inr ⟨_, outcome_bind_of_error ho _, (after_bind_of_error ho _).trans ha⟩
  | some hs =>
    by_cases hm : h ∈ hs
    · exact .inr ⟨_, connect_of_mem hf hm⟩
    · exact .inl ⟨hs, rfl, hm, connect_of_not_mem hf hm⟩

/-- A handler that is connected is taken away. -/
theorem disconnect_cases (signal : String) (h : Handler) (w : World) :
    (∃ hs, w.signals.find? signal = some hs ∧ h ∈ hs ∧ (disconnect signal h).outcome w = .ok () ∧
      (disconnect signal h).after w = { w with signals := w.signals.put signal (hs.erase h) }) ∨
    ((∀ hs, w.signals.find? signal = some hs → h ∉ hs) ∧
      ∃ f, (disconnect signal h).outcome w = .error f ∧ (disconnect signal h).after w = w) := by
  cases hf : w.signals.find? signal with
  | none =>
    obtain ⟨ho, ha⟩ := handlers_of_none hf
    exact .inr ⟨nofun, _, outcome_bind_of_error ho _, (after_bind_of_error ho _).trans ha⟩
  | some hs =>
    by_cases hm : h ∈ hs
    · exact .inl ⟨hs, rfl, hm, disconnect_of_mem hf hm⟩
    · exact .inr ⟨fun _ h => Option.some.inj h ▸ hm, _, disconnect_of_not_mem hf hm⟩

/-! ### One event -/

theorem subscribe_of_none (hd : w.events[event]? = none) (host : Responder) :
    (subscribe host event).outcome w = .ok () ∧ (subscribe host event).after w = w := by
  unfold subscribe
  rw [outcome_get_bind, after_get_bind, hd]
  exact ⟨rfl, rfl⟩

theorem unsubscribe_of_none (hd : w.events[event]? = none) (host : Responder) :
    (unsubscribe host event).outcome w = .ok () ∧
      (unsubscribe host event).after w = { w with history := w.history.push (.detach event) } := by
  unfold unsubscribe record
  simp only [outcome_modify_bind, after_modify_bind, outcome_get_bind, after_get_bind, hd]
  exact ⟨rfl, rfl⟩

section

variable {d : EventDescriptor} (hd : w.events[event]? = some d)
include hd

theorem subscribe_of_signal {callback : String} {deliver : String → List Datum → Program Unit}
    (hs : d.source = .signal signal callback deliver) (host : Responder) :
    (subscribe host event).outcome w =
        (do connect signal (.event event); record (.attach event)).outcome w ∧
      (subscribe host event).after w =
        (do connect signal (.event event); record (.attach event)).after w := by
  unfold subscribe
  simp only [outcome_get_bind, after_get_bind, hd, Option.map_some, hs]
  exact ⟨trivial, trivial⟩

theorem subscribe_of_foreign {begin_ end_ : Program Unit} (hs : d.source = .foreign begin_ end_)
    (host : Responder) :
    (subscribe host event).outcome w =
        (do perform host begin_; record (.attach event)).outcome w ∧
      (subscribe host event).after w =
        (do perform host begin_; record (.attach event)).after w := by
  unfold subscribe
  simp only [outcome_get_bind, after_get_bind, hd, Option.map_some, hs]
  exact ⟨trivial, trivial⟩

theorem unsubscribe_of_signal {callback : String} {deliver : String → List Datum → Program Unit}
    (hs : d.source = .signal signal callback deliver) (host : Responder) :
    (unsubscribe host event).outcome w = (disconnect signal (.event event)).outcome
        { w with history := w.history.push (.detach event) } ∧
      (unsubscribe host event).after w = (disconnect signal (.event event)).after
        { w with history := w.history.push (.detach event) } := by
  unfold unsubscribe record
  simp only [outcome_modify_bind, after_modify_bind, outcome_get_bind, after_get_bind, hd,
    Option.map_some, hs]
  exact ⟨trivial, trivial⟩

theorem unsubscribe_of_foreign {begin_ end_ : Program Unit} (hs : d.source = .foreign begin_ end_)
    (host : Responder) :
    (unsubscribe host event).outcome w =
        (perform host end_).outcome { w with history := w.history.push (.detach event) } ∧
      (unsubscribe host event).after w =
        (perform host end_).after { w with history := w.history.push (.detach event) } := by
  unfold unsubscribe record
  simp only [outcome_modify_bind, after_modify_bind, outcome_get_bind, after_get_bind, hd,
    Option.map_some, hs]
  exact ⟨trivial, trivial⟩

end

/-! ### The books -/

theorem listen_of_unknown (hk : w.eventBooks.known.find? name = none) (host : Responder) :
    (listen host name).outcome w = .error (.eventUnknown name) ∧
      (listen host name).after w = w := by
  unfold listen
  simp only [outcome_get_bind, after_get_bind, hk]
  exact ⟨rfl, rfl⟩

section

variable (hk : w.eventBooks.known.find? name = some event)
include hk

theorem listen_of_active (ha : w.eventBooks.active.contains name = true) (host : Responder) :
    (listen host name).outcome w = .error (.alreadyListening name) ∧
      (listen host name).after w = w := by
  unfold listen
  simp only [outcome_get_bind, after_get_bind, hk, ha, if_true]
  exact ⟨rfl, rfl⟩

variable (ha : w.eventBooks.active.contains name = false)
include ha

theorem listen_of_error {f : Fault} (hs : (subscribe host event).outcome w = .error f) :
    (listen host name).outcome w = .error (.subscribing name f) ∧
      (listen host name).after w = (subscribe host event).after w := by
  unfold listen
  simp only [outcome_get_bind, after_get_bind, hk, ha, Bool.false_eq_true, if_false,
    outcome_attempt_bind, after_attempt_bind, hs]
  exact ⟨rfl, rfl⟩

/-- Where an event begins to come in, it is listened to under its name. -/
theorem listen_of_ok {u : Unit} (hs : (subscribe host event).outcome w = .ok u) :
    (listen host name).outcome w = .ok () ∧
      (listen host name).after w =
        let v := (subscribe host event).after w
        { v with
          eventBooks := { v.eventBooks with active := v.eventBooks.active.put name event }
          history := v.history.push (.listen name)
          log := v.log.push
            ⟨.info, "luahost.events", s!"Started listening to event '{name}'.", none⟩ } := by
  unfold listen
  simp only [outcome_get_bind, after_get_bind, hk, ha, Bool.false_eq_true, if_false,
    outcome_attempt_bind, after_attempt_bind, hs]
  exact ⟨rfl, rfl⟩

end

theorem outcome_endSubscription (name : String) (event : Nat) :
    (endSubscription host name event).outcome w =
      .ok (match (unsubscribe host event).outcome w with
        | .ok _ => []
        | .error f => [.unsubscribing name f]) := by
  unfold endSubscription
  simp only [outcome_attempt_bind]
  cases (unsubscribe host event).outcome w <;> rfl

/-- How one subscription ends is logged. -/
theorem after_endSubscription (name : String) (event : Nat) :
    (endSubscription host name event).after w =
      (match (unsubscribe host event).outcome w with
        | .ok _ => debug "luahost.events" s!"Stopped listening to event '{name}'."
        | .error f => warning "luahost.events"
            s!"Failed to stop listening to event '{name}': {f.message}" : Op Unit).after
        ((unsubscribe host event).after w) := by
  unfold endSubscription
  simp only [after_attempt_bind]
  cases (unsubscribe host event).outcome w <;> exact after_bind_pure _ _ _

theorem ends_endSubscription (host : Responder) (name : String) (event : Nat) (w : World) :
    (endSubscription host name event).Ends w :=
  ends_iff.2 ⟨_, outcome_endSubscription name event⟩

/-! ### All events -/

section

variable {count i : Nat}

theorem endFrom_of_none {left : Nat} (hi : w.eventBooks.active.entries[i]? = none) :
    (endFrom host count left i).outcome w = .ok [] ∧
      (endFrom host count left i).after w = w := by
  cases left with
  | zero => exact ⟨rfl, rfl⟩
  | succ left =>
    unfold endFrom
    simp only [outcome_get_bind, after_get_bind, hi]
    exact ⟨rfl, rfl⟩

variable (hi : w.eventBooks.active.entries[i]? = some (name, event))
include hi

/-- After one subscription the rest is met, if there are as many as before. -/
theorem endFrom_succ_of_eq (left : Nat) {faults : List Fault}
    (ho : (endSubscription host name event).outcome w = .ok faults)
    (hc : ((endSubscription host name event).after w).eventBooks.active.entries.length = count) :
    (endFrom host count (left + 1) i).outcome w =
        (do return faults ++ (← endFrom host count left (i + 1)) : Op (List Fault)).outcome
          ((endSubscription host name event).after w) ∧
      (endFrom host count (left + 1) i).after w =
        (endFrom host count left (i + 1)).after ((endSubscription host name event).after w) := by
  rw [endFrom]
  simp only [outcome_get_bind, after_get_bind, hi, outcome_bind_of_ok ho, after_bind_of_ok ho, hc,
    checkCount, if_true, pure_bind]
  exact ⟨trivial, after_bind_pure _ _ _⟩

theorem endFrom_succ_of_ne (left : Nat)
    (hc : ((endSubscription host name event).after w).eventBooks.active.entries.length ≠ count) :
    ¬ (endFrom host count (left + 1) i).Ends w ∧
      (endFrom host count (left + 1) i).after w = (endSubscription host name event).after w := by
  obtain ⟨faults, ho⟩ := ends_iff.1 (ends_endSubscription host name event w)
  rw [endFrom, Ends]
  simp only [outcome_get_bind, after_get_bind, hi, outcome_bind_of_ok ho, after_bind_of_ok ho,
    checkCount, if_neg hc]
  exact ⟨Bool.false_ne_true, rfl⟩

end

theorem unsubscribeAll_of_ok {faults : List Fault}
    (h : (endFrom host w.eventBooks.active.entries.length
      w.eventBooks.active.entries.length 0).outcome w = .ok faults) :
    (unsubscribeAll host).outcome w = .ok faults ∧
      (unsubscribeAll host).after w =
        let v := (endFrom host w.eventBooks.active.entries.length
          w.eventBooks.active.entries.length 0).after w
        { v with
          eventBooks := { v.eventBooks with active := {} }
          history := v.history.push .forget } := by
  unfold unsubscribeAll
  rw [outcome_get_bind, after_get_bind]
  exact ⟨outcome_bind_of_ok h _, after_bind_of_ok h _⟩

theorem unsubscribeAll_of_error {f : Fault}
    (h : (endFrom host w.eventBooks.active.entries.length
      w.eventBooks.active.entries.length 0).outcome w = .error f) :
    (unsubscribeAll host).outcome w = .error f ∧
      (unsubscribeAll host).after w = (endFrom host w.eventBooks.active.entries.length
        w.eventBooks.active.entries.length 0).after w := by
  unfold unsubscribeAll
  rw [outcome_get_bind, after_get_bind]
  exact ⟨outcome_bind_of_error h _, after_bind_of_error h _⟩

end ScriptHost.Op
