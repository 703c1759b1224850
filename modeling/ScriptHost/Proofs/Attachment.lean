import ScriptHost.Proofs.Books
import ScriptHost.Proofs.Reports

/-!
# Signals in step with the books

Where all known events forward signals and nothing is connected past the books, the handlers of a
signal are the events that scripts listen to, in the order they began (`World.InStep`). So no
subscription fails where it begins (`exists_listen`) or ends (`exists_unsubscribeAll`), and whatever is
done about events keeps signals in step (`governs_kept`).
-/
namespace ScriptHost

open Files (Path)

namespace World

variable {w v u : World} {signal name : String} {event : Nat} {hs : Handlers}

/-- Those of some events that forward a signal, as its handlers. -/
def forwards (w : World) (signal : String) (events : List (String × Nat)) : Handlers :=
  (events.filter fun x => w.signalOf x.2 = some signal).map fun x => .event x.2

/-- The events of a signal that scripts listen to, in the order they began. -/
def attached (w : World) (signal : String) : Handlers :=
  w.forwards signal w.eventBooks.active.entries

/-- All known events forward signals that there are. -/
def Signalled (w : World) : Prop :=
  ∀ x ∈ w.eventBooks.known.entries, (w.signalOf x.2).any w.signals.contains = true

instance (w : World) : Decidable w.Signalled :=
  inferInstanceAs (Decidable (∀ x ∈ _, _))

/-- The books are in order, and what scripts listen to is connected if all known events forward
signals. -/
structure InStep (w : World) : Prop extends Filed w where
  handlers : w.Signalled → ∀ {signal hs}, w.signals.find? signal = some hs →
    hs = w.attached signal

/-- Events only come in addition, and signals stay the same ones. -/
structure Onward (w v : World) : Prop extends Longer w v where
  signals : v.signals.names = w.signals.names := by rfl

theorem Onward.refl (w : World) : Onward w w := {}

theorem Onward.trans (h : Onward w v) (h' : Onward v u) : Onward w u :=
  ⟨h.toLonger.trans h'.toLonger, h'.signals.trans h.signals⟩

/-- What neither makes events known nor adds signals goes on. -/
theorem Onward.congr (h : Onward w v) (he : u.events = v.events)
    (hk : u.eventBooks.known = v.eventBooks.known) (hs : u.signals.names = v.signals.names) :
    Onward w u where
  events := he ▸ h.events
  known := hk ▸ h.known
  signals := hs.trans h.signals

theorem Onward.contains (h : Onward w v) (signal : String) :
    v.signals.contains signal = w.signals.contains signal := by
  rw [Bool.eq_iff_iff, Roster.contains_iff, Roster.contains_iff, h.signals]

theorem forwards_congr {events : List (String × Nat)}
    (h : ∀ x ∈ events, v.signalOf x.2 = w.signalOf x.2) :
    v.forwards signal events = w.forwards signal events := by
  unfold forwards
  rw [List.filter_congr fun x hx => by rw [h x hx]]

/-- Where all known events forward signals, they have always done so. -/
theorem Onward.signalled (h : Onward w v) (hw : w.InStep) (hs : v.Signalled) : w.Signalled := by
  intro x hx
  have hv := hs x (h.known.subset hx)
  rw [h.signalOf_eq (hw.valid x hx)] at hv
  have hc : v.signals.contains = w.signals.contains := funext h.contains
  rwa [hc] at hv

theorem inStep_of_unused (hb : w.eventBooks = {}) (hs : ∀ x ∈ w.signals.entries, x.2 = []) :
    w.InStep where
  toFiled := .of_unused hb
  handlers _ {signal hs'} hf := by
    rw [attached, hb]
    exact hs _ (Roster.mem_of_find? hf)

theorem inStep_of_signals (hv : ∀ x ∈ w.eventBooks.known.entries, x.2 < w.events.size)
    (hd : (w.eventBooks.known.entries.map (·.2)).Nodup) (hn : w.eventBooks.active.names.Nodup)
    (hk : ∀ x ∈ w.eventBooks.active.entries, w.eventBooks.known.find? x.1 = some x.2)
    (hs : ∀ x ∈ w.signals.entries, x.2 = w.attached x.1) : w.InStep :=
  ⟨⟨hv, hd, hn, hk⟩, fun _ _ _ hf => hs _ (Roster.mem_of_find? hf)⟩

/-- What can be told from events, books and signals. -/
theorem InStep.congr (h : w.InStep) (he : v.events = w.events) (hb : v.eventBooks = w.eventBooks)
    (hs : v.signals = w.signals) : v.InStep := by
  refine ⟨h.toFiled.congr he (by rw [hb]) (by rw [hb]), ?_⟩
  cases w
  cases v
  simp only at he hb hs
  subst he hb hs
  exact h.handlers

/-- A world that is in step goes on from another. -/
def Kept (base w : World) : Prop :=
  w.InStep ∧ Onward base w

theorem InStep.kept (h : w.InStep) : Kept w w :=
  ⟨h, .refl w⟩

theorem Kept.trans (h : Onward w v) (h' : Kept v u) : Kept w u :=
  ⟨h'.1, h.trans h'.2⟩

theorem Kept.congr {base : World} (h : Kept base w) (he : v.events = w.events)
    (hb : v.eventBooks = w.eventBooks) (hs : v.signals = w.signals) : Kept base v :=
  ⟨h.1.congr he hb hs, h.2.congr he (by rw [hb]) (by rw [hs])⟩

theorem lifeInvariant_kept (base : World) : LifeInvariant (Kept base) where
  apart h hv := h.congr hv.places hv.books hv.signals
  log _ _ h := h.congr rfl rfl rfl
  session _ h := h.congr rfl rfl rfl
  record _ h := h.congr rfl rfl rfl

theorem timeless_kept (base : World) : Timeless (Kept base) where
  clock _ h := h.congr rfl rfl rfl
  queue _ h := h.congr rfl rfl rfl

/-- An event that joins the known ones makes no difference to what is connected. -/
theorem InStep.welcome (h : w.InStep) {d : EventDescriptor}
    (hd : w.eventBooks.known.contains d.name = false) : (w.welcome d).InStep := by
  have hp : Onward w (w.welcome d) := ⟨longer_welcome w d, rfl⟩
  refine ⟨h.toFiled.welcome hd, fun hs signal hs' hf => ?_⟩
  refine (h.handlers (hp.signalled h hs) hf).trans ?_
  exact (forwards_congr fun x hx => hp.signalOf_eq (h.valid_active hx)).symm

theorem welcoming_kept (base : World) : Welcoming (Kept base) where
  toLifeInvariant := lifeInvariant_kept base
  discovered _ h := ⟨⟨h.1.toFiled.congr rfl rfl rfl, h.1.handlers⟩, h.2.congr rfl rfl rfl⟩
  welcome {w} d hd h := ⟨h.1.welcome hd, h.2.trans ⟨longer_welcome w d, rfl⟩⟩

/-- Where some known event forwards no signal, nothing is said of what is connected. -/
theorem loose_kept (hn : ¬ w.Signalled) (hw : w.InStep) : Loose (Kept w) where
  toLifeInvariant := lifeInvariant_kept w
  signals {v signal hs} hs' hf h := by
    have hp : Onward w { v with signals := v.signals.put signal hs' } :=
      h.2.congr rfl rfl (Roster.names_put_of_find? hf hs')
    exact ⟨⟨h.1.toFiled.congr rfl rfl rfl, fun hs => absurd (hp.signalled hw hs) hn⟩, hp⟩
  quiet _ h := h.congr rfl rfl rfl
  forget {v} h := by
    have hp : Onward w { v with eventBooks := { v.eventBooks with active := {} } } :=
      h.2.congr rfl rfl rfl
    exact ⟨⟨h.1.toFiled.forget, fun hs => absurd (hp.signalled hw hs) hn⟩, hp⟩

/-! ### One event more -/

theorem mem_forwards {events : List (String × Nat)} {h : Handler} :
    h ∈ w.forwards signal events ↔
      ∃ x ∈ events, w.signalOf x.2 = some signal ∧ .event x.2 = h := by
  simp [forwards, and_assoc]

/-- What scripts do not listen to is not attached. -/
theorem InStep.not_mem_attached (h : w.InStep) (hn : w.eventBooks.known.find? name = some event)
    (ha : w.eventBooks.active.contains name = false) : .event event ∉ w.attached signal := by
  intro hm
  obtain ⟨x, hx, -, he⟩ := mem_forwards.1 hm
  exact h.not_mem_active hn ha hx (Handler.event.inj he)

/-- A signal has no event twice. -/
theorem InStep.nodup_attached (h : w.InStep) (signal : String) : (w.attached signal).Nodup := by
  refine List.Nodup.map_on (fun x hx y hy he => ?_) ((List.Nodup.of_map _ h.single).filter _)
  have hx := List.mem_of_mem_filter hx
  have hy := List.mem_of_mem_filter hy
  obtain ⟨other, event⟩ := y
  have hk := h.known x hx
  rw [Handler.event.inj he] at hk
  exact Prod.ext (h.name_eq (h.known _ hy) hk) (Handler.event.inj he)

/-- What a known event forwards, where all forward signals. -/
theorem Signalled.exists_signal (h : w.Signalled) (hn : w.eventBooks.known.find? name = some event) :
    ∃ signal hs, w.signalOf event = some signal ∧ w.signals.find? signal = some hs := by
  have hx := h _ (Roster.mem_of_find? hn)
  cases hs : w.signalOf event with
  | none => rw [hs] at hx; cases hx
  | some signal =>
    rw [hs] at hx
    obtain ⟨hs', hf⟩ := Option.isSome_iff_exists.1 hx
    exact ⟨signal, hs', rfl, hf⟩

theorem forwards_cons (x : String × Nat) (events : List (String × Nat)) :
    w.forwards signal (x :: events) =
      if w.signalOf x.2 = some signal then .event x.2 :: w.forwards signal events
      else w.forwards signal events := by
  unfold forwards
  rw [List.filter_cons]
  by_cases h : w.signalOf x.2 = some signal <;> simp [h]

theorem forwards_append (events events' : List (String × Nat)) :
    w.forwards signal (events ++ events') =
      w.forwards signal events ++ w.forwards signal events' := by
  simp [forwards]

/-- An event joins the handlers of its signal, and those that scripts listen to. -/
def listening (w : World) (signal : String) (hs : Handlers) (name : String) (event : Nat) : World :=
  { w with
    signals := w.signals.put signal (hs ++ [.event event])
    eventBooks := { w.eventBooks with active := w.eventBooks.active.put name event } }

theorem InStep.listening (h : w.InStep) (hsig : w.Signalled)
    (hn : w.eventBooks.known.find? name = some event)
    (ha : w.eventBooks.active.contains name = false) (ho : w.signalOf event = some signal)
    (hf : w.signals.find? signal = some hs) : (w.listening signal hs name event).InStep := by
  have he : (w.listening signal hs name event).eventBooks.active.entries =
      w.eventBooks.active.entries ++ [(name, event)] := Roster.entries_put_of_new ha _
  refine ⟨(h.toFiled.put hn).congr rfl rfl rfl, fun _ other hs' hother => ?_⟩
  have hatt : (w.listening signal hs name event).attached other =
      w.attached other ++ w.forwards other [(name, event)] := by
    rw [attached, he]
    exact forwards_append _ _
  change (w.signals.put signal _).find? other = _ at hother
  rw [Roster.find?_put] at hother
  rw [hatt, forwards_cons]
  split at hother
  · rename_i heq
    subst heq
    rw [← Option.some.inj hother, h.handlers hsig hf, if_pos ho]
    rfl
  · rename_i hne
    rw [h.handlers hsig hother, if_neg fun hs => hne (Option.some.inj (hs.symm.trans ho))]
    exact (List.append_nil _).symm

end World

namespace Op

open World

variable {w : World} {signal name : String} {event : Nat} {host host' : Responder}

/-! ### Subscriptions to signals -/

/-- An event of a signal begins without foreign code. -/
theorem outcome_subscribe_of_new {hs : Handlers} (ho : w.signalOf event = some signal)
    (hf : w.signals.find? signal = some hs) (hn : .event event ∉ hs) (host : Responder) :
    (subscribe host event).outcome w = .ok () ∧
      (subscribe host event).after w =
        { w with
          signals := w.signals.put signal (hs ++ [.event event])
          history := w.history.push (.attach event) } := by
  obtain ⟨d, callback, deliver, hd, hs⟩ := signalOf_eq_some_iff.1 ho
  obtain ⟨hc, ha⟩ := connect_of_not_mem hf hn
  obtain ⟨ho, hw⟩ := subscribe_of_signal hd hs host
  rw [ho, hw, outcome_bind_of_ok hc, after_bind_of_ok hc, ha]
  exact ⟨rfl, rfl⟩

/-- The first event of a signal ceases without foreign code. -/
theorem outcome_endSubscription_of_first {hs : Handlers} (ho : w.signalOf event = some signal)
    (hf : w.signals.find? signal = some (.event event :: hs)) (name : String) (host : Responder) :
    (endSubscription host name event).outcome w = .ok [] ∧
      (endSubscription host name event).after w =
        { w with
          signals := w.signals.put signal hs
          history := w.history.push (.detach event)
          log := w.log.push
            ⟨.debug, "luahost.events", s!"Stopped listening to event '{name}'.", none⟩ } := by
  obtain ⟨d, callback, deliver, hd, hs⟩ := signalOf_eq_some_iff.1 ho
  let w₁ : World := { w with history := w.history.push (.detach event) }
  obtain ⟨hc, ha⟩ := disconnect_of_mem (w := w₁) hf List.mem_cons_self
  rw [List.erase_cons_head] at ha
  obtain ⟨hu, hua⟩ := unsubscribe_of_signal hd hs host
  rw [outcome_endSubscription, after_endSubscription, hu, hua, hc, ha]
  exact ⟨rfl, rfl⟩

/-- Where all known events forward signals, no subscription fails: the name is not known, or it is
listened to, or its event begins. -/
theorem exists_listen (h : w.InStep) (hsig : w.Signalled) (name : String) : ∃ r v,
    (∀ host, (listen host name).outcome w = r ∧ (listen host name).after w = v) ∧
      (r = .ok () ∨ r = .error (.eventUnknown name) ∨ r = .error (.alreadyListening name)) ∧
      Kept w v := by
  cases hn : w.eventBooks.known.find? name with
  | none =>
    exact ⟨.error (.eventUnknown name), w, listen_of_unknown hn, .inr (.inl rfl), h.kept⟩
  | some event =>
    cases ha : w.eventBooks.active.contains name with
    | true =>
      exact ⟨.error (.alreadyListening name), w, listen_of_active hn ha, .inr (.inr rfl), h.kept⟩
    | false =>
      obtain ⟨signal, hs, ho, hf⟩ := hsig.exists_signal hn
      have hnew : .event event ∉ hs := h.handlers hsig hf ▸ h.not_mem_attached hn ha
      have hin := h.listening hsig hn ha ho hf
      refine ⟨.ok (), { w.listening signal hs name event with
        history := (w.history.push (.attach event)).push (.listen name)
        log := w.log.push
          ⟨.info, "luahost.events", s!"Started listening to event '{name}'.", none⟩ },
        fun host => ?_, .inl rfl, hin.congr rfl rfl rfl,
        { signals := Roster.names_put_of_find? hf _ }⟩
      obtain ⟨hc, hv⟩ := outcome_subscribe_of_new ho hf hnew host
      obtain ⟨hlisten, hafter⟩ := listen_of_ok hn ha hc
      exact ⟨hlisten, by rw [hafter, hv]; rfl⟩

/-! ### The end of all subscriptions -/

/-- The first `i` of all subscriptions have ended. -/
structure Falling (w : World) (i : Nat) (u : World) : Prop where
  events : u.events = w.events
  books : u.eventBooks = w.eventBooks
  names : u.signals.names = w.signals.names
  handlers : ∀ {signal hs}, u.signals.find? signal = some hs →
    hs = w.forwards signal (w.eventBooks.active.entries.drop i)
  log : ∃ es, u.log.toList = w.log.toList ++ es ∧ ∀ e ∈ es, e.fault = none

theorem falling_of_inStep (h : w.InStep) (hsig : w.Signalled) : Falling w 0 w :=
  ⟨rfl, rfl, rfl, h.handlers hsig, [], (List.append_nil _).symm, nofun⟩

/-- The next subscription ends well. -/
theorem Falling.next {u : World} {i : Nat} (hu : Falling w i u) (hsig : w.Signalled)
    (h : w.InStep) (hx : w.eventBooks.active.entries[i]? = some (name, event)) :
    ∃ u', (∀ host, (endSubscription host name event).outcome u = .ok [] ∧
      (endSubscription host name event).after u = u') ∧ Falling w (i + 1) u' := by
  obtain ⟨hi, hx⟩ := List.getElem?_eq_some_iff.1 hx
  have hdrop : w.eventBooks.active.entries.drop i =
      (name, event) :: w.eventBooks.active.entries.drop (i + 1) := by
    rw [List.drop_eq_getElem_cons hi, hx]
  obtain ⟨signal, hs, ho, hf⟩ :=
    hsig.exists_signal (h.known _ (hx ▸ List.getElem_mem hi))
  have hc : signal ∈ u.signals.names := by
    rw [hu.names, ← Roster.contains_iff, Roster.contains, hf]
    rfl
  obtain ⟨hs', hf'⟩ := Option.isSome_iff_exists.1 (Roster.contains_iff.2 hc)
  have hfirst := hu.handlers hf'
  rw [hdrop, forwards_cons, if_pos ho] at hfirst
  rw [hfirst] at hf'
  have ho' : u.signalOf event = some signal := by
    rw [signalOf, hu.events]
    exact ho
  refine ⟨_, fun host => outcome_endSubscription_of_first ho' hf' name host, hu.events, hu.books,
    (Roster.names_put_of_find? hf' _).trans hu.names, fun {other hs'} hother => ?_, ?_⟩
  · change (u.signals.put signal _).find? other = _ at hother
    rw [Roster.find?_put] at hother
    split at hother
    · rename_i heq
      rw [heq]
      exact (Option.some.inj hother).symm
    · rename_i hne
      rw [hu.handlers hother, hdrop, forwards_cons,
        if_neg fun hs => hne (Option.some.inj (hs.symm.trans ho))]
  · obtain ⟨es, he, hes⟩ := hu.log
    refine ⟨es ++ [_], by rw [Array.toList_push, he, List.append_assoc], fun e hm => ?_⟩
    rcases List.mem_append.1 hm with hm | hm
    · exact hes e hm
    · rw [List.mem_singleton.1 hm]

/-- All that are left end well, one after the other. -/
theorem Falling.exists_endFrom {u : World} {count left i : Nat} (hu : Falling w i u)
    (hsig : w.Signalled) (h : w.InStep) (hc : w.eventBooks.active.entries.length = count)
    (hi : i + left = count) :
    ∃ v, (∀ host, (endFrom host count left i).outcome u = .ok [] ∧
      (endFrom host count left i).after u = v) ∧ Falling w count v := by
  induction left generalizing i u with
  | zero => exact ⟨u, fun _ => ⟨rfl, rfl⟩, hi ▸ hu⟩
  | succ left ih =>
    obtain ⟨⟨name, event⟩, hx⟩ : ∃ x, w.eventBooks.active.entries[i]? = some x :=
      ⟨_, List.getElem?_eq_getElem (by omega)⟩
    obtain ⟨u', hu', hnext⟩ := hu.next hsig h hx
    obtain ⟨v, hv, hend⟩ := ih hnext (by omega)
    refine ⟨v, fun host => ?_, hend⟩
    have hx' : u.eventBooks.active.entries[i]? = some (name, event) := by rw [hu.books, hx]
    have hc' : u'.eventBooks.active.entries.length = count := by rw [hnext.books, hc]
    obtain ⟨ho, ha⟩ := hu' host
    obtain ⟨ho', ha'⟩ := hv host
    obtain ⟨hnow, hafter⟩ := endFrom_succ_of_eq hx' left ho (ha.symm ▸ hc')
    rw [hnow, hafter, ha, outcome_bind_of_ok ho', ha']
    exact ⟨rfl, rfl⟩

/-- Where all known events forward signals, all subscriptions end well, and nothing of it is
reported. -/
theorem exists_unsubscribeAll (h : w.InStep) (hsig : w.Signalled) : ∃ v,
    (∀ host, (unsubscribeAll host).outcome w = .ok [] ∧ (unsubscribeAll host).after w = v) ∧
      Kept w v ∧ ∃ es, v.log.toList = w.log.toList ++ es ∧ ∀ e ∈ es, e.fault = none := by
  obtain ⟨u, hu, hend⟩ :=
    (falling_of_inStep h hsig).exists_endFrom hsig h rfl (Nat.zero_add _)
  refine ⟨{ u with
    eventBooks := { u.eventBooks with active := {} }
    history := u.history.push .forget }, fun host => ?_, ⟨?_, ?_⟩, hend.log⟩
  · obtain ⟨ho, ha⟩ := hu host
    obtain ⟨hall, hafter⟩ := unsubscribeAll_of_ok ho
    exact ⟨hall, by rw [hafter, ha]⟩
  · have hfiled : u.Filed :=
      h.toFiled.congr hend.events (by rw [hend.books]) (by rw [hend.books])
    refine ⟨hfiled.forget.congr rfl rfl rfl, fun _ {signal hs} hf => ?_⟩
    rw [hend.handlers hf, List.drop_length]
    rfl
  · exact (Onward.refl w).congr hend.events (by rw [hend.books]) hend.names

end Op

/-- The handlers of signals are what scripts listen to, in the order it began, and no subscription
fails where it begins or ends. -/
structure World.Steady (w : World) : Prop where
  handlers : ∀ {signal hs}, w.signals.find? signal = some hs → hs = w.attached signal
  once : ∀ signal, (w.attached signal).Nodup
  known : ∀ x ∈ w.eventBooks.active.entries, w.eventBooks.known.find? x.1 = some x.2
  begins : ∀ host name other f, (Op.listen host name).outcome w ≠ .error (.subscribing other f)
  ends : ∀ host, (Op.unsubscribeAll host).outcome w = .ok []
  unreported : ∀ host, (Op.endSubscriptions host).reports w = []

namespace Op

open World

variable {w : World} {host host' : Responder}

theorem reports_endSubscriptions (h : w.InStep) (hsig : w.Signalled) (host : Responder) :
    (endSubscriptions host).reports w = [] := by
  let w₁ : World := { w with history := w.history.push .teardown }
  have h₁ : w₁.InStep := h.congr rfl rfl rfl
  obtain ⟨v, hv, -, es, hes, hnone⟩ := exists_unsubscribeAll h₁ hsig
  have ha : (endSubscriptions host).after w = v := by
    change ((unsubscribeAll host) >>= _).after w₁ = v
    rw [after_bind_of_ok (hv host).1, (hv host).2]
    rfl
  rw [reports, ha, hes, List.drop_left' (by simp [w₁])]
  exact List.filterMap_eq_nil_iff.2 hnone

theorem steady_of_inStep (h : w.InStep) (hsig : w.Signalled) : w.Steady where
  handlers := h.handlers hsig
  once := h.nodup_attached
  known := h.known
  begins host name other f hf := by
    obtain ⟨r, v, hv, hr, -⟩ := exists_listen h hsig name
    rw [(hv host).1] at hf
    rcases hr with rfl | rfl | rfl <;> cases hf
  ends host := by
    obtain ⟨v, hv, -⟩ := exists_unsubscribeAll h hsig
    exact (hv host).1
  unreported := reports_endSubscriptions h hsig

/-! ### Answers -/

section

/-- What is kept from every world on is kept from the first. -/
theorem alike_kept_of_rebased {α : Type} {m m' : Op α} (base : World)
    (h : ∀ w, w.InStep → m.outcome w = m'.outcome w ∧ Only (Kept w) (m.after w) (m'.after w)) :
    Alike (Only (Kept base)) m m' := by
  rintro w _ ⟨rfl, hw⟩
  obtain ⟨ho, he, hk⟩ := h w hw.1
  exact ⟨ho, he, .trans hw.2 hk⟩

variable (hh : ∀ base, host.Alike (Only (Kept base)) host') (base : World)

include hh

theorem alike_kept_listen (name : String) :
    Alike (Only (Kept base)) (listen host name) (listen host' name) := by
  refine alike_kept_of_rebased base fun w hw => ?_
  by_cases hsig : w.Signalled
  · obtain ⟨r, v, hv, -, hk⟩ := exists_listen hw hsig name
    rw [(hv host).1, (hv host').1, (hv host).2, (hv host').2]
    exact ⟨rfl, rfl, hk⟩
  · have K := loose_kept hsig hw
    have L := K.bond
    unfold listen
    simp only [outcome_get_bind, after_get_bind]
    cases hn : w.eventBooks.known.find? name with
    | none => exact ⟨rfl, rfl, hw.kept⟩
    | some event =>
      refine alike_check ((alike_loose_subscribe L (hh w) event).attempt.bind fun r => ?_)
        w w ⟨rfl, hw.kept⟩
      cases r with
      | error f => exact alike_throw _
      | ok _ =>
        refine Alike.bind (alike_only_modify fun u hu => ?_) fun _ =>
          (alike_only_modify fun _ => K.quiet (d := .listen name) rfl).bind fun _ =>
            alike_log L.toBond _ _ _
        have hn' := hu.2.find? hn
        have hp : Onward w { u with eventBooks :=
            { u.eventBooks with active := u.eventBooks.active.put name event } } :=
          hu.2.congr rfl rfl rfl
        exact ⟨⟨(hu.1.toFiled.put hn').congr rfl rfl rfl,
          fun hs => absurd (hp.signalled hw hs) hsig⟩, hp⟩

theorem alike_kept_unsubscribeAll :
    Alike (Only (Kept base)) (unsubscribeAll host) (unsubscribeAll host') := by
  refine alike_kept_of_rebased base fun w hw => ?_
  by_cases hsig : w.Signalled
  · obtain ⟨v, hv, hk, -⟩ := exists_unsubscribeAll hw hsig
    rw [(hv host).1, (hv host').1, (hv host).2, (hv host').2]
    exact ⟨rfl, rfl, hk⟩
  · exact alike_loose_unsubscribeAll (loose_kept hsig hw).bond (hh w) w w ⟨rfl, hw.kept⟩

omit hh in
/-- An object is not connected where all known events forward signals, so it cannot cease to be. -/
theorem alike_kept_disconnect (signal : String) (place : Nat) :
    Alike (Only (Kept base)) (disconnect signal (.object place))
      (disconnect signal (.object place)) := by
  refine alike_kept_of_rebased base fun w hw => ?_
  by_cases hsig : w.Signalled
  · have hstay : Alike (Only (· = w)) (disconnect signal (.object place))
        (disconnect signal (.object place)) := alike_handlers_bind twins_only fun v _ hs hv hf => by
      obtain ⟨rfl, rfl⟩ := hv
      have hn : Handler.object place ∉ hs := by
        rw [hw.handlers hsig hf, attached, mem_forwards]
        nofun
      rw [Handlers.disconnect?_eq_none_iff.2 hn]
      exact ⟨rfl, rfl, rfl⟩
    rw [(hstay w w ⟨rfl, rfl⟩).2.2]
    exact ⟨rfl, rfl, hw.kept⟩
  · exact alike_loose_disconnect (loose_kept hsig hw).bond _ _ w w ⟨rfl, hw.kept⟩

theorem governs_kept : Governs (Only (Kept base)) host host' :=
  have I := lifeInvariant_kept base
  governs_of_attends I.lifeBond
    { answers := hh base
      listen := alike_kept_listen hh base
      emit := alike_emit twins_only I.toInvariant.bond (hh base)
      count := fun signal => (alike_handlers twins_only signal).bind fun _ => alike_pure _ }
    (alike_discover (welcoming_kept base).bond (hh base)) (alike_kept_unsubscribeAll hh base)

end

end Op

end ScriptHost
