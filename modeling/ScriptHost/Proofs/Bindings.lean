import ScriptHost.Proofs.Books
import ScriptHost.Proofs.Tenure

/-!
# Events are bound to the books

While everything has its turn, an event is connected only if a script listens to it
(`World.Bound`), whatever foreign code does meanwhile, so nothing is connected any more once all
subscriptions have ended (`not_connected_askAll`).
-/
namespace ScriptHost

namespace World

variable {w v u : World} {signal name : String} {event : Nat} {hs hs' : Handlers} {ds es : List Deed}

/-- Signals and books are in order, and while everything has had its turn, an event is connected only
if it is in the books or has just begun to come in. -/
structure Bound (w : World) : Prop extends Filed w where
  nodup : ∀ {signal hs}, w.signals.find? signal = some hs → hs.Nodup
  owned : ∀ {signal hs event}, w.signals.find? signal = some hs → .event event ∈ hs →
    w.signalOf event = some signal
  held : ∀ {t}, w.tenure = some t → ∀ {event}, w.Connected event →
    (∃ name, (name, event) ∈ w.eventBooks.active.entries) ∨ t.begun? = some event

/-- What deeds leave of the books and of what is connected. -/
structure Since (w : World) (ds : List Deed) (v : World) : Prop extends Longer w v where
  history : v.history.toList = w.history.toList ++ ds := by simp
  linked : ∀ {event}, v.Connected event → w.Connected event ∨ .attach event ∈ ds := by
    exact fun h => .inl h
  kept : .forget ∉ ds → w.eventBooks.active.entries <+: v.eventBooks.active.entries := by
    exact fun _ => List.prefix_rfl

theorem Since.refl (w : World) : Since w [] w := {}

theorem Since.trans (h : Since w ds v) (h' : Since v es u) : Since w (ds ++ es) u where
  toLonger := h.toLonger.trans h'.toLonger
  history := by rw [h'.history, h.history, List.append_assoc]
  linked hc := by
    rcases h'.linked hc with hc | hc
    · exact (h.linked hc).imp_right (List.mem_append_left _)
    · exact .inr (List.mem_append_right _ hc)
  kept hf := by
    rw [List.mem_append, not_or] at hf
    exact (h.kept hf.1).trans (h'.kept hf.2)

/-- A world that is bound, later than another. -/
def Traced (base w : World) : Prop :=
  w.Bound ∧ ∃ ds, Since base ds w

theorem Bound.traced (h : w.Bound) : Traced w w :=
  ⟨h, [], .refl w⟩

theorem Traced.trans (h : Traced u w) (h' : Traced w v) : Traced u v := by
  obtain ⟨-, ds, hs⟩ := h
  obtain ⟨hv, es, hs'⟩ := h'
  exact ⟨hv, ds ++ es, hs.trans hs'⟩

/-- What can be told from events, signals, books and history. -/
theorem Bound.congr (h : w.Bound) (he : v.events = w.events)
    (hk : v.eventBooks.known = w.eventBooks.known)
    (ha : v.eventBooks.active = w.eventBooks.active) (hs : v.signals = w.signals)
    (hh : v.history = w.history) : v.Bound where
  toFiled := h.toFiled.congr he hk ha
  nodup := by
    rw [hs]
    exact h.nodup
  owned := by
    unfold signalOf
    rw [hs, he]
    exact h.owned
  held := by
    unfold tenure Connected
    rw [hs, ha, hh]
    exact h.held

theorem bound_of_unused (hb : w.eventBooks = {}) (hs : ∀ x ∈ w.signals.entries, x.2 = []) :
    w.Bound := by
  have empty : ∀ {signal hs}, w.signals.find? signal = some hs → hs = [] := fun hf =>
    hs _ (Roster.mem_of_find? hf)
  refine ⟨.of_unused hb, fun hf => ?_, fun hf hm => ?_, fun _ _ ⟨_, _, hf, hm⟩ => ?_⟩
  · rw [empty hf]
    exact List.nodup_nil
  · rw [empty hf] at hm
    cases hm
  · rw [empty hf] at hm
    cases hm

/-! ### Deeds -/

/-- The books are not told of anything that has begun to come in. -/
theorem Bound.record (h : w.Bound) {d : Deed} (hd : ∀ name, d ≠ .listen name) :
    Bound { w with history := w.history.push d } where
  toFiled := h.toFiled.congr rfl rfl rfl
  nodup := h.nodup
  owned := h.owned
  held {_} ht {event} hc := by
    rw [tenure_of_push rfl, Option.bind_eq_some_iff] at ht
    obtain ⟨t, ht, hstep⟩ := ht
    refine .inl ((h.held ht hc).resolve_right fun hb => ?_)
    obtain ⟨⟨name, rfl⟩, -⟩ := Tenure.step_of_begun hb hstep
    exact hd name rfl

theorem since_record (w : World) (d : Deed) :
    Since w [d] { w with history := w.history.push d } where

theorem Bound.traced_record (h : w.Bound) {d : Deed} (hd : ∀ name, d ≠ .listen name) :
    Traced w { w with history := w.history.push d } :=
  ⟨h.record hd, [d], since_record w d⟩

theorem Traced.congr {base : World} (h : Traced base w) (he : v.events = w.events)
    (hk : v.eventBooks.known = w.eventBooks.known)
    (ha : v.eventBooks.active = w.eventBooks.active) (hs : v.signals = w.signals)
    (hh : v.history = w.history) : Traced base v :=
  h.trans ⟨h.1.congr he hk ha hs hh, [],
    { events := by rw [he]
      known := by rw [hk]
      history := by simp [hh]
      linked := fun ⟨signal, handlers, hf, hm⟩ => .inl ⟨signal, handlers, hs ▸ hf, hm⟩
      kept := fun _ => by rw [ha] }⟩

theorem lifeInvariant_traced (base : World) : LifeInvariant (Traced base) where
  apart h hv := h.congr hv.places (by rw [hv.books]) (by rw [hv.books]) hv.signals hv.history
  log _ _ h := h.congr rfl rfl rfl rfl rfl
  session _ h := h.congr rfl rfl rfl rfl rfl
  record hd h := h.trans (h.1.traced_record fun name hn => by
    rw [hn] at hd
    cases hd)

theorem timeless_traced (base : World) : Timeless (Traced base) where
  clock _ h := h.congr rfl rfl rfl rfl rfl
  queue _ h := h.congr rfl rfl rfl rfl rfl

/-! ### Signals -/

/-- The handlers of a signal change, with no event among them that was not before. -/
theorem Bound.traced_setHandlers (h : w.Bound) (hf : w.signals.find? signal = some hs)
    (hn : hs'.Nodup) (hsub : ∀ e, Handler.event e ∈ hs' → Handler.event e ∈ hs) :
    Traced w { w with signals := w.signals.put signal hs' } := by
  have linked : ∀ {e}, Connected { w with signals := w.signals.put signal hs' } e →
      w.Connected e := by
    intro e hc
    rcases connected_setHandlers hc with hm | ⟨other, hs, -, hf', hm⟩
    · exact ⟨signal, _, hf, hsub _ hm⟩
    · exact ⟨other, hs, hf', hm⟩
  refine ⟨⟨h.toFiled.congr rfl rfl rfl, fun {other os} ho => ?_, fun {other os e} ho hm => ?_,
    fun ht _ hc => h.held ht (linked hc)⟩, [], { linked := fun hc => .inl (linked hc) }⟩
  · rcases Roster.find?_put_eq_some ho with ⟨-, rfl⟩ | ⟨-, ho⟩
    · exact hn
    · exact h.nodup ho
  · rcases Roster.find?_put_eq_some ho with ⟨rfl, rfl⟩ | ⟨-, ho⟩
    · exact h.owned hf (hsub e hm)
    · exact h.owned ho hm

/-- An event joins the handlers of its signal. -/
theorem Bound.traced_attach (h : w.Bound) (hf : w.signals.find? signal = some hs)
    (hc : hs.connect? (.event event) = some hs') (ho : w.signalOf event = some signal) :
    Traced w
      { w with
        signals := w.signals.put signal hs'
        history := w.history.push (.attach event) } := by
  have joined : ∀ {e}, Handler.event e ∈ hs' → Handler.event e ∈ hs ∨ e = event := by
    intro e he
    simp only [Handlers.connect?, Option.ite_none_left_eq_some, Option.some.injEq] at hc
    rw [← hc.2] at he
    simpa using he
  have linked : ∀ {e}, Connected { w with signals := w.signals.put signal hs' } e →
      w.Connected e ∨ e = event := by
    intro e hc
    rcases connected_setHandlers hc with hm | ⟨other, hs, -, hf', hm⟩
    · exact (joined hm).imp_left fun hm => ⟨signal, _, hf, hm⟩
    · exact .inl ⟨other, hs, hf', hm⟩
  refine ⟨⟨h.toFiled.congr rfl rfl rfl, fun {other os} ho' => ?_, fun {other os e} ho' hm => ?_,
    fun ht e hc => ?_⟩, [.attach event], { linked := fun {e} hc => ?_ }⟩
  · rcases Roster.find?_put_eq_some ho' with ⟨-, rfl⟩ | ⟨-, ho'⟩
    · exact Handlers.nodup_connect? (h.nodup hf) hc
    · exact h.nodup ho'
  · rcases Roster.find?_put_eq_some ho' with ⟨rfl, rfl⟩ | ⟨-, ho'⟩
    · rcases joined hm with hm | rfl
      · exact h.owned hf hm
      · exact ho
    · exact h.owned ho' hm
  · rw [tenure_of_push (w := w) rfl, Option.bind_eq_some_iff] at ht
    obtain ⟨t, ht, hstep⟩ := ht
    obtain ⟨hnone, hsome⟩ := Tenure.begun?_of_step_attach hstep
    rcases linked hc with hc | rfl
    · exact .inl ((h.held ht hc).resolve_right fun hb => by cases hnone.symm.trans hb)
    · exact .inr hsome
  · rcases linked hc with hc | rfl
    · exact .inl hc
    · exact .inr (List.mem_singleton_self _)

/-! ### Books -/

/-- The books get the event that has begun to come in. -/
theorem Bound.traced_listen (h : w.Bound) (hl : w.history.toList = ds ++ [.attach event])
    (hn : w.eventBooks.known.find? name = some event) :
    Traced w
      { w with
        eventBooks := { w.eventBooks with active := w.eventBooks.active.put name event }
        history := w.history.push (.listen name) } := by
  refine ⟨⟨(h.toFiled.put hn).congr rfl rfl rfl, h.nodup, h.owned, fun {_} ht {e} hc => .inl ?_⟩,
    [.listen name], { kept := fun _ => h.prefix_put hn }⟩
  rw [tenure_of_push (w := w) rfl, Option.bind_eq_some_iff] at ht
  obtain ⟨t, ht, -⟩ := ht
  have hbegun : t.begun? = some event := by
    rw [tenure, hl, Tenure.track_append, Option.bind_eq_some_iff] at ht
    obtain ⟨_, -, hlast⟩ := ht
    obtain ⟨_, hstep, hnil⟩ := Tenure.track_cons_eq_some.1 hlast
    cases hnil
    exact (Tenure.begun?_of_step_attach hstep).2
  rcases h.held ht hc with ⟨other, hm⟩ | hb
  · exact ⟨other, (h.prefix_put hn).subset hm⟩
  · obtain rfl := Option.some.inj (hbegun.symm.trans hb)
    exact ⟨name, Roster.mem_put_self _ _ _⟩

/-- The books forget all when nothing is connected any more. -/
theorem Bound.traced_forget (h : w.Bound)
    (hc : ∀ settled, w.tenure = some (.held settled .ending) → ∀ e, ¬ w.Connected e) :
    Traced w
      { w with
        eventBooks := { w.eventBooks with active := {} }
        history := w.history.push .forget } := by
  refine ⟨⟨h.toFiled.forget.congr rfl rfl rfl, h.nodup, h.owned, fun {_} ht {e} hc' => ?_⟩, [.forget],
    { kept := fun hf => absurd (List.mem_singleton_self _) hf }⟩
  rw [tenure_of_push (w := w) rfl, Option.bind_eq_some_iff] at ht
  obtain ⟨t, ht, hstep⟩ := ht
  have hforget : Deed.forget = .detach 0 ∨ Deed.forget = .forget := .inr rfl
  obtain ⟨settled, rfl⟩ := Tenure.eq_ending_of_step hstep hforget
  exact absurd hc' (hc settled ht e)

theorem Bound.traced_welcome (h : w.Bound) {d : EventDescriptor}
    (hd : w.eventBooks.known.contains d.name = false) : Traced w (w.welcome d) := by
  refine ⟨⟨h.toFiled.welcome hd, h.nodup, fun hf hm => ?_, h.held⟩, [],
    { toLonger := longer_welcome w d, history := by simp [World.welcome] }⟩
  have ho := h.owned hf hm
  obtain ⟨_, _, _, he, -⟩ := signalOf_eq_some_iff.1 ho
  rw [(longer_welcome w d).signalOf_eq (Array.getElem?_eq_some_iff.1 he).1, ho]

theorem welcoming_traced (base : World) : Welcoming (Traced base) where
  toLifeInvariant := lifeInvariant_traced base
  discovered _ h := h.congr rfl rfl rfl rfl rfl
  welcome _ hd h := h.trans (h.1.traced_welcome hd)

end World

namespace Op

open World

variable {w : World} {signal name : String} {event : Nat} {host : Responder}

/-! ### Signals -/

theorem traced_connect_object (hw : w.Bound) (signal : String) (place : Nat) :
    Traced w ((connect signal (.object place)).after w) := by
  rcases connect_cases signal (.object place) w with ⟨hs, hf, hm, -, ha⟩ | ⟨_, -, ha⟩
  · rw [ha]
    refine hw.traced_setHandlers hf (Handlers.nodup_connect? (hw.nodup hf) (if_neg hm)) fun e he => ?_
    simpa using he
  · rw [ha]
    exact hw.traced

theorem traced_disconnect (hw : w.Bound) (signal : String) (h : Handler) :
    Traced w ((disconnect signal h).after w) := by
  rcases disconnect_cases signal h w with ⟨hs, hf, -, -, ha⟩ | ⟨-, _, -, ha⟩
  · rw [ha]
    exact hw.traced_setHandlers hf ((hw.nodup hf).erase h) fun e he => List.mem_of_mem_erase he
  · rw [ha]
    exact hw.traced

theorem traced_clearHandlers (hw : w.Bound) (signal : String) :
    Traced w (Op.after (do discard (handlers signal); setHandlers signal []) w) := by
  rw [discard_bind, after_handlers_bind]
  cases hf : w.signals.find? signal with
  | none => exact hw.traced
  | some hs => exact hw.traced_setHandlers hf List.nodup_nil nofun

/-- An event whose signal has let it go is not connected. -/
theorem not_connected_of_disconnect (hw : w.Bound) (ho : w.signalOf event = some signal) :
    ¬ ((disconnect signal (.event event)).after w).Connected event :=
  not_connected_disconnect hw.nodup fun hf hm =>
    Option.some.inj ((hw.owned hf hm).symm.trans ho)

/-! ### Subscriptions -/

section

variable (hh : ∀ base, host.Alike (Only (Traced base)) host)

include hh

theorem traced_perform {α : Type} (hw : w.Bound) (p : Program α) :
    Traced w ((perform host p).after w) :=
  alike_only_iff.1 (alike_perform (hh w) p) w hw.traced

/-- An event begins to come in, and the history tells so last. -/
theorem traced_subscribe (hw : w.Bound) (event : Nat) :
    Traced w ((subscribe host event).after w) ∧
      (event < w.events.size → (subscribe host event).outcome w = .ok () →
        ∃ ds, ((subscribe host event).after w).history.toList = ds ++ [.attach event]) := by
  cases hd : w.events[event]? with
  | none =>
    rw [(subscribe_of_none hd host).2]
    exact ⟨hw.traced, fun hv => absurd (Array.getElem?_eq_none_iff.1 hd) (Nat.not_le.2 hv)⟩
  | some d =>
    cases ho : d.source with
    | signal signal callback deliver =>
      rw [(subscribe_of_signal hd ho host).1, (subscribe_of_signal hd ho host).2]
      rcases connect_cases signal (.event event) w with ⟨hs, hf, hm, hok, ha⟩ | ⟨f, hf, ha⟩
      · rw [after_bind_of_ok hok, ha]
        exact ⟨hw.traced_attach hf (if_neg hm) (signalOf_eq_some_iff.2 ⟨d, callback, deliver, hd, ho⟩),
          fun _ _ => ⟨w.history.toList, Array.toList_push⟩⟩
      · rw [after_bind_of_error hf, outcome_bind_of_error hf, ha]
        exact ⟨hw.traced, nofun⟩
    | foreign begin_ end_ =>
      rw [(subscribe_of_foreign hd ho host).1, (subscribe_of_foreign hd ho host).2]
      have hp := traced_perform hh hw begin_
      cases hr : (perform host begin_).outcome w with
      | ok _ =>
        rw [after_bind_of_ok hr]
        exact ⟨hp.trans (hp.1.traced_record nofun), fun _ _ => ⟨_, Array.toList_push⟩⟩
      | error f =>
        rw [after_bind_of_error hr, outcome_bind_of_error hr]
        exact ⟨hp, nofun⟩

theorem traced_listen (hw : w.Bound) (name : String) : Traced w ((listen host name).after w) := by
  cases hn : w.eventBooks.known.find? name with
  | none =>
    rw [(listen_of_unknown hn host).2]
    exact hw.traced
  | some event =>
    cases ha : w.eventBooks.active.contains name with
    | true =>
      rw [(listen_of_active hn ha host).2]
      exact hw.traced
    | false =>
      obtain ⟨⟨hv, ds, hs⟩, hlast⟩ := traced_subscribe hh hw event
      cases hr : (subscribe host event).outcome w with
      | error f =>
        rw [(listen_of_error hn ha hr).2]
        exact ⟨hv, ds, hs⟩
      | ok _ =>
        rw [(listen_of_ok hn ha hr).2]
        obtain ⟨es, hes⟩ := hlast (hw.valid_find? hn) hr
        have hl := hv.traced_listen hes (hs.find? hn)
        exact (lifeInvariant_traced w).log _ (by intros; trivial) (.trans ⟨hv, ds, hs⟩ hl)

/-- An event ceases to come in, and is not connected then. -/
theorem exists_since_unsubscribe (hw : w.Bound) (event : Nat) :
    ((unsubscribe host event).after w).Bound ∧
      (∃ ds, Since w (.detach event :: ds) ((unsubscribe host event).after w)) ∧
      ¬ ((unsubscribe host event).after w).Connected event := by
  let w₁ : World := { w with history := w.history.push (.detach event) }
  have h₁ : w₁.Bound := hw.record nofun
  have hs₁ : Since w [.detach event] w₁ := since_record w _
  suffices h : Traced w₁ ((unsubscribe host event).after w) ∧
      ¬ ((unsubscribe host event).after w).Connected event by
    obtain ⟨⟨hv, ds, hs⟩, hc⟩ := h
    exact ⟨hv, ⟨ds, hs₁.trans hs⟩, hc⟩
  cases hd : w.events[event]? with
  | none =>
    rw [(unsubscribe_of_none hd host).2]
    refine ⟨h₁.traced, fun ⟨signal, hs, hf, hm⟩ => ?_⟩
    obtain ⟨_, _, _, hd', -⟩ := signalOf_eq_some_iff.1 (h₁.owned hf hm)
    exact nomatch hd.symm.trans hd'
  | some d =>
    cases ho : d.source with
    | signal signal callback deliver =>
      rw [(unsubscribe_of_signal hd ho host).2]
      exact ⟨traced_disconnect h₁ _ _, not_connected_of_disconnect h₁
        (signalOf_eq_some_iff.2 ⟨d, callback, deliver, hd, ho⟩)⟩
    | foreign begin_ end_ =>
      rw [(unsubscribe_of_foreign hd ho host).2]
      have hp := traced_perform hh h₁ end_
      obtain ⟨hv, ds, hs⟩ := hp
      refine ⟨⟨hv, ds, hs⟩, fun ⟨signal, hs', hf, hm⟩ => ?_⟩
      have hown := hv.owned hf hm
      rw [hs.signalOf_eq (Array.getElem?_eq_some_iff.1 hd).1] at hown
      obtain ⟨_, _, _, hd', ho'⟩ := signalOf_eq_some_iff.1 hown
      obtain rfl := Option.some.inj (hd.symm.trans hd')
      exact nomatch ho.symm.trans ho'

theorem exists_since_endSubscription (hw : w.Bound) (name : String) (event : Nat) :
    ((endSubscription host name event).after w).Bound ∧
      (∃ ds, Since w (.detach event :: ds) ((endSubscription host name event).after w)) ∧
      ¬ ((endSubscription host name event).after w).Connected event := by
  obtain ⟨hv, ⟨ds, hs⟩, hc⟩ := exists_since_unsubscribe hh hw event
  obtain ⟨l, ha⟩ : ∃ l, (endSubscription host name event).after w =
      { (unsubscribe host event).after w with log := l } := by
    rw [after_endSubscription]
    cases (unsubscribe host event).outcome w <;> exact ⟨_, rfl⟩
  have hs' : Since ((unsubscribe host event).after w) []
      { (unsubscribe host event).after w with log := l } := {}
  rw [ha]
  exact ⟨hv.congr rfl rfl rfl rfl rfl, ⟨ds, by simpa using hs.trans hs'⟩, hc⟩

/-! ### The end of all subscriptions -/

/-- Subscriptions end from a position on. Unless that breaks off, none of their events is connected
then, if it has not come in anew. -/
theorem exists_since_endFrom (count left i : Nat) (hw : w.Bound) : ∃ ds,
    ((endFrom host count left i).after w).Bound ∧
      Since w ds ((endFrom host count left i).after w) ∧
      (∀ x, left ≠ 0 → w.eventBooks.active.entries[i]? = some x →
        ∃ rest, ds = .detach x.2 :: rest) ∧
      ((endFrom host count left i).Ends w → w.eventBooks.active.entries.length = count →
        count ≤ i + left → .forget ∉ ds → ∀ j x, i ≤ j →
          w.eventBooks.active.entries[j]? = some x →
          ((endFrom host count left i).after w).Connected x.2 → .attach x.2 ∈ ds) := by
  induction left generalizing i w with
  | zero =>
    refine ⟨[], hw, .refl w, nofun, fun _ hl hle _ j x hj hx _ => ?_⟩
    have := (List.getElem?_eq_some_iff.1 hx).1
    omega
  | succ left ih =>
    cases hi : w.eventBooks.active.entries[i]? with
    | none =>
      rw [(endFrom_of_none hi).2]
      refine ⟨[], hw, .refl w, nofun, fun _ _ _ _ j x hj hx _ => ?_⟩
      have hlen := List.getElem?_eq_none_iff.1 hi
      have := (List.getElem?_eq_some_iff.1 hx).1
      omega
    | some entry =>
      obtain ⟨name, event⟩ := entry
      obtain ⟨hu, ⟨ds, hs⟩, hc⟩ := exists_since_endSubscription hh hw name event
      have first : ∀ es x, some (name, event) = some x →
          ∃ rest, .detach event :: (ds ++ es) = .detach x.2 :: rest := by
        rintro es x ⟨⟩
        exact ⟨ds ++ es, rfl⟩
      rcases endFrom_succ_of_some host count left hi with ⟨hn, ha, he⟩ | ⟨hn, ha, he⟩
      · obtain ⟨es, hv, hs', -, hr⟩ := ih (i + 1) hu
        rw [ha]
        refine ⟨.detach event :: (ds ++ es), hv, hs.trans hs', fun x _ => first es x,
          fun hends hl hle hf j x hj hx hcon => ?_⟩
        rw [← List.cons_append, List.mem_append, not_or] at hf
        obtain ⟨hf, hf'⟩ := hf
        refine List.mem_append_right (.detach event :: ds) ?_
        rcases Nat.eq_or_lt_of_le hj with rfl | hj
        · obtain rfl := Option.some.inj (hi.symm.trans hx)
          exact (hs'.linked hcon).resolve_left hc
        · obtain ⟨more, hm⟩ := hs.kept hf
          have hlt := (List.getElem?_eq_some_iff.1 hx).1
          refine hr (he.1 hends) hn (by omega) hf' j x hj ?_ hcon
          rw [← hm, List.getElem?_append_left hlt, hx]
      · rw [ha]
        refine ⟨.detach event :: (ds ++ []), hu, by simpa using hs, fun x _ => first [] x,
          fun hends => absurd hends he⟩

/-- All subscriptions end. If everything has its turn, none of their events is connected when the
books forget them: nothing but subscriptions can have ended meanwhile. -/
theorem traced_unsubscribeAll (hf : host.Follows) (hw : w.Bound) :
    Traced w ((unsubscribeAll host).after w) := by
  let count := w.eventBooks.active.entries.length
  obtain ⟨ds, hv, hs, hfirst, hend⟩ := exists_since_endFrom hh count count 0 hw
  cases ho : (endFrom host count count 0).outcome w with
  | error f =>
    rw [(unsubscribeAll_of_error ho).2]
    exact ⟨hv, ds, hs⟩
  | ok faults =>
    rw [(unsubscribeAll_of_ok ho).2]
    refine .trans ⟨hv, ds, hs⟩ (hv.traced_forget fun settled ht e hc => ?_)
    have hwoven : Woven [] ds := by
      obtain ⟨es, h, -⟩ := exists_leads_endFrom hf count count 0 w
      rw [List.append_cancel_left (hs.history.symm.trans h.history)]
      exact h.woven
    rw [tenure, hs.history, Tenure.track_append, Option.bind_eq_some_iff] at ht
    obtain ⟨t, ht, htrack⟩ := ht
    obtain ⟨settled', rfl⟩ : ∃ settled, t = .held settled .ending := by
      cases hx : w.eventBooks.active.entries[0]? with
      | none =>
        have hcount : count = 0 := Nat.le_zero.1 (List.getElem?_eq_none_iff.1 hx)
        have hnil : w.history.toList ++ ds = w.history.toList ++ [] := by
          rw [← hs.history, hcount, List.append_nil]
          rfl
        rw [List.append_cancel_left hnil] at htrack
        exact ⟨settled, Option.some.inj htrack⟩
      | some x =>
        have hcount : count ≠ 0 := (Nat.lt_of_lt_of_eq (List.getElem?_eq_some_iff.1 hx).1 rfl).ne'
        obtain ⟨rest, rfl⟩ := hfirst x hcount hx
        obtain ⟨_, hstep, -⟩ := Tenure.track_cons_eq_some.1 htrack
        exact Tenure.eq_ending_of_step hstep (.inl rfl)
    have hdetach := Tenure.eq_detach_of_ending hwoven htrack
    have hattach : .attach e ∉ ds := fun hm => by
      obtain ⟨_, h⟩ := hdetach _ hm
      cases h
    have hforget : .forget ∉ ds := fun hm => by
      obtain ⟨_, h⟩ := hdetach _ hm
      cases h
    obtain ⟨name, hm⟩ :=
      (hw.held ht ((hs.linked hc).resolve_right hattach)).resolve_right fun h => by cases h
    obtain ⟨j, hj⟩ := List.mem_iff_getElem?.1 hm
    exact hattach (hend (ends_iff.2 ⟨faults, ho⟩) rfl (by omega) hforget j _ (Nat.zero_le j) hj hc)

end

/-! ### Answers -/

theorem alike_traced {α : Type} {m : Op α} (base : World)
    (h : ∀ w, w.Bound → Traced w (m.after w)) : Alike (Only (Traced base)) m m :=
  alike_only_iff.2 fun w hw => hw.trans (h w hw.1)

/-- Events stay bound to the books, whatever foreign code asks. -/
theorem alike_traced_respond (n : Nat) (base : World) :
    (respond n).Alike (Only (Traced base)) (respond n) := by
  induction n generalizing base with
  | zero => exact fun _ => alike_throw _
  | succ n ih =>
    have I := lifeInvariant_traced base
    have governs : Governs (Only (Traced base)) (respond n) (respond n) :=
      governs_of_attends I.lifeBond
        { answers := ih base
          listen := fun name => alike_traced base fun w hw => traced_listen ih hw name
          emit := alike_emit twins_only I.toInvariant.bond (ih base)
          count := fun signal => (alike_handlers twins_only signal).bind fun _ => alike_pure _ }
        (alike_discover (welcoming_traced base).bond (ih base))
        (alike_traced base fun w hw => traced_unsubscribeAll ih (follows_respond n) hw)
    refine fun q => alike_answerRequest I.toInvariant.bond governs
      (fun _ => (timeless_traced base).restless) fun hq => ?_
    cases q with
    | connect signal handler =>
      exact (alike_traced base fun w hw => traced_connect_object hw signal handler).andNone
    | disconnect signal handler =>
      exact (alike_traced base fun w hw => traced_disconnect hw signal _).andNone
    | clearHandlers signal =>
      have h := (alike_traced base fun w hw => traced_clearHandlers hw signal).andNone
      rwa [bind_assoc] at h
    | subscribe event =>
      exact (alike_traced base fun w hw => (traced_subscribe ih hw event).1).andNone
    | unsubscribe event =>
      refine (alike_traced base fun w hw => ?_).andNone
      obtain ⟨hv, ⟨ds, hs⟩, -⟩ := exists_since_unsubscribe ih hw event
      exact ⟨hv, _, hs⟩
    | _ => cases hq

theorem traced_askAll (n : Nat) (qs : List Request) (hw : w.Bound) :
    Traced w ((askAll n qs).after w) :=
  keeps_askAll (alike_traced_respond n w) qs hw.traced

/-- A host that is asked for one thing after another is left with no event connected when nothing is
loaded, and with nothing in the books that scripts listen to. -/
theorem not_connected_askAll (n : Nat) (qs : List Request) (hw : w.Fresh)
    (hb : w.eventBooks = {}) (hs : ∀ x ∈ w.signals.entries, x.2 = [])
    (hturn : InTurn ((askAll n qs).after w).history.toList)
    (hl : ((askAll n qs).after w).session.loaded = false) :
    ((askAll n qs).after w).eventBooks.active = {} ∧
      ∀ event, ¬ ((askAll n qs).after w).Connected event := by
  obtain ⟨ht, -, hnames⟩ := tenure_askAll n qs hw hturn hl
  have hempty : ((askAll n qs).after w).eventBooks.active.entries = [] :=
    List.map_eq_nil_iff.1 (hnames (by rw [hb]; rfl))
  obtain ⟨hv, -⟩ := traced_askAll n qs (bound_of_unused hb hs)
  refine ⟨congrArg Roster.mk hempty, fun event hc => ?_⟩
  rcases hv.held ht hc with ⟨name, hm⟩ | hbegun
  · rw [hempty] at hm
    cases hm
  · cases hbegun

end Op

end ScriptHost
