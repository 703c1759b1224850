import ScriptHost.Proofs.Border
import ScriptHost.Proofs.Connections

/-!
# Subscriptions

What signals and subscriptions leave. An event that ceases to come in is not connected any more,
whatever `disconnect` says to it (`exists_leads_unsubscribe`); so once all subscriptions have ended
and are forgotten, none of their events is connected, unless it has begun to come in anew meanwhile
(`exists_leads_unsubscribeAll`).
-/
namespace ScriptHost

namespace World

variable {w w' : World} {signal name : String} {hs hs' : Handlers} {event : Nat}

/-! ### Changes of a signal -/

theorem Tidy.setHandlers (ht : w.Tidy) (hn : hs'.Nodup)
    (ho : ∀ e, .event e ∈ hs' → ∃ d callback deliver, w.events[e]? = some d ∧
      d.source = .signal signal callback deliver) :
    Tidy { w with signals := w.signals.put signal hs' } where
  nodup {other hs} h := by
    change (w.signals.put signal hs').find? other = some hs at h
    rw [Roster.find?_put] at h
    split at h
    · cases h
      exact hn
    · exact ht.nodup h
  owned {other hs e} h hm := by
    change (w.signals.put signal hs').find? other = some hs at h
    rw [Roster.find?_put] at h
    split at h
    · rename_i hother
      cases h
      exact hother ▸ ho e hm
    · exact ht.owned h hm
  known := ht.known
  housed := ht.housed

theorem connected_setHandlers {e : Nat}
    (h : Connected { w with signals := w.signals.put signal hs' } e) :
    .event e ∈ hs' ∨ ∃ other hs, other ≠ signal ∧ w.signals.find? other = some hs ∧
      .event e ∈ hs := by
  obtain ⟨other, hs, hf, hm⟩ := h
  change (w.signals.put signal hs').find? other = some hs at hf
  rw [Roster.find?_put] at hf
  split at hf
  · cases hf
    exact .inl hm
  · rename_i hother
    exact .inr ⟨other, hs, hother, hf, hm⟩

/-- A signal whose handlers become others, with no event among them that was not before. -/
theorem leads_setHandlers (h : w.signals.find? signal = some hs) (hn : hs.Nodup → hs'.Nodup)
    (hsub : ∀ e, Handler.event e ∈ hs' → Handler.event e ∈ hs) :
    Leads w [] [] { w with signals := w.signals.put signal hs' } where
  history := by simp
  woven := .nil
  admits := trivial
  holding := rfl
  active := rfl
  occupied := by simp
  grown := .of_eq rfl rfl rfl rfl rfl
  links ht :=
    { tidy := ht.setHandlers (hn (ht.nodup h)) fun e he => ht.owned h (hsub e he)
      linked := fun hc => by
        rcases connected_setHandlers hc with hm | ⟨other, hs, _, hf, hm⟩
        · exact .inl ⟨signal, _, h, hsub _ hm⟩
        · exact .inl ⟨other, hs, hf, hm⟩
      kept := fun _ => List.prefix_rfl
      dropped := fun hf => absurd hf List.not_mem_nil }

/-- An event joins the handlers of its signal. -/
theorem leads_attach (h : w.signals.find? signal = some hs) (hc : hs.connect? (.event event) = some hs')
    {d : EventDescriptor} {callback : String} {deliver : String → List Datum → Program Unit}
    (hd : w.events[event]? = some d) (ho : d.source = .signal signal callback deliver) :
    Leads w [] [.attach event]
      { w with
        signals := w.signals.put signal hs'
        history := w.history.push (.attach event) } where
  history := by simp
  woven := .quiet rfl .nil
  admits := ⟨trivial, trivial⟩
  holding := rfl
  active := rfl
  occupied := by simp
  grown := .of_eq rfl rfl rfl rfl rfl
  links ht := by
    have hmem : ∀ e, Handler.event e ∈ hs' → Handler.event e ∈ hs ∨ e = event := by
      intro e he
      simp only [Handlers.connect?, Option.ite_none_left_eq_some, Option.some.injEq] at hc
      rw [← hc.2] at he
      simpa using he
    have htidy : Tidy { w with signals := w.signals.put signal hs' } := by
      refine ht.setHandlers (Handlers.nodup_connect? (ht.nodup h) hc) fun e he => ?_
      rcases hmem e he with hm | rfl
      · exact ht.owned h hm
      · exact ⟨d, callback, deliver, hd, ho⟩
    refine ⟨⟨htidy.nodup, htidy.owned, htidy.known, htidy.housed⟩, ?_, fun _ => List.prefix_rfl, ?_⟩
    · intro e hc
      rcases connected_setHandlers hc with hm | ⟨other, hs, _, hf, hm⟩
      · rcases hmem e hm with hm | rfl
        · exact .inl ⟨signal, _, h, hm⟩
        · exact .inr (by simp)
      · exact .inl ⟨other, hs, hf, hm⟩
    · intro hf
      simp at hf

/-- An event about which nothing is known but that it has begun or ceased to come in. -/
theorem leads_record_quiet (w : World) {d : Deed} (hd : d = .attach event ∨ d = .detach event) :
    Leads w [] [d] { w with history := w.history.push d } where
  history := by simp
  woven := .quiet (by rcases hd with rfl | rfl <;> rfl) .nil
  admits := by rcases hd with rfl | rfl <;> exact ⟨trivial, trivial⟩
  holding := by rcases hd with rfl | rfl <;> rfl
  active := by rcases hd with rfl | rfl <;> rfl
  occupied := by rcases hd with rfl | rfl <;> simp
  grown := .of_eq rfl rfl rfl rfl rfl
  links ht := by
    refine ⟨⟨ht.nodup, ht.owned, ht.known, ht.housed⟩, .inl, fun _ => List.prefix_rfl, fun hf => ?_⟩
    rcases hd with rfl | rfl <;> simp at hf

/-! ### Changes of the books -/

/-- A name that is put in the books twice has the same event both times. -/
theorem Tidy.prefix_put (ht : w.Tidy) (hk : w.eventBooks.known.find? name = some event) :
    w.eventBooks.active.entries <+: (w.eventBooks.active.put name event).entries :=
  Roster.prefix_put fun x hx hn => by
    have he := ht.known hx
    rw [hn, hk, Option.some.injEq] at he
    exact he.symm

theorem Tidy.known_put (ht : w.Tidy) (hk : w.eventBooks.known.find? name = some event)
    {x : String × Nat} (hx : x ∈ (w.eventBooks.active.put name event).entries) :
    w.eventBooks.known.find? x.1 = some x.2 := by
  rcases Roster.mem_put hx with hx | rfl
  · exact ht.known hx
  · exact hk

/-- A known event enters the books as one that scripts listen to. -/
theorem leads_listen (hk : w.eventBooks.known.find? name = some event) :
    Leads w [] [.listen name]
      { w with
        eventBooks := { w.eventBooks with active := w.eventBooks.active.put name event }
        history := w.history.push (.listen name) } where
  history := by simp
  woven := .quiet rfl .nil
  admits := ⟨trivial, trivial⟩
  holding := rfl
  active := by
    change (w.eventBooks.active.put name event).names = _
    simp only [Roster.names_put, Roster.contains_iff, listening_cons, listeningStep, listening_nil]
  occupied := by simp
  grown := .of_eq rfl rfl rfl rfl rfl
  links ht :=
    { tidy := ⟨ht.nodup, ht.owned, ht.known_put hk, ht.housed⟩
      linked := .inl
      kept := fun _ => ht.prefix_put hk
      dropped := fun hf => by simp at hf }

/-- What is not connected stays so, unless it comes in anew. -/
theorem Leads.connected_trans {w w' w'' : World} {own own' ds es : List Deed}
    (h : Leads w own ds w') (h' : Leads w' own' es w'') (ht : w.Tidy)
    (hc : w'.Connected event → .attach event ∈ ds) (hc' : w''.Connected event) :
    .attach event ∈ ds ++ es := by
  rcases (h'.links (h.links ht).tidy).linked hc' with hc' | hc'
  · exact List.mem_append_left _ (hc hc')
  · exact List.mem_append_right _ hc'

/-- The books forget what scripts listen to, once none of it is connected any more. -/
theorem Leads.forget {w w' : World} {ds : List Deed} (h : Leads w [] ds w')
    (hd : w.Tidy → ∀ x ∈ w.eventBooks.active.entries, w'.Connected x.2 → .attach x.2 ∈ ds) :
    Leads w [] (ds ++ [.forget])
      { w' with
        eventBooks := { w'.eventBooks with active := {} }
        history := w'.history.push .forget } where
  history := by simp [h.history]
  woven := h.woven.append (.quiet rfl .nil)
  admits := Holding.admitsAll_append.2 ⟨h.admits, trivial, trivial⟩
  holding := by
    rw [Holding.replay_append]
    exact h.holding
  active := by
    rw [listening_append]
    rfl
  occupied hm := h.occupied (by simpa using hm)
  grown := h.grown.trans (.of_eq rfl rfl rfl rfl rfl)
  links ht := by
    have hl := h.links ht
    refine ⟨⟨hl.tidy.nodup, hl.tidy.owned, fun hx => (nomatch hx), hl.tidy.housed⟩, ?_, ?_, ?_⟩
    · intro e hc
      rcases hl.linked hc with hc | hc
      · exact .inl hc
      · exact .inr (List.mem_append_left _ hc)
    · intro hf
      simp at hf
    · intro _ x hx hc
      exact List.mem_append_left _ (hd ht x hx hc)

end World

namespace Op

open World

/-! ### Signals -/

theorem follows_handlers (signal : String) : (handlers signal).Follows := by
  refine follows_get.bind fun w => ?_
  split
  · exact follows_pure _
  · exact follows_throw _

theorem follows_connect_object (signal : String) (place : Nat) :
    (connect signal (.object place)).Follows := by
  intro w
  rcases connect_cases signal (.object place) w with ⟨hs, hf, hm, -, ha⟩ | ⟨_, -, ha⟩
  · rw [ha]
    refine ⟨[], leads_setHandlers hf (fun hn => Handlers.nodup_connect? hn (if_neg hm)) fun e he => ?_⟩
    simpa using he
  · exact ⟨[], .of_eq ha⟩

theorem follows_disconnect (signal : String) (h : Handler) : (disconnect signal h).Follows := by
  intro w
  rcases disconnect_cases signal h w with ⟨hs, hf, hm, -, ha⟩ | ⟨-, _, -, ha⟩
  · rw [ha]
    exact ⟨[], leads_setHandlers hf (fun hn => hn.erase h) fun e he => List.mem_of_mem_erase he⟩
  · exact ⟨[], .of_eq ha⟩

/-- No handler is left where all are taken away. -/
theorem follows_clearHandlers (signal : String) :
    (do discard (handlers signal); setHandlers signal []).Follows := by
  intro w
  rw [discard_bind, after_handlers_bind]
  cases h : w.signals.find? signal with
  | none => exact ⟨[], .refl w⟩
  | some hs =>
    exact ⟨[], leads_setHandlers h (fun _ => List.nodup_nil) fun e he => absurd he (by simp)⟩

section

variable {host : Responder} (hh : host.Follows)

include hh

theorem follows_callHandler (args : List Datum) (h : Handler) :
    (callHandler host args h).Follows := by
  cases h with
  | object p => exact (follows_callObject hh _ _).discard
  | event e =>
    refine follows_get.bind fun w => ?_
    split
    · exact follows_perform hh _
    · exact follows_pure _

theorem follows_emit (signal : String) (args : List Datum) : (emit host signal args).Follows := by
  refine (follows_handlers _).bind fun hs => Follows.bind ?_ fun _ => follows_pure _
  refine follows_forM (fun h => (follows_callHandler hh args h).attempt.bind fun r => ?_) hs
  cases r with
  | ok _ => exact follows_pure _
  | error f => exact follows_log _ _ _ _

/-! ### One event -/

/-- An event begins to come in: through its signal, or by foreign code. -/
theorem follows_subscribe (event : Nat) : (subscribe host event).Follows := by
  intro w
  cases hd : w.events[event]? with
  | none => exact ⟨[], .of_eq (subscribe_of_none hd host).2⟩
  | some d =>
    cases ho : d.source with
    | signal signal callback deliver =>
      rw [(subscribe_of_signal hd ho host).2]
      rcases connect_cases signal (.event event) w with ⟨hs, hf, hm, hc, ha⟩ | ⟨f, hc, ha⟩
      · rw [after_bind_of_ok hc, ha]
        exact ⟨[.attach event], leads_attach hf (if_neg hm) hd ho⟩
      · rw [after_bind_of_error hc, ha]
        exact ⟨[], .refl w⟩
    | foreign begin_ end_ =>
      have hr : (record (.attach event)).Follows := fun w => ⟨_, leads_record_quiet w (.inl rfl)⟩
      rw [(subscribe_of_foreign hd ho host).2]
      exact ((follows_perform hh begin_).bind fun _ => hr) w

omit hh in
/-- An event that has ceased to come in through its own signal is not connected. -/
theorem not_connected_disconnect {w : World} {event : Nat} {signal : String}
    (nodup : ∀ {hs}, w.signals.find? signal = some hs → hs.Nodup)
    (own : ∀ {other hs}, w.signals.find? other = some hs → .event event ∈ hs → other = signal) :
    ¬ ((disconnect signal (.event event)).after w).Connected event := by
  rcases disconnect_cases signal (.event event) w with ⟨hs, hf, -, -, ha⟩ | ⟨hn, _, -, ha⟩
  · rw [ha]
    intro hcon
    rcases connected_setHandlers hcon with hm | ⟨other, _, hother, ho, hm⟩
    · exact (nodup hf).not_mem_erase hm
    · exact hother (own ho hm)
  · rw [ha]
    rintro ⟨other, hs, ho, hm⟩
    exact hn hs (own ho hm ▸ ho) hm

/-- An event ceases to come in. It is not connected then, unless foreign code has let it come in
anew. -/
theorem exists_leads_unsubscribe (event : Nat) (w : World) :
    ∃ ds, Leads w [] ds ((unsubscribe host event).after w) ∧
      (w.Tidy → ((unsubscribe host event).after w).Connected event → .attach event ∈ ds) := by
  let w₁ : World := { w with history := w.history.push (.detach event) }
  have h₁ : Leads w [] [.detach event] w₁ := leads_record_quiet w (.inr rfl)
  cases hd : w.events[event]? with
  | none =>
    rw [(unsubscribe_of_none hd host).2]
    refine ⟨_, h₁, fun ht ⟨signal, hs, hf, hm⟩ => ?_⟩
    obtain ⟨_, _, _, hd', _⟩ := ht.owned hf hm
    exact nomatch hd.symm.trans hd'
  | some d =>
    cases ho : d.source with
    | signal signal callback deliver =>
      rw [(unsubscribe_of_signal hd ho host).2]
      obtain ⟨ds, h⟩ := follows_disconnect signal (.event event) w₁
      refine ⟨_, h₁.trans h, fun ht hc => ?_⟩
      have own : ∀ {other hs}, w₁.signals.find? other = some hs → .event event ∈ hs →
          other = signal := by
        intro other hs hf hm
        obtain ⟨d', _, _, hd', ho'⟩ := ht.owned hf hm
        rw [hd, Option.some.injEq] at hd'
        rw [← hd', ho, EventSource.signal.injEq] at ho'
        exact ho'.1.symm
      exact absurd hc (not_connected_disconnect (h₁.links ht).tidy.nodup own)
    | foreign begin_ end_ =>
      rw [(unsubscribe_of_foreign hd ho host).2]
      obtain ⟨ds, h⟩ := follows_perform hh end_ w₁
      refine ⟨_, h₁.trans h, fun ht ⟨signal, hs, hf, hm⟩ => ?_⟩
      -- No signal has the event, as its source stays the one it is.
      obtain ⟨d', _, _, hd', ho'⟩ := ((h₁.trans h).links ht).tidy.owned hf hm
      rw [(h₁.trans h).grown.event hd, Option.some.injEq] at hd'
      subst hd'
      cases ho.symm.trans ho'

theorem follows_unsubscribe (event : Nat) : (unsubscribe host event).Follows := fun w =>
  let ⟨ds, h, _⟩ := exists_leads_unsubscribe hh event w
  ⟨ds, h⟩

/-! ### The books -/

theorem follows_listen (name : String) : (listen host name).Follows := by
  intro w
  cases hk : w.eventBooks.known.find? name with
  | none => exact ⟨[], .of_eq (listen_of_unknown hk host).2⟩
  | some event =>
    cases ha : w.eventBooks.active.contains name with
    | true => exact ⟨[], .of_eq (listen_of_active hk ha host).2⟩
    | false =>
      obtain ⟨ds, h⟩ := follows_subscribe hh event w
      cases hs : (subscribe host event).outcome w with
      | error f => exact ⟨ds, (listen_of_error hk ha hs).2 ▸ h⟩
      | ok _ =>
        rw [(listen_of_ok hk ha hs).2]
        have hl := leads_listen (Roster.find?_of_prefix h.grown.known hk)
        obtain ⟨es, h'⟩ := follows_log .info "luahost.events"
          s!"Started listening to event '{name}'." none _
        exact ⟨_, (h.trans hl).trans h'⟩

/-- One subscription ends, and its event with it. -/
theorem exists_leads_endSubscription (name : String) (event : Nat) (w : World) :
    ∃ ds, Leads w [] ds ((endSubscription host name event).after w) ∧
      (w.Tidy → ((endSubscription host name event).after w).Connected event →
        .attach event ∈ ds) := by
  obtain ⟨ds, h, hc⟩ := exists_leads_unsubscribe hh event w
  rw [after_endSubscription]
  cases (unsubscribe host event).outcome w with
  | ok _ =>
    obtain ⟨es, h'⟩ := follows_log .debug "luahost.events"
      s!"Stopped listening to event '{name}'." none ((unsubscribe host event).after w)
    exact ⟨_, h.trans h', fun ht => h.connected_trans h' ht (hc ht)⟩
  | error f =>
    obtain ⟨es, h'⟩ := follows_log .warning "luahost.events"
      s!"Failed to stop listening to event '{name}': {f.message}" none
        ((unsubscribe host event).after w)
    exact ⟨_, h.trans h', fun ht => h.connected_trans h' ht (hc ht)⟩

omit hh in
/-- After one subscription the rest is met, if there are as many as before. -/
theorem endFrom_succ_of_some (host : Responder) (count left : Nat) {i : Nat} {w : World}
    {name : String} {event : Nat}
    (hi : w.eventBooks.active.entries[i]? = some (name, event)) :
    let w₁ := (endSubscription host name event).after w
    (w₁.eventBooks.active.entries.length = count ∧
      (endFrom host count (left + 1) i).after w = (endFrom host count left (i + 1)).after w₁ ∧
      ((endFrom host count (left + 1) i).Ends w ↔ (endFrom host count left (i + 1)).Ends w₁)) ∨
    (w₁.eventBooks.active.entries.length ≠ count ∧
      (endFrom host count (left + 1) i).after w = w₁ ∧
      ¬ (endFrom host count (left + 1) i).Ends w) := by
  intro w₁
  obtain ⟨faults, hf⟩ := ends_iff.1 (ends_endSubscription host name event w)
  by_cases hc : w₁.eventBooks.active.entries.length = count
  · obtain ⟨ho, ha⟩ := endFrom_succ_of_eq hi left hf hc
    refine .inl ⟨hc, ha, ?_⟩
    rw [Ends, ho]
    exact ends_bind_pure_iff
  · obtain ⟨hn, ha⟩ := endFrom_succ_of_ne hi left hc
    exact .inr ⟨hc, ha, hn⟩

/-- Subscriptions end from a position on. If all goes well to the end, none of their events is
connected any more, unless it has come in anew: the books only get longer until they are forgotten,
so each subscription is met at its position, or was ended by whoever made the books forget it. -/
theorem exists_leads_endFrom (count left i : Nat) (w : World) :
    ∃ ds, Leads w [] ds ((endFrom host count left i).after w) ∧
      (w.Tidy → (endFrom host count left i).Ends w → w.eventBooks.active.entries.length = count →
        count ≤ i + left → ∀ j x, i ≤ j → w.eventBooks.active.entries[j]? = some x →
          ((endFrom host count left i).after w).Connected x.2 → .attach x.2 ∈ ds) := by
  induction left generalizing i w with
  | zero =>
    refine ⟨[], .refl w, fun _ _ hl hle j x hj hx _ => ?_⟩
    have := (List.getElem?_eq_some_iff.1 hx).1
    omega
  | succ left ih =>
    cases hi : w.eventBooks.active.entries[i]? with
    | none =>
      rw [(endFrom_of_none hi).2]
      refine ⟨[], .refl w, fun _ _ _ _ j x hj hx _ => ?_⟩
      have hlen := List.getElem?_eq_none_iff.1 hi
      have := (List.getElem?_eq_some_iff.1 hx).1
      omega
    | some entry =>
      obtain ⟨name, event⟩ := entry
      obtain ⟨ds, h, hc⟩ := exists_leads_endSubscription hh name event w
      rcases endFrom_succ_of_some host count left hi with
        ⟨hn, ha, he⟩ | ⟨hn, ha, he⟩
      · obtain ⟨es, h', hr⟩ := ih (i + 1) ((endSubscription host name event).after w)
        rw [ha]
        refine ⟨_, h.trans h', fun ht hends hl hle j x hj hx => ?_⟩
        by_cases hf : .forget ∈ ds
        · exact h.connected_trans h' ht ((h.links ht).dropped hf x (List.mem_of_getElem? hx))
        · rcases Nat.eq_or_lt_of_le hj with rfl | hj
          · have hx : (name, event) = x := by simpa [hi] using hx
            exact h.connected_trans h' ht (hx ▸ hc ht)
          · obtain ⟨more, hm⟩ := (h.links ht).kept hf
            have hlt := (List.getElem?_eq_some_iff.1 hx).1
            intro hcon
            refine List.mem_append_right _ ?_
            refine hr (h.links ht).tidy (he.1 hends) hn (by omega) j x hj ?_ hcon
            rw [← hm, List.getElem?_append_left hlt, hx]
      · rw [ha]
        exact ⟨ds, h, fun _ hends => absurd hends he⟩

/-- All subscriptions end. Unless that breaks off, nothing is listened to then; the last deed is to
forget it. -/
theorem exists_leads_unsubscribeAll (w : World) :
    ∃ ds, Leads w [] ds ((unsubscribeAll host).after w) ∧
      ((unsubscribeAll host).Ends w →
        ((unsubscribeAll host).after w).eventBooks.active = {} ∧ ∃ es, ds = es ++ [.forget]) := by
  let count := w.eventBooks.active.entries.length
  obtain ⟨ds, h, hc⟩ := exists_leads_endFrom hh count count 0 w
  cases ho : (endFrom host count count 0).outcome w with
  | error f =>
    obtain ⟨ho, ha⟩ := unsubscribeAll_of_error ho
    exact ⟨ds, ha ▸ h, fun he => absurd he (not_ends_of_error ho)⟩
  | ok faults =>
    rw [(unsubscribeAll_of_ok ho).2]
    refine ⟨ds ++ [.forget], h.forget fun ht x hx hcon => ?_, fun _ => ⟨rfl, ds, rfl⟩⟩
    obtain ⟨j, hj⟩ := List.mem_iff_getElem?.1 hx
    exact hc ht (ends_iff.2 ⟨faults, ho⟩) rfl (by omega) j x (Nat.zero_le j) hj hcon

theorem follows_unsubscribeAll : (unsubscribeAll host).Follows := fun w =>
  let ⟨ds, h, _⟩ := exists_leads_unsubscribeAll hh w
  ⟨ds, h⟩

/-! ### Known events -/

omit hh in
theorem follows_registerKnown (d : EventDescriptor) : (registerKnown d).Follows := by
  refine follows_get.bind fun w => ?_
  have hr : ∀ b : Bool, ∀ text, (do debug "luahost.events" text; return b).Follows := fun b text =>
    (follows_log _ _ _ _).bind fun _ => follows_pure b
  refine .ite (hr _ _) ?_
  refine (follows_newEvent d).bind fun place => Follows.bind ?_ fun _ => hr _ _
  exact follows_modify fun w => { known := Roster.prefix_add _ _ _ }

theorem follows_discoverOne (ident : String) (make : EventFactory) :
    (discoverOne host ident make).Follows := by
  refine follows_get.bind fun w => .ite (follows_pure _) ?_
  refine (follows_modify fun _ => {}).bind fun _ => ?_
  refine (follows_perform hh make).attempt.bind fun r => ?_
  cases r with
  | ok d => exact follows_registerKnown d
  | error f => exact (follows_log _ _ _ _).bind fun _ => follows_pure _

theorem follows_discover : (discover host).Follows := by
  refine follows_get.bind fun w => Follows.bind ?_ fun _ => follows_pure _
  exact follows_mapM (fun (x : String × EventFactory) => follows_discoverOne hh x.1 x.2) _

end

end Op

end ScriptHost
