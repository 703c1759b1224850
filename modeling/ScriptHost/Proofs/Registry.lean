import Mathlib.Data.List.Chain
import Mathlib.Data.List.Nodup
import ScriptHost.Proofs.Subscriptions

/-!
# The registry of events

What becomes of a registry of events that is used in any order, with events that begin and cease as
they like and fail as they like. `Orderly` is what the books have to do with the deeds about
subscriptions since the books were empty; every use keeps it (`Deals.orderly`), so each event begins
and ceases in turns, and scripts listen to those that began last.
-/
namespace ScriptHost

/-! ### Beginning and ceasing -/

/-- Whether an event begins or ceases to come in. -/
def Deed.concerns (event : Nat) : Deed → Bool
  | attach e | detach e => e == event
  | _ => false

/-- How an event has begun and ceased. -/
def strand (event : Nat) (ds : List Deed) : List Deed :=
  ds.filter (Deed.concerns event)

/-- An event begins and ceases in turns, and begins first. -/
structure InTurns (event : Nat) (ds : List Deed) : Prop where
  chain : (strand event ds).IsChain (· ≠ ·)
  head : (strand event ds).head? ≠ some (.detach event)

/-- The events that have begun and not ceased, after a deed. -/
def standingStep (events : List Nat) : Deed → List Nat
  | .attach e => events.filter (· ≠ e) ++ [e]
  | .detach e => events.filter (· ≠ e)
  | _ => events

/-- The events that have begun and not ceased since, in the order in which they last began. -/
def standing (ds : List Deed) : List Nat :=
  ds.foldl standingStep []

section

variable {event : Nat} {ds es : List Deed} {d : Deed}

theorem strand_append (event : Nat) (ds es : List Deed) :
    strand event (ds ++ es) = strand event ds ++ strand event es :=
  List.filter_append ..

theorem strand_concat_of_concerns (ds : List Deed) (hd : d.concerns event) :
    strand event (ds ++ [d]) = strand event ds ++ [d] := by
  rw [strand_append]
  simp [strand, hd]

theorem strand_concat_of_not (ds : List Deed) (hd : d.concerns event = false) :
    strand event (ds ++ [d]) = strand event ds := by
  rw [strand_append]
  simp [strand, hd]

theorem standing_append (ds es : List Deed) :
    standing (ds ++ es) = es.foldl standingStep (standing ds) :=
  List.foldl_append

theorem standing_concat (ds : List Deed) (d : Deed) :
    standing (ds ++ [d]) = standingStep (standing ds) d :=
  standing_append ds [d]

/-- An event stands iff the last that is known of it is that it has begun. -/
theorem mem_standing_iff :
    event ∈ standing ds ↔ (strand event ds).getLast? = some (.attach event) := by
  induction ds using List.reverseRecOn with
  | nil => simp [standing, strand]
  | append_singleton ds d ih =>
    rw [standing_concat]
    by_cases hd : d.concerns event
    · rw [strand_concat_of_concerns ds hd, List.getLast?_concat]
      cases d <;> simp_all [Deed.concerns, standingStep]
    · simp only [Bool.not_eq_true] at hd
      rw [strand_concat_of_not ds hd, ← ih]
      have hne : ∀ e, d = .attach e ∨ d = .detach e → event ≠ e := by
        rintro e (rfl | rfl) rfl <;> simp [Deed.concerns] at hd
      cases d with
      | attach e => simp [standingStep, hne e (.inl rfl)]
      | detach e => simp [standingStep, hne e (.inr rfl)]
      | _ => rfl

/-- None stands twice. -/
theorem nodup_standing (ds : List Deed) : (standing ds).Nodup := by
  induction ds using List.reverseRecOn with
  | nil => exact List.nodup_nil
  | append_singleton ds d ih =>
    rw [standing_concat]
    cases d with
    | attach e =>
      refine List.nodup_append.2 ⟨ih.filter _, List.nodup_singleton e, ?_⟩
      intro a ha b hb hab
      rw [List.mem_singleton.1 hb] at hab
      simp [hab] at ha
    | detach e => exact ih.filter _
    | _ => exact ih

/-- The next that is known of an event may be anything but what was known of it last. -/
theorem InTurns.concat (h : InTurns event ds) (hd : d.concerns event)
    (hlast : ∀ f, (strand event ds).getLast? = some f → f ≠ d)
    (hfirst : strand event ds = [] → d ≠ .detach event) : InTurns event (ds ++ [d]) where
  chain := by
    rw [strand_concat_of_concerns ds hd, List.isChain_append]
    refine ⟨h.chain, List.isChain_singleton d, ?_⟩
    intro f hf e he
    cases he
    exact hlast f hf
  head := by
    rw [strand_concat_of_concerns ds hd]
    cases hs : strand event ds with
    | nil => simpa using hfirst hs
    | cons f fs => simpa [hs] using h.head

theorem InTurns.concat_of_not (h : InTurns event ds) (hd : d.concerns event = false) :
    InTurns event (ds ++ [d]) := by
  have hs := strand_concat_of_not ds hd
  exact ⟨hs ▸ h.chain, hs ▸ h.head⟩

/-- An event begins that does not stand. -/
theorem inTurns_attach (h : ∀ event, InTurns event ds) {e : Nat} (he : e ∉ standing ds)
    (event : Nat) : InTurns event (ds ++ [.attach e]) := by
  by_cases hd : e = event
  · subst hd
    refine (h e).concat (by simp [Deed.concerns]) ?_ (by simp)
    rintro f hf rfl
    exact he (mem_standing_iff.2 hf)
  · exact (h event).concat_of_not (by simpa [Deed.concerns] using hd)

/-- An event ceases that stands. -/
theorem inTurns_detach (h : ∀ event, InTurns event ds) {e : Nat} (he : e ∈ standing ds)
    (event : Nat) : InTurns event (ds ++ [.detach e]) := by
  by_cases hd : e = event
  · subst hd
    have hl := mem_standing_iff.1 he
    refine (h e).concat (by simp [Deed.concerns]) ?_ ?_
    · rintro f hf rfl
      rw [hl] at hf
      cases hf
    · intro hn
      rw [hn] at hl
      cases hl
  · exact (h event).concat_of_not (by simpa [Deed.concerns] using hd)

theorem standing_attach {e : Nat} (he : e ∉ standing ds) :
    standing (ds ++ [.attach e]) = standing ds ++ [e] := by
  rw [standing_concat, standingStep, List.filter_eq_self.2]
  intro a ha
  simpa using ne_of_mem_of_not_mem ha he

/-- Events that stand cease one after the other. -/
theorem inTurns_detach_all (events : List Nat) (h : ∀ event, InTurns event ds)
    (he : standing ds = events) :
    (∀ event, InTurns event (ds ++ events.map .detach)) ∧
      standing (ds ++ events.map .detach) = [] := by
  induction events generalizing ds with
  | nil => simpa using ⟨h, he⟩
  | cons e events ih =>
    have hn := nodup_standing ds
    rw [he, List.nodup_cons] at hn
    have hs : standing (ds ++ [.detach e]) = events := by
      rw [standing_concat, he, standingStep, List.filter_cons_of_neg (by simp),
        List.filter_eq_self.2]
      intro a ha
      simpa using ne_of_mem_of_not_mem ha hn.1
    have := ih (inTurns_detach h (by simp [he])) hs
    simpa using this

end

/-! ### What events and factories do -/

/-- What has happened to subscriptions. -/
def World.dealings (w : World) : List Deed :=
  w.history.toList.filter Deed.isQuiet

/-- The books and the events stay as they are, and `ds` is what happens to subscriptions. -/
structure World.Notes (w : World) (ds : List Deed) (w' : World) : Prop where
  events : w'.events = w.events := by rfl
  known : w'.eventBooks.known = w.eventBooks.known := by rfl
  active : w'.eventBooks.active = w.eventBooks.active := by rfl
  dealings : w'.dealings = w.dealings ++ ds

namespace World

variable {w w' w'' : World} {ds es : List Deed}

theorem notes_of_history_eq (he : w'.events = w.events) (hb : w'.eventBooks = w.eventBooks)
    (hh : w'.history = w.history) : Notes w [] w' :=
  ⟨he, by rw [hb], by rw [hb], by simp [dealings, hh]⟩

theorem Notes.trans (h : Notes w ds w') (h' : Notes w' es w'') : Notes w (ds ++ es) w'' :=
  ⟨h'.events.trans h.events, h'.known.trans h.known, h'.active.trans h.active,
    by rw [h'.dealings, h.dealings, List.append_assoc]⟩

theorem notes_record (w : World) {d : Deed} (hd : d.isQuiet) :
    Notes w [d] { w with history := w.history.push d } where
  dealings := by simp [dealings, List.filter_append, hd]

end World

/-- An event that begins and ceases without a call back into the registry. -/
def EventDescriptor.Aloof (host : Responder) (d : EventDescriptor) : Prop :=
  match d.source with
  | .signal .. => True
  | .foreign begin_ end_ =>
    (∀ w, World.Notes w [] ((Op.perform host begin_).after w)) ∧
      ∀ w, World.Notes w [] ((Op.perform host end_).after w)

/-- What becomes of the registry while it is used by others, and other things happen. -/
inductive Deals (host : Responder) : World → World → Prop
  | aside {w w' : World} : World.Notes w [] w' → Deals host w w'
  | register {d : EventDescriptor} (w : World) : d.Aloof host →
    Deals host w ((Op.registerKnown d).after w)
  | listen (name : String) (w : World) : Deals host w ((Op.listen host name).after w)
  | unsubscribeAll (w : World) : Deals host w ((Op.unsubscribeAll host).after w)
  | trans {w w' w'' : World} : Deals host w w' → Deals host w' w'' → Deals host w w''

/-- A factory of an event. It may use the registry itself. -/
structure EventFactory.Fair (host : Responder) (make : EventFactory) : Prop where
  deals : ∀ w, Deals host w ((Op.perform host make).after w)
  aloof : ∀ {w d}, (Op.perform host make).outcome w = .ok d → d.Aloof host

/-- What the books have to do with the deeds since they were empty. -/
structure World.Orderly (host : Responder) (ds : List Deed) (w : World) : Prop where
  inTurns : ∀ event, InTurns event ds
  /-- Scripts listen to the events that have begun and not ceased. -/
  active : w.eventBooks.active.entries.map (·.2) = standing ds
  known : ∀ x ∈ w.eventBooks.active.entries, w.eventBooks.known.find? x.1 = some x.2
  /-- Each known event has its own place. -/
  distinct : (w.eventBooks.known.entries.map (·.2)).Nodup
  aloof : ∀ x ∈ w.eventBooks.known.entries, ∃ d, w.events[x.2]? = some d ∧ d.Aloof host

namespace World

variable {host : Responder} {w w' : World} {ds : List Deed} {name : String} {event : Nat}

theorem orderly_of_empty (host : Responder) (h : w.eventBooks = {}) : w.Orderly host [] where
  inTurns _ := ⟨List.isChain_nil, nofun⟩
  active := by
    rw [h]
    rfl
  known := by simp [h]
  distinct := by simp [h]
  aloof := by simp [h]

theorem Orderly.of_aside (ho : w.Orderly host ds) (h : Notes w [] w') : w'.Orderly host ds where
  inTurns := ho.inTurns
  active := h.active ▸ ho.active
  known := h.known ▸ h.active ▸ ho.known
  distinct := h.known ▸ ho.distinct
  aloof := h.known ▸ h.events ▸ ho.aloof

theorem Orderly.name_eq (ho : w.Orderly host ds) {other : String}
    (h : w.eventBooks.known.find? name = some event)
    (h' : w.eventBooks.known.find? other = some event) : other = name := by
  have hp := List.inj_on_of_nodup_map ho.distinct (Roster.mem_of_find? h') (Roster.mem_of_find? h) rfl
  exact congrArg Prod.fst hp

/-- An event of a name that scripts do not listen to has not begun, or has ceased. -/
theorem Orderly.not_mem_standing (ho : w.Orderly host ds)
    (h : w.eventBooks.known.find? name = some event)
    (hn : w.eventBooks.active.contains name = false) : event ∉ standing ds := by
  rw [← ho.active]
  intro hm
  obtain ⟨x, hx, rfl⟩ := List.mem_map.1 hm
  have hname := ho.name_eq h (ho.known x hx)
  have hc : w.eventBooks.active.contains name = true :=
    Roster.contains_iff.2 (List.mem_map.2 ⟨x, hx, hname⟩)
  rw [hn] at hc
  cases hc

end World

namespace Op

variable {host : Responder} {w : World}

open World

/-! ### One event -/

theorem notes_log (level : LogLevel) (logger text : String) (fault : Option Fault) (w : World) :
    Notes w [] ((log level logger text fault).after w) :=
  notes_of_history_eq rfl rfl rfl

theorem notes_connect (signal : String) (h : Handler) (w : World) :
    Notes w [] ((connect signal h).after w) := by
  rcases connect_cases signal h w with ⟨_, _, _, -, ha⟩ | ⟨_, -, ha⟩ <;> rw [ha] <;>
    exact notes_of_history_eq rfl rfl rfl

theorem notes_disconnect (signal : String) (h : Handler) (w : World) :
    Notes w [] ((disconnect signal h).after w) := by
  rcases disconnect_cases signal h w with ⟨_, _, _, -, ha⟩ | ⟨-, _, -, ha⟩ <;> rw [ha] <;>
    exact notes_of_history_eq rfl rfl rfl

/-- An attempt to begin is noted iff it succeeds. -/
theorem notes_subscribe {event : Nat} {d : EventDescriptor} (hd : w.events[event]? = some d)
    (ha : d.Aloof host) :
    Notes w (if (subscribe host event).Ends w then [.attach event] else [])
      ((subscribe host event).after w) := by
  have begins : ∀ m : Op Unit, Notes w [] (m.after w) →
      (subscribe host event).outcome w = (do m; record (.attach event)).outcome w →
      (subscribe host event).after w = (do m; record (.attach event)).after w →
      Notes w (if (subscribe host event).Ends w then [.attach event] else [])
        ((subscribe host event).after w) := by
    intro m hm ho hw
    rw [hw]
    cases hr : m.outcome w with
    | error f =>
      rw [if_neg (not_ends_of_error (ho.trans (outcome_bind_of_error hr _))), after_bind_of_error hr]
      exact hm
    | ok _ =>
      rw [if_pos (ends_iff.2 ⟨(), ho.trans (outcome_bind_of_ok hr _)⟩), after_bind_of_ok hr]
      exact hm.trans (notes_record _ rfl)
  unfold EventDescriptor.Aloof at ha
  cases hs : d.source with
  | signal signal callback deliver =>
    obtain ⟨ho, hw⟩ := subscribe_of_signal hd hs host
    exact begins _ (notes_connect _ _ w) ho hw
  | foreign begin_ end_ =>
    rw [hs] at ha
    obtain ⟨ho, hw⟩ := subscribe_of_foreign hd hs host
    exact begins _ (ha.1 w) ho hw

/-- An attempt to cease is noted, however it ends. -/
theorem notes_unsubscribe {event : Nat} {d : EventDescriptor} (hd : w.events[event]? = some d)
    (ha : d.Aloof host) : Notes w [.detach event] ((unsubscribe host event).after w) := by
  have h₁ : Notes w [.detach event] { w with history := w.history.push (.detach event) } :=
    notes_record w rfl
  unfold EventDescriptor.Aloof at ha
  cases hs : d.source with
  | signal signal callback deliver =>
    rw [(unsubscribe_of_signal hd hs host).2]
    exact h₁.trans (notes_disconnect _ _ _)
  | foreign begin_ end_ =>
    rw [hs] at ha
    rw [(unsubscribe_of_foreign hd hs host).2]
    exact h₁.trans (ha.2 _)

theorem notes_endSubscription (name : String) {event : Nat} {d : EventDescriptor}
    (hd : w.events[event]? = some d) (ha : d.Aloof host) :
    Notes w [.detach event] ((endSubscription host name event).after w) := by
  have hu := notes_unsubscribe hd ha
  rw [after_endSubscription]
  cases (unsubscribe host event).outcome w with
  | ok _ => exact hu.trans (notes_log _ _ _ _ _)
  | error f => exact hu.trans (notes_log _ _ _ _ _)

end Op

/-! ### All events -/

/-- Subscriptions end one after the other, and each that does not end well gives its fault. -/
inductive Unsubscribes (host : Responder) :
    World → List (String × Nat) → List Fault → World → Prop
  | none (w : World) : Unsubscribes host w [] [] w
  | well {w w' : World} {name : String} {event : Nat} {rest : List (String × Nat)}
    {faults : List Fault} : (Op.unsubscribe host event).outcome w = .ok () →
    Unsubscribes host ((Op.endSubscription host name event).after w) rest faults w' →
    Unsubscribes host w ((name, event) :: rest) faults w'
  | badly {w w' : World} {name : String} {event : Nat} {rest : List (String × Nat)}
    {faults : List Fault} {f : Fault} : (Op.unsubscribe host event).outcome w = .error f →
    Unsubscribes host ((Op.endSubscription host name event).after w) rest faults w' →
    Unsubscribes host w ((name, event) :: rest) (.unsubscribing name f :: faults) w'

namespace Op

variable {host : Responder} {w : World}

open World

/-- Subscriptions end from a position on, each at its turn, if their events are aloof. -/
theorem unsubscribes_endFrom {count left i : Nat}
    (ha : ∀ x ∈ w.eventBooks.active.entries, ∃ d, w.events[x.2]? = some d ∧ d.Aloof host)
    (hc : w.eventBooks.active.entries.length = count) (hi : i + left = count) :
    ∃ faults, (endFrom host count left i).outcome w = .ok faults ∧
      Unsubscribes host w (w.eventBooks.active.entries.drop i) faults
        ((endFrom host count left i).after w) ∧
      Notes w ((w.eventBooks.active.entries.drop i).map fun x => .detach x.2)
        ((endFrom host count left i).after w) := by
  induction left generalizing i w with
  | zero =>
    have hd : w.eventBooks.active.entries.drop i = [] := List.drop_eq_nil_of_le (by omega)
    rw [hd]
    exact ⟨[], rfl, .none w, notes_of_history_eq rfl rfl rfl⟩
  | succ left ih =>
    have hlt : i < w.eventBooks.active.entries.length := by omega
    obtain ⟨⟨name, event⟩, hx⟩ : ∃ x, w.eventBooks.active.entries[i]? = some x :=
      ⟨_, List.getElem?_eq_getElem hlt⟩
    obtain ⟨d, hd, hda⟩ := ha _ (List.mem_of_getElem? hx)
    have hn := notes_endSubscription name hd hda
    let w₁ := (endSubscription host name event).after w
    have hdrop : w.eventBooks.active.entries.drop i =
        (name, event) :: w.eventBooks.active.entries.drop (i + 1) := by
      rw [List.drop_eq_getElem_cons hlt]
      rw [List.getElem?_eq_getElem hlt, Option.some.injEq] at hx
      rw [hx]
    have hc₁ : w₁.eventBooks.active.entries.length = count := by rw [hn.active, hc]
    obtain ⟨faults, ho, hu, hr⟩ := ih (w := w₁) (i := i + 1)
      (by rw [hn.active, hn.events]; exact ha) hc₁ (by omega)
    have key : ∀ now : List Fault, (endSubscription host name event).outcome w = .ok now →
        (endFrom host count (left + 1) i).outcome w = .ok (now ++ faults) ∧
          (endFrom host count (left + 1) i).after w = (endFrom host count left (i + 1)).after w₁ := by
      intro now hnow
      obtain ⟨ho', ha'⟩ := endFrom_succ_of_eq hx left hnow hc₁
      exact ⟨ho'.trans (outcome_bind_of_ok ho _), ha'⟩
    rw [hn.active] at hu hr
    rw [hdrop]
    cases hs : (unsubscribe host event).outcome w with
    | ok _ =>
      obtain ⟨ho', ha'⟩ := key [] (by rw [outcome_endSubscription, hs])
      rw [ha']
      exact ⟨_, ho', .well hs hu, hn.trans hr⟩
    | error f =>
      obtain ⟨ho', ha'⟩ := key [.unsubscribing name f] (by rw [outcome_endSubscription, hs])
      rw [ha']
      exact ⟨_, ho', .badly hs hu, hn.trans hr⟩

end Op

/-! ### The books over time -/

/-- The books stay orderly, and no known event is lost or becomes another. -/
structure World.Proceeds (host : Responder) (w : World) (ds es : List Deed) (w' : World) :
    Prop where
  orderly : w'.Orderly host (ds ++ es)
  dealings : w'.dealings = w.dealings ++ es
  known : w.eventBooks.known.entries <+: w'.eventBooks.known.entries
  events : w.events.toList <+: w'.events.toList

namespace World

variable {host : Responder} {w w' w'' : World} {ds es fs : List Deed} {name : String} {event : Nat}

theorem Proceeds.trans (h : Proceeds host w ds es w') (h' : Proceeds host w' (ds ++ es) fs w'') :
    Proceeds host w ds (es ++ fs) w'' where
  orderly := List.append_assoc ds es fs ▸ h'.orderly
  dealings := by rw [h'.dealings, h.dealings, List.append_assoc]
  known := h.known.trans h'.known
  events := h.events.trans h'.events

theorem Orderly.proceeds_of_notes (ho : w.Orderly host ds) (h : Notes w [] w') :
    Proceeds host w ds [] w' where
  orderly := by
    rw [List.append_nil]
    exact ho.of_aside h
  dealings := h.dealings
  known := h.known ▸ List.prefix_rfl
  events := h.events ▸ List.prefix_rfl

/-- A new event becomes known, at a place of its own. -/
theorem Orderly.register (ho : w.Orderly host ds) {d : EventDescriptor} (hd : d.Aloof host)
    (hn : ¬ w.eventBooks.known.contains d.name) :
    Orderly host ds
      { w with
        events := w.events.push d
        eventBooks :=
          { w.eventBooks with known := w.eventBooks.known.add d.name w.events.size } } where
  inTurns := ho.inTurns
  active := ho.active
  known x hx := Roster.find?_of_prefix (Roster.prefix_add _ _ _) (ho.known x hx)
  distinct := by
    simp only [Roster.add, hn, Bool.false_eq_true, if_false, List.map_append, List.map_cons,
      List.map_nil, List.nodup_append]
    refine ⟨ho.distinct, by simp, ?_⟩
    intro a ha b hb hab
    obtain ⟨x, hx, rfl⟩ := List.mem_map.1 ha
    obtain ⟨e, he, -⟩ := ho.aloof x hx
    have hlt := (Array.getElem?_eq_some_iff.1 he).1
    rw [List.mem_singleton] at hb
    omega
  aloof := by
    simp only [Roster.add, hn, Bool.false_eq_true, if_false, List.mem_append, List.mem_singleton]
    rintro x (hx | rfl)
    · obtain ⟨e, he, hea⟩ := ho.aloof x hx
      exact ⟨e, getElem?_of_prefix (by simp) he, hea⟩
    · exact ⟨d, by simp, hd⟩

theorem Orderly.proceeds_registerKnown (ho : w.Orderly host ds) {d : EventDescriptor}
    (hd : d.Aloof host) : Proceeds host w ds [] ((Op.registerKnown d).after w) := by
  unfold Op.registerKnown
  rw [Op.after_get_bind]
  split
  · exact ho.proceeds_of_notes (Op.notes_log _ _ _ _ w)
  · rename_i hn
    refine ⟨?_, ?_, Roster.prefix_add _ _ _, ?_⟩
    · rw [List.append_nil]
      exact (ho.register hd hn).of_aside (Op.notes_log _ _ _ _ _)
    · simp only [List.append_nil]
      rfl
    · change w.events.toList <+: (w.events.push d).toList
      simp

/-- An event that has begun enters the books. -/
theorem Orderly.listen (ho : w.Orderly host ds) (hk : w.eventBooks.known.find? name = some event)
    (hn : w.eventBooks.active.contains name = false) (he : w'.events = w.events)
    (hw : w'.eventBooks.known = w.eventBooks.known)
    (ha : w'.eventBooks.active = w.eventBooks.active.put name event) :
    w'.Orderly host (ds ++ [.attach event, .listen name]) where
  inTurns e := by
    have ha := inTurns_attach ho.inTurns (ho.not_mem_standing hk hn) e
    simpa using ha.concat_of_not (d := .listen name) rfl
  active := by
    have hs : standing (ds ++ [.attach event, .listen name]) = standing ds ++ [event] := by
      rw [← standing_attach (ho.not_mem_standing hk hn), standing_append, standing_concat]
      rfl
    rw [hs, ← ho.active, ha]
    simp [Roster.put, hn]
  known x hx := by
    simp only [ha, Roster.put, hn, Bool.false_eq_true, if_false, List.mem_append,
      List.mem_singleton] at hx
    rw [hw]
    rcases hx with hx | rfl
    · exact ho.known x hx
    · exact hk
  distinct := hw ▸ ho.distinct
  aloof := hw ▸ he ▸ ho.aloof

theorem Orderly.proceeds_listen (ho : w.Orderly host ds) (name : String) :
    ∃ es, Proceeds host w ds es ((Op.listen host name).after w) := by
  cases hk : w.eventBooks.known.find? name with
  | none =>
    rw [(Op.listen_of_unknown hk host).2]
    exact ⟨[], ho.proceeds_of_notes (notes_of_history_eq rfl rfl rfl)⟩
  | some event =>
    cases hn : w.eventBooks.active.contains name with
    | true =>
      rw [(Op.listen_of_active hk hn host).2]
      exact ⟨[], ho.proceeds_of_notes (notes_of_history_eq rfl rfl rfl)⟩
    | false =>
      obtain ⟨d, hd, hda⟩ := ho.aloof _ (Roster.mem_of_find? hk)
      have hs := Op.notes_subscribe hd hda
      cases hr : (Op.subscribe host event).outcome w with
      | error f =>
        rw [if_neg (Op.not_ends_of_error hr)] at hs
        rw [(Op.listen_of_error hk hn hr).2]
        exact ⟨[], ho.proceeds_of_notes hs⟩
      | ok _ =>
        rw [if_pos (Op.ends_iff.2 ⟨_, hr⟩)] at hs
        rw [(Op.listen_of_ok hk hn hr).2]
        refine ⟨[.attach event, .listen name], ho.listen hk hn hs.events hs.known ?_, ?_, ?_, ?_⟩
        · exact congrArg (fun r => Roster.put r name event) hs.active
        · exact (hs.trans (notes_record _ rfl)).dealings
        · exact hs.known ▸ List.prefix_rfl
        · exact hs.events ▸ List.prefix_rfl

/-- All subscriptions end, each once and in its turn; nothing is listened to then. -/
theorem Orderly.unsubscribes (ho : w.Orderly host ds) :
    ∃ faults w₁, (Op.unsubscribeAll host).outcome w = .ok faults ∧
      Unsubscribes host w w.eventBooks.active.entries faults w₁ ∧
      Notes w (w.eventBooks.active.entries.map fun x => .detach x.2) w₁ ∧
      (Op.unsubscribeAll host).after w =
        { w₁ with
          eventBooks := { w₁.eventBooks with active := {} }
          history := w₁.history.push .forget } := by
  obtain ⟨faults, hf, hu, hn⟩ := Op.unsubscribes_endFrom (w := w) (i := 0)
    (fun x hx => ho.aloof x (Roster.mem_of_find? (ho.known x hx))) rfl (Nat.zero_add _)
  rw [List.drop_zero] at hu hn
  obtain ⟨hfaults, ha⟩ := Op.unsubscribeAll_of_ok hf
  exact ⟨faults, _, hfaults, hu, hn, ha⟩

theorem Orderly.proceeds_unsubscribeAll (ho : w.Orderly host ds) :
    Proceeds host w ds ((w.eventBooks.active.entries.map fun x => .detach x.2) ++ [.forget])
      ((Op.unsubscribeAll host).after w) := by
  obtain ⟨faults, w₁, -, -, hn, ha⟩ := ho.unsubscribes
  have hd : (w.eventBooks.active.entries.map fun x => Deed.detach x.2) =
      (standing ds).map .detach := by
    rw [← ho.active, List.map_map]
    rfl
  obtain ⟨hturns, hstanding⟩ := inTurns_detach_all _ ho.inTurns rfl
  rw [ha]
  refine ⟨?_, (hn.trans (notes_record w₁ rfl)).dealings, hn.known ▸ List.prefix_rfl,
    hn.events ▸ List.prefix_rfl⟩
  rw [hd, ← List.append_assoc]
  exact
    { inTurns := fun e => (hturns e).concat_of_not rfl
      active := by
        rw [standing_concat, hstanding]
        rfl
      known := fun x hx => absurd hx List.not_mem_nil
      distinct := hn.known ▸ ho.distinct
      aloof := hn.known ▸ hn.events ▸ ho.aloof }

end World

/-- **Every use of the registry keeps the books orderly.** -/
theorem Deals.proceeds {host : Responder} {w w' : World} (h : Deals host w w') {ds : List Deed}
    (ho : w.Orderly host ds) : ∃ es, World.Proceeds host w ds es w' := by
  induction h generalizing ds with
  | aside h => exact ⟨[], ho.proceeds_of_notes h⟩
  | register w hd => exact ⟨[], ho.proceeds_registerKnown hd⟩
  | listen name w => exact ho.proceeds_listen name
  | unsubscribeAll w => exact ⟨_, ho.proceeds_unsubscribeAll⟩
  | trans _ _ ih ih' =>
    obtain ⟨es, hp⟩ := ih ho
    obtain ⟨fs, hp'⟩ := ih' hp.orderly
    exact ⟨es ++ fs, hp.trans hp'⟩

/-! ### Discovery -/

namespace Op

variable {host : Responder}

theorem deals_discoverOne (ident : String) {make : EventFactory} (hm : make.Fair host)
    (w : World) : Deals host w ((discoverOne host ident make).after w) := by
  unfold discoverOne
  simp only [after_get_bind]
  split
  · exact .aside (World.notes_of_history_eq rfl rfl rfl)
  · let w₁ : World :=
      { w with eventBooks := { w.eventBooks with discovered := w.eventBooks.discovered ++ [ident] } }
    have h₁ : Deals host w w₁ := .aside { dealings := by simp [World.dealings, w₁] }
    refine h₁.trans ((hm.deals w₁).trans ?_)
    rw [modifyEventBooks, after_modify_bind, after_attempt_bind]
    cases ho : (perform host make).outcome w₁ with
    | ok d => exact .register _ (hm.aloof ho)
    | error f => exact .aside (notes_log _ _ _ _ _)

/-- What is on offer becomes known by uses of the registry one after the other. -/
theorem deals_discover {w : World} (hm : ∀ x ∈ w.catalog.events.entries, x.2.Fair host) :
    Deals host w ((discover host).after w) := by
  have all : ∀ (xs : List (String × EventFactory)), (∀ x ∈ xs, x.2.Fair host) → ∀ w,
      Deals host w ((xs.mapM fun x => discoverOne host x.1 x.2).after w) := by
    intro xs hxs
    induction xs with
    | nil => exact fun w => .aside (World.notes_of_history_eq rfl rfl rfl)
    | cons x xs ih =>
      intro w
      rw [List.mapM_cons, after_bind]
      have hx := deals_discoverOne x.1 (hxs x (by simp)) w
      cases (discoverOne host x.1 x.2).outcome w with
      | error f => exact hx
      | ok b =>
        refine hx.trans ?_
        have hr := ih (fun y hy => hxs y (by simp [hy])) ((discoverOne host x.1 x.2).after w)
        simp only [after_bind]
        cases (xs.mapM fun x => discoverOne host x.1 x.2).outcome _ <;> exact hr
  unfold discover
  rw [after_get_bind, after_bind]
  have hr := all _ hm w
  cases (w.catalog.events.entries.mapM fun x => discoverOne host x.1 x.2).outcome w <;> exact hr

end Op

/-! ### Uses -/

/-- A way to use the registry. -/
inductive Use where
  | register (d : EventDescriptor)
  | discover (offers : Roster EventFactory)
  | listen (name : String)
  | unsubscribeAll

namespace Use

/-- What a use does. -/
def op (host : Responder) : Use → Op Unit
  | register d => discard (Op.registerKnown d)
  | discover offers => do
    modify fun w => { w with catalog := { w.catalog with events := offers } }
    discard (Op.discover host)
  | listen name => Op.listen host name
  | unsubscribeAll => discard (Op.unsubscribeAll host)

/-- What uses one after the other leave, however each of them ends. -/
def run (host : Responder) (uses : List Use) (w : World) : World :=
  uses.foldl (fun w u => (u.op host).after w) w

/-- The events that a use brings do not call back into the registry. -/
def Fair (host : Responder) : Use → Prop
  | register d => d.Aloof host
  | discover offers => ∀ x ∈ offers.entries, x.2.Fair host
  | listen _ | unsubscribeAll => True

variable {host : Responder} {w : World}

theorem run_append (uses more : List Use) :
    run host (uses ++ more) w = run host more (run host uses w) :=
  List.foldl_append

theorem deals_op {u : Use} (hu : u.Fair host) (w : World) : Deals host w ((u.op host).after w) := by
  cases u with
  | register d =>
    rw [op, Op.after_discard]
    exact .register w hu
  | discover offers =>
    rw [op, Op.after_modify_bind, Op.after_discard]
    have h₁ : Deals host w { w with catalog := { w.catalog with events := offers } } :=
      .aside (World.notes_of_history_eq rfl rfl rfl)
    exact h₁.trans (Op.deals_discover hu)
  | listen name => exact .listen name w
  | unsubscribeAll =>
    rw [op, Op.after_discard]
    exact .unsubscribeAll w

theorem deals_run {uses : List Use} (hu : ∀ u ∈ uses, u.Fair host) (w : World) :
    Deals host w (run host uses w) := by
  induction uses generalizing w with
  | nil => exact .aside (World.notes_of_history_eq rfl rfl rfl)
  | cons u uses ih =>
    exact (deals_op (hu u (by simp)) w).trans (ih (fun v hv => hu v (by simp [hv])) _)

/-- **Subscriptions keep to the books.** However a registry is used whose books were empty: every
event begins and ceases in turns and begins first; scripts listen to the events that began last, in
the order in which they did; these are known events, each under its own name; a known event stays
known and stays the same, whatever uses follow; and to end all subscriptions is to end each of them
once, in this order, with one fault for each that does not end well and nothing listened to after. -/
theorem orderly_run (hw : w.eventBooks = {}) {uses : List Use} (hu : ∀ u ∈ uses, u.Fair host) :
    ∃ ds, (run host uses w).dealings = w.dealings ++ ds ∧
      (∀ event, InTurns event ds) ∧
      (run host uses w).eventBooks.active.entries.map (·.2) = standing ds ∧
      (∀ x ∈ (run host uses w).eventBooks.active.entries,
        (run host uses w).eventBooks.known.find? x.1 = some x.2) ∧
      (∀ more : List Use, (∀ u ∈ more, u.Fair host) → ∀ name event d,
        (run host uses w).eventBooks.known.find? name = some event →
        (run host uses w).events[event]? = some d →
        (run host (uses ++ more) w).eventBooks.known.find? name = some event ∧
          (run host (uses ++ more) w).events[event]? = some d) ∧
      ∃ faults w', (Op.unsubscribeAll host).outcome (run host uses w) = .ok faults ∧
        Unsubscribes host (run host uses w) (run host uses w).eventBooks.active.entries faults w' ∧
        ((Op.unsubscribeAll host).after (run host uses w)).dealings =
          (run host uses w).dealings ++ (standing ds).map .detach ++ [.forget] ∧
        ((Op.unsubscribeAll host).after (run host uses w)).eventBooks.active = {} := by
  obtain ⟨ds, hp⟩ := (deals_run hu w).proceeds (World.orderly_of_empty host hw)
  have ho : (run host uses w).Orderly host ds := hp.orderly
  refine ⟨ds, hp.dealings, ho.inTurns, ho.active, ho.known, ?_, ?_⟩
  · intro more hmore name event d hk hd
    obtain ⟨es, hm⟩ := (deals_run hmore _).proceeds ho
    rw [run_append]
    exact ⟨Roster.find?_of_prefix hm.known hk, World.getElem?_of_prefix hm.events hd⟩
  · obtain ⟨faults, w', hf, hx, hn, ha⟩ := ho.unsubscribes
    refine ⟨faults, w', hf, hx, ?_, by rw [ha]⟩
    rw [ho.proceeds_unsubscribeAll.dealings, ← ho.active, List.map_map, List.append_assoc]
    rfl

/-- An event that ceases badly. -/
def bell : EventDescriptor := ⟨"bell", .foreign (pure ()) (throw (.raised "RuntimeError" "stuck"))⟩

theorem aloof_bell (host : Responder) : bell.Aloof host :=
  ⟨fun _ => World.notes_of_history_eq rfl rfl rfl, fun _ => World.notes_of_history_eq rfl rfl rfl⟩

/-- The event is found by a factory, begins, ceases badly, is found anew, and begins again. -/
theorem orderly_run_of_bell :
    ∃ ds, (run (fun _ => throw .tooDeep) [.discover ⟨[("b", pure bell)]⟩, .listen "bell",
        .unsubscribeAll, .register bell, .listen "bell"] {}).dealings = ds ∧
      (∀ event, InTurns event ds) ∧ standing ds = [0] := by
  have fair : ∀ u ∈ [.discover ⟨[("b", pure bell)]⟩, .listen "bell", .unsubscribeAll,
      .register bell, .listen "bell"], Fair (fun _ => throw .tooDeep) u := by
    simp only [List.forall_mem_cons, List.not_mem_nil, false_imp_iff, implies_true, and_true]
    refine ⟨?_, trivial, trivial, aloof_bell _, trivial⟩
    intro x hx
    rw [List.mem_singleton] at hx
    subst hx
    exact ⟨fun w => .aside (World.notes_of_history_eq rfl rfl rfl), fun h => by
      cases h
      exact aloof_bell _⟩
  obtain ⟨ds, hds, hturns, hactive, -⟩ := orderly_run (w := {}) rfl fair
  refine ⟨ds, by simpa [World.dealings] using hds, hturns, ?_⟩
  rw [← hactive]
  decide +kernel

end Use

end ScriptHost
