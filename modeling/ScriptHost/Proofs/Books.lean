import Mathlib.Data.List.Nodup
import ScriptHost.Proofs.Invariants

/-!
# Books in order

What can be said of the books on events whatever is done about them: each known event has a place of
its own, and scripts listen to known events under their names (`World.Filed`). Events and known names
only come in addition (`World.Longer`).
-/
namespace ScriptHost

/-- The signal that an event forwards. -/
def EventDescriptor.signal? (d : EventDescriptor) : Option String :=
  match d.source with
  | .signal signal _ _ => some signal
  | .foreign _ _ => none

namespace World

variable {w v u : World} {signal name : String} {event : Nat}

/-- The signal that the event at a place forwards. -/
def signalOf (w : World) (event : Nat) : Option String :=
  (w.events[event]?).bind EventDescriptor.signal?

theorem signalOf_eq_some_iff : w.signalOf event = some signal ↔
    ∃ d callback deliver, w.events[event]? = some d ∧
      d.source = .signal signal callback deliver := by
  unfold signalOf EventDescriptor.signal?
  cases w.events[event]? with
  | none => simp
  | some d => cases hs : d.source <;> simp [hs]

/-! ### Events and names that come in addition -/

/-- Events and known names only come in addition. -/
structure Longer (w v : World) : Prop where
  events : w.events.toList <+: v.events.toList := by exact List.prefix_rfl
  known : w.eventBooks.known.entries <+: v.eventBooks.known.entries := by exact List.prefix_rfl

theorem Longer.trans (h : Longer w v) (h' : Longer v u) : Longer w u :=
  ⟨h.events.trans h'.events, h.known.trans h'.known⟩

theorem Apart.longer (h : Apart w v) : Longer w v where
  events := by rw [h.places]
  known := by rw [h.books]

theorem longer_welcome (w : World) (d : EventDescriptor) : Longer w (w.welcome d) where
  events := by simp [World.welcome]
  known := Roster.prefix_add _ _ _

/-- What has a place stays there. -/
theorem Longer.getElem?_eq (h : Longer w v) (hv : event < w.events.size) :
    v.events[event]? = w.events[event]? := by
  have hd : w.events[event]? = some w.events[event] := Array.getElem?_eq_getElem hv
  rw [hd, getElem?_of_prefix h.events hd]

theorem Longer.signalOf_eq (h : Longer w v) (hv : event < w.events.size) :
    v.signalOf event = w.signalOf event := by
  rw [signalOf, signalOf, h.getElem?_eq hv]

theorem Longer.find? (h : Longer w v) (hn : w.eventBooks.known.find? name = some event) :
    v.eventBooks.known.find? name = some event :=
  Roster.find?_of_prefix h.known hn

/-! ### Books in order -/

/-- Each known event has a place of its own, and what scripts listen to is known. -/
structure Filed (w : World) : Prop where
  valid : ∀ x ∈ w.eventBooks.known.entries, x.2 < w.events.size
  distinct : (w.eventBooks.known.entries.map (·.2)).Nodup
  single : w.eventBooks.active.names.Nodup
  known : ∀ x ∈ w.eventBooks.active.entries, w.eventBooks.known.find? x.1 = some x.2

namespace Filed

theorem of_unused (hb : w.eventBooks = {}) : w.Filed where
  valid := by simp [hb]
  distinct := by simp [hb]
  single := by simp [hb]
  known := by simp [hb]

/-- What can be told from events and books. -/
theorem congr (h : w.Filed) (he : v.events = w.events)
    (hk : v.eventBooks.known = w.eventBooks.known)
    (ha : v.eventBooks.active = w.eventBooks.active) : v.Filed := by
  constructor
  · rw [he, hk]
    exact h.valid
  · rw [hk]
    exact h.distinct
  · rw [ha]
    exact h.single
  · rw [hk, ha]
    exact h.known

theorem valid_find? (h : w.Filed) (hn : w.eventBooks.known.find? name = some event) :
    event < w.events.size :=
  h.valid _ (Roster.mem_of_find? hn)

theorem valid_active (h : w.Filed) {x : String × Nat} (hx : x ∈ w.eventBooks.active.entries) :
    x.2 < w.events.size :=
  h.valid_find? (h.known x hx)

/-- Each known event has one name. -/
theorem name_eq (h : w.Filed) {other : String} (hn : w.eventBooks.known.find? name = some event)
    (ho : w.eventBooks.known.find? other = some event) : other = name :=
  congrArg Prod.fst (List.inj_on_of_nodup_map h.distinct (Roster.mem_of_find? ho)
    (Roster.mem_of_find? hn) rfl)

/-- What scripts do not listen to is none of the events they listen to. -/
theorem not_mem_active (h : w.Filed) (hn : w.eventBooks.known.find? name = some event)
    (ha : w.eventBooks.active.contains name = false) {x : String × Nat}
    (hx : x ∈ w.eventBooks.active.entries) : x.2 ≠ event := by
  rintro rfl
  have hc : w.eventBooks.active.contains name = true :=
    Roster.contains_iff.2 (List.mem_map.2 ⟨x, hx, h.name_eq hn (h.known x hx)⟩)
  rw [ha] at hc
  cases hc

theorem put (h : w.Filed) (hn : w.eventBooks.known.find? name = some event) :
    Filed { w with eventBooks :=
      { w.eventBooks with active := w.eventBooks.active.put name event } } where
  valid := h.valid
  distinct := h.distinct
  single := Roster.nodup_names_put h.single _ _
  known x hx := by
    rcases Roster.mem_put hx with hx | rfl
    · exact h.known x hx
    · exact hn

theorem prefix_put (h : w.Filed) (hn : w.eventBooks.known.find? name = some event) :
    w.eventBooks.active.entries <+: (w.eventBooks.active.put name event).entries :=
  Roster.prefix_put fun x hx hx' => by
    have he := h.known x hx
    rw [hx', hn] at he
    exact (Option.some.inj he).symm

theorem forget (h : w.Filed) :
    Filed { w with eventBooks := { w.eventBooks with active := {} } } :=
  ⟨h.valid, h.distinct, List.nodup_nil, nofun⟩

theorem welcome (h : w.Filed) {d : EventDescriptor}
    (hd : w.eventBooks.known.contains d.name = false) : (w.welcome d).Filed := by
  have he : (w.welcome d).eventBooks.known.entries =
      w.eventBooks.known.entries ++ [(d.name, w.events.size)] :=
    Roster.entries_add_of_new hd _
  refine ⟨?_, ?_, h.single, fun x hx => (longer_welcome w d).find? (h.known x hx)⟩
  · intro x hx
    have hsize : (w.welcome d).events.size = w.events.size + 1 := Array.size_push ..
    rw [he, List.mem_append, List.mem_singleton] at hx
    rcases hx with hx | rfl
    · exact hsize ▸ Nat.lt_succ_of_lt (h.valid x hx)
    · exact hsize ▸ Nat.lt_succ_self _
  · rw [he, List.map_append]
    refine List.nodup_append.2 ⟨h.distinct, by simp, ?_⟩
    intro a ha b hb
    obtain ⟨x, hx, rfl⟩ := List.mem_map.1 ha
    rw [List.map_singleton, List.mem_singleton] at hb
    exact hb ▸ (h.valid x hx).ne

end Filed

end World

end ScriptHost
