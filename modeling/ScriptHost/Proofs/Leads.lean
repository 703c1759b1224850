import Mathlib.Data.List.Infix
import ScriptHost.Events.Signal
import ScriptHost.Proofs.Blocks

/-!
# From one world to a later one

`Leads w own ds w'` is what can be said of every stretch of a run, whoever wrote the foreign code in
it: the deeds `ds` were added to the history, `own` of them by the operation at hand, and the session
and the subscriptions are what these deeds make of them. Stretches are put together by `Leads.trans`.
-/
namespace ScriptHost

namespace World

/-- An event is connected to a signal. -/
def Connected (w : World) (event : Nat) : Prop :=
  ∃ signal hs, w.signals.find? signal = some hs ∧ Handler.event event ∈ hs

/-- What a world looks like in which a host can be. -/
structure Tidy (w : World) : Prop where
  nodup : ∀ {signal hs}, w.signals.find? signal = some hs → hs.Nodup
  /-- An event is connected to its own signal only. -/
  owned : ∀ {signal hs event}, w.signals.find? signal = some hs → .event event ∈ hs →
    ∃ d callback deliver, w.events[event]? = some d ∧ d.source = .signal signal callback deliver
  /-- Scripts listen to known events, each under its name. -/
  known : ∀ {x}, x ∈ w.eventBooks.active.entries → w.eventBooks.known.find? x.1 = some x.2
  /-- The environment of the session has been opened. -/
  housed : ∀ {home}, w.session.environment = some home → home < w.homes.size

/-- What only ever gets longer. -/
structure Grown (w w' : World) : Prop where
  hooks : ∀ phase, w.session.hooks.at phase <+: w'.session.hooks.at phase := by
    exact fun _ => List.prefix_rfl
  functions : w.catalog.functions.entries <+: w'.catalog.functions.entries := by
    exact List.prefix_rfl
  events : w.events.toList <+: w'.events.toList := by exact List.prefix_rfl
  known : w.eventBooks.known.entries <+: w'.eventBooks.known.entries := by exact List.prefix_rfl
  homes : w.homes.size ≤ w'.homes.size := by exact Nat.le_refl _

/-- What deeds have to do with events being connected. -/
structure Links (w : World) (ds : List Deed) (w' : World) : Prop where
  tidy : w'.Tidy
  /-- An event is connected only if it was or has begun to come in. -/
  linked : ∀ {event}, w'.Connected event → w.Connected event ∨ .attach event ∈ ds
  kept : .forget ∉ ds → w.eventBooks.active.entries <+: w'.eventBooks.active.entries
  /-- What scripts listened to is not connected once it is forgotten, unless it comes in anew. -/
  dropped : .forget ∈ ds → ∀ x ∈ w.eventBooks.active.entries, w'.Connected x.2 →
    .attach x.2 ∈ ds

/-- What a stretch of a run leaves. -/
structure Leads (w : World) (own ds : List Deed) (w' : World) : Prop where
  history : w'.history.toList = w.history.toList ++ ds
  woven : Woven own ds
  admits : w.session.holding.AdmitsAll ds
  holding : w'.session.holding = w.session.holding.replay ds
  active : w'.eventBooks.active.names = listening w.eventBooks.active.names ds
  /-- The environments that others give the session are new. -/
  occupied : ∀ {home}, .occupy home ∈ ds → .occupy home ∈ own ∨ w.homes.size ≤ home
  grown : Grown w w'
  links : w.Tidy → Links w ds w'

/-- Nothing that matters to the session or to subscriptions changes, but for what gets longer. -/
structure Still (w w' : World) : Prop extends Grown w w' where
  history : w'.history = w.history := by rfl
  holding : w'.session.holding = w.session.holding := by rfl
  active : w'.eventBooks.active = w.eventBooks.active := by rfl
  signals : w'.signals = w.signals := by rfl

theorem Grown.of_eq {w w' : World} (hooks : w'.session.hooks = w.session.hooks)
    (functions : w'.catalog.functions = w.catalog.functions) (events : w'.events = w.events)
    (known : w'.eventBooks.known = w.eventBooks.known) (homes : w'.homes = w.homes) : Grown w w' :=
  ⟨fun _ => hooks ▸ List.prefix_rfl, functions ▸ List.prefix_rfl, events ▸ List.prefix_rfl,
    known ▸ List.prefix_rfl, (congrArg Array.size homes).ge⟩

theorem Grown.refl (w : World) : Grown w w :=
  .of_eq rfl rfl rfl rfl rfl

theorem Grown.trans {w w' w'' : World} (h : Grown w w') (h' : Grown w' w'') : Grown w w'' :=
  ⟨fun phase => (h.hooks phase).trans (h'.hooks phase), h.functions.trans h'.functions,
    h.events.trans h'.events, h.known.trans h'.known, h.homes.trans h'.homes⟩

/-- What has a place keeps it where more comes in at the end. -/
theorem getElem?_of_prefix {α : Type} {xs ys : Array α} (h : xs.toList <+: ys.toList) {i : Nat}
    {a : α} (ha : xs[i]? = some a) : ys[i]? = some a := by
  obtain ⟨more, hm⟩ := h
  have hl : xs.toList[i]? = some a := by simpa using ha
  have hi : i < xs.toList.length := (List.getElem?_eq_some_iff.1 hl).1
  rw [← Array.getElem?_toList, ← hm, List.getElem?_append_left hi, hl]

theorem Grown.event {w w' : World} (h : Grown w w') {event : Nat} {d : EventDescriptor}
    (hd : w.events[event]? = some d) : w'.events[event]? = some d :=
  getElem?_of_prefix h.events hd

theorem Grown.names {w w' : World} (h : Grown w w') :
    w.catalog.functions.names <+: w'.catalog.functions.names :=
  h.functions.map _

theorem Links.trans {w w' w'' : World} {ds es : List Deed} (h : Links w ds w')
    (h' : Links w' es w'') : Links w (ds ++ es) w'' where
  tidy := h'.tidy
  linked hc := by
    rcases h'.linked hc with hc | hc
    · rcases h.linked hc with hc | hc
      · exact .inl hc
      · exact .inr (List.mem_append_left _ hc)
    · exact .inr (List.mem_append_right _ hc)
  kept hf := by
    simp only [List.mem_append, not_or] at hf
    exact (h.kept hf.1).trans (h'.kept hf.2)
  dropped hf x hx hc := by
    by_cases hd : .forget ∈ ds
    · rcases h'.linked hc with hc | hc
      · exact List.mem_append_left _ (h.dropped hd x hx hc)
      · exact List.mem_append_right _ hc
    · have he : .forget ∈ es := (List.mem_append.1 hf).resolve_left hd
      exact List.mem_append_right _ (h'.dropped he x ((h.kept hd).subset hx) hc)

namespace Leads

variable {w w' w'' : World} {own own' ds es : List Deed}

theorem refl (w : World) : Leads w [] [] w :=
  ⟨by simp, .nil, trivial, rfl, rfl, .inl, .refl w, fun ht =>
    ⟨ht, .inl, fun _ => List.prefix_rfl, fun hf => absurd hf List.not_mem_nil⟩⟩

/-- Where nothing happens. -/
theorem of_eq (h : w' = w) : Leads w [] [] w' :=
  h ▸ refl w

theorem trans (h : Leads w own ds w') (h' : Leads w' own' es w'') :
    Leads w (own ++ own') (ds ++ es) w'' where
  history := by rw [h'.history, h.history, List.append_assoc]
  woven := h.woven.append h'.woven
  admits := Holding.admitsAll_append.2 ⟨h.admits, h.holding ▸ h'.admits⟩
  holding := by rw [h'.holding, h.holding, Holding.replay_append]
  active := by rw [h'.active, h.active, listening_append]
  occupied hm := by
    rcases List.mem_append.1 hm with hm | hm
    · exact (h.occupied hm).imp_left (List.mem_append_left _)
    · exact (h'.occupied hm).imp (List.mem_append_right _) h.grown.homes.trans
  grown := h.grown.trans h'.grown
  links ht := (h.links ht).trans (h'.links (h.links ht).tidy)

/-- What a call does itself is one block to those around it. -/
theorem block {d : Deed} (hb : Block (d :: own)) (h : Leads w (d :: own) (d :: ds) w')
    (hw : Woven own ds) (hnew : ∀ home, .occupy home ∈ d :: own → w.homes.size ≤ home) :
    Leads w [] (d :: ds) w' :=
  { h with
    woven := hw.block hb
    occupied := fun hm => .inr ((h.occupied hm).elim (hnew _) id) }

/-- The deeds of a stretch are what it adds to the history. -/
theorem deeds_eq (h : Leads w own ds w') : ds = w'.history.toList.drop w.history.size := by
  rw [h.history, List.drop_left' (by simp)]

end Leads

/-- A world is tidy in which nothing has been loaded and no script has listened to anything. -/
theorem tidy_of_unused {w : World}
    (hs : ∀ {signal hs}, w.signals.find? signal = some hs → hs = [])
    (ha : w.eventBooks.active.entries = []) (he : w.session.environment = none) : w.Tidy where
  nodup h := hs h ▸ List.nodup_nil
  owned h hm := absurd (hs h ▸ hm) List.not_mem_nil
  known hx := absurd (ha ▸ hx) List.not_mem_nil
  housed h := nomatch he.symm.trans h

theorem Tidy.of_grown {w w' : World} (ht : w.Tidy) (h : Grown w w')
    (hs : w'.signals = w.signals) (ha : w'.eventBooks.active = w.eventBooks.active)
    (he : w'.session.environment = w.session.environment) : w'.Tidy where
  nodup he := ht.nodup (hs ▸ he)
  owned he hm := by
    obtain ⟨d, callback, deliver, hd, hsource⟩ := ht.owned (hs ▸ he) hm
    exact ⟨d, callback, deliver, h.event hd, hsource⟩
  known hx := Roster.find?_of_prefix h.known (ht.known (ha ▸ hx))
  housed hh := Nat.lt_of_lt_of_le (ht.housed (he ▸ hh)) h.homes

theorem Still.leads {w w' : World} (h : Still w w') : Leads w [] [] w' where
  history := by simp [h.history]
  woven := .nil
  admits := trivial
  holding := h.holding
  active := by rw [h.active, listening_nil]
  occupied := .inl
  grown := h.toGrown
  links ht :=
    { tidy := ht.of_grown h.toGrown h.signals h.active (congrArg Holding.environment h.holding)
      linked := fun ⟨signal, hs, hf, hm⟩ => .inl ⟨signal, hs, h.signals ▸ hf, hm⟩
      kept := fun _ => h.active ▸ List.prefix_rfl
      dropped := fun hf => absurd hf List.not_mem_nil }

/-- A deed enters the history together with what it makes of the session. -/
theorem leads_enter (w : World) (s : Session) (d : Deed) (hd : d.isQuiet = false)
    (hooks : s.hooks = w.session.hooks) (holding : s.holding = w.session.holding.step d)
    (admits : w.session.holding.Admits d)
    (housed : ∀ home, d = .occupy home → home < w.homes.size := by intro _ h; cases h) :
    Leads w [d] [d] { w with session := s, history := w.history.push d } where
  history := by simp
  woven := .own d .nil
  admits := ⟨admits, trivial⟩
  holding := holding
  active := by cases d <;> first | rfl | cases hd
  occupied := .inl
  grown := { hooks := fun _ => hooks ▸ List.prefix_rfl }
  links ht :=
    { tidy := ⟨ht.nodup, ht.owned, ht.known, fun {home} he => by
        have hs : (w.session.holding.step d).environment = some home :=
          (congrArg Holding.environment holding).symm.trans he
        cases d with
        | occupy new => exact housed home (congrArg Deed.occupy (Option.some.inj hs))
        | fail => cases hs
        | vacate => cases hs
        | _ => exact ht.housed hs⟩
      linked := .inl
      kept := fun _ => List.prefix_rfl
      dropped := fun hf => by
        rw [List.mem_singleton] at hf
        subst hf
        cases hd }

end World

end ScriptHost
