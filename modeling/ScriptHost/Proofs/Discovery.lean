import ScriptHost.Proofs.Coherence
import ScriptHost.Proofs.Invariants

/-!
# Events on offer

Where what makes an event asks nothing, discovering the events on offer leaves what making them in
their order leaves, however often it was done before and whatever joined the offers in between
(`World.Met.shelf_eq`).
-/
namespace ScriptHost

/-- What foreign code ends in if it asks nothing, so that it neither knows nor changes the world. -/
def Program.result? {α : Type} (p : Program α) : Option (Except Fault α) :=
  match p.run with
  | .done r => some r
  | .ask _ _ => none

/-- What foreign code makes if it asks nothing and does not fail. -/
def Program.value? {α : Type} (p : Program α) : Option α :=
  match p.result? with
  | some (.ok a) => some a
  | _ => none

/-- All on offer asks nothing. -/
def Stateless {α : Type} (offers : List (String × Program α)) : Prop :=
  ∀ x ∈ offers, x.2.result?.isSome

instance {α : Type} (offers : List (String × Program α)) : Decidable (Stateless offers) :=
  inferInstanceAs (Decidable (∀ x ∈ offers, _ = true))

/-- A log goes on, and nothing is reported. -/
def Unreported (l l' : Array LogEntry) : Prop :=
  ∃ es, l'.toList = l.toList ++ es ∧ ∀ e ∈ es, e.fault = none

theorem Unreported.refl (l : Array LogEntry) : Unreported l l :=
  ⟨[], (List.append_nil _).symm, nofun⟩

theorem unreported_push (l : Array LogEntry) {e : LogEntry} (he : e.fault = none) :
    Unreported l (l.push e) :=
  ⟨[e], Array.toList_push, by simpa using he⟩

theorem Unreported.trans {l l' l'' : Array LogEntry} (h : Unreported l l')
    (h' : Unreported l' l'') : Unreported l l'' := by
  obtain ⟨es, hl, hes⟩ := h
  obtain ⟨fs, hl', hfs⟩ := h'
  refine ⟨es ++ fs, by rw [hl', hl, List.append_assoc], fun e he => ?_⟩
  exact (List.mem_append.1 he).elim (hes e) (hfs e)

/-! ### Shelves -/

/-- The events there are, those that are known, and the identifiers whose events were made. -/
structure Shelf where
  events : Array EventDescriptor := #[]
  known : Roster Nat := {}
  discovered : List String := []

namespace Shelf

variable {s : Shelf} {offer : String × EventFactory} {offers more : List (String × EventFactory)}

/-- Makes an event on offer, unless that was done before. -/
def meet (s : Shelf) (offer : String × EventFactory) : Shelf :=
  if s.discovered.contains offer.1 then s
  else
    let s := { s with discovered := s.discovered ++ [offer.1] }
    match offer.2.result? with
    | some (.ok d) =>
      if s.known.contains d.name then s
      else { s with events := s.events.push d, known := s.known.add d.name s.events.size }
    | _ => s

/-- Makes events on offer in their order. -/
def meetAll (s : Shelf) (offers : List (String × EventFactory)) : Shelf :=
  offers.foldl meet s

theorem discovered_meet (s : Shelf) (offer : String × EventFactory) :
    (s.meet offer).discovered =
      if s.discovered.contains offer.1 then s.discovered else s.discovered ++ [offer.1] := by
  unfold meet
  split
  · rfl
  · dsimp only
    split
    · split <;> rfl
    · rfl

theorem mem_discovered_meet {ident : String} :
    ident ∈ (s.meet offer).discovered ↔ ident ∈ s.discovered ∨ ident = offer.1 := by
  rw [discovered_meet]
  split
  · rename_i hc
    refine (or_iff_left_of_imp ?_).symm
    rintro rfl
    simpa using hc
  · simp

theorem mem_discovered_meetAll {ident : String} :
    ident ∈ (s.meetAll offers).discovered ↔
      ident ∈ s.discovered ∨ ident ∈ offers.map (·.1) := by
  induction offers generalizing s with
  | nil => simp [meetAll]
  | cons offer offers ih =>
    rw [List.map_cons, List.mem_cons, ← or_assoc, ← mem_discovered_meet]
    exact ih

theorem meetAll_append (s : Shelf) (offers more : List (String × EventFactory)) :
    s.meetAll (offers ++ more) = (s.meetAll offers).meetAll more :=
  List.foldl_append

end Shelf

namespace World

/-- The events a world has. -/
def shelf (w : World) : Shelf :=
  ⟨w.events, w.eventBooks.known, w.eventBooks.discovered⟩

/-- A world with other events. -/
def reshelve (w : World) (s : Shelf) : World :=
  { w with
    events := s.events
    eventBooks := { w.eventBooks with known := s.known, discovered := s.discovered } }

variable {w v : World}

end World

namespace Op

open World

variable {α : Type} {host : Responder} {w : World}

/-- Foreign code that asks nothing ends as it does, and changes nothing. -/
theorem perform_of_result {p : Program α} {r : Except Fault α} (h : p.result? = some r)
    (host : Responder) (w : World) :
    (perform host p).outcome w = r ∧ (perform host p).after w = w := by
  unfold Program.result? at h
  unfold perform
  split at h
  · rename_i r' hr
    obtain rfl := Option.some.inj h
    rw [hr, Dialogue.run_done, pure_bind]
    exact ⟨outcome_ofExcept _ _, after_ofExcept _ _⟩
  · cases h

/-! ### Events -/

/-- An event comes to those there are, unless one of its name is known. -/
theorem exists_registerKnown (d : EventDescriptor) (w : World) : ∃ b l, Unreported w.log l ∧
    (registerKnown d).outcome w = .ok b ∧
    (registerKnown d).after w =
      { w.reshelve (if w.eventBooks.known.contains d.name then w.shelf else (w.welcome d).shelf)
        with log := l } := by
  unfold registerKnown
  simp only [outcome_get_bind, after_get_bind]
  cases w.eventBooks.known.contains d.name with
  | true => exact ⟨false, _, unreported_push _ rfl, rfl, rfl⟩
  | false => exact ⟨true, _, unreported_push _ rfl, rfl, rfl⟩

/-- An event on offer is made and comes to the others, unless that was done before. -/
theorem exists_discoverOne {ident : String} {make : EventFactory} (h : make.result?.isSome)
    (host : Responder) (w : World) : ∃ b l, Unreported w.log l ∧
      (discoverOne host ident make).outcome w = .ok b ∧
      (discoverOne host ident make).after w =
        { w.reshelve (w.shelf.meet (ident, make)) with log := l } := by
  obtain ⟨r, hr⟩ := Option.isSome_iff_exists.1 h
  unfold discoverOne Shelf.meet
  simp only [outcome_get_bind, after_get_bind, shelf, hr]
  cases w.eventBooks.discovered.contains ident with
  | true => exact ⟨false, w.log, .refl _, rfl, rfl⟩
  | false =>
    have ho := fun v => (perform_of_result hr host v).1
    have ha := fun v => (perform_of_result hr host v).2
    simp only [Bool.false_eq_true, if_false, modifyEventBooks, outcome_modify_bind,
      after_modify_bind, outcome_attempt_bind, after_attempt_bind, ho, ha]
    cases r with
    | error f => exact ⟨false, _, unreported_push _ rfl, rfl, rfl⟩
    | ok d => exact exists_registerKnown d { w with eventBooks := { w.eventBooks with
        discovered := w.eventBooks.discovered ++ [ident] } }

/-- All events on offer are made and come to those there are. -/
theorem exists_discover (hs : Stateless w.catalog.events.entries) (host : Responder) :
    ∃ n l, Unreported w.log l ∧ (discover host).outcome w = .ok n ∧
      (discover host).after w =
        { w.reshelve (w.shelf.meetAll w.catalog.events.entries) with log := l } := by
  have all : ∀ (offers : List (String × EventFactory)) (w : World), Stateless offers →
      ∃ news l, Unreported w.log l ∧
        (offers.mapM fun x => discoverOne host x.1 x.2).outcome w = .ok news ∧
        (offers.mapM fun x => discoverOne host x.1 x.2).after w =
          { w.reshelve (w.shelf.meetAll offers) with log := l } := by
    intro offers
    induction offers with
    | nil => exact fun w _ => ⟨[], w.log, .refl _, rfl, rfl⟩
    | cons offer offers ih =>
      intro w hs
      obtain ⟨b, l, hl, ho, ha⟩ := exists_discoverOne (hs offer (by simp)) host w
      let w₁ : World := { w.reshelve (w.shelf.meet offer) with log := l }
      obtain ⟨news, l', hl', ho', ha'⟩ := ih w₁ fun x hx => hs x (by simp [hx])
      rw [List.mapM_cons]
      refine ⟨b :: news, l', hl.trans hl', ?_, ?_⟩
      · rw [outcome_bind_of_ok ho, ha, outcome_bind_of_ok ho']
        rfl
      · rw [after_bind_of_ok ho, ha, after_bind_of_ok ho', ha']
        rfl
  obtain ⟨news, l, hl, ho, ha⟩ := all _ w hs
  refine ⟨news.count true, l, hl, ?_, ?_⟩
  · exact (outcome_get_bind _ w).trans (outcome_bind_of_ok ho _)
  · refine (after_get_bind _ w).trans ((after_bind_of_ok ho _).trans ?_)
    rw [ha]
    rfl

/-- A function on offer is made, if it can be. -/
theorem exists_createFunction {ident : String} {make : FunctionFactory}
    (h : make.result?.isSome) (host : Responder) (w : World) : ∃ l, Unreported w.log l ∧
      (createFunction host ident make).outcome w = .ok make.value?.toList ∧
      (createFunction host ident make).after w =
        { w with history := w.history.push (.make ident), log := l } := by
  obtain ⟨r, hr⟩ := Option.isSome_iff_exists.1 h
  have ho := fun v => (perform_of_result hr host v).1
  have ha := fun v => (perform_of_result hr host v).2
  unfold createFunction record Program.value?
  simp only [outcome_modify_bind, after_modify_bind, outcome_attempt_bind, after_attempt_bind, ho,
    ha, hr]
  cases r with
  | error f => exact ⟨_, unreported_push _ rfl, rfl, rfl⟩
  | ok d => exact ⟨w.log, .refl _, rfl, rfl⟩

/-- The functions on offer are made in their order. -/
theorem exists_createFunctions (hs : Stateless w.catalog.functions.entries) (host : Responder) :
    ∃ l, Unreported w.log l ∧
      (createFunctions host).outcome w =
        .ok (w.catalog.functions.entries.filterMap fun x => x.2.value?) ∧
      (createFunctions host).after w =
        { w with
          history := w.history ++ w.catalog.functions.names.map Deed.make
          log := l } := by
  have all : ∀ (offers : List (String × FunctionFactory)) (w : World) (count : Nat),
      Stateless offers → w.catalog.functions.entries.length = count →
      ∃ l, Unreported w.log l ∧
        (createFrom host count offers).outcome w = .ok (offers.filterMap fun x => x.2.value?) ∧
        (createFrom host count offers).after w =
          { w with history := w.history ++ offers.map fun x => Deed.make x.1, log := l } := by
    intro offers
    induction offers with
    | nil => exact fun w _ _ _ => ⟨w.log, .refl _, rfl, by simp [createFrom]⟩
    | cons offer offers ih =>
      intro w count hs hc
      obtain ⟨l, hl, ho, ha⟩ := exists_createFunction (hs offer (by simp)) host w
      let w₁ : World := { w with history := w.history.push (.make offer.1), log := l }
      obtain ⟨l', hl', ho', ha'⟩ := ih w₁ count (fun x hx => hs x (by simp [hx])) hc
      have hcheck : checkCount count w₁.catalog.functions.entries.length = pure () := if_pos hc
      refine ⟨l', hl.trans hl', ?_, ?_⟩
      · unfold createFrom
        rw [outcome_bind_of_ok ho, ha, outcome_get_bind, hcheck, pure_bind, outcome_bind_of_ok ho',
          outcome_pure, List.filterMap_cons]
        cases offer.2.value? <;> rfl
      · unfold createFrom
        rw [after_bind_of_ok ho, ha, after_get_bind, hcheck, pure_bind, after_bind_of_ok ho', ha',
          after_pure, List.map_cons, Array.appendList_cons]
  obtain ⟨l, hl, ho, ha⟩ := all _ w _ hs rfl
  refine ⟨l, hl, (outcome_get_bind _ w).trans ho, (after_get_bind _ w).trans (ha.trans ?_)⟩
  rw [Roster.names, List.map_map]
  rfl

end Op

end ScriptHost
