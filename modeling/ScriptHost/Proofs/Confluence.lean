import ScriptHost.Proofs.Discovery

/-!
# Offers and discoveries in any order

Events may be offered and discovered in turns. What is known after a last discovery does not depend
on when the others were made: it is what one discovery after all offers leaves, and each factory
that came first under its identifier was called once (`runMoves_discover`).
-/
namespace ScriptHost

/-! ### First comers -/

/-- Those of a list that come first under their names. -/
def firsts {α : Type} : List (String × α) → List (String × α)
  | [] => []
  | x :: xs => x :: (firsts xs).filter fun y => y.1 ≠ x.1

section Firsts

variable {α : Type}

theorem mem_names_firsts {xs : List (String × α)} {name : String} :
    name ∈ (firsts xs).map (·.1) ↔ name ∈ xs.map (·.1) := by
  induction xs with
  | nil => rfl
  | cons x xs ih =>
    by_cases hn : name = x.1
    · simp [firsts, hn]
    · rw [List.map_cons, List.mem_cons, ← ih]
      simp only [firsts, List.map_cons, List.mem_cons, hn, false_or, List.mem_map, List.mem_filter,
        decide_eq_true_eq]
      constructor
      · rintro ⟨y, ⟨hy, -⟩, rfl⟩
        exact ⟨y, hy, rfl⟩
      · rintro ⟨y, hy, rfl⟩
        exact ⟨y, ⟨hy, hn⟩, rfl⟩

theorem nodup_names_firsts (xs : List (String × α)) : ((firsts xs).map (·.1)).Nodup := by
  induction xs with
  | nil => exact List.nodup_nil
  | cons x xs ih =>
    rw [firsts, List.map_cons, List.nodup_cons]
    refine ⟨fun hm => ?_, ih.sublist (List.filter_sublist.map _)⟩
    obtain ⟨y, hy, he⟩ := List.mem_map.1 hm
    simpa [he] using (List.mem_filter.1 hy).2

/-- One more comes in at the end if it is the first of its name. -/
theorem firsts_concat (xs : List (String × α)) (y : String × α) :
    firsts (xs ++ [y]) = if y.1 ∈ xs.map (·.1) then firsts xs else firsts xs ++ [y] := by
  induction xs with
  | nil => rfl
  | cons x xs ih =>
    rw [List.cons_append, firsts, ih, List.map_cons, firsts]
    by_cases hx : y.1 = x.1
    · by_cases hm : y.1 ∈ xs.map (·.1)
      · simp [hx, hx ▸ hm]
      · simp [hx, hx ▸ hm]
    · by_cases hm : y.1 ∈ xs.map (·.1)
      · rw [if_pos hm, if_pos (List.mem_cons_of_mem _ hm)]
      · rw [if_neg hm, if_neg (by simp [hx, List.mem_map.not.1 hm]), List.filter_append,
          List.filter_singleton, decide_eq_true hx]
        rfl

theorem prefix_firsts_concat (xs : List (String × α)) (y : String × α) :
    firsts xs <+: firsts (xs ++ [y]) := by
  rw [firsts_concat]
  split
  · exact List.prefix_rfl
  · exact List.prefix_append _ _

theorem firsts_sublist (xs : List (String × α)) : (firsts xs).Sublist xs := by
  induction xs with
  | nil => exact List.Sublist.refl _
  | cons x xs ih => exact (List.filter_sublist.trans ih).cons_cons x

end Firsts

/-! ### Shelves -/

namespace Shelf

/-- Takes in the event that a factory has made, if it has and the name is new. -/
def enroll (s : Shelf) : Except Fault EventDescriptor → Shelf
  | .ok d =>
    if s.known.contains d.name then s
    else { s with events := s.events.push d, known := s.known.add d.name s.events.size }
  | .error _ => s

theorem meet_of_new {s : Shelf} {offer : String × EventFactory} (hn : offer.1 ∉ s.discovered)
    {r : Except Fault EventDescriptor} (hr : offer.2.result? = some r) :
    s.meet offer = { s with discovered := s.discovered ++ [offer.1] }.enroll r := by
  rw [meet, if_neg (by simpa using hn), hr]
  cases r <;> rfl

end Shelf

/-! ### Factories -/

/-- A factory ends in the same way each time it is called and makes the same notes. It leaves what
is on offer and what is known as it is. -/
structure Signs (host : Responder) (make : EventFactory) (r : Except Fault EventDescriptor)
    (marks : List (String × List Picture)) : Prop where
  outcome : ∀ w, (Op.perform host make).outcome w = r
  notes : ∀ w, ((Op.perform host make).after w).notes = w.notes ++ marks.toArray
  catalog : ∀ w, ((Op.perform host make).after w).catalog = w.catalog
  shelf : ∀ w, ((Op.perform host make).after w).shelf = w.shelf

/-- A factory that only ends in a certain way. -/
def settled : Except Fault EventDescriptor → EventFactory
  | .ok d => pure d
  | .error f => throw f

theorem result?_settled (r : Except Fault EventDescriptor) : (settled r).result? = some r := by
  cases r <;> rfl

/-- What is offered under an identifier, by the number of the factory. -/
def offering (make : Nat → EventFactory) (x : String × Nat) : String × EventFactory :=
  (x.1, make x.2)

/-- A host offers an event, made by the factory of a number, or discovers what is on offer. -/
inductive Move where
  | offer (ident : String) (k : Nat)
  | discover

/-- What is offered by a move, if it is an offer. -/
def Move.offered : Move → Option (String × Nat)
  | offer ident k => some (ident, k)
  | discover => none

namespace Op

open World

variable {host : Responder} {make : Nat → EventFactory}
  {result : Nat → Except Fault EventDescriptor} {marks : Nat → List (String × List Picture)}

/-- Makes a move, and tells how many events have become known. -/
def runMove (host : Responder) (make : Nat → EventFactory) : Move → Op Nat
  | .offer ident k => do
    discard (addEvent ident (make k))
    return 0
  | .discover => discover host

/-- Makes moves, one after another, and tells how many events have become known. -/
def runMoves (host : Responder) (make : Nat → EventFactory) : List Move → Op Nat
  | [] => return 0
  | m :: ms => do
    let count ← runMove host make m
    let more ← runMoves host make ms
    return count + more

/-! ### Discovering -/

theorem outcome_registerKnown (d : EventDescriptor) (w : World) :
    (registerKnown d).outcome w = .ok (!w.eventBooks.known.contains d.name) := by
  unfold registerKnown
  simp only [outcome_get_bind]
  cases w.eventBooks.known.contains d.name <;> rfl

theorem discoverOne_of_seen {ident : String} {w : World} (h : ident ∈ w.eventBooks.discovered)
    (host : Responder) (make : EventFactory) :
    (discoverOne host ident make).outcome w = .ok false ∧
      (discoverOne host ident make).after w = w := by
  unfold discoverOne
  simp only [outcome_get_bind, after_get_bind, List.contains_iff_mem.2 h, if_true]
  exact ⟨rfl, rfl⟩

/-- What a discovery does to a world: it makes certain events, and so many become known. -/
structure Makes (result : Nat → Except Fault EventDescriptor)
    (marks : Nat → List (String × List Picture)) (w v : World) (xs : List (String × Nat))
    (count : Nat) : Prop where
  catalog : v.catalog = w.catalog
  shelf : v.shelf = w.shelf.meetAll (xs.map (offering (settled ∘ result)))
  notes : v.notes = w.notes ++ (xs.flatMap fun x => marks x.2).toArray
  known : v.eventBooks.known.entries.length = w.eventBooks.known.entries.length + count

theorem makes_nil (result : Nat → Except Fault EventDescriptor)
    (marks : Nat → List (String × List Picture)) (w : World) : Makes result marks w w [] 0 :=
  ⟨rfl, rfl, by simp, rfl⟩

theorem Makes.trans {w v u : World} {xs ys : List (String × Nat)} {m n : Nat}
    (h : Makes result marks w v xs m) (h' : Makes result marks v u ys n) :
    Makes result marks w u (xs ++ ys) (m + n) where
  catalog := h'.catalog.trans h.catalog
  shelf := by rw [h'.shelf, h.shelf, List.map_append, Shelf.meetAll_append]
  notes := by rw [h'.notes, h.notes]; simp
  known := by rw [h'.known, h.known, Nat.add_assoc]

/-- An event that is made becomes known, unless its name is. -/
theorem makes_registerKnown (d : EventDescriptor) (w : World) :
    let b := !w.eventBooks.known.contains d.name
    (registerKnown d).outcome w = .ok b ∧
      ((registerKnown d).after w).catalog = w.catalog ∧
      ((registerKnown d).after w).notes = w.notes ∧
      ((registerKnown d).after w).shelf = w.shelf.enroll (.ok d) ∧
      ((registerKnown d).after w).eventBooks.known.entries.length =
        w.eventBooks.known.entries.length + b.toNat := by
  obtain ⟨_, l, -, -, ha⟩ := exists_registerKnown d w
  refine ⟨outcome_registerKnown d w, ?_⟩
  rw [ha]
  cases hc : w.eventBooks.known.contains d.name with
  | true => exact ⟨rfl, rfl, (if_pos hc).symm, rfl⟩
  | false =>
    refine ⟨rfl, rfl, (if_neg (by simp [shelf, hc])).symm, ?_⟩
    show (w.eventBooks.known.add d.name w.events.size).entries.length = _
    rw [Roster.entries_add_of_new hc, List.length_append]
    rfl

/-- Step: an event that was not made before is made. -/
theorem makes_discoverOne {x : String × Nat} {w : World}
    (hs : Signs host (make x.2) (result x.2) (marks x.2)) (hn : x.1 ∉ w.eventBooks.discovered) :
    ∃ b, (discoverOne host x.1 (make x.2)).outcome w = .ok b ∧
      Makes result marks w ((discoverOne host x.1 (make x.2)).after w) [x] b.toNat := by
  let w₁ : World := { w with eventBooks := { w.eventBooks with
    discovered := w.eventBooks.discovered ++ [x.1] } }
  let u := (perform host (make x.2)).after w₁
  have hcatalog : u.catalog = w.catalog := hs.catalog w₁
  have hnotes : u.notes = w.notes ++ ([x].flatMap fun x => marks x.2).toArray := by
    simpa using hs.notes w₁
  have hshelf : u.shelf = w₁.shelf := hs.shelf w₁
  have hknown : u.eventBooks.known = w.eventBooks.known := congrArg Shelf.known hshelf
  have hmeet : w.shelf.meetAll ([x].map (offering (settled ∘ result))) =
      u.shelf.enroll (result x.2) := by
    rw [hshelf]
    exact Shelf.meet_of_new hn (result?_settled (result x.2))
  have hc : w.eventBooks.discovered.contains x.1 = false := by simpa using hn
  unfold discoverOne
  simp only [outcome_get_bind, after_get_bind, hc, Bool.false_eq_true, if_false, modifyEventBooks,
    outcome_modify_bind, after_modify_bind, outcome_attempt_bind, after_attempt_bind, hs.outcome]
  cases hr : result x.2 with
  | error f =>
    rw [hr] at hmeet
    exact ⟨false, rfl, hcatalog, hmeet.symm, hnotes, congrArg (·.entries.length) hknown⟩
  | ok d =>
    rw [hr] at hmeet
    obtain ⟨ho, hrc, hrn, hrs, hrk⟩ := makes_registerKnown d u
    refine ⟨_, ho, hrc.trans hcatalog, hrs.trans hmeet.symm, hrn.trans hnotes, ?_⟩
    exact hrk.trans (congrArg (·.entries.length + _) hknown)

/-- What was made before is not made again. -/
theorem mapM_discoverOne_of_seen (host : Responder) {offers : List (String × EventFactory)}
    {w : World} (h : ∀ x ∈ offers, x.1 ∈ w.eventBooks.discovered) :
    ∃ news, (offers.mapM fun x => discoverOne host x.1 x.2).outcome w = .ok news ∧
      news.count true = 0 ∧ (offers.mapM fun x => discoverOne host x.1 x.2).after w = w := by
  induction offers with
  | nil => exact ⟨[], rfl, rfl, rfl⟩
  | cons x offers ih =>
    rw [List.forall_mem_cons] at h
    obtain ⟨ho, ha⟩ := discoverOne_of_seen h.1 host x.2
    obtain ⟨news, ho', hnews, ha'⟩ := ih h.2
    rw [List.mapM_cons]
    refine ⟨false :: news, ?_, by simpa using hnews, ?_⟩
    · rw [outcome_bind_of_ok ho, ha, outcome_bind_of_ok ho']
      rfl
    · rw [after_bind_of_ok ho, ha, after_bind_of_ok ho', ha']
      rfl

/-- Run: events that were not made before are made. -/
theorem mapM_discoverOne_of_new {xs : List (String × Nat)} {w : World}
    (hs : ∀ x ∈ xs, Signs host (make x.2) (result x.2) (marks x.2)) (hd : (xs.map (·.1)).Nodup)
    (hn : ∀ x ∈ xs, x.1 ∉ w.eventBooks.discovered) :
    let m := (xs.map (offering make)).mapM fun x => discoverOne host x.1 x.2
    ∃ news, m.outcome w = .ok news ∧ Makes result marks w (m.after w) xs (news.count true) := by
  induction xs generalizing w with
  | nil => exact ⟨[], rfl, makes_nil result marks w⟩
  | cons x xs ih =>
    rw [List.forall_mem_cons] at hs hn
    rw [List.map_cons, List.nodup_cons] at hd
    obtain ⟨b, ho, hm⟩ := makes_discoverOne hs.1 hn.1
    have hseen : ∀ y ∈ xs,
        y.1 ∉ ((discoverOne host x.1 (make x.2)).after w).eventBooks.discovered := by
      intro y hy hmem
      have hmem' : y.1 ∈ (w.shelf.meetAll ([x].map (offering (settled ∘ result)))).discovered :=
        hm.shelf ▸ hmem
      rcases Shelf.mem_discovered_meetAll.1 hmem' with hmem' | hmem'
      · exact hn.2 y hy hmem'
      · have he : y.1 = x.1 := by simpa [offering] using hmem'
        exact hd.1 (he ▸ List.mem_map_of_mem hy)
    obtain ⟨news, ho', hm'⟩ := ih hs.2 hd.2 hseen
    rw [List.map_cons, List.mapM_cons]
    refine ⟨b :: news, ?_, ?_⟩
    · refine (outcome_bind_of_ok ho _).trans ?_
      rw [outcome_bind_of_ok ho']
      rfl
    · show Makes result marks w ((discoverOne host x.1 (make x.2) >>= _).after w) _ _
      rw [after_bind_of_ok ho, after_bind_of_ok ho']
      have hcount : (b :: news).count true = b.toNat + news.count true := by
        cases b <;> simp [Nat.add_comm]
      rw [hcount]
      exact hm.trans hm'

/-! ### Moves -/

/-- The offers among moves. -/
def offersOf (ms : List Move) : List (String × Nat) :=
  ms.filterMap Move.offered

/-- A world in which certain offers have been made, and some of the first comers have been made into
events. -/
structure Stocked (make : Nat → EventFactory) (result : Nat → Except Fault EventDescriptor)
    (marks : Nat → List (String × List Picture)) (start w : World) (xs met : List (String × Nat)) :
    Prop where
  made : met <+: firsts xs
  offered : w.catalog.events.entries = (firsts xs).map (offering make)
  shelf : w.shelf = start.shelf.meetAll (met.map (offering (settled ∘ result)))
  notes : w.notes = start.notes ++ (met.flatMap fun x => marks x.2).toArray

variable {start w : World} {xs met : List (String × Nat)}

theorem Stocked.mem_discovered (h : Stocked make result marks start w xs met)
    (hd : start.eventBooks.discovered = []) {ident : String} :
    ident ∈ w.eventBooks.discovered ↔ ident ∈ met.map (·.1) := by
  have hm : ident ∈ w.shelf.discovered ↔ ident ∈ start.shelf.discovered ∨
      ident ∈ (met.map (offering (settled ∘ result))).map (·.1) := by
    rw [h.shelf]
    exact Shelf.mem_discovered_meetAll
  rw [List.map_map] at hm
  have hstart : ident ∉ start.shelf.discovered := by
    rw [World.shelf, hd]
    exact List.not_mem_nil
  exact hm.trans (or_iff_right hstart)

/-- Step: an offer is kept if its identifier is new. -/
theorem Stocked.offer (h : Stocked make result marks start w xs met) (host : Responder)
    (ident : String) (k : Nat) :
    (runMove host make (.offer ident k)).outcome w = .ok 0 ∧
      Stocked make result marks start ((runMove host make (.offer ident k)).after w)
        (xs ++ [(ident, k)]) met ∧
      ((runMove host make (.offer ident k)).after w).eventBooks = w.eventBooks := by
  have hc : w.catalog.events.contains ident = true ↔ ident ∈ xs.map (·.1) := by
    rw [Roster.contains_iff, Roster.names, h.offered, List.map_map]
    exact mem_names_firsts
  have hmet := h.made.trans (prefix_firsts_concat xs (ident, k))
  have hm : runMove host make (.offer ident k) = (addEvent ident (make k) >>= fun _ => pure 0) :=
    discard_bind _ _
  rw [hm]
  unfold addEvent Catalog.addEvent?
  by_cases hx : ident ∈ xs.map (·.1)
  · have he : w.catalog.events.contains ident = true := hc.2 hx
    simp only [bind_assoc, outcome_get_bind, after_get_bind, he, if_true]
    refine ⟨rfl, ⟨hmet, ?_, h.shelf, h.notes⟩, rfl⟩
    rw [firsts_concat, if_pos hx]
    exact h.offered
  · have he : w.catalog.events.contains ident = false := by simpa using mt hc.1 hx
    simp only [bind_assoc, outcome_get_bind, after_get_bind, he, Bool.false_eq_true, if_false]
    refine ⟨rfl, ⟨hmet, ?_, h.shelf, h.notes⟩, rfl⟩
    rw [firsts_concat, if_neg hx, List.map_append, ← h.offered]
    exact Roster.entries_add_of_new he (make k)

/-- Step: a discovery makes all first comers that are left. -/
theorem Stocked.discover (h : Stocked make result marks start w xs met)
    (hd : start.eventBooks.discovered = [])
    (hs : ∀ x ∈ xs, Signs host (make x.2) (result x.2) (marks x.2)) :
    ∃ n, (discover host).outcome w = .ok n ∧
      Stocked make result marks start ((discover host).after w) xs (firsts xs) ∧
      ((discover host).after w).eventBooks.known.entries.length =
        w.eventBooks.known.entries.length + n ∧
      (met = firsts xs → n = 0 ∧ (discover host).after w = w) := by
  obtain ⟨rest, hr⟩ := h.made
  have hnodup := nodup_names_firsts xs
  rw [← hr, List.map_append, List.nodup_append] at hnodup
  obtain ⟨-, hrest, hapart⟩ := hnodup
  have hsigns : ∀ x ∈ rest, Signs host (make x.2) (result x.2) (marks x.2) := fun x hx =>
    hs x ((firsts_sublist xs).subset (hr ▸ List.mem_append_right _ hx))
  have hseen : ∀ y ∈ met.map (offering make), y.1 ∈ w.eventBooks.discovered := by
    rw [List.forall_mem_map]
    exact fun x hx => (h.mem_discovered hd).2 (List.mem_map_of_mem hx)
  obtain ⟨old, hold, hnone, hsame⟩ := mapM_discoverOne_of_seen host hseen
  obtain ⟨news, hnews, hm⟩ := mapM_discoverOne_of_new (w := w) hsigns hrest fun x hx hseen =>
    hapart _ ((h.mem_discovered hd).1 hseen) _ (List.mem_map_of_mem hx) rfl
  have ho : ((w.catalog.events.entries.mapM fun x => discoverOne host x.1 x.2).outcome w) =
      .ok (old ++ news) := by
    rw [h.offered, ← hr, List.map_append, List.mapM_append, outcome_bind_of_ok hold, hsame,
      outcome_bind_of_ok hnews]
    rfl
  have ha : (w.catalog.events.entries.mapM fun x => discoverOne host x.1 x.2).after w =
      ((rest.map (offering make)).mapM fun x => discoverOne host x.1 x.2).after w := by
    rw [h.offered, ← hr, List.map_append, List.mapM_append, after_bind_of_ok hold, hsame,
      after_bind_of_ok hnews]
    rfl
  have hafter : (Op.discover host).after w =
      ((rest.map (offering make)).mapM fun x => discoverOne host x.1 x.2).after w :=
    (after_get_bind _ w).trans ((after_bind_of_ok ho _).trans ha)
  have hcount : (Op.discover host).outcome w = .ok ((old ++ news).count true) :=
    (outcome_get_bind _ w).trans (outcome_bind_of_ok ho _)
  refine ⟨(old ++ news).count true, hcount, ?_, ?_, ?_⟩
  · rw [hafter]
    refine ⟨List.prefix_rfl, ?_, ?_, ?_⟩
    · rw [hm.catalog]
      exact h.offered
    · rw [hm.shelf, h.shelf, ← hr, List.map_append, Shelf.meetAll_append]
    · rw [hm.notes, h.notes, ← hr]
      simp
  · rw [hafter, hm.known, List.count_append, hnone, Nat.zero_add]
  · intro hall
    obtain rfl : rest = [] := by
      rw [hall] at hr
      exact List.append_right_eq_self.1 hr
    obtain rfl : news = [] := (Except.ok.inj hnews).symm
    exact ⟨by simpa using hnone, hafter⟩

theorem runMoves_of_cons {m : Move} {ms : List Move} {n more : Nat}
    (ho : (runMove host make m).outcome w = .ok n)
    (ho' : (runMoves host make ms).outcome ((runMove host make m).after w) = .ok more) :
    (runMoves host make (m :: ms)).outcome w = .ok (n + more) ∧
      (runMoves host make (m :: ms)).after w =
        (runMoves host make ms).after ((runMove host make m).after w) := by
  rw [runMoves, outcome_bind_of_ok ho, after_bind_of_ok ho, outcome_bind_of_ok ho',
    after_bind_of_ok ho']
  exact ⟨rfl, rfl⟩

/-- Run: after moves that end in a discovery, all first comers have been made. -/
theorem Stocked.runMoves (ms : List Move) (h : Stocked make result marks start w xs met)
    (hd : start.eventBooks.discovered = [])
    (hs : ∀ x ∈ xs ++ offersOf ms, Signs host (make x.2) (result x.2) (marks x.2)) :
    ∃ n, (Op.runMoves host make (ms ++ [.discover])).outcome w = .ok n ∧
      Stocked make result marks start ((Op.runMoves host make (ms ++ [.discover])).after w)
        (xs ++ offersOf ms) (firsts (xs ++ offersOf ms)) ∧
      ((Op.runMoves host make (ms ++ [.discover])).after w).eventBooks.known.entries.length =
        w.eventBooks.known.entries.length + n := by
  induction ms generalizing w xs met with
  | nil =>
    have he : xs ++ offersOf [] = xs := List.append_nil xs
    rw [he] at hs ⊢
    obtain ⟨n, ho, h', hk, -⟩ := h.discover hd hs
    have hdone : (Op.runMoves host make []).outcome ((Op.discover host).after w) = .ok 0 := rfl
    obtain ⟨hall, ha⟩ := runMoves_of_cons (m := .discover) ho hdone
    rw [List.nil_append, ha]
    exact ⟨_, hall, h', hk⟩
  | cons m ms ih =>
    cases m with
    | offer ident k =>
      have he : xs ++ offersOf (.offer ident k :: ms) = xs ++ [(ident, k)] ++ offersOf ms := by
        simp [offersOf, Move.offered]
      rw [he] at hs ⊢
      obtain ⟨ho, h', hk⟩ := h.offer host ident k
      obtain ⟨n, ho', hrun, hn⟩ := ih h' hs
      obtain ⟨hall, ha⟩ := runMoves_of_cons ho ho'
      rw [List.cons_append, ha]
      exact ⟨_, hall, hrun, by rw [Nat.zero_add, ← hk]; exact hn⟩
    | discover =>
      obtain ⟨m, ho, h', hk, -⟩ := h.discover hd fun x hx => hs x (List.mem_append_left _ hx)
      obtain ⟨n, ho', hrun, hn⟩ := ih h' hs
      obtain ⟨hall, ha⟩ := runMoves_of_cons (m := .discover) ho ho'
      rw [List.cons_append, ha]
      exact ⟨_, hall, hrun, by rw [← Nat.add_assoc, ← hk]; exact hn⟩

theorem offersOf_filter (ms : List Move) :
    offersOf (ms.filter fun m => m.offered.isSome) = offersOf ms := by
  rw [offersOf, offersOf, List.filterMap_filter]
  refine List.filterMap_congr fun m _ => ?_
  cases m <;> rfl

/-- Offers and discoveries in any order, with a discovery at the end, leave the events that one
discovery after all offers leaves, under the same names in the same order. The first factory of each
identifier is called once, in the order of the offers, and no other is: the notes are theirs. As
many events become known as are told, and a further discovery changes nothing. -/
theorem runMoves_discover (host : Responder) (make : Nat → EventFactory)
    (result : Nat → Except Fault EventDescriptor) (marks : Nat → List (String × List Picture))
    (ms : List Move) {w : World}
    (offered : w.catalog.events.entries = []) (known : w.eventBooks.known.entries = [])
    (discovered : w.eventBooks.discovered = [])
    (hs : ∀ x ∈ offersOf ms, Signs host (make x.2) (result x.2) (marks x.2)) :
    let v := (runMoves host make (ms ++ [.discover])).after w
    let u := (runMoves host make ((ms.filter fun m => m.offered.isSome) ++ [.discover])).after w
    (v.eventBooks.known = u.eventBooks.known ∧ v.events = u.events) ∧
    v.notes = w.notes ++ ((firsts (offersOf ms)).flatMap fun x => marks x.2).toArray ∧
    (runMoves host make (ms ++ [.discover])).outcome w = .ok v.eventBooks.known.entries.length ∧
    (discover host).outcome v = .ok 0 ∧ (discover host).after v = v := by
  intro v u
  have hw : Stocked make result marks w w [] [] :=
    ⟨List.prefix_rfl, offered, rfl, by simp⟩
  obtain ⟨n, ho, hv, hn⟩ := hw.runMoves ms discovered hs
  obtain ⟨-, -, hu, -⟩ := hw.runMoves (ms.filter fun m => m.offered.isSome)
    discovered ((offersOf_filter ms).symm ▸ hs)
  rw [offersOf_filter] at hu
  obtain ⟨k, hk, -, -, hnone⟩ := hv.discover discovered hs
  obtain ⟨rfl, hsame⟩ := hnone rfl
  have hshelf : v.shelf = u.shelf := hv.shelf.trans hu.shelf.symm
  rw [known, List.length_nil, Nat.zero_add] at hn
  exact ⟨⟨congrArg Shelf.known hshelf, congrArg Shelf.events hshelf⟩, hv.notes, hn ▸ ho, hk, hsame⟩

/-- The note a factory makes when it is called. -/
def mark (k : Nat) : String × List Picture :=
  ("made", [.int k])

/-- A factory that makes its note and ends in a certain way. -/
def signing (k : Nat) (r : Except Fault EventDescriptor) : EventFactory := do
  Program.order (.note "made" [.int k])
  settled r

theorem signs_signing (n k : Nat) (r : Except Fault EventDescriptor) :
    Signs (respond (n + 1)) (signing k r) r [mark k] where
  outcome w := by cases r <;> rfl
  notes w := by cases r <;> rfl
  catalog w := by cases r <;> rfl
  shelf w := by cases r <;> rfl

/-- What four factories end in: the first fails, and the others make events of one name. -/
def fourResults : Nat → Except Fault EventDescriptor
  | 0 => .error (.raised "ValueError" "no event")
  | _ => .ok { name := "tick", source := .foreign (pure ()) (pure ()) }

/-- Offers of four factories under three identifiers, with discoveries between. -/
def fourOffers : List Move :=
  [.offer "a" 0, .discover, .offer "b" 1, .offer "a" 2, .discover, .offer "c" 3]

/-- The factory that fails is not called again, nor is the one that is refused called. -/
theorem runMoves_discover_of_four_offers :
    let m := runMoves (respond 1) (fun k => signing k (fourResults k)) (fourOffers ++ [.discover])
    m.outcome {} = .ok 1 ∧ (m.after {}).notes = #[mark 0, mark 1, mark 3] := by
  obtain ⟨-, hnotes, ho, -, -⟩ := runMoves_discover (respond 1)
    (fun k => signing k (fourResults k)) fourResults ([mark ·]) fourOffers (w := {}) rfl rfl rfl
    fun x _ => signs_signing 0 x.2 (fourResults x.2)
  have hknown : ((runMoves (respond 1) (fun k => signing k (fourResults k))
      (fourOffers ++ [.discover])).after {}).eventBooks.known.entries.length = 1 := by
    decide +kernel
  exact ⟨ho.trans (congrArg _ hknown), hnotes⟩

end Op

end ScriptHost
