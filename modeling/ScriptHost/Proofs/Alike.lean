import ScriptHost.Border.Call
import ScriptHost.Proofs.Leads
import ScriptHost.Proofs.Outcome
import ScriptHost.Values.Looks

/-!
# Operations that do alike

Two operations are alike for a relation of worlds if, from worlds that are related, they end alike
and leave related worlds. Most operations can tell of a world only what is left of it when it is
`bare`, without its events, its log and its history. So related worlds that are bare alike make no
difference to them, and a relation is kept by all of them once it is a `Bond`.
-/
namespace ScriptHost

variable {α β : Type}

/-- The same names, with nothing to tell apart under them. -/
def Roster.blank (r : Roster Nat) : Roster Nat :=
  ⟨r.entries.map fun x => (x.1, 0)⟩

@[simp] theorem Roster.names_blank (r : Roster Nat) : r.blank.names = r.names := by
  simp [names, blank]

@[simp] theorem Roster.length_blank (r : Roster Nat) : r.blank.entries.length = r.entries.length := by
  simp [blank]

@[simp] theorem Roster.contains_blank (r : Roster Nat) (name : String) :
    r.blank.contains name = r.contains name := by
  rw [Bool.eq_iff_iff, contains_iff, contains_iff, names_blank]

namespace World

/-- What is left of a world without its events, its log and its history. -/
def bare (w : World) : World :=
  { w with
    events := #[]
    signals := {}
    eventBooks := { known := w.eventBooks.known.blank, active := w.eventBooks.active.blank }
    log := #[]
    history := #[] }

/-! ### What can be told of a bare world -/

section

variable (w : World)

@[simp] theorem spellWithin_bare (n : Nat) (d : Datum) :
    w.bare.spellWithin n d = w.spellWithin n d := by
  -- All that the recursion reads of a world is there, so no induction is needed.
  delta spellWithin
  rfl

@[simp] theorem spell_bare : w.bare.spell = w.spell :=
  funext fun d => w.spellWithin_bare shownDepth d

@[simp] theorem shown_bare : w.bare.shown = w.shown := by
  funext d
  cases d with
  | object p =>
    simp only [shown, spell_bare]
    rfl
  | text s => rfl
  | _ => simp only [shown, spell_bare]

@[simp] theorem sameWithin_bare (n : Nat) (a b : Datum) :
    w.bare.sameWithin n a b = w.sameWithin n a b := by
  delta sameWithin
  rfl

@[simp] theorem same_bare : w.bare.same = w.same :=
  funext fun a => funext fun b => w.sameWithin_bare shownDepth a b

@[simp] theorem beforeWithin_bare (operator : String) (flipped : Bool) (n : Nat) (a b : Datum) :
    w.bare.beforeWithin operator flipped n a b = w.beforeWithin operator flipped n a b := by
  induction n generalizing a b with
  | zero => rfl
  | succ n ih =>
    have hf : w.bare.beforeWithin operator flipped n = w.beforeWithin operator flipped n :=
      funext fun a => funext (ih a)
    simp only [beforeWithin, hf, same_bare]
    rfl

@[simp] theorem less_bare : w.bare.less = w.less :=
  funext fun a => funext fun b => w.beforeWithin_bare "<" false shownDepth a b

@[simp] theorem greater_bare : w.bare.greater = w.greater :=
  funext fun a => funext fun b => w.beforeWithin_bare ">" true shownDepth b a

@[simp] theorem lookWithin_bare (n level : Nat) (d : Datum) :
    w.bare.lookWithin n level d = w.lookWithin n level d := by
  delta lookWithin
  rfl

@[simp] theorem look_bare : w.bare.look = w.look :=
  funext fun d => w.lookWithin_bare Picture.valueDepth 0 d

@[simp] theorem names_active_bare :
    w.bare.eventBooks.active.names = w.eventBooks.active.names :=
  Roster.names_blank _

@[simp] theorem contains_active_bare :
    w.bare.eventBooks.active.contains = w.eventBooks.active.contains :=
  funext fun name => Roster.contains_blank _ name

@[simp] theorem names_known_bare : w.bare.eventBooks.known.names = w.eventBooks.known.names :=
  Roster.names_blank _

@[simp] theorem length_known_bare :
    w.bare.eventBooks.known.entries.length = w.eventBooks.known.entries.length :=
  Roster.length_blank _

end

end World

namespace Op

open World

@[simp] theorem checkHashable_bare (w : World) (n : Nat) (d : Datum) :
    checkHashable w.bare n d = checkHashable w n d := by
  delta checkHashable
  rfl

@[simp] theorem item_bare (w : World) (o : Object) (key : Datum) :
    item w.bare o key = item w o key := by
  cases o with
  | dict entries =>
    simp only [item, checkHashable_bare, same_bare, spell_bare]
  | _ => rfl

@[simp] theorem withItem_bare (w : World) (o : Object) (key value : Datum) :
    withItem w.bare o key value = withItem w o key value := by
  cases o with
  | dict entries => simp only [withItem, checkHashable_bare, same_bare]
  | _ => rfl

end Op

/-! ### Relations of worlds -/

namespace World

/-- More classes are exposed, each of them once if each was. -/
structure Exposes (w w' : World) : Prop where
  exposed : w.exposed <+: w'.exposed
  once : w.exposed.Nodup → w'.exposed.Nodup

theorem Exposes.of_eq {w w' : World} (h : w'.exposed = w.exposed) : Exposes w w' :=
  ⟨h ▸ List.prefix_rfl, h ▸ id⟩

theorem Exposes.trans {w w' w'' : World} (h : Exposes w w') (h' : Exposes w' w'') : Exposes w w'' :=
  ⟨h.exposed.trans h'.exposed, h'.once ∘ h.once⟩

/-- Nothing changes in the session, in events or in the log, but for what gets longer, and no time
passes. -/
structure Apart (w w' : World) : Prop extends Still w w' where
  clock : w'.application.tick = w.application.tick := by rfl
  queue : w'.pending = w.pending := by rfl
  places : w'.events = w.events := by rfl
  books : w'.eventBooks = w.eventBooks := by rfl
  log : w'.log = w.log := by rfl
  offers : w.catalog.events.entries <+: w'.catalog.events.entries := by exact List.prefix_rfl
  exposes : Exposes w w' := by exact .of_eq rfl

/-- What no script listens to, no session holds and no log has may change. -/
theorem apart_outside (w : World) {scripts objects classes functionBooks commands available files
    cwd base notes} :
    Apart w { w with
      scripts := scripts
      objects := objects
      classes := classes
      functionBooks := functionBooks
      commands := commands
      available := available
      files := files
      cwd := cwd
      base := base
      notes := notes } where

/-- A class is exposed that was not. -/
theorem apart_expose {w : World} {cls : Class} (h : cls ∉ w.exposed) :
    Apart w { w with exposed := w.exposed ++ [cls] } where
  exposes := ⟨List.prefix_append _ _, fun hw => List.nodup_append.mpr
    ⟨hw, by simp, by simpa using fun x hx => ne_of_mem_of_not_mem hx h⟩⟩

/-- The application changes while its clock stands still. -/
theorem apart_application (w : World) {application : Application}
    (h : application.tick = w.application.tick) : Apart w { w with application := application } where
  clock := h

/-- Environments are opened, and those that are open change. -/
theorem apart_homes (w : World) {homes : Array Home} (h : w.homes.size ≤ homes.size) :
    Apart w { w with homes := homes } where
  homes := h

/-- Worlds that are bare alike are the same if events, log and history are. -/
theorem eq_of_bare {w w' : World} (h : w.bare = w'.bare) (he : w.events = w'.events)
    (hb : w.eventBooks = w'.eventBooks) (hs : w.signals = w'.signals) (hl : w.log = w'.log)
    (hh : w.history = w'.history) : w = w' := by
  cases w
  cases w'
  simp only [bare, mk.injEq] at h
  simp_all

/-- A relation of worlds that is kept by everything that is apart from events, as long as only
faults of a kind are reported. -/
structure Bond (R : World → World → Prop) (p : Fault → Prop := fun _ => True) : Prop where
  bare : ∀ {w w'}, R w w' → w.bare = w'.bare
  apart : ∀ {w w' v v'}, R w w' → Apart w v → Apart w' v' → v.bare = v'.bare → R v v'
  log : ∀ {w w'} (e : LogEntry), (∀ f, e.fault = some f → p f) → R w w' →
    R { w with log := w.log.push e } { w' with log := w'.log.push e }

/-- A relation of worlds that time makes no difference to: the clock goes on, and files wait to be
reloaded or wait no more. -/
structure Restless (R : World → World → Prop) : Prop where
  clock : ∀ {w w'} (f : Application → Application), R w w' →
    R { w with application := f w.application } { w' with application := f w'.application }
  queue : ∀ {w w'} (f : List Files.Path → List Files.Path), R w w' →
    R { w with pending := f w.pending } { w' with pending := f w'.pending }

/-- The same world twice, of which something holds. -/
def Only (P : World → Prop) (w w' : World) : Prop :=
  w = w' ∧ P w

/-- What holds of a world whatever is done that is apart from events, as long as only faults of a
kind are reported. -/
structure Invariant (P : World → Prop) (p : Fault → Prop := fun _ => True) : Prop where
  apart : ∀ {w v}, P w → Apart w v → P v
  log : ∀ {w} (e : LogEntry), (∀ f, e.fault = some f → p f) → P w →
    P { w with log := w.log.push e }

/-- What holds of a world whatever time it is. -/
structure Timeless (P : World → Prop) : Prop where
  clock : ∀ {w} (f : Application → Application), P w → P { w with application := f w.application }
  queue : ∀ {w} (f : List Files.Path → List Files.Path), P w → P { w with pending := f w.pending }

theorem Timeless.restless {P : World → Prop} (h : Timeless P) : Restless (Only P) where
  clock := by
    rintro w _ f ⟨rfl, hw⟩
    exact ⟨rfl, h.clock f hw⟩
  queue := by
    rintro w _ f ⟨rfl, hw⟩
    exact ⟨rfl, h.queue f hw⟩

theorem Invariant.bond {P : World → Prop} {p : Fault → Prop} (h : Invariant P p) :
    Bond (Only P) p where
  bare hw := hw.1 ▸ rfl
  apart := by
    rintro w _ v v' ⟨rfl, hw⟩ hv hv' hb
    have he : v = v' := eq_of_bare hb (hv.places.trans hv'.places.symm)
      (hv.books.trans hv'.books.symm) (hv.signals.trans hv'.signals.symm)
      (hv.log.trans hv'.log.symm) (hv.history.trans hv'.history.symm)
    exact ⟨he, h.apart hw hv⟩
  log := by
    rintro w _ e he ⟨rfl, hw⟩
    exact ⟨rfl, h.log e he hw⟩

end World

/-! ### Operations -/

/-- From worlds that are related in one way, two operations end alike and leave worlds that are
related in another. -/
def Op.Carries (R S : World → World → Prop) (m m' : Op α) : Prop :=
  ∀ w w', R w w' → m.outcome w = m'.outcome w' ∧ S (m.after w) (m'.after w')

/-- Two operations end alike and leave related worlds. -/
def Op.Alike (R : World → World → Prop) (m m' : Op α) : Prop :=
  Op.Carries R R m m'

/-- Two hosts answer alike, whatever is asked. -/
def Responder.Alike (R : World → World → Prop) (host host' : Responder) : Prop :=
  ∀ q, Op.Alike R (host q) (host' q)

namespace Op

open World

section

variable {R S : World → World → Prop}

theorem alike_pure (a : α) : Alike R (pure a) (pure a) :=
  fun _ _ h => ⟨rfl, h⟩

theorem alike_throw (f : Fault) : Alike R (throw f : Op α) (throw f) :=
  fun _ _ h => ⟨rfl, h⟩

theorem alike_ofExcept (x : Except Fault α) : Alike R (ofExcept x : Op α) (ofExcept x) :=
  fun _ _ h => ⟨by simp, by simpa using h⟩

/-- What goes on after something that ends in a value may need that it does. -/
theorem Carries.bind_of_ok {m m' : Op α} {k k' : α → Op β} (hm : Carries R S m m')
    (hk : ∀ a w, m.outcome w = .ok a → Alike S (k a) (k' a)) :
    Carries R S (m >>= k) (m' >>= k') := by
  intro w w' h
  obtain ⟨ho, ha⟩ := hm w w' h
  cases hr : m.outcome w with
  | error f =>
    rw [hr] at ho
    rw [outcome_bind_of_error hr, after_bind_of_error hr, outcome_bind_of_error ho.symm,
      after_bind_of_error ho.symm]
    exact ⟨rfl, ha⟩
  | ok a =>
    rw [hr] at ho
    rw [outcome_bind_of_ok hr, after_bind_of_ok hr, outcome_bind_of_ok ho.symm,
      after_bind_of_ok ho.symm]
    exact hk a w hr _ _ ha

theorem Carries.bind {m m' : Op α} {k k' : α → Op β} (hm : Carries R S m m')
    (hk : ∀ a, Alike S (k a) (k' a)) : Carries R S (m >>= k) (m' >>= k') :=
  hm.bind_of_ok fun a _ _ => hk a

/-- What goes on after something that cannot fail may need what only that brings about. -/
theorem Carries.bind_of_ends {T : World → World → Prop} {m m' : Op α} {k k' : α → Op β}
    (hm : Carries R S m m') (he : ∀ w, m.Ends w) (hk : ∀ a, Carries S T (k a) (k' a)) :
    Carries R T (m >>= k) (m' >>= k') := by
  intro w w' h
  obtain ⟨ho, ha⟩ := hm w w' h
  obtain ⟨a, hr⟩ := ends_iff.1 (he w)
  rw [outcome_bind_of_ok hr, after_bind_of_ok hr, outcome_bind_of_ok (ho.symm.trans hr),
    after_bind_of_ok (ho.symm.trans hr)]
  exact hk a _ _ ha

theorem Alike.bind_of_ok {m m' : Op α} {k k' : α → Op β} (hm : Alike R m m')
    (hk : ∀ a w, m.outcome w = .ok a → Alike R (k a) (k' a)) : Alike R (m >>= k) (m' >>= k') :=
  Carries.bind_of_ok hm hk

theorem Alike.bind {m m' : Op α} {k k' : α → Op β} (hm : Alike R m m')
    (hk : ∀ a, Alike R (k a) (k' a)) : Alike R (m >>= k) (m' >>= k') :=
  Carries.bind hm hk

theorem Alike.map {m m' : Op α} (hm : Alike R m m') (f : α → β) :
    Alike R (f <$> m) (f <$> m') := by
  rw [map_eq_pure_bind, map_eq_pure_bind]
  exact hm.bind fun a => alike_pure (f a)

theorem Alike.discard {m m' : Op α} (hm : Alike R m m') :
    Alike R (Functor.discard m) (Functor.discard m') :=
  hm.map fun _ => PUnit.unit

theorem Carries.attempt {m m' : Op α} (hm : Carries R S m m') :
    Carries R S (Op.attempt m) (Op.attempt m') :=
  fun w w' h => ⟨by simp [(hm w w' h).1], (hm w w' h).2⟩

theorem Alike.attempt {m m' : Op α} (hm : Alike R m m') :
    Alike R (Op.attempt m) (Op.attempt m') :=
  Carries.attempt hm

theorem Alike.ite {c : Prop} [Decidable c] {m m' k k' : Op α} (hm : Alike R m m')
    (hk : Alike R k k') : Alike R (if c then m else k) (if c then m' else k') := by
  split
  · exact hm
  · exact hk

/-- A check that may fail, and what comes after it. -/
theorem alike_check {c : Prop} [Decidable c] {f : Fault} {k k' : PUnit → Op α}
    (hk : Alike R (k ⟨⟩) (k' ⟨⟩)) :
    Alike R (if c then throw f >>= k else k ⟨⟩) (if c then throw f >>= k' else k' ⟨⟩) :=
  .ite ((alike_throw f).bind fun _ => hk) hk

theorem alike_forM {f f' : α → Op PUnit} (hf : ∀ a, Alike R (f a) (f' a)) (xs : List α) :
    Alike R (xs.forM f) (xs.forM f') := by
  induction xs with
  | nil => exact alike_pure _
  | cons a xs ih => exact (hf a).bind fun _ => ih

theorem alike_mapM {f f' : α → Op β} (hf : ∀ a, Alike R (f a) (f' a)) (xs : List α) :
    Alike R (xs.mapM f) (xs.mapM f') := by
  induction xs with
  | nil => exact alike_pure _
  | cons a xs ih =>
    rw [List.mapM_cons, List.mapM_cons]
    exact (hf a).bind fun _ => ih.bind fun _ => alike_pure _

/-- A dialogue makes no difference between answers that are alike. -/
theorem alike_run {Q A : Type} {answer answer' : Q → Op A}
    (ha : ∀ q, Alike R (answer q) (answer' q)) (d : Dialogue Q A α) :
    Alike R (d.run answer) (d.run answer') := by
  induction d with
  | done a => exact alike_pure a
  | ask q k ih => exact (ha q).bind ih

theorem alike_perform {host host' : Responder} (hh : host.Alike R host') (p : Program α) :
    Alike R (perform host p) (perform host' p) :=
  (alike_run (fun q => (hh q).attempt) _).bind alike_ofExcept

end

/-! ### Operations that keep track of something -/

/-- An operation that keeps track of something is alike to itself, whatever it has kept so far. -/
def AlikeFrom {σ : Type} (R : World → World → Prop) (m : StateT σ Op α) : Prop :=
  ∀ s, Alike R (m.run s) (m.run s)

section

variable {R : World → World → Prop} {σ : Type} {m : StateT σ Op α} {k : α → StateT σ Op β}

theorem alikeFrom_pure (a : α) : AlikeFrom R (pure a : StateT σ Op α) :=
  fun s => alike_pure (a, s)

theorem alikeFrom_get : AlikeFrom R (get : StateT σ Op σ) :=
  fun s => alike_pure (s, s)

theorem alikeFrom_modify (f : σ → σ) : AlikeFrom R (modify f : StateT σ Op PUnit) :=
  fun s => alike_pure (PUnit.unit, f s)

theorem alikeFrom_lift {m : Op α} (hm : Alike R m m) :
    AlikeFrom R (monadLift m : StateT σ Op α) :=
  fun s => hm.bind fun a => alike_pure (a, s)

theorem AlikeFrom.bind (hm : AlikeFrom R m) (hk : ∀ a, AlikeFrom R (k a)) :
    AlikeFrom R (m >>= k) :=
  fun s => (hm s).bind fun x => hk x.1 x.2

theorem alikeFrom_forIn {γ : Type} {f : α → γ → StateT σ Op (ForInStep γ)}
    (hf : ∀ a c, AlikeFrom R (f a c)) (xs : List α) (c : γ) : AlikeFrom R (forIn xs c f) := by
  induction xs generalizing c with
  | nil => exact alikeFrom_pure c
  | cons a xs ih =>
    rw [List.forIn_cons]
    refine (hf a c).bind fun r => ?_
    cases r with
    | done c => exact alikeFrom_pure c
    | yield c => exact ih c

end

/-! ### Elementary operations -/

section

variable {R : World → World → Prop} {p : Fault → Prop} (B : Bond R p)

include B

/-- What goes on with a world may use all of it that is left when it is bare. -/
theorem alike_get {k k' : World → Op β} (hk : ∀ w, k' w.bare = k' w)
    (h : ∀ w, Alike R (k w) (k' w)) : Alike R (get >>= k) (get >>= k') := by
  intro w w' hR
  simp only [outcome_get_bind, after_get_bind]
  have hw : k' w = k' w' := by rw [← hk w, B.bare hR, hk w']
  exact hw ▸ h w w w' hR

theorem alike_modify {f : World → World} (hf : ∀ w, (f w).bare = f w.bare)
    (ha : ∀ w, Apart w (f w)) : Alike R (modify f : Op Unit) (modify f) := by
  intro w w' h
  refine ⟨rfl, B.apart h (ha w) (ha w') ?_⟩
  change (f w).bare = (f w').bare
  rw [hf, hf, B.bare h]

theorem alike_modifyGet {f : World → α × World} (hv : ∀ w, (f w.bare).1 = (f w).1)
    (hf : ∀ w, (f w).2.bare = (f w.bare).2) (ha : ∀ w, Apart w (f w).2) :
    Alike R (modifyGet f : Op α) (modifyGet f) := by
  intro w w' h
  refine ⟨?_, B.apart h (ha w) (ha w') ?_⟩
  · simp only [outcome_modifyGet]
    rw [← hv w, B.bare h, hv]
  · change (f w).2.bare = (f w').2.bare
    rw [hf, hf, B.bare h]

theorem alike_log_fault (level : LogLevel) (logger text : String) (fault : Option Fault)
    (hf : ∀ f, fault = some f → p f) :
    Alike R (log level logger text fault) (log level logger text fault) :=
  fun _ _ h => ⟨rfl, B.log _ hf h⟩

theorem alike_log (level : LogLevel) (logger text : String) :
    Alike R (log level logger text none) (log level logger text none) :=
  alike_log_fault B level logger text none nofun

theorem alike_newObject (o : Object) : Alike R (newObject o) (newObject o) :=
  alike_modifyGet B (fun _ => rfl) (fun _ => rfl) fun w => w.apart_outside

theorem alike_object (place : Nat) : Alike R (object place) (object place) :=
  alike_get B (fun _ => rfl) fun _ => alike_pure _

theorem alike_setObject (place : Nat) (o : Object) :
    Alike R (setObject place o) (setObject place o) :=
  alike_modify B (fun _ => rfl) fun w => w.apart_outside

theorem alike_newList (items : List Datum) : Alike R (newList items) (newList items) :=
  (alike_newObject B _).map _

theorem alike_newTexts (items : List String) : Alike R (newTexts items) (newTexts items) :=
  alike_newList B _

end

end Op

end ScriptHost
