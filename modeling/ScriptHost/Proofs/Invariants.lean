import ScriptHost.Proofs.Requests

/-!
# Invariants

What holds of every world that a run comes through, whatever foreign code asks. An invariant that is
`Loose` puts up with everything that is done to signals and books; one that is `Welcoming` puts up
with new events.
-/
namespace ScriptHost

open Files (Path)

/-- Whether a deed is about an event that comes in, or is to come in no more. -/
def Deed.isTraffic : Deed → Bool
  | attach _ | detach _ => true
  | _ => false

namespace World

variable {P : World → Prop} {p : Fault → Prop}

/-- An invariant that holds whatever becomes of the session and its history. -/
structure LifeInvariant (P : World → Prop) (p : Fault → Prop := fun _ => True) : Prop
    extends Invariant P p where
  session : ∀ {w} (f : Session → Session), P w → P { w with session := f w.session }
  record : ∀ {w} {d : Deed}, d.isQuiet = false → P w →
    P { w with history := w.history.push d }

theorem LifeInvariant.lifeBond (h : LifeInvariant P p) : LifeBond (Only P) p where
  toBond := h.toInvariant.bond
  session := by
    rintro w _ f ⟨rfl, hw⟩
    exact ⟨rfl, h.session f hw⟩
  record := by
    rintro w _ d hd ⟨rfl, hw⟩
    exact ⟨rfl, h.record hd hw⟩

/-- Related worlds can only be told apart by their logs and their histories. -/
def Twins (R : World → World → Prop) : Prop :=
  ∀ {w w'}, R w w' → w' = { w with log := w'.log, history := w'.history }

theorem twins_only : Twins (Only P) := by
  rintro w _ ⟨rfl, -⟩
  rfl

/-- The books with nothing that scripts listen to. -/
def forgotten (w : World) : World :=
  { w with
    eventBooks := { w.eventBooks with active := {} }
    history := w.history.push .forget }

/-- The books with one more event that scripts listen to. -/
def heard (w : World) (name : String) (event : Nat) : World :=
  { w with
    eventBooks := { w.eventBooks with active := w.eventBooks.active.put name event }
    history := w.history.push (.listen name) }

/-- A bond that holds whatever signals there are and whenever subscriptions end. -/
structure LooseBond (R : World → World → Prop) (p : Fault → Prop := fun _ => True) : Prop
    extends LifeBond R p where
  twins : Twins R
  signals : ∀ {w w' signal hs} (hs' : Handlers), w.signals.find? signal = some hs → R w w' →
    R { w with signals := w.signals.put signal hs' }
      { w' with signals := w'.signals.put signal hs' }
  traffic : ∀ {w w'} {d : Deed}, d.isTraffic → R w w' →
    R { w with history := w.history.push d } { w' with history := w'.history.push d }
  forget : ∀ {w w'}, R w w' → R w.forgotten w'.forgotten

/-- The books with a new event in them. -/
def welcome (w : World) (d : EventDescriptor) : World :=
  { w with
    events := w.events.push d
    eventBooks := { w.eventBooks with known := w.eventBooks.known.add d.name w.events.size } }

/-- A bond that holds whatever events become known. -/
structure OpenBond (R : World → World → Prop) (p : Fault → Prop := fun _ => True) : Prop
    extends LifeBond R p where
  twins : Twins R
  discovered : ∀ {w w'} (f : List String → List String), R w w' →
    R { w with eventBooks := { w.eventBooks with discovered := f w.eventBooks.discovered } }
      { w' with eventBooks := { w'.eventBooks with discovered := f w'.eventBooks.discovered } }
  welcome : ∀ {w w'} (d : EventDescriptor), w.eventBooks.known.contains d.name = false →
    R w w' → R (w.welcome d) (w'.welcome d)

/-- A bond that holds whatever is done at all. -/
structure FreeBond (R : World → World → Prop) (p : Fault → Prop := fun _ => True) : Prop
    extends LooseBond R p, OpenBond R p, Restless R where
  listen : ∀ {w w'} (name : String) (event : Nat), R w w' →
    R (w.heard name event) (w'.heard name event)

/-- An invariant that holds whatever signals and subscriptions there are. -/
structure Loose (P : World → Prop) (p : Fault → Prop := fun _ => True) : Prop
    extends LifeInvariant P p where
  signals : ∀ {w signal hs} (hs' : Handlers), w.signals.find? signal = some hs → P w →
    P { w with signals := w.signals.put signal hs' }
  quiet : ∀ {w} {d : Deed}, d.isQuiet → P w → P { w with history := w.history.push d }
  forget : ∀ {w}, P w → P { w with eventBooks := { w.eventBooks with active := {} } }

/-- An invariant that holds whatever events become known. -/
structure Welcoming (P : World → Prop) (p : Fault → Prop := fun _ => True) : Prop
    extends LifeInvariant P p where
  discovered : ∀ {w} (idents : List String), P w →
    P { w with eventBooks := { w.eventBooks with discovered := idents } }
  welcome : ∀ {w} (d : EventDescriptor), w.eventBooks.known.contains d.name = false → P w →
    P (w.welcome d)

/-- An invariant that holds whatever is done at all. -/
structure Free (P : World → Prop) (p : Fault → Prop := fun _ => True) : Prop
    extends Loose P p, Welcoming P p, Timeless P where
  active : ∀ {w} (active : Roster Nat), P w →
    P { w with eventBooks := { w.eventBooks with active := active } }

theorem Loose.bond (h : Loose P p) : LooseBond (Only P) p where
  toLifeBond := h.lifeBond
  twins := twins_only
  signals := by
    rintro w _ signal hs hs' hf ⟨rfl, hw⟩
    exact ⟨rfl, h.signals hs' hf hw⟩
  traffic := by
    rintro w _ d hd ⟨rfl, hw⟩
    have hq : d.isQuiet = true := by cases d <;> first | rfl | cases hd
    exact ⟨rfl, h.quiet hq hw⟩
  forget := by
    rintro w _ ⟨rfl, hw⟩
    exact ⟨rfl, h.quiet (d := .forget) rfl (h.forget hw)⟩

theorem Welcoming.bond (h : Welcoming P p) : OpenBond (Only P) p where
  toLifeBond := h.lifeBond
  twins := twins_only
  discovered := by
    rintro w _ f ⟨rfl, hw⟩
    exact ⟨rfl, h.discovered _ hw⟩
  welcome := by
    rintro w _ d hd ⟨rfl, hw⟩
    exact ⟨rfl, h.welcome d hd hw⟩

theorem Free.bond (h : Free P p) : FreeBond (Only P) p where
  toLooseBond := h.toLoose.bond
  toRestless := h.toTimeless.restless
  discovered := h.toWelcoming.bond.discovered
  welcome := h.toWelcoming.bond.welcome
  listen := by
    rintro w _ name event ⟨rfl, hw⟩
    have heard := h.active (w.eventBooks.active.put name event) hw
    exact ⟨rfl, h.quiet (d := .listen name) rfl heard⟩

end World

namespace Op

open World

variable {α β : Type} {P : World → Prop} {R : World → World → Prop} {p : Fault → Prop}
  {host host' : Responder}

/-- An operation keeps an invariant just when it is alike to itself. -/
theorem alike_only_iff {m : Op α} : Alike (Only P) m m ↔ ∀ w, P w → P (m.after w) := by
  constructor
  · intro h w hw
    exact (h w w ⟨rfl, hw⟩).2.2
  · rintro h w _ ⟨rfl, hw⟩
    exact ⟨rfl, rfl, h w hw⟩

theorem alike_only_modify {f : World → World} (h : ∀ w, P w → P (f w)) :
    Alike (Only P) (modify f : Op Unit) (modify f) :=
  alike_only_iff.2 h

/-! ### Signals -/

section

variable (T : Twins R)

include T

/-- What goes on with a world may use all of it but its log and its history. -/
theorem alike_twins_get {k k' : World → Op β}
    (hk : ∀ w l ds, k' { w with log := l, history := ds } = k' w)
    (h : ∀ w, Alike R (k w) (k' w)) :
    Alike R (get >>= k) (get >>= k') := by
  intro w w' hR
  have hw : k' w' = k' w := by
    have hlog := hk w w'.log w'.history
    rwa [← T hR] at hlog
  simp only [outcome_get_bind, after_get_bind, hw]
  exact h w w w' hR

theorem alike_handlers (signal : String) : Alike R (handlers signal) (handlers signal) := by
  refine alike_twins_get T (fun _ _ _ => rfl) fun w => ?_
  split
  · exact alike_pure _
  · exact alike_throw _

theorem alike_handlers_bind {signal : String} {k k' : Handlers → Op α}
    (h : ∀ w w' hs, R w w' → w.signals.find? signal = some hs →
      (k hs).outcome w = (k' hs).outcome w' ∧ R ((k hs).after w) ((k' hs).after w')) :
    Alike R (handlers signal >>= k) (handlers signal >>= k') := by
  intro w w' hR
  have hw : w'.signals = w.signals := by rw [T hR]
  unfold handlers
  simp only [bind_assoc, outcome_get_bind, after_get_bind, hw]
  cases hs : w.signals.find? signal with
  | none => exact ⟨rfl, hR⟩
  | some hs' => exact h w w' hs' hR hs

theorem alike_emit (B : Bond R p) (hh : host.Alike R host') (signal : String) (args : List Datum) :
    Alike R (emit host signal args) (emit host' signal args) := by
  have call : ∀ h, Alike R (callHandler host args h) (callHandler host' args h) := by
    intro h
    cases h with
    | object p => exact (alike_callObject B hh _ _).discard
    | event e =>
      refine alike_twins_get T (fun _ _ _ => rfl) fun w => ?_
      split
      · exact alike_perform hh _
      · exact alike_pure _
  refine (alike_handlers T _).bind fun hs => Alike.bind ?_ fun _ => alike_pure _
  refine alike_forM (fun h => (call h).attempt.bind fun r => ?_) hs
  cases r with
  | ok _ => exact alike_pure _
  | error f => exact alike_log B _ _ _

end

/-! ### All subscriptions -/

section

variable (T : Twins R) (B : Bond R p)

include T B

/-- All subscriptions end alike once each of them does. -/
theorem alike_unsubscribeAll (hf : ∀ {w w'}, R w w' → R w.forgotten w'.forgotten)
    (hu : ∀ event, Alike R (unsubscribe host event) (unsubscribe host' event)) :
    Alike R (unsubscribeAll host) (unsubscribeAll host') := by
  have ends : ∀ count left i, Alike R (endFrom host count left i) (endFrom host' count left i) := by
    intro count left
    induction left with
    | zero => exact fun _ => alike_pure _
    | succ left ih =>
      intro i
      unfold endFrom
      refine alike_twins_get T (fun _ _ _ => rfl) fun w => ?_
      split
      · exact alike_pure _
      · refine Alike.bind ?_ fun faults => alike_twins_get T (fun _ _ _ => rfl) fun w => ?_
        · refine (hu _).attempt.bind fun r => ?_
          cases r <;> exact (alike_log B _ _ _).bind fun _ => alike_pure _
        · refine Alike.bind (.ite (alike_pure _) (alike_throw _)) fun _ => ?_
          exact (ih _).bind fun _ => alike_pure _
  have forgets : Alike R (do modifyEventBooks fun b => { b with active := {} }; record .forget)
      (do modifyEventBooks fun b => { b with active := {} }; record .forget) := by
    intro w w' h
    have forgotten := hf h
    exact ⟨rfl, forgotten⟩
  refine alike_twins_get T (fun _ _ _ => rfl) fun w => (ends _ _ _).bind fun faults => ?_
  have h := forgets.bind fun _ => alike_pure (R := R) faults
  rwa [bind_assoc] at h

/-- Scripts listen alike once events begin to come in alike. -/
theorem alike_listen (hl : ∀ {w w'} (name : String) (event : Nat), R w w' →
      R (w.heard name event) (w'.heard name event))
    (hs : ∀ event, Alike R (subscribe host event) (subscribe host' event)) (name : String) :
    Alike R (listen host name) (listen host' name) := by
  refine alike_twins_get T (fun _ _ _ => rfl) fun w => ?_
  dsimp only
  split
  · exact alike_throw _
  · rename_i event _
    refine alike_check ((hs _).attempt.bind fun r => ?_)
    cases r with
    | error f => exact alike_throw _
    | ok _ =>
      have hears : Alike R
          (do modifyEventBooks fun b => { b with active := b.active.put name event }
              record (.listen name))
          (do modifyEventBooks fun b => { b with active := b.active.put name event }
              record (.listen name)) := by
        intro w w' h
        exact ⟨rfl, hl name event h⟩
      have h := hears.bind fun _ => alike_log B .info "luahost.events"
        s!"Started listening to event '{name}'."
      rwa [bind_assoc] at h

end

/-! ### Books that nothing is said of -/

section

variable (L : LooseBond R p)

include L

theorem alike_record_traffic {d : Deed} (hd : d.isTraffic) : Alike R (record d) (record d) :=
  fun _ _ h => ⟨rfl, L.traffic hd h⟩

theorem alike_loose_connect (signal : String) (h : Handler) :
    Alike R (connect signal h) (connect signal h) := by
  refine alike_handlers_bind L.twins fun w w' hs hR hs' => ?_
  cases hc : Handlers.connect? hs h with
  | none => exact ⟨rfl, hR⟩
  | some _ => exact ⟨rfl, L.signals _ hs' hR⟩

theorem alike_loose_disconnect (signal : String) (h : Handler) :
    Alike R (disconnect signal h) (disconnect signal h) := by
  refine alike_handlers_bind L.twins fun w w' hs hR hs' => ?_
  cases hc : Handlers.disconnect? hs h with
  | none => exact ⟨rfl, hR⟩
  | some _ => exact ⟨rfl, L.signals _ hs' hR⟩

theorem alike_loose_clearHandlers (signal : String) :
    Alike R (do discard (handlers signal); setHandlers signal [])
      (do discard (handlers signal); setHandlers signal []) := by
  rw [discard_bind]
  exact alike_handlers_bind L.twins fun w w' hs hR hs' => ⟨rfl, L.signals _ hs' hR⟩

section

variable (hh : host.Alike R host')

include hh

theorem alike_loose_subscribe (event : Nat) :
    Alike R (subscribe host event) (subscribe host' event) := by
  refine alike_twins_get L.twins (fun _ _ _ => rfl) fun w => ?_
  dsimp only
  split
  · exact (alike_loose_connect L _ _).bind fun _ => alike_record_traffic L rfl
  · exact (alike_perform hh _).bind fun _ => alike_record_traffic L rfl
  · exact alike_pure _

theorem alike_loose_unsubscribe (event : Nat) :
    Alike R (unsubscribe host event) (unsubscribe host' event) := by
  refine (alike_record_traffic L rfl).bind fun _ =>
    alike_twins_get L.twins (fun _ _ _ => rfl) fun w => ?_
  split
  · exact alike_loose_disconnect L _ _
  · exact alike_perform hh _
  · exact alike_pure _

theorem alike_loose_unsubscribeAll : Alike R (unsubscribeAll host) (unsubscribeAll host') :=
  alike_unsubscribeAll L.twins L.toBond L.forget (alike_loose_unsubscribe L hh)

theorem alike_loose_answer {q : Request} (hq : q.meddles) :
    Alike R (answerRequest host q) (answerRequest host' q) := by
  cases q with
  | connect signal handler => exact (alike_loose_connect L _ _).andNone
  | disconnect signal handler => exact (alike_loose_disconnect L _ _).andNone
  | clearHandlers signal =>
    have h := (alike_loose_clearHandlers L signal).andNone
    rwa [bind_assoc] at h
  | subscribe event => exact (alike_loose_subscribe L hh _).andNone
  | unsubscribe event => exact (alike_loose_unsubscribe L hh _).andNone
  | _ => cases hq

end

end

/-! ### Known events -/

/-- Events become known whatever else is. -/
theorem alike_discover (W : OpenBond R p) (hh : host.Alike R host') :
    Alike R (discover host) (discover host') := by
  have B := W.toBond
  have say : ∀ level text, ∀ b : Bool, Alike R
      (do log level "luahost.events" text none; return b)
      (do log level "luahost.events" text none; return b) := fun level text b =>
    (alike_log B _ _ _).bind fun _ => alike_pure b
  have register : ∀ d, Alike R (registerKnown d) (registerKnown d) := by
    intro d w w' hR
    have hb : w'.eventBooks = w.eventBooks := by rw [W.twins hR]
    unfold registerKnown
    simp only [outcome_get_bind, after_get_bind, hb]
    cases hc : w.eventBooks.known.contains d.name with
    | true => exact say .debug _ false w w' hR
    | false => exact say .debug _ true _ _ (W.welcome d hc hR)
  refine alike_twins_get W.twins (fun _ _ _ => rfl) fun w => Alike.bind ?_ fun _ => alike_pure _
  refine alike_mapM (fun x => alike_twins_get W.twins (fun _ _ _ => rfl) fun w =>
    .ite (alike_pure _) ?_) _
  refine Alike.bind (fun _ _ h => ⟨rfl, W.discovered (· ++ [x.1]) h⟩) fun _ => ?_
  refine (alike_perform hh _).attempt.bind fun r => ?_
  cases r with
  | ok d => exact register d
  | error f => exact say .error _ _

/-! ### Whatever is done -/

/-- A script listens whatever it listens to then. -/
theorem alike_loose_listen (L : LooseBond R p) (hl : ∀ {w w'} (name : String) (event : Nat),
    R w w' → R (w.heard name event) (w'.heard name event)) (hh : host.Alike R host')
    (name : String) :
    Alike R (listen host name) (listen host' name) :=
  alike_listen L.twins L.toBond hl (alike_loose_subscribe L hh) name

section

variable (L : LooseBond R) (S : Restless R) (hl : ∀ {w w'} (name : String) (event : Nat), R w w' →
  R (w.heard name event) (w'.heard name event))

include L S hl

/-- Whatever is asked is answered alike if foreign code is answered alike and events become known
alike. -/
theorem alike_loose_answerRequest (hh : host.Alike R host')
    (hd : Alike R (discover host) (discover host')) (q : Request) :
    Alike R (answerRequest host q) (answerRequest host' q) := by
  have governs : Governs R host host' :=
    governs_of_attends L.toLifeBond
      { answers := hh
        listen := alike_loose_listen L hl hh
        emit := alike_emit L.twins L.toBond hh
        count := fun signal => (alike_handlers L.twins signal).bind fun _ => alike_pure _ }
      hd (alike_loose_unsubscribeAll L hh)
  exact alike_answerRequest L.toBond governs (fun _ => S) (alike_loose_answer L hh)

/-- Whatever foreign code asks is answered alike if events become known alike. -/
theorem alike_loose_respond
    (hd : ∀ n, (respond n).Alike R (respond n) →
      Alike R (discover (respond n)) (discover (respond n))) (n : Nat) :
    (respond n).Alike R (respond n) := by
  induction n with
  | zero => exact fun _ => alike_throw _
  | succ n ih => exact alike_loose_answerRequest L S hl ih (hd n ih)

end

/-- Whatever foreign code asks is answered alike for a bond that holds whatever is done. -/
theorem alike_free_respond (F : FreeBond R) (n : Nat) : (respond n).Alike R (respond n) :=
  alike_loose_respond F.toLooseBond F.toRestless F.listen (fun _ => alike_discover F.toOpenBond) n

end Op

end ScriptHost
