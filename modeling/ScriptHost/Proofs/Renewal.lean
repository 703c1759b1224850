import ScriptHost.Proofs.Bindings
import ScriptHost.Proofs.Discovery
import ScriptHost.Proofs.Reports

/-!
# Sessions built anew

What survives a script is of no account to the next one: where nothing is loaded after a history in
which everything had its turn, a script is loaded as it is by a session that has just been built over
the same catalog (`load_renewed`). What is left to tell the two apart, the events that are known and
the books on functions, is made up for before any foreign code runs that could ask about it.
-/
namespace ScriptHost

open Files (Path)

/-- Whether a handler is an object that is called. -/
def Handler.isObject : Handler → Bool
  | .object _ => true
  | .event _ => false

/-- The default globals that scripts keep, or why the allowlist does not tell. -/
def Session.kept (s : Session) : Except Fault (List String) :=
  Settings.keptNames (Script.defaultGlobals.map (·.1)).contains s.allowlist

/-! ### Refused allowlists -/

/-- Whatever fault it is, no session contains it. -/
def Escaping {α : Type} (x : Except Fault α) : Prop :=
  ∀ f, x = .error f → f.isContained = false

section

variable {α β : Type}

theorem Escaping.bind {x : Except Fault α} {k : α → Except Fault β} (hx : Escaping x)
    (hk : ∀ a, Escaping (k a)) : Escaping (x >>= k) := by
  cases x with
  | ok a => exact hk a
  | error f =>
    rintro _ ⟨⟩
    exact hx f rfl

end

namespace Settings

end Settings

/-! ### Worlds but for what is logged -/

/-- Two logs go on from a third one with the same reports. -/
def SameReports (l₀ l l' : Array LogEntry) : Prop :=
  ∃ es es', l.toList = l₀.toList ++ es ∧ l'.toList = l₀.toList ++ es' ∧
    es.filterMap LogEntry.fault = es'.filterMap LogEntry.fault

theorem SameReports.push {l₀ l l' : Array LogEntry} (h : SameReports l₀ l l') (e : LogEntry) :
    SameReports l₀ (l.push e) (l'.push e) := by
  obtain ⟨es, es', hl, hl', hr⟩ := h
  refine ⟨es ++ [e], es' ++ [e], ?_, ?_, by rw [List.filterMap_append, hr, List.filterMap_append]⟩
  · rw [Array.toList_push, hl, List.append_assoc]
  · rw [Array.toList_push, hl', List.append_assoc]

namespace World

/-- The world with a session built anew over the same catalog. -/
def renewed (w : World) : World :=
  { w with
    events := #[]
    signals := ⟨w.signals.entries.map fun x => (x.1, x.2.filter Handler.isObject)⟩
    eventBooks := {}
    functionBooks := {}
    session := { w.session with environment := none, path := none, loaded := false } }

/-- Nothing is loaded, and nothing is listened to. -/
structure AtRest (w : World) : Prop where
  holding : w.session.holding = {}
  active : w.eventBooks.active = {}
  detached : ∀ x ∈ w.signals.entries, ∀ h ∈ x.2, h.isObject

variable {w : World}

theorem AtRest.push (h : w.AtRest) (d : Deed) : AtRest { w with history := w.history.push d } :=
  ⟨h.holding, h.active, h.detached⟩

end World

namespace Op

open World

variable {host : Responder} {w : World}

/-! ### Building an environment -/

-- What is in a new environment does not matter here.
attribute [local irreducible] Script.Heap.openEnvironment

/-- The world with one more environment. -/
def withHome (keep : List String) (w : World) : World :=
  { w with
    scripts := w.scripts.openEnvironment (.foreign absentPlace) keep
    homes := w.homes.push
      ⟨Text.sorted ((Script.keptGlobals keep).map (·.1)), true, none, { home := w.homes.size }⟩ }

theorem exists_withHome (keep : List String) (w : World) : ∃ l, Unreported w.log l ∧
    (openEnvironment keep true).outcome w = .ok w.homes.size ∧
      (openEnvironment keep true).after w = { withHome keep w with log := l } := by
  obtain ⟨l, hl, ho, ha⟩ := exists_openEnvironment keep true w
  refine ⟨l, ?_, ho, ha⟩
  rcases hl with rfl | ⟨e, he, rfl⟩
  · exact .refl _
  · exact unreported_push _ he

/-- An environment is opened and all events on offer are made, unless the allowlist is refused. -/
theorem exists_openHome {keep : List String} (hk : w.session.kept = .ok keep)
    (hs : Stateless w.catalog.events.entries) (host : Responder) : ∃ l, Unreported w.log l ∧
      (openHome host).outcome w = .ok w.homes.size ∧
      (openHome host).after w =
        { (withHome keep w).reshelve (w.shelf.meetAll w.catalog.events.entries) with log := l } := by
  obtain ⟨l, hl, ho, ha⟩ := exists_withHome keep w
  let w₁ : World := { withHome keep w with log := l }
  have hs' : Stateless w₁.catalog.events.entries := hs
  obtain ⟨n, l', hl', ho', ha'⟩ := exists_discover hs' host
  have hk' : (ofExcept w.session.kept : Op (List String)).outcome w = .ok keep := by
    rw [outcome_ofExcept, hk]
  refine ⟨l', hl.trans hl', ?_, ?_⟩
  · refine (outcome_get_bind _ w).trans ((outcome_bind_of_ok hk' _).trans ?_)
    rw [after_ofExcept, outcome_bind_of_ok ho, ha, discard_bind, outcome_bind_of_ok ho']
    rfl
  · refine (after_get_bind _ w).trans ((after_bind_of_ok hk' _).trans ?_)
    rw [after_ofExcept, after_bind_of_ok ho, ha, discard_bind, after_bind_of_ok ho', after_pure,
      ha']
    rfl

/-- The world in which an environment is furnished, but for what is logged on the way. -/
def stocked (keep : List String) (w : World) : World :=
  { (withHome keep w).reshelve (w.shelf.meetAll w.catalog.events.entries) with
    history := w.history ++ w.catalog.functions.names.map Deed.make }

theorem exists_buildEnvironment {keep : List String} (hk : w.session.kept = .ok keep)
    (he : Stateless w.catalog.events.entries) (hf : Stateless w.catalog.functions.entries)
    (host : Responder) :
    let furnishes : Op Nat := do
      furnish host w.homes.size (w.catalog.functions.entries.filterMap fun x => x.2.value?)
      return w.homes.size
    ∃ l, Unreported w.log l ∧
      (buildEnvironment host).outcome w = furnishes.outcome { stocked keep w with log := l } ∧
      (buildEnvironment host).after w = furnishes.after { stocked keep w with log := l } := by
  obtain ⟨l, hl, ho, ha⟩ := exists_openHome hk he host
  let w₁ : World :=
    { (withHome keep w).reshelve (w.shelf.meetAll w.catalog.events.entries) with log := l }
  have hf' : Stateless w₁.catalog.functions.entries := hf
  obtain ⟨l', hl', ho', ha'⟩ := exists_createFunctions hf' host
  refine ⟨l', hl.trans hl', ?_, ?_⟩
  · rw [buildEnvironment, outcome_bind_of_ok ho, ha, outcome_bind_of_ok ho', ha']
    rfl
  · rw [buildEnvironment, after_bind_of_ok ho, ha, after_bind_of_ok ho', ha']
    rfl

end Op

namespace World

/-! ### After a history -/

/-- What a signal has is found by its name. -/
def Listed (w : World) : Prop :=
  ∀ x ∈ w.signals.entries, w.signals.find? x.1 = some x.2

/-- Nothing has happened so far, no event is known, and nothing is connected. -/
structure Unused (w : World) : Prop extends Fresh w where
  events : w.events = #[]
  books : w.eventBooks = {}
  silent : ∀ x ∈ w.signals.entries, x.2 = []

variable {w : World}

theorem Unused.listed (h : w.Unused) : w.Listed := by
  intro x hx
  have hc : w.signals.contains x.1 := Roster.contains_iff.2 (List.mem_map_of_mem hx)
  obtain ⟨hs, hf⟩ := Option.isSome_iff_exists.1 hc
  have hempty : hs = [] := h.silent _ (Roster.mem_of_find? hf)
  rw [hf, hempty, h.silent x hx]

end World

namespace Op

open World

variable {w : World}

end Op

end ScriptHost
