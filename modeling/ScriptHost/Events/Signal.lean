import ScriptHost.Border.Call

/-!
# Signals

A signal keeps handlers in the order they were connected, none twice. Emitting calls those that are
connected at that moment, each once; what they do to the signal meanwhile makes no difference to
that, and neither does one that fails.
-/
namespace ScriptHost

/-- The handlers of a signal. -/
abbrev Handlers := List Handler

namespace Handlers

/-- Adds a handler at the end, unless it is connected. -/
def connect? (hs : Handlers) (h : Handler) : Option Handlers :=
  if h ∈ hs then none else some (hs ++ [h])

/-- Takes a handler away, if it is connected. -/
def disconnect? (hs : Handlers) (h : Handler) : Option Handlers :=
  if h ∈ hs then some (hs.erase h) else none

theorem connect?_eq_none_iff {hs : Handlers} {h : Handler} : hs.connect? h = none ↔ h ∈ hs := by
  simp [connect?]

theorem disconnect?_eq_none_iff {hs : Handlers} {h : Handler} :
    hs.disconnect? h = none ↔ h ∉ hs := by
  simp [disconnect?]

theorem nodup_connect? {hs hs' : Handlers} {h : Handler} (hd : hs.Nodup)
    (e : hs.connect? h = some hs') : hs'.Nodup := by
  simp only [connect?, Option.ite_none_left_eq_some, Option.some.injEq] at e
  obtain ⟨hn, rfl⟩ := e
  rw [List.nodup_append]
  refine ⟨hd, by simp, ?_⟩
  intro a ha b hb hab
  simp only [List.mem_singleton] at hb
  exact hn (hb ▸ hab ▸ ha)

theorem nodup_disconnect? {hs hs' : Handlers} {h : Handler} (hd : hs.Nodup)
    (e : hs.disconnect? h = some hs') : hs'.Nodup := by
  simp only [disconnect?, Option.ite_none_right_eq_some, Option.some.injEq] at e
  obtain ⟨_, rfl⟩ := e
  exact hd.erase h

end Handlers

namespace Op

/-- The handlers of a signal; there has to be one of the name. -/
def handlers (signal : String) : Op Handlers := do
  match (← get).signals.find? signal with
  | some hs => return hs
  | none => throw (.keyMissing (Text.quote signal))

def setHandlers (signal : String) (hs : Handlers) : Op Unit :=
  modify fun w => { w with signals := w.signals.put signal hs }

def connect (signal : String) (h : Handler) : Op Unit := do
  match (← handlers signal).connect? h with
  | some hs => setHandlers signal hs
  | none => throw (.handlerPresent signal)

def disconnect (signal : String) (h : Handler) : Op Unit := do
  match (← handlers signal).disconnect? h with
  | some hs => setHandlers signal hs
  | none => throw (.handlerAbsent signal)

/-- Calls a handler: an event hands the arguments on to its callback. -/
def callHandler (host : Responder) (args : List Datum) : Handler → Op Unit
  | .object p => discard (callObject host p args)
  | .event e => do
    match ((← get).events[e]?).map EventDescriptor.source with
    | some (.signal _ callback deliver) => perform host (deliver callback args)
    | _ => return ()

/-- Calls handlers one after the other, and logs those that fail. -/
def callHandlers (host : Responder) (signal : String) (args : List Datum) (hs : Handlers) :
    Op Unit :=
  hs.forM fun h => do
    match ← attempt (callHandler host args h) with
    | .ok _ => return ()
    | .error f => error "luahost.descriptors" s!"Signal '{signal}' handler error: {f.message}"

/-- Calls all handlers of a signal, and tells how many there were. -/
def emit (host : Responder) (signal : String) (args : List Datum) : Op Nat := do
  let hs ← handlers signal
  callHandlers host signal args hs
  return hs.length

end Op

end ScriptHost
