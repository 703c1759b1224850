import ScriptHost.Events.Signal

/-!
# Known events and subscriptions

Events become known once, by name, and stay so. The script that is loaded is subscribed to some of
them; all its subscriptions end together, whether or not each of them ends well.
-/
namespace ScriptHost

namespace Catalog

variable {α : Type}

/-- Enters a function, unless the identifier is taken. -/
def addFunction? (c : Catalog) (ident : String) (make : FunctionFactory) : Option Catalog :=
  if c.functions.contains ident then none
  else some { c with functions := c.functions.add ident make }

/-- Enters an event, unless the identifier is taken. -/
def addEvent? (c : Catalog) (ident : String) (make : EventFactory) : Option Catalog :=
  if c.events.contains ident then none else some { c with events := c.events.add ident make }

end Catalog

namespace Op

/-! ### The catalog -/

/-- Offers a function, and tells whether its identifier was free. -/
def addFunction (ident : String) (make : FunctionFactory) : Op Bool := do
  match (← get).catalog.addFunction? ident make with
  | some c =>
    modify fun w => { w with catalog := c }
    return true
  | none =>
    warning "luahost.catalog" s!"Function '{ident}' already in catalog. Skipping."
    return false

/-- Offers an event, and tells whether its identifier was free. -/
def addEvent (ident : String) (make : EventFactory) : Op Bool := do
  match (← get).catalog.addEvent? ident make with
  | some c =>
    modify fun w => { w with catalog := c }
    return true
  | none =>
    warning "luahost.catalog" s!"Event '{ident}' already in catalog. Skipping."
    return false

/-- Fails if entries that are gone through have become more or fewer meanwhile. -/
def checkCount (before now : Nat) : Op Unit :=
  if now = before then return ()
  else throw (.raised "RuntimeError" "dictionary changed size during iteration")

/-- Makes one function on offer; none if it cannot be made. -/
def createFunction (host : Responder) (ident : String) (make : FunctionFactory) :
    Op (List FunctionDescriptor) := do
  record (.make ident)
  match ← attempt (perform host make) with
  | .ok d => return [d]
  | .error _ =>
    error "luahost.catalog" s!"Failed to create function '{ident}'"
    return []

/-- Makes functions in order. No offer may join the `count` that there are. -/
def createFrom (host : Responder) (count : Nat) :
    List (String × FunctionFactory) → Op (List FunctionDescriptor)
  | [] => return []
  | (ident, make) :: rest => do
    let made ← createFunction host ident make
    checkCount count (← get).catalog.functions.entries.length
    return made ++ (← createFrom host count rest)

/-- Makes the functions on offer, in order, without those that cannot be made. -/
def createFunctions (host : Responder) : Op (List FunctionDescriptor) := do
  let offers := (← get).catalog.functions.entries
  createFrom host offers.length offers

/-! ### Known events -/

def modifyEventBooks (f : EventBooks → EventBooks) : Op Unit :=
  modify fun w => { w with eventBooks := f w.eventBooks }

/-- Makes an event known, unless one of its name is. -/
def registerKnown (d : EventDescriptor) : Op Bool := do
  if (← get).eventBooks.known.contains d.name then
    debug "luahost.events" s!"Event '{d.name}' already registered. Skipping."
    return false
  let place ← newEvent d
  modifyEventBooks fun b => { b with known := b.known.add d.name place }
  debug "luahost.events" s!"Registered event: {d.name}"
  return true

/-- Makes an event on offer and makes it known, unless that was done before. -/
def discoverOne (host : Responder) (ident : String) (make : EventFactory) : Op Bool := do
  if (← get).eventBooks.discovered.contains ident then return false
  modifyEventBooks fun b => { b with discovered := b.discovered ++ [ident] }
  match ← attempt (perform host make) with
  | .ok d => registerKnown d
  | .error _ =>
    error "luahost.events" s!"Failed to create event '{ident}'"
    return false

/-- Makes the events on offer known, and tells how many were new. -/
def discover (host : Responder) : Op Nat := do
  let news ← (← get).catalog.events.entries.mapM fun (ident, make) => discoverOne host ident make
  return news.count true

/-! ### Subscriptions -/

/-- Begins to get an event. -/
def subscribe (host : Responder) (event : Nat) : Op Unit := do
  match ((← get).events[event]?).map EventDescriptor.source with
  | some (.signal signal _ _) => connect signal (.event event)
  | some (.foreign begin_ _) => perform host begin_
  | none => return ()
  record (.attach event)

/-- Ceases to get an event. -/
def unsubscribe (host : Responder) (event : Nat) : Op Unit := do
  record (.detach event)
  match ((← get).events[event]?).map EventDescriptor.source with
  | some (.signal signal _ _) => disconnect signal (.event event)
  | some (.foreign _ end_) => perform host end_
  | none => return ()

/-- Subscribes the script to a known event. -/
def listen (host : Responder) (name : String) : Op Unit := do
  let b := (← get).eventBooks
  match b.known.find? name with
  | none => throw (.eventUnknown name)
  | some event =>
    if b.active.contains name then throw (.alreadyListening name)
    match ← attempt (subscribe host event) with
    | .error f => throw (.subscribing name f)
    | .ok _ =>
      modifyEventBooks fun b => { b with active := b.active.put name event }
      record (.listen name)
      info "luahost.events" s!"Started listening to event '{name}'."

/-- Ends one subscription, and gives the fault if it does not end well. -/
def endSubscription (host : Responder) (name : String) (event : Nat) : Op (List Fault) := do
  match ← attempt (unsubscribe host event) with
  | .ok _ =>
    debug "luahost.events" s!"Stopped listening to event '{name}'."
    return []
  | .error f =>
    warning "luahost.events" s!"Failed to stop listening to event '{name}': {f.message}"
    return [.unsubscribing name f]

/-- Ends so many subscriptions from a position on. There may not become more or fewer than the
`count` that there are. -/
def endFrom (host : Responder) (count : Nat) : Nat → Nat → Op (List Fault)
  | 0, _ => return []
  | left + 1, i => do
    match (← get).eventBooks.active.entries[i]? with
    | none => return []
    | some (name, event) =>
      let faults ← endSubscription host name event
      checkCount count (← get).eventBooks.active.entries.length
      return faults ++ (← endFrom host count left (i + 1))

/-- Ends all subscriptions in their order, and gives the faults of those that do not end well. -/
def unsubscribeAll (host : Responder) : Op (List Fault) := do
  let count := (← get).eventBooks.active.entries.length
  let faults ← endFrom host count count 0
  modifyEventBooks fun b => { b with active := {} }
  record .forget
  return faults

end Op

end ScriptHost
