import ScriptHost.Files.Tree
import ScriptHost.Picture
import ScriptHost.Request
import ScriptHost.Roster
import ScriptHost.Script.Eval
import ScriptHost.Settings.Value

/-!
# Worlds

The state of a host and of all around it, and operations on it. An operation, `Op`, ends in a value
or in a fault and leaves a world in both cases. Foreign code runs in an operation by having each of
its requests answered.
-/
namespace ScriptHost

open Files (Path)

/-- An entry of the log, with the fault it reports if it reports one. -/
structure LogEntry where
  level : LogLevel
  logger : String
  text : String
  fault : Option Fault

/-- What the host knows of an environment. -/
structure Home where
  /-- The default globals that are kept, in order. -/
  kept : List String
  /-- Whether the exposed classes of the host are exposed here too. -/
  sharesTypes : Bool
  /-- The last fault that went into a script as a value. -/
  pending : Option Fault
  /-- Where the scripts of the environment wait for the host. -/
  site : Script.Site

/-- What is connected to a signal: an event that forwards it, or an object that is called. -/
inductive Handler where
  | event (place : Nat)
  | object (place : Nat)
  deriving DecidableEq, Repr

/-- What hosts and plugins offer to scripts, by identifiers. -/
structure Catalog where
  functions : Roster FunctionFactory := {}
  events : Roster EventFactory := {}

/-- The books on events: the known ones by name, those the script listens to, and the identifiers
whose events were made. -/
structure EventBooks where
  known : Roster Nat := {}
  active : Roster Nat := {}
  discovered : List String := []

/-- The books on functions: what was installed in the latest environment and what was not. -/
structure FunctionBooks where
  installed : List String := []
  skipped : List String := []

/-- The hooks of each phase. -/
structure Hooks where
  registered : List Nat := []
  loaded : List Nat := []
  unloaded : List Nat := []

def Hooks.at (h : Hooks) : Phase → List Nat
  | .registered => h.registered
  | .loaded => h.loaded
  | .unloaded => h.unloaded

def Hooks.append (h : Hooks) (phase : Phase) (hook : Nat) : Hooks :=
  match phase with
  | .registered => { h with registered := h.registered ++ [hook] }
  | .loaded => { h with loaded := h.loaded ++ [hook] }
  | .unloaded => { h with unloaded := h.unloaded ++ [hook] }

/-- The script that is loaded, and how scripts are found and run. -/
structure Session where
  environment : Option Nat := none
  path : Option Path := none
  loaded : Bool := false
  /-- What scripts keep of the default globals. -/
  allowlist : List Settings.Value := []
  root : Option Path := none
  extension : String := ".lua"
  hooks : Hooks := {}
  listeners : List Nat := []

/-- The commands every host has. -/
inductive CoreCommand where
  | load | unload | status | events | help
  deriving DecidableEq, Repr

inductive CommandHandler where
  | core (command : CoreCommand)
  | foreign (place : Nat)
  deriving DecidableEq, Repr

structure Commands where
  /-- The word all commands begin with; none if no word can be it. -/
  lead : Option String := some "lua"
  /-- What is told everything that is no command. -/
  chat : Option Nat := none
  handlers : Roster CommandHandler := {}
  helps : Roster String := {}

/-- A plugin: the type of its object, and its name if it has one. -/
structure Plugin where
  type : String
  name : Option String

/-- What a plugin brings along, in its order. -/
inductive Contribution where
  | callable (space name : String) (ident : Option String) (function : Callable)
  | event (ident : String) (make : EventFactory)
  | exposes (cls : Class)
  | fails (fault : Fault)

/-- A plugin that can be loaded, if it can. -/
structure PluginSource where
  plugin : Plugin
  contributions : List Contribution

/-- The application around a session. -/
structure Application where
  settings : List (Settings.Value × Settings.Value) := []
  name : Datum := .none
  tick : Nat := 0
  running : Bool := false
  plugins : List Plugin := []
  /-- The folder of scripts that is watched, if it is, from the next quiet moment on. -/
  watching : Option Path := none
  /-- The changes the watch is going to see. -/
  changes : List (List (String × String)) := []
  /-- Whether the host has been told to stop after the current tick. -/
  stopping : Bool := false
  /-- Whether the loop is broken off where it next rests. -/
  cancelled : Bool := false
  /-- Whether requests from other processes find this host. -/
  reachable : Bool := false

/-- What happens in the life of a session and to the subscriptions of its scripts. -/
inductive Deed where
  /-- A load begins. The script before is unloaded by then. -/
  | load (path : Path)
  /-- The load that began last, of those in progress, ends with its script loaded. -/
  | succeed
  /-- The load that began last, of those in progress, ends undone. -/
  | fail
  /-- The load that began last, of those in progress, ends in a fault. -/
  | abort
  /-- Unloading a script begins. -/
  | unload
  /-- The session gives up its script and its environment. -/
  | vacate
  /-- A function on offer is made. -/
  | make (ident : String)
  /-- An environment becomes the one of the session. -/
  | occupy (home : Nat)
  /-- A hook is run. -/
  | hook (phase : Phase) (hook : Nat)
  /-- The text at a path begins to run in an environment. -/
  | body (home : Nat) (path : Path)
  /-- A path becomes the one of the session. -/
  | adopt (path : Path)
  /-- A script is told of a turn in its life by the global of a name, if it has one. -/
  | tell (home : Option Nat) (name : String)
  /-- The subscriptions of a script are about to end. -/
  | teardown
  /-- Scripts listen to the event of a name from now on. -/
  | listen (event : String)
  /-- Scripts listen to nothing from now on. -/
  | forget
  /-- An event has begun to come in. -/
  | attach (event : Nat)
  /-- An event is to come in no more. -/
  | detach (event : Nat)
  deriving DecidableEq, Repr

structure World where
  scripts : Script.Heap := {}
  homes : Array Home := #[]
  objects : Array Object := #[.absent]
  classes : List (Class × ClassInfo) := []
  exposed : List Class := []
  events : Array EventDescriptor := #[]
  signals : Roster (List Handler) := {}
  catalog : Catalog := {}
  eventBooks : EventBooks := {}
  functionBooks : FunctionBooks := {}
  session : Session := {}
  commands : Commands := {}
  pending : List Path := []
  available : Roster PluginSource := {}
  application : Application := {}
  files : Files.Node := .folder []
  cwd : Path := ⟨"/", []⟩
  /-- Where the host itself is installed. -/
  base : Path := ⟨"/", []⟩
  log : Array LogEntry := #[]
  notes : Array (String × List Picture) := #[]
  /-- Everything that has happened to the session, the first first. -/
  history : Array Deed := #[]

/-- An operation on a world. -/
abbrev Op := ExceptT Fault (StateM World)

/-- How requests are answered. -/
abbrev Responder := Request → Op Datum

/-- The place of the object that stands for no value. -/
def absentPlace : Nat := 0

namespace Op

variable {α : Type}

/-- Ends in a value or a fault, whatever an operation does. -/
def attempt (m : Op α) : Op (Except Fault α) :=
  ExceptT.lift (ExceptT.run m)

def log (level : LogLevel) (logger text : String) (fault : Option Fault) : Op Unit :=
  modify fun w => { w with log := w.log.push ⟨level, logger, text, fault⟩ }

def debug (logger text : String) : Op Unit := log .debug logger text none
def info (logger text : String) : Op Unit := log .info logger text none
def warning (logger text : String) : Op Unit := log .warning logger text none
def error (logger text : String) : Op Unit := log .error logger text none

/-- Enters something that happens in the history. -/
def record (d : Deed) : Op Unit :=
  modify fun w => { w with history := w.history.push d }

/-- Adds an object and gives its place. -/
def newObject (o : Object) : Op Nat :=
  modifyGet fun w => (w.objects.size, { w with objects := w.objects.push o })

def object (place : Nat) : Op Object := do
  return ((← get).objects[place]?).getD .absent

def setObject (place : Nat) (o : Object) : Op Unit :=
  modify fun w => { w with objects := w.objects.setIfInBounds place o }

/-- A new list of values. -/
def newList (items : List Datum) : Op Datum :=
  .object <$> newObject (.list items)

/-- A new list of texts. -/
def newTexts (items : List String) : Op Datum :=
  newList (items.map .text)

/-- Adds an event and gives its place. -/
def newEvent (e : EventDescriptor) : Op Nat :=
  modifyGet fun w => (w.events.size, { w with events := w.events.push e })

/-- Runs foreign code. -/
def perform (host : Responder) (p : Program α) : Op α := do
  ofExcept (← Dialogue.run (fun q => attempt (host q)) (ExceptT.run p))

end Op

end ScriptHost
