import ScriptHost.Dialogue
import ScriptHost.Fault
import ScriptHost.Script.Value

/-!
# Host values and requests

The values a host works with, its objects, and everything that foreign code may ask of it. Foreign
code, which is host functions, factories, hooks, listeners and the like, is a `Program`: a dialogue
of requests that ends in a value or a fault. So a statement about all programs is a statement about
all that hosts and plugins can bring along.
-/
namespace ScriptHost

open Number (Binary64)

/-- A value of the host. Objects are known by their place. -/
inductive Datum where
  | none
  | bool (value : Bool)
  | int (value : Int)
  | float (value : Binary64)
  | text (value : String)
  | object (place : Nat)
  /-- A table, function or thread of a script, in its environment. -/
  | script (home : Nat) (value : Script.Value)
  deriving DecidableEq, Repr, Inhabited

/-- A class of objects. -/
structure Class where
  module : String
  name : String
  deriving DecidableEq, Repr

/-- The name of a class as the log has it. -/
def Class.qualified (c : Class) : String :=
  c.module ++ "." ++ c.name

inductive LogLevel where
  | debug | info | warning | error
  deriving DecidableEq, Repr

namespace LogLevel

def name : LogLevel → String
  | debug => "DEBUG"
  | info => "INFO"
  | warning => "WARNING"
  | error => "ERROR"

/-- All levels, the least urgent first. -/
def all : List LogLevel := [debug, info, warning, error]

/-- The levels at least as urgent as the one of a name. -/
def atLeast (least : String) : List LogLevel :=
  all.dropWhile (·.name ≠ least)

end LogLevel

/-- When lifecycle hooks run. -/
inductive Phase where
  /-- In a new environment, before the script. -/
  | registered
  | loaded
  | unloaded
  deriving DecidableEq, Repr

/-- Operators of the host on its values. -/
inductive Operation where
  | add | sub | mul
  /-- A value brought between two bounds. -/
  | clamp
  deriving DecidableEq, Repr

/-- What the surface for other processes offers. -/
inductive Endpoint where
  | status
  | load (name path : Option String)
  | unload
  | command (text author : String)
  | catalog
  deriving DecidableEq, Repr

/-- Everything foreign code may ask of the host. -/
inductive Request where
  /-- Keep items on a sheet, for those who watch from outside. -/
  | note (sheet : String) (items : List Datum)
  | log (level : LogLevel) (logger text : String)
  | load (path : Datum)
  | unload
  | find (name : String)
  | tryLoad (name : String)
  | loaded
  | listenTo (args : List Datum)
  | callFunction (name : Datum) (args : List Datum)
  | emit (signal : String) (args : List Datum)
  | connect (signal : String) (handler : Nat)
  | disconnect (signal : String) (handler : Nat)
  | handlerCount (signal : String)
  /-- Take all handlers from a signal. -/
  | clearHandlers (signal : String)
  | global (name : String)
  | globals (names : List String)
  | globalNames
  /-- Give a global of an environment, an object of the host, a value. -/
  | setGlobal (environment : Datum) (name : String) (value : Datum)
  | books
  | discover
  | addFunction (ident : String) (entry : Nat)
  /-- Offer a function under its name, or under another identifier. -/
  | addCallable (space name : String) (ident : Option String) (function : Datum)
  | addEvent (ident : String) (entry : Nat)
  | registerType (cls : Class)
  /-- The classes that are exposed. -/
  | types
  | isActive (event : String)
  | subscribe (event : Nat)
  | unsubscribe (event : Nat)
  | unsubscribeAll
  | addHook (phase : Phase) (hook : Nat)
  /-- Put a listener in front of all others. -/
  | addListener (listener : Nat)
  | command (text author : String)
  | registerCommand (name help : String) (handler : Nat)
  | queue (path : String)
  | applyPending
  | pending
  | watch (batches : List (List (String × String))) (extension : String)
  | write (path : String) (content : Text.Bytes)
  | delete (path : String)
  | makeDirectory (path : String)
  | boot
  /-- Let the watch see its changes, if there is one. -/
  | seeChanges
  | shutDown
  /-- Live from the first moment to the last. -/
  | live
  /-- Tick until someone says to stop. -/
  | loop
  | tick (times : Nat)
  | tickCount
  | hostName
  | post (author : Datum) (text : String)
  | settings
  /-- Stop after the current tick. -/
  | stop
  /-- Stop now. -/
  | halt
  /-- Break the loop off where it next rests. -/
  | cancel
  /-- Let the requests of other processes find this host, or not. -/
  | reach (found : Bool)
  | endpoint (e : Endpoint)
  /-- Another value just like one, with other objects in all its parts. -/
  | copy (value : Datum)
  | create (cls : Class) (attributes : List (String × Datum))
  | createList (items : List Datum)
  | createDict (entries : List (String × Datum))
  | call (function : Datum) (args : List Datum)
  | attribute (place : Nat) (name : String)
  | setAttribute (place : Nat) (name : String) (value : Datum)
  | operate (op : Operation) (args : List Datum)
  | show (value : Datum)
  deriving DecidableEq, Repr

/-- What a request comes back with. -/
abbrev Reply := Except Fault Datum

/-- Foreign code that ends in a value or a fault. -/
abbrev Program (α : Type) := ExceptT Fault (Dialogue Request Reply) α

namespace Program

/-- Makes a request and ends with what comes back. -/
def request (q : Request) : Program Datum :=
  ExceptT.mk (Dialogue.request q)

/-- Makes a request for its effect alone. -/
def order (q : Request) : Program Unit := do
  let _ ← request q

/-- Fails. -/
def fail {α : Type} (f : Fault) : Program α :=
  throw f

end Program

/-- A function of the host. -/
structure Callable where
  /-- What messages call the type of the function. -/
  type : String
  /-- How the function is shown. -/
  shown : String
  run : List Datum → Program Datum
  /-- The object whose method it is. -/
  owner : Option Nat := none

/-- A function offered to scripts as `space.name`. -/
structure FunctionDescriptor where
  space : String
  name : String
  /-- Gives the function itself. -/
  bind : Program Datum

/-- Where an event comes from. -/
inductive EventSource where
  /-- A signal, forwarded to a callback of the script. -/
  | signal (signal callback : String) (deliver : String → List Datum → Program Unit)
  /-- Foreign code. -/
  | foreign (subscribe unsubscribe : Program Unit)

/-- An event that scripts can listen to. -/
structure EventDescriptor where
  name : String
  source : EventSource

/-- Makes a function for a new environment. -/
abbrev FunctionFactory := Program FunctionDescriptor

/-- Makes an event, once. -/
abbrev EventFactory := Program EventDescriptor

/-- An object of the host. -/
inductive Object where
  /-- The object that stands for no value in scripts. -/
  | absent
  | list (items : List Datum)
  | tuple (items : List Datum)
  | dict (entries : List (Datum × Datum))
  | entity (cls : Class) (attributes : List (String × Datum))
  | cls (cls : Class)
  | callable (function : Callable)
  | fault (fault : Fault)
  | environment (home : Nat)
  | bytes (value : Text.Bytes)
  /-- A value that is only passed on: its type, its text and its quoted token. -/
  | plain (type shown spelled : String)
  | functionEntry (make : FunctionFactory)
  | eventEntry (make : EventFactory)

/-- What a class gives its objects. -/
structure ClassInfo where
  /-- The classes that objects of this class also belong to. -/
  ancestors : List Class := []
  methods : List (String × (Nat → List Datum → Program Datum)) := []
  /-- What calling an object does, if it can be called. -/
  call : Option (Nat → List Datum → Program Datum) := none
  /-- Makes an object. -/
  construct : Option (List Datum → Program Datum) := none
  /-- The attributes that make an object what it is. -/
  fields : List String := []
  /-- Whether objects are shown by those attributes. -/
  showsFields : Bool := false

end ScriptHost
