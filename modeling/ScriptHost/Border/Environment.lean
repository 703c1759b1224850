import ScriptHost.Border.Call
import ScriptHost.Values.Looks
import ScriptHost.Script.Environment
import ScriptHost.Text.Sorted

/-!
# Environments of the host

What a host does with an environment: opening it, reading and writing globals, running a text and
calling a function.
-/
namespace ScriptHost.Op

open Script (Value)

/-- Opens an environment that keeps some of the default globals. -/
def openEnvironment (keep : List String) (sharesTypes : Bool) : Op Nat := do
  -- An environment and its home are added together, so that they have the same number.
  let home := (← get).homes.size
  withScripts fun h => ((), h.openEnvironment (.foreign absentPlace) keep)
  let kept := Text.sorted ((Script.keptGlobals keep).map (·.1))
  modify fun w => { w with homes := w.homes.push ⟨kept, sharesTypes, none, { home := home }⟩ }
  let missing := keep.filter fun x => !(Script.defaultGlobals.map (·.1)).contains x
  if !missing.isEmpty then
    let names := ", ".intercalate (Text.sortedOnce missing)
    warning "luahost.lua_env" s!"Requested Lua stdlib entries not available: {names}"
  return home

/-- The table of the globals of an environment. -/
def globalsOf (home : Nat) : Op Value :=
  return .table ((← get).scripts.environment home).globals

/-- Reads a field of a value of a script. -/
def getField (host : Responder) (home : Nat) (t : Value) (name : String) : Op Datum := do
  let site ← siteOf home
  let v ← evaluate host home (site.context.index t (.ofString name))
  toHost home v

/-- Gives a field of a value of a script a value. -/
def setField (host : Responder) (home : Nat) (t : Value) (name : String) (d : Datum) : Op Unit := do
  let v ← toScript home d
  let site ← siteOf home
  evaluate host home (site.context.setIndex t (.ofString name) v)

def getGlobal (host : Responder) (home : Nat) (name : String) : Op Datum := do
  getField host home (← globalsOf home) name

def setGlobal (host : Responder) (home : Nat) (name : String) (d : Datum) : Op Unit := do
  setField host home (← globalsOf home) name d

/-- The names of all globals, in order. -/
def globalNames (home : Nat) : Op (List String) := do
  let w ← get
  let keys := (w.scripts.table (w.scripts.environment home).globals).entries.map (·.1)
  let names ← keys.mapM fun k => do return w.shown (← toHost home k)
  return Text.sorted names

/-- The table that is the global of a name, made if there is none. -/
def spaceTable (host : Responder) (home : Nat) (name : String) : Op Value := do
  match ← getGlobal host home name with
  | .script _ (.table t) => return .table t
  | _ =>
    let t ← newTable (.empty home)
    setGlobal host home name (.script home (.table t))
    return .table t

/-- Runs a text as a script. -/
def execute (host : Responder) (home : Nat) (source : String) : Op Datum := do
  let site ← siteOf home
  match ← evaluate host home (Script.prepareChunk site (Text.encode source)) with
  | .error message =>
    throw (.syntaxError ("error loading code: " ++ Text.decodeBytewise message))
  | .ok f => resultsToHost home (← evaluate host home (callGuarded site f []))

/-- Whether a value of the host counts as a function. -/
def isCallable (d : Datum) : Op Bool := do
  match d with
  | .script _ (.table _) => return false
  | .script _ _ => return true
  | .object p => return isCallableObject (← get) p
  | _ => return false

/-- A value as an argument: containers as new tables of the environment. -/
def asArgument (home : Nat) (d : Datum) : Op Datum := do
  match d with
  | .object p =>
    if isContainer (← object p) then return .script home (← marshal home d) else return d
  | d => return d

/-- Calls a value for an environment, containers among the arguments becoming tables. -/
def callWith (host : Responder) (home : Nat) (f : Datum) (args : List Datum) : Op Datum := do
  callDatum host f (← args.mapM (asArgument home))

end ScriptHost.Op
