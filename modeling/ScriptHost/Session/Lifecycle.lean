import ScriptHost.Border.Install
import ScriptHost.Events.Subscription
import ScriptHost.Files.Search
import ScriptHost.Settings.Defaults
import ScriptHost.Text.Lines

/-!
# The life of a script

At most one script is loaded. Loading unloads the one before, opens an environment, installs the
functions on offer and runs the text; what fails on the way is reported and undone. Unloading tells
the script, ends its subscriptions and drops its environment.
-/
namespace ScriptHost.Op

open Files (Path)

def modifySession (f : Session → Session) : Op Unit :=
  modify fun w => { w with session := f w.session }

/-! ### Reports -/

/-- Logs a fault and tells all listeners. -/
def report (host : Responder) (f : Fault) (level : LogLevel) : Op Unit := do
  log level "luahost.dispatch" f.message (some f)
  let listeners := (← get).session.listeners
  if !listeners.isEmpty then
    let place ← newObject (.fault f)
    listeners.forM fun listener => do
      match ← attempt (callObject host listener [.object place]) with
      | .ok _ => return ()
      | .error _ => error "luahost.dispatch" "on_error listener failed"

/-! ### Calls into the script -/

/-- Says that the script has no function of a name. -/
def skipCall (shown : String) : Op Unit :=
  debug "luahost.dispatch" s!"Lua function '{shown}' is not implemented. Skipping."

/-- What an environment has under a name, or under another key. -/
def lookUp (host : Responder) (home : Nat) : Datum → Op Datum
  | .text x => getGlobal host home x
  | key => do
    let k ← match key with
      | .none => pure (.foreign absentPlace)
      | key => toScript home key
    let v ← evaluate host home ((← siteOf home).context.index (← globalsOf home) k)
    toHost home v

/-- Calls what an environment has under a name if it is a function. A call that fails is
reported. -/
def callFound (host : Responder) (home : Nat) (shown : String) (f : Datum) (args : List Datum) :
    Op Unit := do
  if ← isCallable f then
    match ← attempt (callWith host home f args) with
    | .ok _ => return ()
    | .error fault => report host (.callFailed shown fault) .error
  else skipCall shown

/-- Calls a global of the script if it is a function. -/
def callFunction (host : Responder) (name : Datum) (args : List Datum) : Op Unit := do
  let w ← get
  match w.session.environment with
  | none => skipCall (w.shown name)
  | some home => do callFound host home (w.shown name) (← lookUp host home name) args

/-- Tells the script of a turn in its life by the global of a name, if it has one. -/
def tell (host : Responder) (name : String) : Op Unit := do
  record (.tell (← get).session.environment name)
  callFunction host (.text name) []

/-- Subscribes the script to the event that the first argument names. -/
def listenTo (host : Responder) (args : List Datum) : Op Bool := do
  let w ← get
  let name := match args.headD .none with
    | .none => ""
    | d => w.shown d
  match ← attempt (listen host name) with
  | .ok _ => return true
  | .error f =>
    match f with
    | .eventUnknown _ | .alreadyListening _ =>
      report host f .warning
      return false
    | f =>
      if f.isContained then
        report host f .error
        return false
      else throw f

/-- The function that scripts subscribe with. -/
def listenFunction : Callable where
  type := "method"
  shown := "<bound method Dispatcher.listen_to>"
  run := fun args => Program.request (.listenTo args)

/-! ### Hooks -/

/-- Runs a hook. One that fails is logged. -/
def runHook (host : Responder) (phase : Phase) (args : List Datum) (hook : Nat) : Op Unit := do
  record (.hook phase hook)
  match ← attempt (callObject host hook args) with
  | .ok _ => return ()
  | .error _ =>
    let shown := (← get).spell (.object hook)
    error "luahost.session" s!"Script lifecycle hook {shown} failed"

/-- How many hooks that join a phase meanwhile are run. -/
def hookLimit : Nat := 2 ^ 32

/-- Runs the hooks of a phase from a position on. Hooks that are added meanwhile run too. -/
def fireFrom (host : Responder) (phase : Phase) (args : List Datum) : Nat → Nat → Op Unit
  | 0, _ => return ()
  | n + 1, i => do
    match ((← get).session.hooks.at phase)[i]? with
    | none => return ()
    | some hook =>
      runHook host phase args hook
      fireFrom host phase args n (i + 1)

/-- Runs the hooks of a phase. -/
def fire (host : Responder) (phase : Phase) (args : List Datum) : Op Unit := do
  -- The count comes second: a sum is unfolded along its second part, and the limit is too long.
  let count := ((← get).session.hooks.at phase).length
  fireFrom host phase args (hookLimit + count) 0

/-! ### Unloading -/

/-- Ends all subscriptions and reports those that do not end well. -/
def endSubscriptions (host : Responder) : Op Unit := do
  record .teardown
  (← unsubscribeAll host).forM fun f => report host f .error

/-- Lets hooks know that the script is about to be unloaded. -/
def takeLeave (host : Responder) : Op Unit := do
  record .unload
  fire host .unloaded []

/-- Gives up the script and its environment. -/
def vacate : Op Unit := do
  modifySession fun s => { s with environment := none, path := none, loaded := false }
  record .vacate

/-- Unloads the script that is loaded. -/
def letGo (host : Responder) : Op Unit := do
  takeLeave host
  tell host "OnUnload"
  endSubscriptions host
  vacate

/-- Unloads the script if there is one. -/
def unload (host : Responder) : Op Unit := do
  let s := (← get).session
  if s.loaded then
    letGo host
    let shown := match s.path with
      | some p => p.toString
      | none => "None"
    info "luahost.session" s!"Lua script unloaded: {shown}"
  else debug "luahost.session" "No Lua script loaded, nothing to unload"

/-! ### Loading -/

/-- Opens an environment with the default globals that are kept. Events on offer become known. -/
def openHome (host : Responder) : Op Nat := do
  let isKnown := (Script.defaultGlobals.map (·.1)).contains
  let keep ← ofExcept (Settings.keptNames isKnown (← get).session.allowlist)
  let home ← openEnvironment keep true
  discard (discover host)
  return home

/-- Installs functions in an environment, and the function to subscribe with. -/
def furnish (host : Responder) (home : Nat) (functions : List FunctionDescriptor) : Op Unit := do
  let installed ← installAll host home functions
  let listen ← newObject (.callable listenFunction)
  setGlobal host home "ListenTo" (.object listen)
  let known := (← get).eventBooks.known.entries.length
  debug "luahost.session" s!"Lua environment ready: {installed} functions, {known} known events"

/-- Opens an environment and installs everything scripts may use. -/
def buildEnvironment (host : Responder) : Op Nat := do
  let home ← openHome host
  let functions ← createFunctions host
  furnish host home functions
  return home

/-- The text of the script at a path. -/
def sourceAt (w : World) (path : Path) : Except Fault String := do
  match ← Files.look w.files w.cwd path with
  | some (.file content) =>
    match Text.decode content with
    | .ok s => return String.ofList (Text.unifyLineEnds s.toList)
    | .error m => throw (.scriptUnreadable path.toString (.undecodable m))
  | _ => throw (.scriptMissing path.toString)

/-- Reads the script at a path. -/
def readSource (path : Path) : Op String := do
  ofExcept (sourceAt (← get) path)

/-- Gives the session a new environment and lets hooks know. -/
def moveIn (host : Responder) : Op Unit := do
  let home ← buildEnvironment host
  modifySession fun s => { s with environment := some home }
  record (.occupy home)
  let env ← newObject (.environment home)
  fire host .registered [.object env]

/-- Gives the session a new environment for the script at a path, and gives the text of the
script. -/
def prepareScript (host : Responder) (path : Path) : Op String := do
  moveIn host
  readSource path

/-- Runs a text in the environment of the session. -/
def runBody (host : Responder) (path : Path) (source : String) : Op Unit := do
  match (← get).session.environment with
  | some home =>
    record (.body home path)
    discard (execute host home source)
  | none => throw (.noAttribute "NoneType" "execute")

/-- Runs a text as the script at a path. -/
def runText (host : Responder) (path : Path) (source : String) : Op Unit := do
  match ← attempt (runBody host path source) with
  | .ok _ => return ()
  | .error f => throw (.scriptFailed path.toString f)

/-- Runs the script at a path in a new environment. -/
def runScript (host : Responder) (path : Path) : Op Unit := do
  runText host path (← prepareScript host path)

/-- Gives up the environment of a load that has failed. -/
def giveUp : Op Unit := do
  modifySession fun s => { s with environment := none, path := none }
  record .fail

/-- Undoes a load that has failed. -/
def rollBack (host : Responder) : Op Unit := do
  endSubscriptions host
  giveUp

/-- Gives the session the path of the script that has run and lets hooks know. -/
def takeUp (host : Responder) (path : Path) : Op Unit := do
  modifySession fun s => { s with path := some path }
  record (.adopt path)
  fire host .loaded []

/-- The script of the session is loaded from now on. -/
def settle : Op Unit := do
  modifySession fun s => { s with loaded := true }
  record .succeed

/-- Makes the script that has run the one that is loaded. -/
def becomeLoaded (host : Responder) (path : Path) : Op Unit := do
  takeUp host path
  tell host "OnLoad"
  settle
  info "luahost.session" s!"Lua script loaded: {path}"

/-- Brings up the script at a path, and tells whether it is loaded then. -/
def bringUp (host : Responder) (path : Path) : Op Bool := do
  match ← attempt (runScript host path) with
  | .error f =>
    if f.isContained then
      report host f .error
      rollBack host
      return false
    else throw f
  | .ok _ =>
    becomeLoaded host path
    return true

/-- Loads the script at a path, from the first deed of the load to the last. -/
def loadPath (host : Responder) (path : Path) : Op Bool := do
  record (.load path)
  match ← attempt (bringUp host path) with
  | .ok loaded => return loaded
  | .error f =>
    record .abort
    throw f

/-- Loads the script at a path in place of the one that is loaded. -/
def load (host : Responder) (path : Datum) : Op Bool := do
  if (← get).session.loaded then unload host
  match path with
  | .text s => loadPath host (Path.ofString s)
  | d => throw (.mismatch (.path ((← get).typeName d)))

/-! ### Finding scripts -/

/-- The first script of a name at or below the scripts root. -/
def find (name : String) : Op (Option Path) := do
  let w ← get
  let unavailable : Op (Option Path) := do
    let shown := match w.session.root with
      | some r => r.toString
      | none => "None"
    warning "luahost.dispatch" s!"Scripts root not available: {shown}"
    return none
  match w.session.root with
  | none => unavailable
  | some root =>
    match ← ofExcept (Files.look w.files w.cwd root) with
    | some (.folder _) =>
      let steps ← ofExcept (Files.searchSteps (name ++ w.session.extension))
      return Files.leastPath (← ofExcept (Files.search w.files w.cwd steps root))
    | _ => unavailable

/-- Loads the first script of a name. -/
def tryLoad (host : Responder) (name : String) : Op Bool := do
  match ← find name with
  | some p => load host (.text p.toString)
  | none =>
    let shown := match (← get).session.root with
      | some r => r.toString
      | none => "None"
    info "luahost.dispatch" s!"No Lua script named '{name}' found under {shown}"
    return false

end ScriptHost.Op
