import ScriptHost.Application.Plugins
import ScriptHost.Control.Commands
import ScriptHost.Control.Reload

/-!
# Hosts

An application around a session: its settings, its two signals, its plugins, and its loop, which
reloads what has changed and tells the tick.
-/
namespace ScriptHost.Op

open Files (Path)
open Number (Binary64)

mutual

/-- A setting as a value of the host. -/
def ofSetting : Settings.Value → Op Datum
  | .null => return .none
  | .bool b => return .bool b
  | .int i => return .int i
  | .float x => return .float x
  | .text s => return .text s
  | .bytes b => .object <$> newObject (.bytes b)
  | .date d => .object <$> newObject (.plain (Settings.Value.date d).typeName d.text d.spelled)
  | .moment m => .object <$> newObject (.plain (Settings.Value.moment m).typeName m.text m.spelled)
  | .pair k v => do
    let k ← ofSetting k
    let v ← ofSetting v
    return .object (← newObject (.tuple [k, v]))
  | .set items => do
    let items ← ofSettings items
    let w ← get
    let shown := if items.isEmpty then "set()"
      else "\x7b" ++ ", ".intercalate (items.map w.spell) ++ "\x7d"
    return .object (← newObject (.plain "set" shown shown))
  | .list items => do newList (← ofSettings items)
  | .map entries => do return .object (← newObject (.dict (← ofEntries entries)))

def ofSettings : List Settings.Value → Op (List Datum)
  | [] => return []
  | v :: rest => do
    let d ← ofSetting v
    return d :: (← ofSettings rest)

def ofEntries : List (Settings.Value × Settings.Value) → Op (List (Datum × Datum))
  | [] => return []
  | (k, v) :: rest => do
    let k ← ofSetting k
    let d ← ofSetting v
    return (k, d) :: (← ofEntries rest)

end

/-- The text of a setting. -/
def settingText (v : Settings.Value) : Op String := do
  let d ← ofSetting v
  return (← get).shown d

def modifyApplication (f : Application → Application) : Op Unit :=
  modify fun w => { w with application := f w.application }

/-- A section of the settings of the host. -/
def settingsSection (name : String) : Op Settings.Value := do
  return Settings.sectionOf (← get).application.settings name

/-- An entry of a section of the settings, or another value. -/
def setting (section_ key : String) (other : Settings.Value) : Op Settings.Value := do
  ofExcept ((← settingsSection section_).fieldOr key other)

/-! ### Making a host -/

/-- The settings in the file at a path, over the default ones. -/
def readSettings (path : Option String) : Op Settings.Entries := do
  match path with
  | none => return Settings.defaults
  | some text =>
    let w ← get
    if text.toList.contains '\x00' then throw (.raised "ValueError" "embedded null byte")
    if text = "" then throw (.file .missing text)
    match w.files.locate w.cwd (Path.ofString text) with
    | .error f => throw (.file f text)
    | .ok (_, .folder _) => throw (.file .isDirectory text)
    | .ok (_, .file content) =>
      if text.toList.getLast? = some '/' then throw (.file .notDirectory text)
      match Text.decode content with
      | .error m => throw (.undecodable m)
      | .ok s => ofExcept (Settings.ofText (String.ofList (Text.unifyLineEnds s.toList)))

/-- Says something in the chat. -/
def post (host : Responder) (author : Datum) (text : String) : Op Nat := do
  let message ← newObject (.entity chatMessage [("author", author), ("text", .text text)])
  emit host "message" [.object message]

/-- The function that takes the chat. -/
def chatFunction : Callable where
  type := "method"
  shown := "<bound method Host.post_message>"
  run := fun
    | [author, .text text] => Program.request (.post author text)
    | _ => return .none

/-- Calls a callback of the script. -/
def deliverToScript (callback : String) (args : List Datum) : Program Unit :=
  Program.order (.callFunction (.text callback) args)

/-- What plugins are given of a host. -/
def pluginHost : PluginHost where
  name := Program.request .hostName
  tick := Program.request .tickCount
  post := fun author text => Program.request (.post author text)
  deliver := deliverToScript
  exposes := fun cls => Program.order (.registerType cls)

/-- The function through which scripts subscribe, as an offer. -/
def listenEntry (function : Nat) : FunctionFactory :=
  pure ⟨"Bridge", "ListenTo", pure (.object function)⟩

/-- Prepares a session. The function to subscribe with is offered last. -/
def openSession (allowlist : List Settings.Value) (root : Option Path) (extension : String) :
    Op Unit := do
  let listen ← newObject (.callable listenFunction)
  if !(← get).catalog.functions.contains "Bridge.ListenTo" then
    discard (addFunction "Bridge.ListenTo" (listenEntry listen))
  let extension := if extension.toList.head? = some '.' then extension else "." ++ extension
  modifySession fun s => { s with allowlist, root, extension }

/-- Makes a host of its settings. -/
def openHost (settings : Settings.Entries) : Op Unit := do
  modifyApplication fun a => { a with settings }
  let name ← ofSetting (← settingsSection "name")
  let scripts ← settingsSection "scripts"
  let root ← match ← ofExcept (scripts.field "root") with
    | .text s => pure (Path.ofString s)
    | .bytes _ => throw (.mismatch .pathOfBytes)
    | v => throw (.mismatch (.path v.shortTypeName))
  let root := (← get).base.join root
  let stdlib ← setting "lua" "stdlib" .null
  let extension ← ofExcept (scripts.fieldOr "extension" (.text ".lua"))
  let extension ← match extension with
    | .text s => pure s
    | .bytes _ => throw (.mismatch .frontOfBytes)
    | v => throw (.noAttribute v.typeName "startswith")
  let allowlist ← if stdlib.truthy then ofExcept stdlib.items else pure []
  openSession allowlist (some root) extension
  let lead := match ← setting "commands" "prefix" (.text "lua") with
    | .text s => some s
    | _ => none
  let chat ← newObject (.callable chatFunction)
  modify fun w => { w with
    signals := (w.signals.add "tick" []).add "message" []
    commands := Commands.start lead (some chat)
    classes := (chatMessage, { fields := ["author", "text"], showsFields := true }) :: w.classes }
  modifyApplication fun a => { a with name }

/-! ### The life of a host -/

/-- Opens the surface for others, if the settings say so. -/
def openSurface : Op Unit := do
  if (← setting "api" "enabled" (.bool false)).truthy then
    let address ← settingText (← setting "api" "host" (.text "127.0.0.1"))
    let port ← settingText (← setting "api" "port" (.int 8080))
    modifyApplication fun a => { a with reachable := true }
    info "luahost.api" s!"API server starting on {address}:{port}"

/-- Begins to watch the folder of scripts, if the settings say so and there is one. -/
def beginWatch : Op Unit := do
  if (← setting "dev" "hot_reload" (.bool false)).truthy then
    let w ← get
    match w.session.root with
    | some root =>
      match ← ofExcept (Files.look w.files w.cwd root) with
      | some (.folder _) => modifyApplication fun a => { a with watching := some root }
      | _ => pure ()
    | none => pure ()

/-- Loads the first script, if the settings name one. -/
def loadFirst (host : Responder) : Op Unit := do
  let autoload ← setting "scripts" "autoload" .null
  if autoload.truthy then discard (tryLoad host (← settingText autoload))

/-- The plugins that the settings list. -/
def listedPlugins : Op (List Settings.Value) := do
  let listed := (Settings.find? (← get).application.settings (.text "plugins")).getD .null
  if listed.truthy then ofExcept listed.items else return []

/-- Lets a host begin: plugins, events, the surface for others, the watch, the first script. -/
def boot (host : Responder) : Op Unit := do
  let name := (← get).shown (← get).application.name
  info "luahost.host" s!"=== {name} booting ==="
  let plugins ← loadPlugins host pluginHost (← (← listedPlugins).mapM settingText)
  modifyApplication fun a => { a with plugins }
  let added ← discover host
  let offered := (← get).catalog.functions.entries.length
  info "luahost.host" s!"Catalog: {offered} functions, {added} events"
  openSurface
  beginWatch
  loadFirst host
  modifyApplication fun a => { a with running := true }
  info "luahost.host" "=== Boot complete ==="

/-- Lets the watch see its changes, if there is one. -/
def watchChanges : Op Unit := do
  let a := (← get).application
  match a.watching with
  | none => return ()
  | some root =>
    modifyApplication fun a => { a with watching := none }
    watch root (← get).session.extension a.changes

/-- Lets a host end. -/
def shutDown (host : Responder) : Op Unit := do
  info "luahost.host" "Shutting down..."
  modifyApplication fun a => { a with running := false }
  unload host
  modifyApplication fun a => { a with watching := none }
  if (← setting "api" "enabled" (.bool false)).truthy then
    info "luahost.api" "API server stopped"
  info "luahost.host" "Shutdown complete"

/-- One tick: reloads what has changed, then tells the tick. -/
def tick (host : Responder) : Op Unit := do
  modifyApplication fun a => { a with tick := a.tick + 1 }
  discard (applyPending host)
  discard (emit host "tick" [.int (← get).application.tick])

/-- The time from tick to tick for a rate. -/
def tickInterval (rate : Settings.Value) : Except Fault Binary64 :=
  let one := Binary64.ofInt 1
  let divide := fun (x : Binary64) =>
    if x.abs.same .zero then .error .divisionByZero else .ok (one.div x)
  match rate with
  | .int i =>
    let x := Binary64.ofInt i
    if x.isInfinite then .error .integerTooLargeForFloat else divide x
  | .bool b => divide (Binary64.ofInt (if b then 1 else 0))
  | .float x => divide x
  | v => .error (.mismatch (.operands "/" "float" v.typeName))

/-- How many ticks the loop makes at most. -/
def tickLimit : Nat := 2 ^ 32

/-- Stops the host if someone has told it to. -/
def hearStop : Op Unit := do
  if (← get).application.stopping then
    modifyApplication fun a => { a with running := false, stopping := false }

/-- Breaks off if someone has told the loop to. -/
def hearCancel : Op Unit := do
  if (← get).application.cancelled then
    modifyApplication fun a => { a with cancelled := false }
    throw .cancelled

/-- What happens while the loop rests: the watch sees its changes, and who has told the host to stop
or the loop to break off is heard. -/
def rest : Op Unit := do
  watchChanges
  hearStop
  hearCancel

/-- Ticks while the host is running, and rests in between if there is time. -/
def loopWithin (host : Responder) (rests : Bool) : Nat → Op Unit
  | 0 => return ()
  | n + 1 => do
    if (← get).application.running then
      tick host
      if rests then rest
      loopWithin host rests n

/-- Ticks at the rate of the settings while the host is running. -/
def loop (host : Responder) : Op Unit := do
  let interval ← ofExcept (tickInterval (← setting "engine" "tick_rate" (.int 10)))
  loopWithin host (Binary64.zero.lt interval) tickLimit

/-- The whole life of a host. However the loop ends, the host ends properly. -/
def runHost (host : Responder) : Op Unit := do
  boot host
  match ← attempt (loop host) with
  | .ok _ | .error .cancelled => shutDown host
  | .error f =>
    shutDown host
    throw f

/-! ### Running a host from its settings file -/

/-- The names of log levels. -/
def levelNames : List String :=
  ["CRITICAL", "FATAL", "ERROR", "WARN", "WARNING", "INFO", "DEBUG", "NOTSET"]

/-- Checks that a setting is a log level. -/
def checkLevel (v : Settings.Value) : Op Unit := do
  match v with
  | .null | .int _ | .bool _ => return ()
  | .text s => if levelNames.contains s then return () else throw (.levelUnknown (Text.quote s))
  | v =>
    let d ← ofSetting v
    throw (.levelMistyped ((← get).spell d))

/-- The path of the settings file if there is such a file. -/
def existingFile (path : String) : Op (Option String) := do
  let w ← get
  match ← ofExcept (Files.look w.files w.cwd (Path.ofString path)) with
  | some _ => return some path
  | none => return none

/-- Makes a host of a settings file and lets it live. -/
def runFile (host : Responder) (path : Option String) : Op Unit := do
  openHost (← readSettings path)
  checkLevel (← setting "logging" "level" (.text "INFO"))
  runHost host

end ScriptHost.Op
