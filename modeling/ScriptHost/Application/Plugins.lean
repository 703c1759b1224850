import ScriptHost.Border.Exposure
import ScriptHost.Events.Subscription
import ScriptHost.Values.Arity

/-!
# Plugins

A plugin offers functions and events and exposes classes. The standard plugin brings arithmetic,
the log, and what scripts may know of the host and its chat.
-/
namespace ScriptHost

/-- What a plugin needs of the host it is loaded into. -/
structure PluginHost where
  name : Program Datum
  tick : Program Datum
  post : Datum → String → Program Datum
  /-- Hands an event on to a callback of the script. -/
  deliver : String → List Datum → Program Unit
  exposes : Class → Program Unit

/-- The class of chat messages. -/
def chatMessage : Class := ⟨"luahost.host", "ChatMessage"⟩

/-- The text of a value. -/
def textOf (d : Datum) : Program String := do
  match ← Program.request (.show d) with
  | .text s => return s
  | _ => return ""

namespace StandardPlugin

/-- The name of the functions that have no name of their own. -/
def nameless : String := "StandardPlugin.register.<locals>.<lambda>"

/-- An operator as a function. -/
def operator (name : String) (parameters : List String) (op : Operation) : Callable :=
  .checked name parameters 0 fun args => Program.request (.operate op args)

/-- A function that logs a value. -/
def logger (level : LogLevel) : Callable :=
  .checked nameless ["msg"] 0 fun args => do
    let text ← textOf (args.headD .none)
    Program.order (.log level "luahost.script" text)
    return .none

/-- A function that says something in the chat. -/
def say (h : PluginHost) : Callable :=
  .checked nameless ["text"] 0 fun args => do
    let name ← h.name
    h.post name (← textOf (args.headD .none))

/-- An event of a signal. The signal has to be there when the event is made. -/
def signalEvent (h : PluginHost) (name signal : String) : EventFactory := do
  Program.order (.handlerCount signal)
  return ⟨name, .signal signal name h.deliver⟩

def contributions (h : PluginHost) : List Contribution :=
  [.callable "Math" "Add" none (operator "_add" ["a", "b"] .add),
    .callable "Math" "Sub" none (operator "_sub" ["a", "b"] .sub),
    .callable "Math" "Mul" none (operator "_mul" ["a", "b"] .mul),
    .callable "Math" "Clamp" none (operator "_clamp" ["value", "low", "high"] .clamp),
    .callable "Log" "Info" none (logger .info),
    .callable "Log" "Warn" none (logger .warning),
    .callable "Log" "Error" none (logger .error),
    .callable "Host" "Tick" none (.checked nameless [] 0 fun _ => h.tick),
    .callable "Host" "Name" none (.checked nameless [] 0 fun _ => h.name),
    .callable "Host" "Say" none (say h),
    .event "OnTick" (signalEvent h "OnTick" "tick"),
    .event "OnMessage" (signalEvent h "OnMessage" "message"),
    .exposes chatMessage]

end StandardPlugin

/-- The plugin every host ships with. -/
def standardPlugin (h : PluginHost) : PluginSource :=
  ⟨⟨"StandardPlugin", some "standard"⟩, StandardPlugin.contributions h⟩

/-- Makes a function that was offered under a name; it has to have one. -/
def callableEntry (space name : String) (function : Datum) : FunctionFactory := do
  if space = "" || name = "" then Program.fail .unnamedFunction
  return ⟨space, name, pure function⟩

namespace Op

/-- Offers a function under its name, or under another identifier. -/
def addCallable (space name : String) (ident : Option String) (function : Datum) : Op Bool :=
  let ident := match ident with
    | some "" | none => space ++ "." ++ name
    | some ident => ident
  addFunction ident (callableEntry space name function)

/-- Takes what a plugin brings along. -/
def contribute (host : Responder) (h : PluginHost) : Contribution → Op Unit
  | .callable space name ident f => do
    let place ← newObject (.callable f)
    discard (addCallable space name ident (.object place))
  | .event ident make => discard (addEvent ident make)
  | .exposes cls => perform host (h.exposes cls)
  | .fails f => throw f

/-- Loads plugins by their names. One that cannot be loaded is left out; one without a name of its
own ends it all. -/
def loadPlugins (host : Responder) (h : PluginHost) (names : List String) : Op (List Plugin) := do
  let loaded ← names.mapM fun name => do
    let taken : Op Plugin := do
      match (← get).available.find? name with
      | none => throw (.raised "ModuleNotFoundError" name)
      | some source =>
        source.contributions.forM (contribute host h)
        return source.plugin
    match ← attempt taken with
    | .error _ =>
      error "luahost.catalog" s!"Failed to load plugin: {name}"
      return []
    | .ok plugin =>
      match plugin.name with
      | some shown =>
        info "luahost.catalog" s!"Plugin loaded: {shown}"
        return [plugin]
      | none => throw (.noAttribute plugin.type "name")
  return loaded.flatten

end Op

end ScriptHost
