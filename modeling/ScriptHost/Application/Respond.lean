import ScriptHost.Application.Endpoint

/-!
# Answering requests

What every request of foreign code does. Answering may run more foreign code, whose requests are
answered in turn; `respond` follows such a chain to a fixed depth.
-/
namespace ScriptHost.Op

open Files (Path)

/-- Paths as a list of texts. -/
def newPaths (ps : List Path) : Op Datum :=
  newTexts (ps.map Path.toString)

/-- A global of the script, or that there is no environment. -/
def global (host : Responder) (name : String) : Op Datum := do
  match (← get).session.environment with
  | none => return .text "no environment"
  | some home => getGlobal host home name

/-- Globals of the script, or that there is no environment. -/
def globals (host : Responder) (names : List String) : Op Datum := do
  match (← get).session.environment with
  | none => return .text "no environment"
  | some home => do newList (← names.mapM (getGlobal host home))

/-- What was installed, what was not, and what is on offer. -/
def books : Op Datum := do
  let w ← get
  newDict [("installed", ← newTexts w.functionBooks.installed),
    ("skipped", ← newTexts w.functionBooks.skipped),
    ("function_ids", ← newTexts w.catalog.functions.names),
    ("event_ids", ← newTexts w.catalog.events.names)]

/-- The function an offer makes; an object that is no offer makes none. -/
def functionEntry (place : Nat) : Op FunctionFactory := do
  match ← object place with
  | .functionEntry make => return make
  | _ => return Program.fail (.mismatch (.notCallable "NoneType"))

/-- The event an offer makes; an object that is no offer makes none. -/
def eventEntry (place : Nat) : Op EventFactory := do
  match ← object place with
  | .eventEntry make => return make
  | _ => return Program.fail (.mismatch (.notCallable "NoneType"))

/-- The environment that a value of the host is. -/
def environmentOf (d : Datum) : Op Nat := do
  let w ← get
  let refuse : Op Nat := throw (.noAttribute (w.typeName d) "set_global")
  match d with
  | .object place =>
    match w.objectAt place with
    | .environment home => return home
    | _ => refuse
  | _ => refuse

/-- Where a file that is to be written goes. -/
def placeOf (path : String) : Op (List String) := do
  return (Path.resolve (← get).cwd (Path.ofString path)).parts

/-- Another value just like one, so many levels deep. -/
def copy : Nat → Datum → Op Datum
  | n + 1, .object p => do
    match ← object p with
    | .absent => return .object p
    | .list items => do newList (← items.mapM (copy n))
    | .tuple items => return .object (← newObject (.tuple (← items.mapM (copy n))))
    | .dict entries => do
      let entries ← entries.mapM fun (k, v) => do return (← copy n k, ← copy n v)
      return .object (← newObject (.dict entries))
    | .entity cls attributes => do
      let attributes ← attributes.mapM fun (x, v) => do return (x, ← copy n v)
      return .object (← newObject (.entity cls attributes))
    | o => return .object (← newObject o)
  | _, d => return d

/-- Answers a request. -/
def answerRequest (host : Responder) : Request → Op Datum
  | .note sheet items => do
    note sheet items
    return .none
  | .log level logger text => do
    log level logger text none
    return .none
  | .load path => return .bool (← load host path)
  | .unload => do
    unload host
    return .none
  | .find name => do
    match ← find name with
    | some p => return .text p.toString
    | none => return .none
  | .tryLoad name => return .bool (← tryLoad host name)
  | .loaded => return .bool (← get).session.loaded
  | .listenTo args => return .bool (← listenTo host args)
  | .callFunction name args => do
    callFunction host name args
    return .none
  | .emit signal args => return .int (← emit host signal args)
  | .connect signal handler => do
    connect signal (.object handler)
    return .none
  | .disconnect signal handler => do
    disconnect signal (.object handler)
    return .none
  | .handlerCount signal => return .int (← handlers signal).length
  | .clearHandlers signal => do
    discard (handlers signal)
    setHandlers signal []
    return .none
  | .global name => global host name
  | .globals names => globals host names
  | .globalNames => do
    match (← get).session.environment with
    | none => return .text "no environment"
    | some home => do newTexts (← globalNames home)
  | .setGlobal environment name value => do
    setGlobal host (← environmentOf environment) name value
    return .none
  | .books => books
  | .discover => return .int (← discover host)
  | .addFunction ident entry => do return .bool (← addFunction ident (← functionEntry entry))
  | .addCallable space name ident f => return .bool (← addCallable space name ident f)
  | .addEvent ident entry => do return .bool (← addEvent ident (← eventEntry entry))
  | .registerType cls => return .bool (← registerType cls)
  | .types => do
    let classes ← (← get).exposed.mapM fun c => .object <$> newObject (.cls c)
    newList classes
  | .isActive event => return .bool ((← get).eventBooks.active.contains event)
  | .subscribe event => do
    subscribe host event
    return .none
  | .unsubscribe event => do
    unsubscribe host event
    return .none
  | .unsubscribeAll => do
    (← unsubscribeAll host).forM fun f => do note "errors" [.object (← newObject (.fault f))]
    return .none
  | .addHook phase hook => do
    modifySession fun s => { s with hooks := s.hooks.append phase hook }
    return .none
  | .addListener listener => do
    modifySession fun s => { s with listeners := listener :: s.listeners }
    return .none
  | .command text author => runCommandLine host text author
  | .registerCommand name help handler => do
    modify fun w => { w with commands := w.commands.register name (.foreign handler) help }
    return .none
  | .queue path => do
    queueReload path
    return .none
  | .applyPending => do newPaths (← applyPending host)
  | .pending => do newPaths (← get).pending
  | .watch batches extension => do
    watch (← get).cwd extension batches
    return .none
  | .write path content => do
    let place ← placeOf path
    modify fun w => { w with files := w.files.put (.file content) place }
    return .none
  | .delete path => do
    let place ← placeOf path
    modify fun w => { w with files := w.files.erase place }
    return .none
  | .makeDirectory path => do
    let place ← placeOf path
    modify fun w =>
      match w.files.get? place with
      | some (.folder _) => w
      | _ => { w with files := w.files.put (.folder []) place }
    return .none
  | .boot => do
    boot host
    return .none
  | .seeChanges => do
    watchChanges
    return .none
  | .shutDown => do
    shutDown host
    return .none
  | .live => do
    runHost host
    return .none
  | .loop => do
    loop host
    return .none
  | .tick times => do
    (List.range times).forM fun _ => tick host
    return .none
  | .tickCount => return .int (← get).application.tick
  | .hostName => return (← get).application.name
  | .post author text => return .int (← post host author text)
  | .settings => do return .object (← newObject (.dict (← ofEntries (← get).application.settings)))
  | .stop => do
    modifyApplication fun a => { a with stopping := true }
    return .none
  | .halt => do
    modifyApplication fun a => { a with running := false }
    return .none
  | .cancel => do
    modifyApplication fun a => { a with cancelled := true }
    return .none
  | .reach found => do
    modifyApplication fun a => { a with reachable := found }
    return .none
  | .endpoint e => serve host e
  | .copy value => do copy (← get).objects.size value
  | .create cls attributes => return .object (← newObject (.entity cls attributes))
  | .createList items => newList items
  | .createDict entries => newDict entries
  | .call f args => callDatum host f args
  | .attribute place name => readAttribute place name
  | .setAttribute place name value => do
    writeAttribute place name value
    return .none
  | .operate op args => operate op args
  | .show value => return .text ((← get).shown value)

/-- Answers requests that lead to others, so many times in a row. -/
def respond : Nat → Responder
  | 0, _ => throw .tooDeep
  | n + 1, q => answerRequest (respond n) q

/-- How many requests may lead to one another. -/
def requestDepth : Nat := 400

/-- How a host answers. -/
def responder : Responder := respond requestDepth

/-- Runs foreign code from outside. -/
def run {α : Type} (p : Program α) : Op α :=
  perform responder p

end ScriptHost.Op
