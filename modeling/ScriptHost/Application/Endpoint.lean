import ScriptHost.Application.Host

/-!
# The surface for other processes

What another process may ask: the state of the script, loading and unloading, a command line, and
what is on offer. Nothing is answered before the host can be found.
-/
namespace ScriptHost.Op

/-- A dict with texts as keys. -/
def newDict (entries : List (String × Datum)) : Op Datum :=
  .object <$> newObject (.dict (entries.map fun (k, v) => (.text k, v)))

/-- The state of the script. -/
def status : Op Datum := do
  let w ← get
  let active ← newTexts w.eventBooks.active.names
  let known ← newTexts w.eventBooks.known.names
  let path := match w.session.path with
    | some p => .text p.toString
    | none => Datum.none
  newDict [("loaded", .bool w.session.loaded), ("path", path), ("active_events", active),
    ("known_events", known)]

/-- Answers another process. -/
def serve (host : Responder) (e : Endpoint) : Op Datum := do
  if !(← get).application.reachable then throw (.refused 503 "Host not ready")
  match e with
  | .status => status
  | .load name path =>
    match path.getD "", name.getD "" with
    | "", "" => throw (.refused 400 "Either name or path is required")
    | "", name => discard (tryLoad host name)
    | path, _ => discard (load host (.text path))
    status
  | .unload =>
    unload host
    status
  | .command text author => do newDict [("replies", ← runCommandLine host text author)]
  | .catalog =>
    let w ← get
    newDict [("functions", ← newTexts w.catalog.functions.names),
      ("installed", ← newTexts w.functionBooks.installed),
      ("events", ← newTexts w.eventBooks.known.names),
      ("types", ← newTexts (w.exposed.map Class.name))]

end ScriptHost.Op
