import ScriptHost.Control.CommandLine
import ScriptHost.Session.Lifecycle

/-!
# Commands

What commands do. Every command answers with lines; a name that no handler is registered for is
answered too. A line that is no command is told to whoever takes the chat.
-/
namespace ScriptHost

/-- Enters a command. A help text of none leaves the one that is there. -/
def Commands.register (c : Commands) (name : String) (handler : CommandHandler) (help : String) :
    Commands :=
  { c with
    handlers := c.handlers.put name handler
    helps := if help = "" then c.helps else c.helps.put name help }

/-- The commands every host has, with their help texts. -/
def coreCommands : List (String × CoreCommand × String) :=
  [("load", .load, "Loads a script from the scripts folder by name."),
    ("unload", .unload, "Unloads the current script and unsubscribes from its events."),
    ("status", .status, "Shows the loaded script."),
    ("events", .events, "Lists known and active events."),
    ("help", .help, "Lists commands.")]

/-- The commands of a new host. -/
def Commands.start (lead : Option String) (chat : Option Nat) : Commands :=
  coreCommands.foldl (fun c (name, command, help) => c.register name (.core command) help)
    { lead, chat }

namespace Op

/-- How messages show the path of the script. -/
def shownPath : Op String := do
  match (← get).session.path with
  | some p => return p.toString
  | none => return "None"

/-- The lines that tell what commands there are. -/
def helpLines (lead : String) : Op (List String) := do
  return (← get).commands.helps.entries.map fun (name, help) => s!"{lead} {name} - {help}"

/-- Runs a command that every host has. -/
def runCore (host : Responder) (lead : String) (command : CoreCommand) (given : String) :
    Op (List String) := do
  match command with
  | .load =>
    let name := Text.strip given
    if name = "" then return [s!"Usage: {lead} load <name>"]
    if ← tryLoad host name then return [s!"Loaded {← shownPath}"]
    return [s!"Script '{name}' was not loaded. See the log for details."]
  | .unload =>
    let was := (← get).session.loaded
    unload host
    return [if was then "Script unloaded." else "No script loaded."]
  | .status =>
    if !(← get).session.loaded then return ["No script loaded."]
    let active := (← get).eventBooks.active.names
    let listed := if active.isEmpty then "none" else ", ".intercalate active
    return [s!"Loaded: {← shownPath}", s!"Listening to: {listed}"]
  | .events =>
    let b := (← get).eventBooks
    let lines := b.known.names.map fun name =>
      (if b.active.contains name then "* " else "  ") ++ name
    return if lines.isEmpty then ["No events registered."] else lines
  | .help => helpLines lead

/-- Runs a line of input, and answers with a list of lines. -/
def runCommandLine (host : Responder) (line author : String) : Op Datum := do
  let c := (← get).commands
  match Control.CommandLine.read c.lead line with
  | .blank => newList []
  | .chat text =>
    match c.chat with
    | some place => discard (callObject host place [.text author, .text text])
    | none => pure ()
    newList []
  | .bare lead => do newTexts (← helpLines lead)
  | .command lead name given =>
    info "luahost.commands" s!"Command from {author}: {name} {given}"
    match c.handlers.find? name with
    | none => newTexts [s!"Unknown command: {lead} {name}. Try '{lead} help'."]
    | some (.core command) => do newTexts (← runCore host lead command given)
    | some (.foreign place) => callObject host place [.text given]

end Op

end ScriptHost
