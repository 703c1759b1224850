import ScriptHost.Application.Respond

/-!
# The program

Runs a host in a folder of its own and prints what the host logs. The files of the folder come from
standard input, where a line `== PATH` begins each. The settings are in the file that the variable
`LUAHOST_CONFIG` names, and the default ones hold where there is no such file. The host lives for as
many ticks as the first argument says, or until it is killed.
-/
namespace ScriptHost.Main

open Files (Path)

/-- What stands before the path of a file. -/
def fileMark : String := "== "

/-- Files by their paths, from the lines that hold them. Lines before the first path are left out. -/
def filesOf (lines : List String) : List (String × String) :=
  let step := fun (line : String) ((own, files) : List String × List (String × String)) =>
    if line.startsWith fileMark then
      let path := String.ofList (line.toList.drop fileMark.length)
      ([], (path, String.join own) :: files)
    else (line :: "\n" :: own, files)
  (lines.foldr step ([], [])).2

/-- The folder of the host. -/
def folder : Path := ⟨"/", []⟩

/-- The world in which a host begins that has such files around it. -/
def worldOf (files : List (String × String)) : World :=
  let tree := files.foldl (fun n (path, text) =>
    n.put (.file (Text.encode text)) (Path.resolve folder (Path.ofString path)).parts) default
  { files := tree
    cwd := folder
    base := folder
    available := ⟨[("standard", standardPlugin Op.pluginHost)]⟩ }

/-- Makes a host of the settings at a path and lets it begin. The answer is the time from tick to
tick in milliseconds. -/
def start (path : String) : Op Nat := do
  Op.openHost (← Op.readSettings (← Op.existingFile path))
  Op.checkLevel (← Op.setting "logging" "level" (.text "INFO"))
  Op.boot Op.responder
  let interval ← ofExcept (Op.tickInterval (← Op.setting "engine" "tick_rate" (.int 10)))
  return (interval.toFloat * 1000).toUInt64.toNat

/-- The lines of the log that the settings want to be seen. -/
def shownLog (w : World) : List String :=
  let least := match (Settings.sectionOf w.application.settings "logging").field "level" with
    | .ok (.text s) => s
    | _ => LogLevel.info.name
  (w.log.toList.filter fun e => (LogLevel.atLeast least).contains e.level).map fun e =>
    s!"[{e.level.name}] {e.logger}: {e.text}"

/-- Does an operation on a world and prints what it logs. -/
def perform {α : Type} (m : Op α) (w : World) : IO (Except Fault α × World) := do
  let (r, w) := (ExceptT.run m).run w
  (shownLog w).forM IO.println
  return (r, { w with log := #[] })

/-- Ticks so many times, or without end, and rests in between. -/
partial def live (pause : Nat) (left : Option Nat) (w : World) : IO (Except Fault Unit × World) := do
  if left = some 0 then return (.ok (), w)
  match ← perform (Op.tick Op.responder) w with
  | (.ok _, w) =>
    IO.sleep pause.toUInt32
    live pause (left.map (· - 1)) w
  | ended => return ended

/-- The lines of a stream up to its end. -/
partial def readLines (input : IO.FS.Stream) : IO (List String) := do
  let line ← input.getLine
  if line.isEmpty then return []
  return String.ofList (line.toList.takeWhile (· ≠ '\n')) :: (← readLines input)

/-- Runs a host. The answer is zero if nothing failed that the host does not contain. -/
def runHost (ticks : Option Nat) : IO UInt32 := do
  let path := (← IO.getEnv "LUAHOST_CONFIG").getD "config/luahost.yaml"
  let world := worldOf (filesOf (← readLines (← IO.getStdin)))
  match ← perform (start path) world with
  | (.error f, _) => report f
  | (.ok pause, w) =>
    let (lived, w) ← live pause ticks w
    let (ended, _) ← perform (Op.shutDown Op.responder) w
    match lived, ended with
    | .ok _, .ok _ => return 0
    | .error f, _ | _, .error f => report f
where
  report (f : Fault) : IO UInt32 := do
    IO.eprintln s!"{f.kind}: {f.message}"
    return 1

end ScriptHost.Main

def main (args : List String) : IO UInt32 :=
  ScriptHost.Main.runHost (args.head?.bind String.toNat?)
