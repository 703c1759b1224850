import ScriptHost.Text.Blank
import ScriptHost.Text.LetterCase

/-!
# Command lines

A line of input is blank, a command, or chat. A command begins with the lead word; the next word,
in lower case, is its name, and all the rest is what it is given, as it stands.
-/
namespace ScriptHost.Control

/-- What a line of input is. -/
inductive CommandLine where
  | blank
  | chat (text : String)
  /-- The lead word alone. -/
  | bare (lead : String)
  | command (lead name given : String)
  deriving DecidableEq, Repr

/-- Reads a line of input. Without a lead word nothing is a command. -/
def CommandLine.read (lead : Option String) (line : String) : CommandLine :=
  match Text.splitWords 2 (Text.trim line.toList) with
  | [] => .blank
  | first :: rest =>
    if lead = some (String.ofList first) then
      match rest with
      | [] => .bare (String.ofList first)
      | name :: given =>
        .command (String.ofList first) (String.ofList (Text.lower name))
          (String.ofList (given.headD []))
    else .chat (Text.strip line)

end ScriptHost.Control
