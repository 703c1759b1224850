import ScriptHost.Fault
import ScriptHost.Files.Path

/-!
# File trees

Files and folders as one tree. `Node.locate` follows a path through it the way a system does: it
goes through folders only, and a name that is too long is refused when it is met.
-/
namespace ScriptHost.Files

open Text (Bytes)

/-- A file, or a folder with named entries. -/
inductive Node where
  | file (content : Bytes)
  | folder (entries : List (String × Node))

namespace Node

instance : Inhabited Node := ⟨.folder []⟩

def isFolder : Node → Bool
  | .folder _ => true
  | .file _ => false

/-- The entries of a folder; a file has none. -/
def entries : Node → List (String × Node)
  | .folder es => es
  | .file _ => []

/-- The node under a list of names. -/
def get? (n : Node) : List String → Option Node
  | [] => some n
  | x :: rest =>
    match n.entries.lookup x with
    | some m => m.get? rest
    | none => none

/-- Gives a folder an entry, in the place of one with its name. -/
def withEntry (es : List (String × Node)) (x : String) (n : Node) : List (String × Node) :=
  match es with
  | [] => [(x, n)]
  | e :: rest => if e.1 = x then (x, n) :: rest else e :: withEntry rest x n

/-- Puts a node under a list of names. Folders on the way are made where they are missing; a file
that is in the way makes room. -/
def put (n new : Node) : List String → Node
  | [] => new
  | x :: rest =>
    .folder (withEntry n.entries x (((n.entries.lookup x).getD default).put new rest))

/-- Takes the node under a list of names away. -/
def erase (n : Node) : List String → Node
  | [] => n
  | [x] => .folder (n.entries.filter (·.1 ≠ x))
  | x :: rest =>
    match n.entries.lookup x with
    | some m => .folder (withEntry n.entries x (m.erase rest))
    | none => n

/-- The most bytes a name may have. -/
def nameLimit : Nat := 255

/-- Follows names from a folder, which is given by its own names. -/
def follow (root : Node) (here : List String) : List String → Except FileFault (List String × Node)
  | [] =>
    match root.get? here with
    | some n => .ok (here, n)
    | none => .error .missing
  | x :: rest =>
    match root.get? here with
    | some (.folder es) =>
      if nameLimit < x.utf8ByteSize then .error .nameTooLong
      else if x = ".." then follow root here.dropLast rest
      else if (es.lookup x).isSome then follow root (here ++ [x]) rest
      else .error .missing
    | some (.file _) => .error .notDirectory
    | none => .error .missing

/-- The node at a path, with the names that lead to it. -/
def locate (root : Node) (cwd p : Path) : Except FileFault (List String × Node) :=
  follow root [] (cwd.join p).parts

end Node

end ScriptHost.Files
