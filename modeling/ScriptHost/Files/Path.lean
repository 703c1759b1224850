/-!
# Paths

A path is a root and a list of names. Reading a text as a path drops empty names and single dots
and keeps double dots; `Path.resolve` takes those away.
-/
namespace ScriptHost.Files

/-- A path: its root, empty for a relative path, and its names. -/
structure Path where
  root : String
  parts : List String
  deriving DecidableEq, Repr, Inhabited

/-- The pieces of a text between slashes. -/
def splitSlashes (cs : List Char) : List (List Char) :=
  cs.foldr (fun c acc =>
    if c = '/' then [] :: acc
    else match acc with
      | [] => [[c]]
      | piece :: rest => (c :: piece) :: rest) [[]]

/-- The names in a text: its pieces without empty ones and single dots. -/
def namesIn (cs : List Char) : List String :=
  (splitSlashes cs).filter (fun p => p ≠ [] && p ≠ ['.']) |>.map String.ofList

/-- The root of a text: two slashes are a root of their own, any other number is one. -/
def rootOf : List Char → String
  | '/' :: '/' :: '/' :: _ => "/"
  | '/' :: '/' :: _ => "//"
  | '/' :: _ => "/"
  | _ => ""

namespace Path

/-- The path a text stands for. -/
def ofString (s : String) : Path :=
  ⟨rootOf s.toList, namesIn s.toList⟩

/-- The text of a path; a path without root and names is a dot. -/
def toString (p : Path) : String :=
  if p.root = "" && p.parts.isEmpty then "." else p.root ++ "/".intercalate p.parts

instance : ToString Path := ⟨toString⟩

def isAbsolute (p : Path) : Bool :=
  p.root ≠ ""

/-- A path as seen from another; an absolute one stays. -/
def join (p q : Path) : Path :=
  if q.isAbsolute then q else ⟨p.root, p.parts ++ q.parts⟩

/-- The path of an entry of a folder. -/
def child (p : Path) (name : String) : Path :=
  ⟨p.root, p.parts ++ [name]⟩

/-- The last name. -/
def name (p : Path) : String :=
  p.parts.getLastD ""

/-- A name from its last dot on. A dot at either end of the name does not count. -/
def suffixOf (cs : List Char) : List Char :=
  let tail := cs.reverse.takeWhile (· ≠ '.')
  if tail.isEmpty || cs.length ≤ tail.length + 1 then [] else '.' :: tail.reverse

/-- The suffix of the last name. -/
def suffix (p : Path) : String :=
  String.ofList (suffixOf p.name.toList)

/-- The names with each double dot taking away the name before it. -/
def normal (parts : List String) : List String :=
  parts.foldl (fun acc x => if x = ".." then acc.dropLast else acc ++ [x]) []

/-- The one absolute path without double dots for a path, seen from a working folder. -/
def resolve (cwd p : Path) : Path :=
  ⟨"/", normal (cwd.join p).parts⟩

/-- The order of paths, by their roots and then name by name. -/
def before (p q : Path) : Bool :=
  decide (p.root :: p.parts < q.root :: q.parts)

end Path

end ScriptHost.Files
