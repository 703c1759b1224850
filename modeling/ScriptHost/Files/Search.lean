import ScriptHost.Files.Pattern
import ScriptHost.Files.Tree

/-!
# Searching a tree

All paths below a folder that fit a pattern of names. A part `**` stands for any folders on the
way; a part without pattern characters is looked up and not compared, so it may also be `..`.
-/
namespace ScriptHost.Files

/-- A part of a search. -/
inductive Step where
  /-- Any folder below, or the same. -/
  | deep
  | named (name : String)
  | fitting (pattern : List Piece)
  /-- Nothing more: what was found has to be a folder. -/
  | stop
  deriving DecidableEq, Repr

/-- Whether a text holds two stars in a row. -/
def hasStars : List Char → Bool
  | '*' :: '*' :: _ => true
  | _ :: rest => hasStars rest
  | [] => false

def Step.ofString (s : String) : Except Fault Step :=
  let cs := s.toList
  if cs.isEmpty then .ok .stop
  else if cs = ['*', '*'] then .ok .deep
  else if hasStars cs then .error .patternStars
  else if Pattern.isPattern cs then .ok (.fitting (Pattern.parse cs))
  else .ok (.named s)

/-- The steps of a search at any depth for a pattern. -/
def searchSteps (pattern : String) : Except Fault (List Step) :=
  if rootOf pattern.toList ≠ "" then .error .patternAbsolute
  else
    let parts := namesIn pattern.toList
    let parts := if pattern.toList.getLast? = some '/' then parts ++ [""] else parts
    do return .deep :: (← parts.mapM Step.ofString)

/-- What a path leads to: nothing, or a node. A name that is too long is a fault of its own, unless
the path cannot be asked for at all. -/
def look (root : Node) (cwd p : Path) : Except Fault (Option Node) :=
  if p.parts.any (·.toList.contains '\x00') then .ok none
  else
    match root.locate cwd p with
    | .ok (_, n) => .ok (some n)
    | .error .nameTooLong => .error (.file .nameTooLong p.toString)
    | .error _ => .ok none

/-- The folders at and below a folder. -/
def foldersBelow (p : Path) : Node → List Path
  | .file _ => []
  | .folder es => p :: go es
where
  go : List (String × Node) → List Path
    | [] => []
    | (x, n) :: rest => foldersBelow (p.child x) n ++ go rest

/-- The paths that steps lead to from a path. -/
def search (root : Node) (cwd : Path) : List Step → Path → Except Fault (List Path)
  | [], p => .ok [p]
  | .stop :: _, p => .ok [p]
  | .deep :: rest, p => do
    match ← look root cwd p with
    | some n => return (← (foldersBelow p n).mapM (search root cwd rest)).flatten.eraseDups
    | none => return []
  | .named x :: rest, p => do
    let q := p.child x
    match ← look root cwd q with
    | some n => if rest.isEmpty || n.isFolder then search root cwd rest q else return []
    | none => return []
  | .fitting pattern :: rest, p => do
    match ← look root cwd p with
    | some n =>
      let fits := n.entries.filter fun (x, m) =>
        (rest.isEmpty || m.isFolder) && Pattern.accepts pattern x.toList
      return (← fits.mapM fun (x, _) => search root cwd rest (p.child x)).flatten
    | none => return []

/-- The least of some paths. -/
def leastPath : List Path → Option Path
  | [] => none
  | p :: rest =>
    match leastPath rest with
    | some q => if q.before p then some q else some p
    | none => some p

end ScriptHost.Files
