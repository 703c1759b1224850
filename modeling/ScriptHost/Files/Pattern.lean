/-!
# Name patterns

Patterns for the names of files: `*` stands for any text, `?` for any character, and a set in
brackets for one of its characters, or for any other after an exclamation mark. `Pattern.parse`
reads a pattern, `Pattern.accepts` says which names it stands for.
-/
namespace ScriptHost.Files

/-- A piece of a pattern. -/
inductive Piece where
  | one (c : Char)
  | any
  | many
  /-- A character between the ends of one of the ranges, or between those of none. -/
  | among (negated : Bool) (ranges : List (Char × Char))
  deriving DecidableEq, Repr

namespace Piece

/-- Whether a piece that stands for one character stands for this one. -/
def accepts : Piece → Char → Bool
  | .one d, c => c = d
  | .any, _ => true
  | .many, _ => false
  | .among negated ranges, c => (ranges.any fun (a, b) => a ≤ c && c ≤ b) != negated

end Piece

namespace Pattern

/-- The inside of a set, up to the bracket that closes it, and the rest. A bracket that comes first
does not close the set, nor does one after an exclamation mark that comes first. -/
def takeSet (cs : List Char) : Option (List Char × List Char) :=
  let (mark, cs) := match cs with
    | '!' :: rest => (['!'], rest)
    | cs => ([], cs)
  let (first, cs) := match cs with
    | ']' :: rest => ([']'], rest)
    | cs => ([], cs)
  match cs.dropWhile (· ≠ ']') with
  | [] => none
  | _ :: rest => some (mark ++ first ++ cs.takeWhile (· ≠ ']'), rest)

/-- The chunks of a set between the hyphens that make ranges. Such a hyphen has at least `wait`
characters of its chunk before it. -/
def chunks (wait : Nat) (chunk : List Char) : List Char → List (List Char)
  | [] => [chunk.reverse]
  | c :: rest =>
    if c = '-' && wait = 0 then chunk.reverse :: chunks 2 [] rest
    else chunks (wait - 1) (c :: chunk) rest

/-- A hyphen at the end makes no range: it joins the chunk before it. -/
def joinLast : List (List Char) → List (List Char)
  | [] => []
  | [c] => [c]
  | [c, []] => [c ++ ['-']]
  | c :: rest => c :: joinLast rest

/-- Takes the empty ranges away, the last first: where a range ends before it begins, its two ends
go and the chunks around it become one. -/
def dropEmpty : List (List Char) → List (List Char)
  | [] => []
  | c :: rest =>
    match dropEmpty rest with
    | [] => [c]
    | d :: more =>
      match c.getLast?, d.head? with
      | some a, some b => if b < a then (c.dropLast ++ d.tail) :: more else c :: d :: more
      | _, _ => c :: d :: more

/-- The ranges of chunks: one for each character, and one between neighbours. -/
def ranges : List (List Char) → List (Char × Char)
  | [] => []
  | c :: rest =>
    let between := match c.getLast?, rest.head?.bind List.head? with
      | some a, some b => [(a, b)]
      | _, _ => []
    c.map (fun x => (x, x)) ++ between ++ ranges rest

/-- The piece that a set is. -/
def setPiece (inside : List Char) : Piece :=
  let wait := if inside.head? = some '!' then 2 else 1
  match dropEmpty (joinLast (chunks wait [] inside)) with
  | ('!' :: first) :: rest => .among true (ranges (first :: rest))
  | cs => .among false (ranges cs)

/-- The pieces of a pattern, read with so many steps left. -/
def parseWithin : Nat → List Char → List Piece
  | 0, _ => []
  | _ + 1, [] => []
  | n + 1, '*' :: rest => .many :: parseWithin n rest
  | n + 1, '?' :: rest => .any :: parseWithin n rest
  | n + 1, '[' :: rest =>
    match takeSet rest with
    | some (inside, rest) => setPiece inside :: parseWithin n rest
    | none => .one '[' :: parseWithin n rest
  | n + 1, c :: rest => .one c :: parseWithin n rest

/-- The pieces of a pattern. -/
def parse (cs : List Char) : List Piece :=
  parseWithin cs.length cs

/-- Whether a pattern stands for a name. -/
def accepts : List Piece → List Char → Bool
  | [], cs => cs.isEmpty
  | .many :: rest, cs => acceptsAfter rest cs
  | p :: rest, c :: cs => p.accepts c && accepts rest cs
  | _ :: _, [] => false
where
  /-- Whether some end of a name fits the rest of the pattern. -/
  acceptsAfter (rest : List Piece) : List Char → Bool
    | [] => accepts rest []
    | c :: cs => accepts rest (c :: cs) || acceptsAfter rest cs

/-- Whether a text has a character that makes it a pattern. -/
def isPattern (cs : List Char) : Bool :=
  cs.any fun c => c = '*' || c = '?' || c = '['

end Pattern

end ScriptHost.Files
