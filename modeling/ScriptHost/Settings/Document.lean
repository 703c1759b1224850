import ScriptHost.Settings.Node

/-!
# Settings documents

The value of a tree of nodes. A key that is given twice has its last value in its first place. Nodes
are read level by level, all of one level from the first to the last before any of the next, so of
several faults the one that counts is the first on the first level.
-/
namespace ScriptHost.Settings

/-! ### Values -/

namespace Value

/-- Whether two values are the same key. -/
def sameKey : Value → Value → Bool
  | .null, .null => true
  | .text a, .text b => a = b
  | .bytes a, .bytes b => a = b
  | .date a, .date b => a = b
  | .moment a, .moment b => a.same b
  | .bool a, .bool b => a = b
  | .int a, .int b => a = b
  | .float a, .float b => a.same b
  | .bool a, .int b | .int b, .bool a => b = if a then 1 else 0
  | .float x, .int i | .int i, .float x => x.rank = some (.ofInt i)
  | .float x, .bool b | .bool b, .float x => x.rank = some (.ofInt (if b then 1 else 0))
  | _, _ => false

/-- Whether a value can be a key. -/
def isScalar : Value → Bool
  | .list _ | .set _ | .map _ => false
  | _ => true

/-- Gives a key a value, in the place of the one it has. -/
def putEntry (es : List (Value × Value)) (k v : Value) : List (Value × Value) :=
  if es.any fun e => e.1.sameKey k then es.map fun e => if e.1.sameKey k then (e.1, v) else e
  else es ++ [(k, v)]

end Value

/-! ### Reading level by level -/

/-- A result, or a fault with the level it was found on. -/
abbrev Leveled (α : Type) := Except (Nat × Fault) α

namespace Leveled

variable {α β : Type}

/-- A fault on a level. -/
def fail (level : Nat) (why : String) : Leveled α :=
  .error (level, .settings why)

/-- A result that is found on a level. -/
def at_ (level : Nat) : Except Fault α → Leveled α
  | .ok a => .ok a
  | .error f => .error (level, f)

/-- Two results of which the first comes first. Of two faults the one on the lower level counts. -/
def both (a : Leveled α) (b : Leveled β) : Leveled (α × β) :=
  match a, b with
  | .ok x, .ok y => .ok (x, y)
  | .error (m, f), .error (n, g) => .error (if n < m then (n, g) else (m, f))
  | .error e, .ok _ | .ok _, .error e => .error e

/-- Results in a row. -/
def all : List (Leveled α) → Leveled (List α)
  | [] => .ok []
  | a :: rest => (both a (all rest)).map fun (x, xs) => x :: xs

end Leveled

namespace Node

/-- The text of a scalar, or of the entry of a map that stands for it. -/
def textOf : Nat → Node → Except Fault String
  | _, .scalar text _ => .ok text
  | n + 1, .map es _ =>
    match es.find? fun e => match e.1 with
      | .scalar _ .value | .list _ .value | .map _ .value => true
      | _ => false with
    | some (_, v) => textOf n v
    | none => .error (.settings "expected a scalar node")
  | _, _ => .error (.settings "expected a scalar node")

def kind : Node → Kind
  | .scalar _ k | .list _ k | .map _ k => k

/-- A key of a map as it is read: the key that stands for a map is a text among others. -/
def asKey : Node → Node
  | .scalar s .value => .scalar s .text
  | .list l .value => .list l .text
  | .map es .value => .map es .text
  | k => k

mutual

/-- The entries of a map with those it takes in, which come first. -/
def flattened : Nat → List (Node × Node) → Except Fault (List (Node × Node))
  | 0, es => .ok es
  | n + 1, es => do
    let taken ← (es.filter (·.1.kind = .merge)).mapM fun e => taken n e.2
    return taken.flatten
      ++ (es.filter (·.1.kind ≠ .merge)).map fun (k, v) => (asKey k, v)

/-- What a map takes in: the entries of a map, or those of several, of which the first wins. -/
def taken : Nat → Node → Except Fault (List (Node × Node))
  | n + 1, .map es _ => flattened n es
  | n + 1, .list items _ => do
    let parts ← items.mapM fun item =>
      match item with
      | .map es _ => flattened n es
      | _ => throw (.settings "expected a mapping for merging")
    return parts.reverse.flatten
  | _, _ => .error (.settings "expected a mapping or list of mappings for merging")

end

/-- The value of a node that is met on a level, with so many levels of nesting left. What a list or
a map holds is met on the next level. -/
def value (level : Nat) : Nat → Node → Leveled Value
  | 0, _ => .error (level, .tooDeep)
  | n + 1, node =>
    let inner := level + 1
    -- what a key holds would be met on a level of its own, but a key with parts is none
    let unhashable : Leveled (Value × Value) := Leveled.fail inner "found unhashable key"
    let entries : List (Node × Node) → Leveled (List (Value × Value)) := fun es =>
      match flattened n es with
      | .error f => .error (inner, f)
      | .ok es => Leveled.all (es.map fun (k, v) =>
        match value inner n k with
        | .error (m, f) => if inner < m then unhashable else .error (m, f)
        | .ok key =>
          if key.isScalar then (value inner n v).map fun v => (key, v)
          else unhashable)
    let put := fun (es : List (Value × Value)) =>
      es.foldl (fun es (k, v) => Value.putEntry es k v) []
    match node.kind, node with
    | .unknown, _ | .merge, _ | .value, _ => Leveled.fail level "could not determine a constructor"
    | .list, .list items _ => (Leveled.all (items.map (value inner n))).map .list
    | .list, _ => Leveled.fail inner "expected a sequence node"
    | .map, .map es _ => (entries es).map fun es => .map (put es)
    | .set, .map es _ => (entries es).map fun es => .set ((put es).map Prod.fst)
    | .map, _ | .set, _ => Leveled.fail inner "expected a mapping node"
    | .pairs, .list items _ => (Leveled.all (items.map fun
      | .map [(k, v)] _ =>
        (Leveled.both (value inner n k) (value inner n v)).map fun (k, v) => Value.pair k v
      | _ => Leveled.fail inner "expected a single mapping item")).map .list
    | .pairs, _ => Leveled.fail inner "expected a sequence"
    | .moment, .scalar s _ => Leveled.at_ level (Kind.read .moment s)
    | .moment, node => Leveled.at_ level do
      let _ ← textOf n node
      throw (.mismatch (.notText "list"))
    | k, node => Leveled.at_ level (textOf n node >>= k.read)

end Node

/-- How deep a settings file may nest. -/
def depthLimit : Nat := 480

/-- The value a settings file holds. -/
def Value.ofText (s : String) : Except Fault Value := do
  let ts ← tokens s.toList
  let (made, _) ← (Parse.document depthLimit).run { rest := ts }
  match made with
  | none => return .null
  | some n => (n.value 0 (2 * depthLimit + 2)).mapError Prod.snd

end ScriptHost.Settings
