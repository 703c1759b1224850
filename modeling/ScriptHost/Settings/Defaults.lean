import ScriptHost.Settings.Document

/-!
# The settings of a host

The settings a host has by itself, and what a file changes of them: a section of the file changes
the entries it names and leaves the others of that section, and what the file leaves empty stays.
-/
namespace ScriptHost.Settings

/-- Settings by their keys, in order. -/
abbrev Entries := List (Value × Value)

/-- A section with texts as keys. -/
def section_ (es : List (String × Value)) : Value :=
  .map (es.map fun (k, v) => (.text k, v))

/-- The settings of a host that is told nothing. -/
def defaults : Entries :=
  [(.text "name", .text "LuaHost"),
    (.text "plugins", .list [.text "standard"]),
    (.text "scripts", section_
      [("root", .text "plugins"), ("extension", .text ".lua"), ("autoload", .null)]),
    (.text "lua", section_ [("stdlib", .list [])]),
    (.text "engine", section_ [("tick_rate", .int 10)]),
    (.text "api", section_
      [("enabled", .bool false), ("host", .text "127.0.0.1"), ("port", .int 8080)]),
    (.text "commands", section_ [("prefix", .text "lua")]),
    (.text "dev", section_ [("hot_reload", .bool false)]),
    (.text "logging", section_ [("level", .text "INFO")])]

/-- The value of a key. -/
def find? (es : Entries) (key : Value) : Option Value :=
  (es.find? fun e => e.1.sameKey key).map (·.2)

/-- Changes settings by one entry of a file. -/
def mergeEntry (es : Entries) (key value : Value) : Entries :=
  match value, find? es key with
  | .null, _ => es
  | .map news, some (.map olds) =>
    Value.putEntry es key (.map (news.foldl (fun acc (k, v) => Value.putEntry acc k v) olds))
  | v, _ => Value.putEntry es key v

/-- Changes settings by the entries of a file. -/
def merge (es news : Entries) : Entries :=
  news.foldl (fun acc (k, v) => mergeEntry acc k v) es

namespace Value

/-- The name of the type of a value. -/
def typeName : Value → String
  | .null => "NoneType"
  | .bool _ => "bool"
  | .int _ => "int"
  | .float _ => "float"
  | .text _ => "str"
  | .bytes _ => "bytes"
  | .date _ => "datetime.date"
  | .moment _ => "datetime.datetime"
  | .pair _ _ => "tuple"
  | .set _ => "set"
  | .list _ => "list"
  | .map _ => "dict"

/-- The name of the type of a value without the module in front. -/
def shortTypeName (v : Value) : String :=
  (v.typeName.splitOn ".").getLastD ""

/-- Whether a value counts as yes. -/
def truthy : Value → Bool
  | .null => false
  | .bool b => b
  | .int i => i ≠ 0
  | .float x => !x.abs.same .zero
  | .text s => s ≠ ""
  | .bytes b => !b.isEmpty
  | .date _ | .moment _ | .pair _ _ => true
  | .list l | .set l => !l.isEmpty
  | .map es => !es.isEmpty

/-- The value of a key of a section that has it, or why there is none. -/
def field (v : Value) (key : String) : Except Fault Value :=
  match v with
  | .map es =>
    match find? es (.text key) with
    | some w => .ok w
    | none => .error (.keyMissing (Text.quote key))
  | .list _ => .error (.mismatch (.indices "list" "str"))
  | .text _ => .error (.mismatch (.textIndices "str"))
  | .bytes _ => .error (.mismatch (.indices "byte" "str"))
  | v => .error (.mismatch (.notSubscriptable v.typeName))

/-- The value of a key of a section, or another one where it has none. -/
def fieldOr (v : Value) (key : String) (other : Value) : Except Fault Value :=
  match v with
  | .map es => .ok ((find? es (.text key)).getD other)
  | v => .error (.noAttribute v.typeName "get")

/-- The items a value is made of: those of a list or a set, the keys of a section, the characters of
a text, the numbers of bytes. -/
def items (v : Value) : Except Fault (List Value) :=
  match v with
  | .list l | .set l => .ok l
  | .pair k v => .ok [k, v]
  | .bytes b => .ok (b.map fun x => .int x.toNat)
  | .map es => .ok (es.map (·.1))
  | .text s => .ok (s.toList.map fun c => .text (String.singleton c))
  | v => .error (.mismatch (.notIterable v.typeName))

end Value

/-- The section of a name. -/
def sectionOf (es : Entries) (name : String) : Value :=
  (find? es (.text name)).getD .null

/-- The settings that a file makes of the default ones. Nothing in the file changes nothing. -/
def ofFile (v : Value) : Except Fault Entries :=
  if !v.truthy then .ok defaults
  else
    match v with
    | .map news => .ok (merge defaults news)
    | v => .error (.noAttribute v.typeName "items")

/-- The settings that the text of a file makes. -/
def ofText (s : String) : Except Fault Entries := do
  ofFile (← Value.ofText s)

/-! ### Names that scripts keep -/

namespace Value

/-- Whether a value can be an item of a set. -/
def checkHashable : Value → Except Fault Unit
  | .pair k v => do
    checkHashable k
    checkHashable v
  | .list _ => .error (.mismatch (.unhashable "list"))
  | .set _ => .error (.mismatch (.unhashable "set"))
  | .map _ => .error (.mismatch (.unhashable "dict"))
  | _ => .ok ()

/-- Where a number stands among all numbers; truth values are one and zero. -/
def rank? : Value → Option Number.Binary64.Rank
  | .bool b => some (.ofInt (if b then 1 else 0))
  | .int i => some (.ofInt i)
  | .float x => x.rank
  | _ => none

/-- Whether a value comes before another, as far as there is an order between them. -/
def before (a b : Value) : Except Fault Bool :=
  match a, b with
  | .text s, .text t => .ok (decide (s < t))
  | .bytes s, .bytes t => .ok (decide (s < t))
  | .date s, .date t => .ok (decide (s.dayNumber < t.dayNumber))
  | .moment s, .moment t =>
    if s.offset.isSome == t.offset.isSome then .ok (decide (s.ticks < t.ticks))
    else .error (.mismatch .clocks)
  | .date _, .moment _ | .moment _, .date _ => .error (.mismatch .dateAndMoment)
  | a, b =>
    match a.rank?, b.rank? with
    | some x, some y => .ok (x.lt y)
    | _, _ => .error (.mismatch (.order "<" a.typeName b.typeName))

/-- Puts a value in its place in a row in order, after those that do not come after it. -/
def insertInOrder (v : Value) : List Value → Except Fault (List Value)
  | [] => .ok [v]
  | w :: rest => do
    if ← v.before w then return v :: w :: rest
    else return w :: (← insertInOrder v rest)

end Value

/-- The names in an allowlist. What is no name is missing in any case, and cannot be listed among
those that are missing: the first of them in order is reported. -/
def keptNames (isKnown : String → Bool) (allowed : List Value) : Except Fault (List String) := do
  allowed.forM Value.checkHashable
  let isMissing : Value → Bool
    | .text s => !isKnown s
    | _ => true
  let missing := (allowed.filter isMissing).foldl (fun acc v =>
    if acc.any (Value.sameKey v) then acc else acc ++ [v]) []
  let isText : Value → Bool
    | .text _ => true
    | _ => false
  if !missing.all isText then
    let sorted ← missing.foldlM (fun acc v => v.insertInOrder acc) []
    match sorted.zipIdx.find? fun (v, _) => !isText v with
    | some (v, i) => throw (.mismatch (.joinedItem i v.typeName))
    | none => pure ()
  return allowed.filterMap fun
    | .text s => some s
    | _ => none

end ScriptHost.Settings
