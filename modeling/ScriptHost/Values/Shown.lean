import ScriptHost.Number.Decimal
import ScriptHost.World

/-!
# Values as text

The names of the types of host values and the texts that values are shown by. A text shows as
itself where it stands alone and as a quoted token inside another value.
-/
namespace ScriptHost

open Text (quote)

/-- What messages call the type of a value of a script. -/
def scriptTypeName : Script.Value → String
  | .table _ => "_LuaTable"
  | .thread _ => "_LuaThread"
  | _ => "_LuaFunction"

namespace World

/-- The type of an object. -/
def objectType : Object → String
  | .absent => "NoneType"
  | .list _ => "list"
  | .tuple _ => "tuple"
  | .dict _ => "dict"
  | .entity cls _ => cls.name
  | .cls _ => "type"
  | .callable f => f.type
  | .fault f => f.kind
  | .environment _ => "LuaEnvironment"
  | .bytes _ => "bytes"
  | .plain type _ _ => type
  | .functionEntry _ | .eventEntry _ => "function"

/-- What a class gives its objects. -/
def classInfo (w : World) (cls : Class) : ClassInfo :=
  (w.classes.lookup cls).getD {}

/-- The object at a place. -/
def objectAt (w : World) (place : Nat) : Object :=
  (w.objects[place]?).getD .absent

/-- The name of the type of a value. -/
def typeName (w : World) : Datum → String
  | .none => "NoneType"
  | .bool _ => "bool"
  | .int _ => "int"
  | .float _ => "float"
  | .text _ => "str"
  | .object p => objectType (w.objectAt p)
  | .script _ v => scriptTypeName v

/-- The name of the type of a value without the module in front. -/
def shortTypeName (w : World) (d : Datum) : String :=
  let parts := (w.typeName d).splitOn "."
  parts.getLastD ""

/-- The name of the type of an operand, with the module where the type has one. -/
def operandType (w : World) : Datum → String
  | .script _ v => "lupa.lua55." ++ scriptTypeName v
  | d => w.typeName d

/-- How deep values are shown. -/
def shownDepth : Nat := 100

/-- A value as a part of a text, shown so many levels deep. -/
def spellWithin (w : World) : Nat → Datum → String
  | 0, _ => "..."
  | _, .none => "None"
  | _, .bool b => if b then "True" else "False"
  | _, .int i => toString i
  | _, .float x => Number.shortestText x
  | _, .text s => quote s
  | _, .script _ (.table _) => "<Lua table>"
  | _, .script _ (.thread _) => "<Lua thread>"
  | _, .script _ _ => "<Lua function>"
  | n + 1, .object p =>
    match w.objectAt p with
    | .absent => "None"
    | .list items => "[" ++ ", ".intercalate (items.map (w.spellWithin n)) ++ "]"
    | .tuple [item] => "(" ++ w.spellWithin n item ++ ",)"
    | .tuple items => "(" ++ ", ".intercalate (items.map (w.spellWithin n)) ++ ")"
    | .dict entries =>
      "\x7b" ++ ", ".intercalate (entries.map fun (k, v) =>
        w.spellWithin n k ++ ": " ++ w.spellWithin n v) ++ "\x7d"
    | .entity cls attributes =>
      let info := w.classInfo cls
      if info.showsFields then
        cls.name ++ "(" ++ ", ".intercalate (info.fields.map fun x =>
          x ++ "=" ++ w.spellWithin n ((attributes.lookup x).getD .none)) ++ ")"
      else s!"<{cls.qualified} object>"
    | .cls cls =>
      if cls.module = "builtins" then s!"<class '{cls.name}'>" else s!"<class '{cls.qualified}'>"
    | .callable f => f.shown
    | .fault f => f.message
    | .environment _ => "<environment>"
    | .bytes b => Text.quoteBytes b
    | .plain _ _ spelled => spelled
    | .functionEntry _ | .eventEntry _ => "<function>"

/-- A value as a part of a text. -/
def spell (w : World) (d : Datum) : String :=
  w.spellWithin shownDepth d

/-- The text of a value. -/
def shown (w : World) : Datum → String
  | .text s => s
  | .object p =>
    match w.objectAt p with
    | .plain _ shown _ => shown
    | _ => w.spell (.object p)
  | d => w.spell d

end World

end ScriptHost
