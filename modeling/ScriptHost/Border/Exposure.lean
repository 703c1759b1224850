import ScriptHost.Values.Shown

/-!
# What scripts may touch

Scripts may read and change the attributes of an object if the attribute is public and a class of
the object has been exposed.
-/
namespace ScriptHost

namespace Class

def int : Class := ⟨"builtins", "int"⟩
def text : Class := ⟨"builtins", "str"⟩
def list : Class := ⟨"builtins", "list"⟩
def bool : Class := ⟨"builtins", "bool"⟩
def float : Class := ⟨"builtins", "float"⟩
def tuple : Class := ⟨"builtins", "tuple"⟩
def dict : Class := ⟨"builtins", "dict"⟩

end Class

namespace World

/-- The classes a value belongs to. -/
def classesOf (w : World) : Datum → List Class
  | .int _ => [.int]
  | .bool _ => [.bool, .int]
  | .float _ => [.float]
  | .text _ => [.text]
  | .object p =>
    match w.objectAt p with
    | .list _ => [.list]
    | .tuple _ => [.tuple]
    | .dict _ => [.dict]
    | .entity cls _ => cls :: (w.classInfo cls).ancestors
    | _ => []
  | _ => []

/-- Whether a value belongs to one of some exposed classes. -/
def isExposed (w : World) (exposed : List Class) (d : Datum) : Bool :=
  (w.classesOf d).any exposed.contains

/-- Lets an access to an attribute pass, or says why not. -/
def filterAttribute (w : World) (exposed : List Class) (d : Datum) (name : String) :
    Except Fault Unit :=
  if name.toList.head? = some '_' then .error (.privateAttribute name)
  else if w.isExposed exposed d then .ok ()
  else .error (.typeNotExposed (w.shortTypeName d))

/-- The classes that are exposed in an environment. -/
def exposedIn (w : World) (home : Nat) : List Class :=
  match w.homes[home]? with
  | some h => if h.sharesTypes then w.exposed else []
  | none => []

end World

namespace Op

/-- Exposes a class, and tells whether it was new. -/
def registerType (cls : Class) : Op Bool := do
  if (← get).exposed.contains cls then
    debug "luahost.lua_env" s!"Type '{cls.qualified}' is already registered. Skipping."
    return false
  modify fun w => { w with exposed := w.exposed ++ [cls] }
  debug "luahost.lua_env" s!"Successfully registered type '{cls.qualified}'."
  return true

end Op

end ScriptHost
