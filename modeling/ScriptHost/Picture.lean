import ScriptHost.Request

/-!
# Pictures

A value as it looks at one moment, with all that is in it, so that it stays the same when the value
changes.
-/
namespace ScriptHost

inductive Picture where
  | none
  | bool (value : Bool)
  | int (value : Int)
  | float (value : Number.Binary64)
  | text (value : String)
  | list (items : List Picture)
  | tuple (items : List Picture)
  | dict (entries : List (Picture × Picture))
  /-- A table of a script, its keys in order. -/
  | table (entries : List (Picture × Picture))
  /-- A table that is nested too deep to be looked into. -/
  | deep
  | function
  | thread
  | entity (cls : Class) (attributes : List (String × Picture))
  | fault (fault : Fault)
  | cls (cls : Class)
  | callable
  | environment
  deriving Repr, Inhabited

end ScriptHost
