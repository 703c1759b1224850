import ScriptHost.Number.Binary64
import ScriptHost.Settings.Moment
import ScriptHost.Text.Utf8

/-!
# Setting values

What a settings file can say: scalars, lists, sets and maps, the entries of a map in their order.
-/
namespace ScriptHost.Settings

open Number (Binary64)

inductive Value where
  | null
  | bool (value : Bool)
  | int (value : Int)
  | float (value : Binary64)
  | text (value : String)
  | bytes (value : Text.Bytes)
  | date (value : Date)
  | moment (value : Moment)
  | list (items : List Value)
  /-- A key and its value, as an item of a list. -/
  | pair (key value : Value)
  | set (items : List Value)
  | map (entries : List (Value × Value))
  deriving Repr, Inhabited

end ScriptHost.Settings
