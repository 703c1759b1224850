import ScriptHost.Script.Numeral
import ScriptHost.Script.Syntax

/-!
# Values of scripts

Values are small: a table, a function and a foreign object are known by where they are kept.
-/
namespace ScriptHost.Script

open Text (Bytes)
open Number (Binary64)

/-- Functions of the text library. -/
inductive TextFunction where
  | byte | char | dump | find | format | gmatch | gsub | len | lower | match | pack | packsize
  | rep | reverse | sub | unpack | upper
  deriving DecidableEq, Repr

/-- Functions of the table library. -/
inductive TableFunction where
  | concat | create | insert | move | pack | remove | sort | unpack
  deriving DecidableEq, Repr

/-- Functions of the mathematical library. -/
inductive MathFunction where
  | abs | acos | asin | atan | ceil | cos | deg | exp | floor | fmod | frexp | ldexp | log | max
  | min | modf | rad | random | randomseed | sin | sqrt | tan | tointeger | type | ult
  deriving DecidableEq, Repr

/-- Functions of the coroutine library. -/
inductive CoroutineFunction where
  | close | create | isyieldable | resume | running | status | wrap | yield
  deriving DecidableEq, Repr

/-- What scripts can do with objects of the host. -/
inductive ObjectFunction where
  | call | index | assign | show
  deriving DecidableEq, Repr

/-- The functions every environment begins with. -/
inductive Native where
  | assert | collectgarbage | error | getmetatable | ipairs | load | next | pairs | pcall | print
  | rawequal | rawget | rawlen | rawset | select | setmetatable | tonumber | tostring | type
  | xpcall
  /-- The step of an `ipairs` loop. -/
  | ipairsStep
  | text (f : TextFunction)
  | table (f : TableFunction)
  | math (f : MathFunction)
  | coroutine (f : CoroutineFunction)
  /-- The operators of text: arithmetic on texts that are numerals. -/
  | textArith (op : ArithOp)
  | textNegate
  /-- The step of a loop over matches, with the table that holds how far it is. -/
  | nextMatch (state : Nat)
  /-- A function in the metatable of objects of the host. -/
  | object (f : ObjectFunction)
  /-- A function that is present but does nothing here: it belongs to the system outside. -/
  | outside (name : String)
  deriving DecidableEq, Repr, Inhabited

inductive Value where
  | nil
  | bool (value : Bool)
  | int (value : Int64)
  | float (value : Binary64)
  | text (value : Bytes)
  | table (place : Nat)
  | function (place : Nat)
  | native (function : Native)
  /-- An object of the host. -/
  | foreign (place : Nat)
  | thread (place : Nat)
  deriving DecidableEq, Repr, Inhabited

namespace Value

/-- What conditions accept: everything but nil and false. -/
def truthy : Value → Bool
  | .nil => false
  | .bool b => b
  | _ => true

def ofNumeral : Numeral → Value
  | .int i => .int i
  | .float x => .float x

/-- The number a value is, texts not counted. -/
def numeral? : Value → Option Numeral
  | .int i => some (.int i)
  | .float x => some (.float x)
  | _ => none

/-- A value as a table key: a double precision number that is whole is the same key as the whole
number. -/
def toKey : Value → Value
  | .float x =>
    match x.toInt? >>= fitInt? with
    | some i => .int i
    | none => .float x
  | v => v

/-- Equality without the help of metatables. -/
def rawEq : Value → Value → Bool
  | .float x, .float y => x.same y
  | .int i, .float y => some (.ofInt i.toInt) == y.rank
  | .float x, .int j => x.rank == some (.ofInt j.toInt)
  | v, w => v == w

/-- The name of the type of a value. -/
def typeName : Value → String
  | .nil => "nil"
  | .bool _ => "boolean"
  | .int _ | .float _ => "number"
  | .text _ => "string"
  | .table _ => "table"
  | .function _ | .native _ => "function"
  | .foreign _ => "userdata"
  | .thread _ => "thread"

/-- A text of a script from plain text. -/
def ofString (s : String) : Value :=
  .text (Text.encode s)

end Value

end ScriptHost.Script
