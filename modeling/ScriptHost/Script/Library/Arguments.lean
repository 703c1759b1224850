import ScriptHost.Script.Library.Names
import ScriptHost.Script.Operators

/-!
# Arguments of library functions

What a library function reads its arguments by, and how it refuses them: a failure says which
argument is at fault and by which name the function was called. A function without a name of its own
in the script goes by the name under which the loaded libraries have it.
-/
namespace ScriptHost.Script.Library

open Text (Bytes)
open Number (Binary64)

/-- A call of a library function. -/
structure Invocation extends Context where
  function : Native
  args : List Value
  /-- How many of the arguments were put in front by metatables. -/
  extra : Nat

/-- The field of a table of tables that holds a value: the keys that lead to it, of which there may
be so many. -/
def fieldPath? (h : Heap) (wanted : Value) : Nat → Nat → Option Bytes
  | 0, _ => none
  | depth + 1, place =>
    (h.table place).entries.findSome? fun (key, v) =>
      match key with
      | .text x =>
        if v.rawEq wanted then some x
        else match v with
          | .table t => (fieldPath? h wanted depth t).map fun y => x ++ Text.encode "." ++ y
          | _ => none
      | _ => none

/-- The name under which the loaded libraries have a function. -/
def libraryName? (h : Heap) (home : Nat) (f : Value) : Option Bytes :=
  (fieldPath? h f 2 (h.environment home).loaded).map fun path =>
    let globals := Text.encode "_G."
    if globals.isPrefixOf path then path.drop globals.length else path

namespace Invocation

variable {α : Type}

/-- The argument of a number, counted from one. -/
def arg (c : Invocation) (n : Nat) : Value :=
  c.args[n - 1]?.getD .nil

/-- Whether there is an argument of a number. -/
def has (c : Invocation) (n : Nat) : Bool :=
  n ≤ c.args.length

/-- Whether an argument is missing or nil. -/
def lacks (c : Invocation) (n : Nat) : Bool :=
  c.arg n == .nil

/-- Raises a message with the place of the caller in front. -/
def refuse (c : Invocation) (message : String) : Eval α :=
  c.failAt 1 (Text.encode message)

/-- Raises that an argument is at fault. The object a method is called on is not counted. -/
def failArg (c : Invocation) (n : Nat) (why : Bytes) : Eval α := do
  let called := c.site.trace.calledAs
  let h ← Eval.heap
  let name := match called with
    | some ⟨_, x⟩ => x.takeWhile (· != 0)
    | none => (libraryName? h c.site.home (.native c.function)).getD (Text.encode "?")
  let bad := fun (what : String) (n : Nat) =>
    c.failAt 1 (Text.encode s!"bad {what} #{n} to '" ++ name ++ Text.encode "' (" ++ why
      ++ Text.encode ")")
  if n ≤ c.extra then bad "extra argument" n
  else
    let n := n - c.extra
    if (called.map Named.kind) = some "method" then
      if n = 1 then
        c.failAt 1 (Text.encode "calling '" ++ name ++ Text.encode "' on bad self (" ++ why
          ++ Text.encode ")")
      else bad "argument" (n - 1)
    else bad "argument" n

/-- Raises that an argument is at fault, with plain words why. -/
def failArgWith (c : Invocation) (n : Nat) (why : String) : Eval α :=
  c.failArg n (Text.encode why)

/-- The name of the type of an argument in messages. -/
def argType (c : Invocation) (n : Nat) : Eval Bytes := do
  if c.has n then
    match Script.metamethod (← Eval.heap) c.site.home (c.arg n) "__name" with
    | .text name => return name
    | _ => return Text.encode (c.arg n).typeName
  else return Text.encode "no value"

/-- Raises that an argument is of the wrong type. -/
def failType (c : Invocation) (n : Nat) (expected : String) : Eval α := do
  c.failArg n (Text.encode s!"{expected} expected, got " ++ (← c.argType n))

/-- An argument that must be there. -/
def any (c : Invocation) (n : Nat) : Eval Value :=
  if c.has n then pure (c.arg n) else c.failArgWith n "value expected"

def table (c : Invocation) (n : Nat) : Eval Nat :=
  match c.arg n with
  | .table t => pure t
  | _ => c.failType n "table"

/-- An argument that must be a function. -/
def callable (c : Invocation) (n : Nat) : Eval Unit :=
  match c.arg n with
  | .function _ | .native _ => pure ()
  | _ => c.failType n "function"

def int (c : Invocation) (n : Nat) : Eval Int64 :=
  match toInt? (c.arg n) with
  | some i => pure i
  | none =>
    if (toNumeral? (c.arg n)).isSome then
      c.failArgWith n "number has no integer representation"
    else c.failType n "number"

/-- A whole number, or another for an argument that is missing. -/
def intOr (c : Invocation) (n : Nat) (other : Int64) : Eval Int64 :=
  if c.lacks n then pure other else c.int n

def number (c : Invocation) (n : Nat) : Eval Numeral :=
  match toNumeral? (c.arg n) with
  | some x => pure x
  | none => c.failType n "number"

/-- A number as a double precision one. -/
def float (c : Invocation) (n : Nat) : Eval Binary64 :=
  Numeral.toFloat <$> c.number n

def text (c : Invocation) (n : Nat) : Eval Bytes :=
  match plainText? (c.arg n) with
  | some b => pure b
  | none => c.failType n "string"

/-- A text, or another for an argument that is missing. -/
def textOr (c : Invocation) (n : Nat) (other : Bytes) : Eval Bytes :=
  if c.lacks n then pure other else c.text n

end Invocation

end ScriptHost.Script.Library
