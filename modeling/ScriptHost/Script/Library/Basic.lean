import ScriptHost.Script.Compile.Statement
import ScriptHost.Script.Library.Arguments

/-!
# Basic functions

Failures, types, conversions, metatables, the walks over tables and the making of functions.
-/
namespace ScriptHost.Script

open Text (Bytes)

namespace Context

/-- Calls the functions that close some values after a raised one, which each of them may
replace. -/
def closeAll (c : Context) (e : Value) (values : List Value) : Eval Value :=
  Eval.repeating (fun ((e, values) : Value × List Value) => do
    match values with
    | [] => return .inr e
    | v :: rest =>
      let close ← c.metamethod v "__close"
      match ← Eval.attempt (c.call close [v, e]) with
      | .ok _ => return .inl (e, rest)
      | .error (e, inner) => return .inl (e, inner ++ rest)) (e, values)

/-- Calls a value and ends with its results or with what it raised. A handler is called with a
raised value where that is raised. -/
def protect (c : Context) (handler : Option Value) (f : Value) (args : List Value) :
    Eval (Except Value (List Value)) := do
  let c := { c with site := { c.site with handler := handler } }
  match ← Eval.attempt (c.call f args) with
  | .ok vs => return .ok vs
  | .error (e, values) => return .error (← c.closeAll e values)

end Context

/-! ### Making functions -/

/-- The first byte of a text that is no script but was made by a compiler. -/
def compiledMark : UInt8 := 27

/-- Why a text that was made by a compiler cannot be used; none can. -/
def compiledFault (s : Bytes) : String :=
  let signature := Text.encode "Lua"
  let rest := s.drop 1
  if rest.length < signature.length then "truncated chunk"
  else if !signature.isPrefixOf rest then "not a binary chunk"
  else match rest.drop signature.length with
    | [] => "truncated chunk"
    | version :: rest =>
      if version != 0x55 then "version mismatch"
      else match rest with
        | [] => "truncated chunk"
        | format :: rest =>
          if format != 0 then "format mismatch"
          else if rest.length < 6 then "truncated chunk"
          else "corrupted chunk"

/-- How messages name a text: what was given for it after a sign, or its first line. -/
def chunkName (given : Bytes) : Bytes :=
  let limit := 59
  match given with
  | 61 :: rest => rest.take limit
  | 64 :: rest =>
    if rest.length < limit then rest
    else Text.encode "..." ++ rest.drop (rest.length - (limit - 3))
  | _ =>
    let first := given.takeWhile (· != 10)
    let room := limit + 1 - 15
    let cut := first.length < given.length || room ≤ first.length
    Text.encode "[string \"" ++ (if cut then first.take room ++ Text.encode "..." else first)
      ++ Text.encode "\"]"

/-- A function of a text that is named by `given`, with the globals it may use, or the message why
there is none. -/
def compile (home : Nat) (globals : Value) (given source : Bytes) (depth : Nat) :
    Eval (Except Bytes Value) :=
  if source.head? = some compiledMark then
    let name := match given with
      | b :: rest =>
        if b == 61 || b == 64 then rest
        else if b == compiledMark then Text.encode "binary string"
        else given
      | [] => []
    return .error (name ++ Text.encode s!": bad binary format ({compiledFault source})")
  else
    let chunk := chunkName given
    match Prototype.ofText chunk source depth with
    | .error f => return .error (f.message chunk)
    | .ok code => do
      let cell ← Eval.newCell globals
      return .ok (.function (← Eval.newFunction ⟨home, code, #[cell]⟩))

namespace Library

open Number (Binary64)

/-! ### Failures -/

/-- Raises a value, with the place of the function of a level in front of a text. -/
def raiseAt {α : Type} (c : Invocation) (v : Value) (level : Int) : Eval α :=
  match v with
  | .text b => if 0 < level then c.failAt level.toNat b else c.raise v
  | v => c.raise v

def assert (c : Invocation) : Eval (List Value) := do
  if (c.arg 1).truthy then return c.args
  let _ ← c.any 1
  raiseAt c (if c.has 2 then c.arg 2 else .ofString "assertion failed!") 1

def error (c : Invocation) : Eval (List Value) := do
  let level ← c.intOr 2 1
  raiseAt c (c.arg 1) (level.toInt.bmod (2 ^ 32))

/-- The results of a protected call: whether it went well, and its values or what was raised. -/
def protectedResults : Except Value (List Value) → List Value
  | .ok vs => .bool true :: vs
  | .error e => [.bool false, e]

/-- Calls a function with arguments in a part of the stack of its own. -/
def attemptAt (c : Invocation) (handler : Option Value) (shift : Nat) (f : Value)
    (args : List Value) : Eval (List Value) := do
  let base := c.site.top - c.args.length
  let site := { c.site with top := base + shift }
  return protectedResults (← { c.toContext with site := site }.protect handler f args)

/-- Calls a function and tells whether it went well. -/
def pcall (c : Invocation) : Eval (List Value) := do
  let f ← c.any 1
  attemptAt c none 1 f (c.args.drop 1)

/-- Like `pcall`, with a function that is called with what is raised. -/
def xpcall (c : Invocation) : Eval (List Value) := do
  c.callable 2
  attemptAt c (some (c.arg 2)) 3 (c.arg 1) (c.args.drop 2)

/-! ### Types and conversions -/

def type (c : Invocation) : Eval (List Value) := do
  return [.ofString (← c.any 1).typeName]

def tostring (c : Invocation) : Eval (List Value) := do
  let v ← c.any 1
  return [.text (← c.show v)]

def print (c : Invocation) : Eval (List Value) := do
  c.args.forM fun v => discard (c.show v)
  return []

/-- The whole number that a text spells in a base, blanks around it aside. It wraps around. -/
def readInBase? (base : Nat) (s : Bytes) : Option Int64 :=
  let (negative, ds) := takeSign (trimSpaces s)
  let fits := fun d => match digitValue? d with
    | some n => n < base
    | none => false
  if ds.isEmpty || !ds.all fits then none
  else
    let n := Int64.ofInt (digitsValue base ds)
    some (if negative then -n else n)

def tonumber (c : Invocation) : Eval (List Value) := do
  if c.lacks 2 then
    match toNumeral? (c.arg 1) with
    | some n => return [.ofNumeral n]
    | none =>
      let _ ← c.any 1
      return [.nil]
  else
    let base ← c.int 2
    match c.arg 1 with
    | .text s =>
      if 2 ≤ base.toInt && base.toInt ≤ 36 then
        return [((readInBase? base.toInt.toNat s).map Value.int).getD .nil]
      else c.failArgWith 2 "base out of range"
    | _ => c.failType 1 "string"

def select (c : Invocation) : Eval (List Value) := do
  let rest := c.args.drop 1
  let countAll := match c.arg 1 with
    | .text (35 :: _) => true
    | _ => false
  if countAll then return [.int (Int64.ofNat rest.length)]
  let n := (← c.int 1).toInt
  let n := if n < 0 then (rest.length : Int) + n + 1 else n
  if n ≤ 0 then c.failArgWith 1 "index out of range"
  else return rest.drop (n.toNat - 1)

/-! ### Metatables -/

/-- The value by which a metatable shields itself, nil if it does not. -/
def shieldOf (c : Invocation) (v : Value) : Eval Value :=
  c.metamethod v "__metatable"

def getmetatable (c : Invocation) : Eval (List Value) := do
  let v ← c.any 1
  match metatable? (← Eval.heap) c.site.home v with
  | none => return [.nil]
  | some m =>
    match ← shieldOf c v with
    | .nil => return [.table m]
    | shield => return [shield]

def setmetatable (c : Invocation) : Eval (List Value) := do
  let t ← c.table 1
  let m ← match c.arg 2, c.has 2 with
    | .nil, true => pure none
    | .table m, _ => pure (some m)
    | _, _ => c.failType 2 "nil or table"
  if (← shieldOf c (.table t)) ≠ .nil then c.refuse "cannot change a protected metatable"
  Eval.modifyHeap (·.changeTable t ({ · with metatable := m }))
  return [.table t]

def rawequal (c : Invocation) : Eval (List Value) := do
  return [.bool ((← c.any 1).rawEq (← c.any 2))]

def rawget (c : Invocation) : Eval (List Value) := do
  let t ← c.table 1
  let key ← c.any 2
  return [(← Eval.heap).rawGet t key]

def rawlen (c : Invocation) : Eval (List Value) := do
  match c.arg 1 with
  | .table t => return [.int (Int64.ofNat (← Eval.measure t))]
  | .text b => return [.int (Int64.ofNat b.length)]
  | _ => c.failType 1 "table or string"

def rawset (c : Invocation) : Eval (List Value) := do
  let t ← c.table 1
  let key ← c.any 2
  let value ← c.any 3
  c.rawSet t key value
  return [.table t]

/-! ### Walks -/

def next (c : Invocation) : Eval (List Value) := do
  let t ← c.table 1
  let t := (← Eval.heap).table t
  match t.placeAfter? (c.arg 2) with
  | none => c.failWith "invalid key to 'next'"
  | some n =>
    match t.nextEntry? n with
    | some (k, v) => return [k, v]
    | none => return [.nil]

def pairs (c : Invocation) : Eval (List Value) := do
  let v ← c.any 1
  match ← c.metamethod v "__pairs" with
  | .nil => return [.native .next, v, .nil, .nil]
  | f =>
    let vs ← c.call f [v]
    return (vs ++ List.replicate 4 Value.nil).take 4

def ipairs (c : Invocation) : Eval (List Value) := do
  let v ← c.any 1
  return [.native .ipairsStep, v, .int 0]

def ipairsStep (c : Invocation) : Eval (List Value) := do
  let n := (← c.int 2) + 1
  match ← c.index (c.arg 1) (.int n) with
  | .nil => return [.nil]
  | v => return [.int n, v]

/-! ### Making functions -/

/-- The results where no function could be made. -/
def notMade (message : Bytes) : List Value :=
  [.nil, .text message]

/-- Makes a function of a text, if the mode allows it. -/
def make (c : Invocation) (mode given source : Bytes) : Eval (List Value) := do
  let isCompiled := source.head? = some compiledMark
  if !mode.contains (if isCompiled then 98 else 116) then
    let kind := if isCompiled then "binary" else "text"
    return notMade (Text.encode s!"attempt to load a {kind} chunk (mode is '" ++ mode
      ++ Text.encode "')")
  else
    let h ← Eval.heap
    let globals := if c.has 4 then c.arg 4 else .table (h.environment c.site.home).globals
    match ← compile c.site.home globals (given.takeWhile (· != 0)) source c.site.depth with
    | .ok f => return [f]
    | .error message => return notMade message

/-- The text of the pieces that a function gives, until it gives none. -/
def pieces (c : Invocation) (f : Value) : Eval Bytes :=
  Eval.repeating (fun acc : Bytes => do
    match firstOf (← c.call f []) with
    | .nil => return .inr acc
    | v =>
      match plainText? v with
      | some [] => return .inr acc
      | some b => return .inl (acc ++ b)
      | none => c.refuse "reader function must return a string") []

/-- Makes a function of a text or of the pieces that a function gives. -/
def load (c : Invocation) : Eval (List Value) := do
  let mode ← c.textOr 3 (Text.encode "bt")
  if mode.contains 66 then c.failArgWith 3 "invalid mode"
  let whole? := plainText? (c.arg 1)
  let given ← c.textOr 2 (whole?.getD (Text.encode "=(load)"))
  match whole? with
  | some source => make c mode given source
  | none =>
    c.callable 1
    match ← Eval.attempt (pieces c (c.arg 1)) with
    | .ok source => make c mode given source
    | .error (e, values) => return [.nil, ← c.closeAll e values]

/-- Answers what scripts ask of the collector of unused values; there is nothing to collect. -/
def collectgarbage (c : Invocation) : Eval (List Value) := do
  let option ← c.textOr 1 (Text.encode "collect")
  match Text.decodeBytewise option with
  | "collect" | "stop" | "restart" => return [.int 0]
  | "count" => return [.float .zero]
  | "step" | "isrunning" => return [.bool true]
  | "generational" | "incremental" => return [.ofString "incremental"]
  | "param" => return [.int 0]
  | _ => c.failArg 1 (Text.encode "invalid option '" ++ option ++ Text.encode "'")

end Library

end ScriptHost.Script
