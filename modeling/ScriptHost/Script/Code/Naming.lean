import ScriptHost.Script.Code

/-!
# What values are called

A message names a value by where it came from in the script: the local variable whose register it
is in, or the field, method or constant that the instruction before put there. The search looks only
at the code, so a register that is set on one of two ways has no name.
-/
namespace ScriptHost.Script

open Text (Bytes)

/-- The name of a value in messages: what kind of name it is, and the name. -/
structure Named where
  kind : String
  name : Bytes
  deriving DecidableEq, Repr

/-- A name as messages have it after a value; it ends before a zero byte. -/
def Named.shown (n : Named) : Bytes :=
  Text.encode s!" ({n.kind} '" ++ n.name.takeWhile (· != 0) ++ Text.encode "')"

/-- The name of the variable that holds the globals. -/
def globalsName : Name := Text.encode "_ENV"

namespace Prototype

/-- The local variable that a register is for an instruction. -/
def localName? (p : Prototype) (register place : Nat) : Option Name :=
  go register p.spans.toList
where
  go (n : Nat) : List VariableSpan → Option Name
    | [] => none
    | v :: rest =>
      if place < v.start then none
      else if v.stop ≤ place then go n rest
      else match n with
        | 0 => some v.name
        | n + 1 => go n rest

/-- What a search for the instruction that set a register has found so far: the instruction, and
the place before which instructions may have been skipped. -/
structure Search where
  found : Option Nat := none
  skipped : Nat := 0

/-- The instruction that gave a register the value it has before an instruction; none if that may
depend on the way. -/
def setter? (p : Prototype) (place register : Nat) : Option Nat :=
  (go 0 {} (p.code.toList.take place)).found
where
  go (n : Nat) (s : Search) : List Instruction → Search
    | [] => s
    | i :: rest =>
      let s := match i with
        | .jump target _ =>
          if target ≤ place && s.skipped < target then { s with skipped := target } else s
        | i =>
          if i.sets register then { s with found := if n < s.skipped then none else some n } else s
      go (n + 1) s rest

/-- Where the value of a register comes from. -/
inductive Origin where
  | named (n : Named)
  /-- The instruction that set it. -/
  | set (place : Nat)
  | unknown

/-- Where the value that a register has before an instruction comes from. Copies are followed to
lower registers. -/
def origin (p : Prototype) (place register : Nat) : Origin :=
  match p.localName? register place with
  | some x => .named ⟨"local", x⟩
  | none =>
    match p.setter? place register with
    | none => .unknown
    | some n =>
      match p.code[n]? with
      | some (.move _ source) => if source < register then p.origin n source else .set n
      | some (.getUpvalue _ u) => .named ⟨"upvalue", p.upvalueName u⟩
      | some (.load _ (.text s)) => .named ⟨"constant", s⟩
      | _ => .set n
termination_by register

/-- The key in a register, if it is a constant. -/
def keyName (p : Prototype) (place register : Nat) : Bytes :=
  match p.origin place register with
  | .named ⟨"constant", x⟩ => x
  | _ => Text.encode "?"

/-- What the fields of the value in a register are called: globals for the variable of globals. -/
def fieldKind (p : Prototype) (place register : Nat) : String :=
  match p.origin place register with
  | .named ⟨kind, x⟩ =>
    if (kind == "local" || kind == "upvalue") && x == globalsName then "global" else "field"
  | _ => "field"

/-- The name of the value that a register has before an instruction. -/
def registerName (p : Prototype) (place register : Nat) : Option Named :=
  match p.origin place register with
  | .named n => some n
  | .unknown => none
  | .set n =>
    match p.code[n]? with
    | some (.getUpvalueField _ u key) =>
      some ⟨if p.upvalueName u == globalsName then "global" else "field", key⟩
    | some (.getIndex _ object key) => some ⟨p.fieldKind n object, p.keyName n key⟩
    | some (.getInteger ..) => some ⟨"field", Text.encode "integer index"⟩
    | some (.getField _ object key) => some ⟨p.fieldKind n object, key⟩
    | some (.method _ _ key) => some ⟨"method", key⟩
    | _ => none

/-- The name of an operand of the instruction at a place. -/
def operandName (p : Prototype) (place : Nat) : Operand → Option Named
  | .register r => p.registerName place r
  | .constant _ => none

/-- The name of what the instruction at a place calls. -/
def calleeName (p : Prototype) (place : Nat) : Option Named :=
  let event := fun (x : String) => some ⟨"metamethod", Text.encode x⟩
  match p.code[place]? with
  | some (.call base _ _) | some (.tailCall base _) => p.registerName place base
  | some (.eachCall ..) => some ⟨"for iterator", Text.encode "for iterator"⟩
  | some (.method ..) | some (.getUpvalueField ..) | some (.getIndex ..) | some (.getInteger ..)
  | some (.getField ..) | some (.vararg ..) => event "index"
  | some (.setUpvalueField ..) | some (.setIndex ..) | some (.setInteger ..)
  | some (.setField ..) => event "newindex"
  | some (.arith op ..) => event op.event
  | some (.unary .not ..) => none
  | some (.unary op ..) => event op.event
  | some (.concat ..) => event "concat"
  | some (.compare .eq _ (.constant _) _) => none
  | some (.compare op ..) => event op.event
  | some (.close _) | some (.ret ..) | some (.jump _ (some _)) => event "close"
  | _ => none

end Prototype

end ScriptHost.Script
