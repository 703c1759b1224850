import ScriptHost.Values.Operate

/-!
# Values across the border

Scalars cross as scalars, objects of the host as themselves, values of scripts as themselves into
their own environment. A list, tuple or dict can instead be built again as a table, and what is in
it likewise.
-/
namespace ScriptHost

open Script (Table)

namespace Op

/-- Uses what scripts keep. -/
def withScripts {α : Type} (f : Script.Heap → α × Script.Heap) : Op α :=
  modifyGet fun w => let (a, h) := f w.scripts; (a, { w with scripts := h })

/-- A new table of an environment. -/
def newTable (t : Table) : Op Nat :=
  withScripts fun h => (h.tables.size, h.addTable t)

/-- A value of the host as a value of an environment. -/
def toScript (home : Nat) : Datum → Op Script.Value
  | .none => return .nil
  | .bool b => return .bool b
  | .int i =>
    match Script.fitInt? i with
    | some n => return .int n
    | none => throw .integerTooLarge
  | .float x => return .float x
  | .text s => return .text (Text.encode s)
  | .object p => do
    match ← object p with
    | .absent => return .nil
    | .bytes b => return .text b
    | _ => return .foreign p
  | .script h v =>
    if h = home then
      match v with
      | .thread t => return ((← get).scripts.threads[t]?.getD default).function
      | v => return v
    else throw (.script "cannot mix objects from different Lua runtimes")

/-- A value of an environment as a value of the host. -/
def toHost (home : Nat) : Script.Value → Op Datum
  | .nil => return .none
  | .bool b => return .bool b
  | .int i => return .int i.toInt
  | .float x => return .float x
  | .text b =>
    match Text.decode b with
    | .ok s => return .text s
    | .error m => throw (.undecodable m)
  | .foreign p => return if p = absentPlace then .none else .object p
  | v => return .script home v

/-- The values a function of the host gives a script: a tuple is several. -/
def resultsToScript (home : Nat) (d : Datum) : Op (List Script.Value) := do
  match d with
  | .object p =>
    match ← object p with
    | .tuple items => items.mapM (toScript home)
    | _ => return [← toScript home d]
  | d => return [← toScript home d]

/-- The one value of the host for the results of a script: none, the only one, or a tuple. -/
def resultsToHost (home : Nat) (vs : List Script.Value) : Op Datum := do
  match ← vs.mapM (toHost home) with
  | [] => return .none
  | [d] => return d
  | ds => .object <$> newObject (.tuple ds)

/-- Gives keys of a table their values, in order. -/
def setFields (table : Nat) (fields : List (Script.Value × Script.Value)) : Op Unit :=
  withScripts fun h => ((), fields.foldl (fun h (k, v) => h.rawSet table k v) h)

/-- A value as scripts are given it: containers as tables, all else unchanged. `made` tells the
tables of the containers around, so that one is never built twice. -/
def marshalWithin (home : Nat) : Nat → Datum → StateT (List (Nat × Nat)) Op Script.Value
  | 0, d => toScript home d
  | n + 1, d => do
    match d with
    | .object p =>
      match (← get).lookup p with
      | some t => return .table t
      | none =>
        match ← (object p : Op Object) with
        | .list items | .tuple items =>
          let t ← (newTable (.empty home) : Op Nat)
          modify ((p, t) :: ·)
          for (item, i) in items.zipIdx do
            let v ← marshalWithin home n item
            (setFields t [(.int (Int64.ofNat (i + 1)), v)] : Op Unit)
          return .table t
        | .dict entries =>
          let t ← (newTable (.empty home) : Op Nat)
          modify ((p, t) :: ·)
          for (key, item) in entries do
            let k ← (toScript home key : Op Script.Value)
            let v ← marshalWithin home n item
            (setFields t [(k, v)] : Op Unit)
          return .table t
        | _ => toScript home d
    | d => toScript home d

/-- A value as scripts are given it. -/
def marshal (home : Nat) (d : Datum) : Op Script.Value := do
  let (v, _) ← (marshalWithin home ((← get).objects.size + 1) d).run []
  return v

end Op

end ScriptHost
