import ScriptHost.Border.Convert

/-!
# Looking at values

The picture of a value. The keys of a table come in order: truth values, numbers by their value,
texts, and then all others.
-/
namespace ScriptHost

/-- How deep tables are looked into. -/
def Picture.tableDepth : Nat := 40

/-- How deep other values are looked into. -/
def Picture.valueDepth : Nat := 2000

/-- Whether one key of a table comes before another, or at the same place. -/
def Picture.keyLe (a b : Picture) : Bool :=
  match a, b with
  | .bool x, .bool y => !x || y
  | .bool _, _ => true
  | _, .bool _ => false
  | .int i, .int j => i ≤ j
  | .int i, .float y => !(Quantity.float y).lt (.int i)
  | .float x, .int j => !(Quantity.int j).lt (.float x)
  | .float x, .float y => !(Quantity.float y).lt (.float x)
  | .int _, _ | .float _, _ => true
  | _, .int _ | _, .float _ => false
  | .text s, .text t => decide (s ≤ t)
  | .text _, _ => true
  | _, .text _ => false
  | _, _ => true

namespace World

/-- A scalar or an object of a script as the host has it. -/
def datumOf (home : Nat) : Script.Value → Except Fault Datum
  | .nil => .ok .none
  | .bool b => .ok (.bool b)
  | .int i => .ok (.int i.toInt)
  | .float x => .ok (.float x)
  | .text b =>
    match Text.decode b with
    | .ok s => .ok (.text s)
    | .error m => .error (.undecodable m)
  | .foreign p => .ok (if p = absentPlace then .none else .object p)
  | v => .ok (.script home v)

/-- What a value looks like, with so many steps left and so many tables around it. -/
def lookWithin (w : World) : Nat → Nat → Datum → Except Fault Picture
  | 0, _, _ => .error .tooDeep
  | _ + 1, _, .none => .ok .none
  | _ + 1, _, .bool b => .ok (.bool b)
  | _ + 1, _, .int i => .ok (.int i)
  | _ + 1, _, .float x => .ok (.float x)
  | _ + 1, _, .text s => .ok (.text s)
  | n + 1, level, .script home v =>
    match v with
    | .table t =>
      if Picture.tableDepth < level then .ok .deep
      else do
        let entries ← (w.scripts.table t).entries.mapM fun (k, v) => do
          let k ← w.lookWithin n (level + 1) (← datumOf home k)
          let v ← w.lookWithin n (level + 1) (← datumOf home v)
          return (k, v)
        return .table (entries.mergeSort fun a b => a.1.keyLe b.1)
    | .thread t =>
      .ok (if (w.scripts.threads[t]?.getD default).started then .thread else .function)
    | _ => .ok .function
  | n + 1, level, .object p =>
    match w.objectAt p with
    | .absent => .ok .none
    | .list items => do return .list (← items.mapM (w.lookWithin n level))
    | .tuple items => do return .tuple (← items.mapM (w.lookWithin n level))
    | .dict entries => do
      return .dict (← entries.mapM fun (k, v) => do
        return (← w.lookWithin n level k, ← w.lookWithin n level v))
    | .entity cls attributes =>
      if Picture.tableDepth < level then .ok .deep
      else do
        return .entity cls (← (w.classInfo cls).fields.mapM fun x => do
          return (x, ← w.lookWithin n (level + 1) ((attributes.lookup x).getD .none)))
    | .fault f => .ok (.fault f)
    | .cls cls => .ok (.cls cls)
    | .environment _ => .ok .environment
    | .bytes _ | .plain _ _ _ => .ok (.entity ⟨"", w.shortTypeName (.object p)⟩ [])
    | .callable _ | .functionEntry _ | .eventEntry _ => .ok .callable

/-- What a value looks like. -/
def look (w : World) (d : Datum) : Except Fault Picture :=
  w.lookWithin Picture.valueDepth 0 d

end World

namespace Op

/-- Keeps what some values look like on a sheet. -/
def note (sheet : String) (items : List Datum) : Op Unit := do
  let w ← get
  let pictures ← ofExcept (items.mapM w.look)
  modify fun w => { w with notes := w.notes.push (sheet, pictures) }

end Op

end ScriptHost
