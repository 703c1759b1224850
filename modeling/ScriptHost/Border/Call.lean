import ScriptHost.Border.Convert
import ScriptHost.Border.Exposure
import ScriptHost.Script.Run

/-!
# Calls across the border

What a script may want from an object of the host, and how the host runs scripts. A fault that goes
into a script is kept, and comes out again as it was when the script lets it pass.
-/
namespace ScriptHost

open Script (Eval Outcome Question Answer Wish)

namespace Op

variable {α : Type}

/-! ### Objects -/

/-- Calls an object of the host. -/
def callObject (host : Responder) (place : Nat) (args : List Datum) : Op Datum := do
  let w ← get
  let refuse : Op Datum := throw (.mismatch (.notCallable (w.typeName (.object place))))
  match w.objectAt place with
  | .callable f => perform host (f.run args)
  | .entity cls _ =>
    match (w.classInfo cls).call with
    | some run => perform host (run place args)
    | none => refuse
  | .cls cls =>
    match (w.classInfo cls).construct with
    | some make => perform host (make args)
    | none => refuse
  | _ => refuse

/-- Whether an object of the host can be called. -/
def isCallableObject (w : World) (place : Nat) : Bool :=
  match w.objectAt place with
  | .callable _ | .cls _ => true
  | .entity cls _ => (w.classInfo cls).call.isSome
  | _ => false

/-- The value of an attribute of an object. -/
def readAttribute (place : Nat) (name : String) : Op Datum := do
  let w ← get
  let absent : Op Datum := throw (.noAttribute (w.typeName (.object place)) name)
  match w.objectAt place with
  | .entity cls attributes =>
    match attributes.lookup name with
    | some d => return d
    | none =>
      match (w.classInfo cls).methods.lookup name with
      | some run =>
        let shown := s!"<bound method {cls.name}.{name}>"
        .object <$> newObject (.callable ⟨"method", shown, run place, some place⟩)
      | none => absent
  | _ => absent

/-- Gives an attribute of an object a value. -/
def writeAttribute (place : Nat) (name : String) (value : Datum) : Op Unit := do
  let w ← get
  match w.objectAt place with
  | .entity cls attributes =>
    let attributes := if (attributes.lookup name).isSome then
        attributes.map fun e => if e.1 = name then (name, value) else e
      else attributes ++ [(name, value)]
    setObject place (.entity cls attributes)
  | _ => throw (.noAttribute (w.typeName (.object place)) name)

/-- Whether a value can be a key of a dict. -/
def checkHashable (w : World) : Nat → Datum → Except Fault Unit
  | 0, _ => .ok ()
  | n + 1, .object p =>
    match w.objectAt p with
    | .list _ => .error (.mismatch (.unhashable "list"))
    | .dict _ => .error (.mismatch (.unhashable "dict"))
    | .tuple items => items.forM (checkHashable w n)
    | _ => .ok ()
  | _, _ => .ok ()

/-- The place in a sequence that an index stands for; negative ones count from the end. -/
def sequenceIndex (length : Nat) (i : Int) : Option Nat :=
  let i := if i < 0 then i + length else i
  if 0 ≤ i && i < length then some i.toNat else none

/-- The whole number that indexes a sequence. -/
def indexOf (w : World) (sequence : String) (key : Datum) : Except Fault Int :=
  match key.quantity? with
  | some (.int i) => .ok i
  | _ => .error (.mismatch (.indices sequence (w.operandType key)))

/-- An item of a container. -/
def item (w : World) (o : Object) (key : Datum) : Except Fault Datum := do
  let nth := fun (name : String) (items : List Datum) => do
    let i ← indexOf w name key
    match (sequenceIndex items.length i).bind (items[·]?) with
    | some d => pure d
    | none => throw (.indexOutOfRange name)
  match o with
  | .list items => nth "list" items
  | .tuple items => nth "tuple" items
  | .dict entries =>
    checkHashable w shownLevels key
    match entries.find? fun e => w.same e.1 key with
    | some e => pure e.2
    | none => throw (.keyMissing (w.spell key))
  | _ => pure .none
where
  shownLevels : Nat := World.shownDepth

/-- A container with another item. -/
def withItem (w : World) (o : Object) (key value : Datum) : Except Fault Object :=
  match o with
  | .list items => do
    let i ← indexOf w "list" key
    match sequenceIndex items.length i with
    | some n => return .list (items.set n value)
    | none => throw (.assignmentOutOfRange "list")
  | .tuple _ => throw (.mismatch (.notAssignable "tuple"))
  | .dict entries => do
    checkHashable w World.shownDepth key
    if entries.any fun e => w.same e.1 key then
      return .dict (entries.map fun e => if w.same e.1 key then (e.1, value) else e)
    else return .dict (entries ++ [(key, value)])
  | o => return o

/-- Whether an object is indexed by items and not by attributes. -/
def isContainer : Object → Bool
  | .list _ | .tuple _ | .dict _ => true
  | _ => false

/-- Whether a value counts as true where the host asks. -/
def isTrue (w : World) : Datum → Bool
  | .none => false
  | .bool b => b
  | .int i => i ≠ 0
  | .float x => !x.same (Number.Binary64.ofInt 0)
  | .text s => s ≠ ""
  | .object p =>
    match w.objectAt p with
    | .list items | .tuple items => !items.isEmpty
    | .dict entries => !entries.isEmpty
    | _ => true
  | .script _ _ => true

/-- Lets an access of a script to an attribute pass, or fails. A table in place of a name is asked
whether it begins with an underscore by its own function for that. -/
def passAttribute (host : Responder) (exposed : List Class) (d key : Datum) : Op Unit := do
  let w ← get
  match key with
  | .text name => ofExcept (w.filterAttribute exposed d name)
  | .script home (.table t) =>
    let f ← toHost home (w.scripts.rawGet t (.ofString "startswith"))
    if isTrue w (← host (.call f [.text "_"])) then throw (.privateAttribute (w.shown key))
    if !w.isExposed exposed d then throw (.typeNotExposed (w.shortTypeName d))
  | .script _ _ => throw .partOfFunction
  | key => throw (.noAttribute (w.typeName key) "startswith")

/-- The name that a key is, once it has passed. -/
def attributeName (w : World) : Datum → Except Fault String
  | .text name => .ok name
  | key => .error (.attributeMistyped (w.typeName key))

/-- What a script reads from an object. -/
def readPart (host : Responder) (home place : Nat) (key : Datum) : Op Datum := do
  let w ← get
  let o := w.objectAt place
  if isContainer o then ofExcept (item w o key)
  else
    passAttribute host (w.exposedIn home) (.object place) key
    readAttribute place (← ofExcept (attributeName w key))

/-- What a script changes in an object. -/
def writePart (host : Responder) (home place : Nat) (key value : Datum) : Op Unit := do
  let w ← get
  let o := w.objectAt place
  if isContainer o then setObject place (← ofExcept (withItem w o key value))
  else
    passAttribute host (w.exposedIn home) (.object place) key
    writeAttribute place (← ofExcept (attributeName w key)) value

/-! ### Questions of scripts -/

/-- The arguments of a call without the object itself where its own method is called on it. -/
def withoutOwner (o : Object) (args : List Datum) : List Datum :=
  match o, args with
  | .callable { owner := some place, .. }, .object p :: rest => if p = place then rest else args
  | _, _ => args

/-- Does what a script wants from an object. -/
def grant (host : Responder) (home target : Nat) : Wish → Op (List Script.Value)
  | .call args => do
    let args := withoutOwner (← object target) (← args.mapM (toHost home))
    resultsToScript home (← callObject host target args)
  | .index key => do
    return [← toScript home (← readPart host home target (← toHost home key))]
  | .assign key value => do
    writePart host home target (← toHost home key) (← toHost home value)
    return []
  | .show => do
    return [.text (Text.encode ((← get).shown (.object target)))]

def setScripts (h : Script.Heap) : Op Unit :=
  modify fun w => { w with scripts := h }

/-- Keeps the fault that goes into a script of an environment. -/
def setPending (home : Nat) (f : Option Fault) : Op Unit :=
  modify fun w => { w with
    homes := w.homes.modify home fun x => { x with pending := f } }

/-- Where scripts of an environment run that the host calls now: on top of those that wait for
it. -/
def siteOf (home : Nat) : Op Script.Site := do
  return (((← get).homes[home]?).map Home.site).getD { home := home }

def setSite (s : Script.Site) : Op Unit :=
  modify fun w => { w with
    homes := w.homes.modify s.home fun x => { x with site := s } }

/-- Answers a question of a script. A fault becomes a value that is raised there. -/
def answer (host : Responder) (q : Question) : Op Answer := do
  setScripts q.heap
  let home := q.site.home
  let around ← siteOf home
  setSite q.site
  let granted ← attempt (grant host home q.target q.wish)
  setSite around
  match granted with
  | .ok vs => return ⟨(← get).scripts, .ok vs⟩
  | .error f =>
    let place ← newObject (.fault f)
    setPending home (some f)
    return ⟨(← get).scripts, .error (.foreign place)⟩

/-- The message of a raised value. -/
def raisedMessage : Script.Value → String
  | .text b => Text.decodeBytewise b
  | .int i => Text.decodeBytewise (Script.intText i)
  | .float x => Text.decodeBytewise (Script.floatText x)
  | _ => ""

/-- The fault for a value that a script of an environment let pass: the one that went in last if it
is one, or a failure of the script. -/
def faultOf (home : Nat) (v : Script.Value) : Op Fault := do
  let w ← get
  let own : Fault :=
    if v = Script.memoryError then .scriptOutOfMemory else .script (raisedMessage v)
  match v with
  | .foreign place =>
    match w.objectAt place, (w.homes[home]?).bind Home.pending with
    | .fault _, some f =>
      setPending home none
      return f
    | _, _ => return own
  | _ => return own

/-- Runs a piece of a script, and ends as it does. -/
def evaluate (host : Responder) (home : Nat) (e : Eval α) : Op α := do
  match ← Dialogue.run (answer host) (e (← get).scripts) with
  | .value a h =>
    setScripts h
    return a
  | .raised v _ h =>
    setScripts h
    throw (← faultOf home v)
  | .endless h =>
    setScripts h
    throw .tooDeep

/-! ### Scripts called by the host -/

/-- What is called with a raised value before the host hears of it: the function `traceback` of
the table `debug`, if scripts have left one. -/
def handlerAt (site : Script.Site) : Eval (Option Script.Value) := do
  let globals := ((← Eval.heap).environment site.home).globals
  let look := fun (v : Script.Value) (name : String) => site.context.index v (.ofString name)
  match ← look (.table globals) "debug" with
  | .table t =>
    match ← look (.table t) "traceback" with
    | .function f => return some (.function f)
    | .native (.outside _) => return none
    | .native f => return some (.native f)
    | _ => return none
  | _ => return none

/-- Calls a value as the host does, with its handler in the slot below. -/
def callGuarded (site : Script.Site) (f : Script.Value) (args : List Script.Value) :
    Eval (List Script.Value) := do
  let handler ← handlerAt site
  let site := { site with top := site.top + handler.toList.length }
  match ← site.context.protect handler f args with
  | .ok vs => return vs
  | .error e => Eval.raise e

/-- Calls a value of a script. A thread that has not begun makes another. -/
def callScript (host : Responder) (home : Nat) (f : Script.Value) (args : List Script.Value) :
    Op Datum := do
  match f with
  | .thread t =>
    let made ← withScripts fun h =>
      let f := (h.threads[t]?.getD default).function
      (h.threads.size, { h with threads := h.threads.push ⟨f, true⟩ })
    return .script home (.thread made)
  | f => resultsToHost home (← evaluate host home (callGuarded (← siteOf home) f args))

/-- Calls any value of the host. -/
def callDatum (host : Responder) (f : Datum) (args : List Datum) : Op Datum := do
  match f with
  | .object p => callObject host p args
  | .script home v => callScript host home v (← args.mapM (toScript home))
  | d => throw (.mismatch (.notCallable ((← get).typeName d)))

end Op

end ScriptHost
