import ScriptHost.Script.Library.Basic
import ScriptHost.Script.Library.Formats
import ScriptHost.Script.Library.Maths
import ScriptHost.Script.Library.Searches
import ScriptHost.Script.Library.Tables

/-!
# All library functions

What each function does that environments begin with, by its name as data.
-/
namespace ScriptHost.Script

open Text (Bytes)

namespace Library

def runText (f : TextFunction) (c : Invocation) : Eval (List Value) :=
  match f with
  | .byte => textByte c
  | .char => textChar c
  | .find => find c true
  | .format => format c
  | .gmatch => walk c
  | .gsub => replace c
  | .len => do return [.int (Int64.ofNat (← c.text 1).length)]
  | .lower => do return [.text ((← c.text 1).map lowerByte)]
  | .match => find c false
  | .rep => textRep c
  | .reverse => do return [.text (← c.text 1).reverse]
  | .sub => do
    let s ← c.text 1
    let first ← c.int 2
    let last ← c.intOr 3 (-1)
    return [.text (slice s first.toInt last.toInt)]
  | .upper => do return [.text ((← c.text 1).map upperByte)]
  | .dump => do
    c.callable 1
    c.refuse "unable to dump given function"
  | .pack | .packsize | .unpack => c.refuse s!"'string.{f.name}' is not available"

/-- Functions that stop and go on. A thread can be made; nothing here lets it go on. -/
def runCoroutine (f : CoroutineFunction) (c : Invocation) : Eval (List Value) :=
  match f with
  | .create => do
    c.callable 1
    let place := (← Eval.heap).threads.size
    Eval.modifyHeap fun h => { h with threads := h.threads.push ⟨c.arg 1, false⟩ }
    return [.thread place]
  | .isyieldable => return [.bool false]
  | _ => c.refuse s!"'{f.name}' is not available"

/-- Does what a script wants from an object of the host. -/
def runObject (f : ObjectFunction) (c : Invocation) : Eval (List Value) := do
  match c.arg 1 with
  | .foreign place =>
    let wish := match f with
      | .call => Wish.call (c.args.drop 1)
      | .index => .index (c.arg 2)
      | .assign => .assign (c.arg 2) (c.arg 3)
      | .show => .show
    match ← Eval.ask c.site place wish with
    | .ok vs => return vs
    | .error e => c.raise e
  | _ => c.failArgWith 1 "not a python object"

end Library

/-- Runs a library function. -/
def Native.run (f : Native) (c : Library.Invocation) : Eval (List Value) :=
  match f with
  | .assert => Library.assert c
  | .collectgarbage => Library.collectgarbage c
  | .error => Library.error c
  | .getmetatable => Library.getmetatable c
  | .ipairs => Library.ipairs c
  | .load => Library.load c
  | .next => Library.next c
  | .pairs => Library.pairs c
  | .pcall => Library.pcall c
  | .print => Library.print c
  | .rawequal => Library.rawequal c
  | .rawget => Library.rawget c
  | .rawlen => Library.rawlen c
  | .rawset => Library.rawset c
  | .select => Library.select c
  | .setmetatable => Library.setmetatable c
  | .tonumber => Library.tonumber c
  | .tostring => Library.tostring c
  | .type => Library.type c
  | .xpcall => Library.xpcall c
  | .ipairsStep => Library.ipairsStep c
  | .text f => Library.runText f c
  | .table f => Library.runTable f c
  | .math f => Library.runMath f c
  | .coroutine f => Library.runCoroutine f c
  | .textArith op => Library.textArith op c
  | .textNegate => Library.textNegate c
  | .nextMatch state => Library.walkStep c state
  | .object f => Library.runObject f c
  | .outside name => c.refuse s!"'{name}' is not available"

end ScriptHost.Script
