import ScriptHost.Script.Machine.Step

/-!
# Runs

What calling a value does. Functions of scripts that call each other run in one machine; a call from
anywhere else, of a metatable's function or by a function of a library, is a run of its own, and runs
wait for one another to a fixed depth. When that is reached, a failure is raised, and a handler of
failures still has some depth left to do its work.
-/
namespace ScriptHost.Script

open Text (Bytes)

/-- Calls a value from a context: a function of a script runs in a machine of its own. -/
def Context.enter (c : Context) (f : Value) (args : List Value) : Eval (List Value) := do
  let p ← c.prepare f args
  let slot := c.site.top
  match p.function with
  | .inr f => c.runNative f p slot
  | .inl f =>
    c.checkStack (slot + 1 + p.args.length + f.code.size)
    Machine.run c (.enter f slot p.args false c.site.trace)

/-- Calls a value with so many runs left that may wait for one another. -/
def callAt : Nat → Caller
  | 0, _, _, _ => Context.failHandling
  | left + 1, site, f, args =>
    let site := { site with depth := site.depth + 1 }
    let c : Context := { site := site, caller := callAt left }
    if site.depth = depthLimit then c.failWith "C stack overflow" else c.enter f args

/-- Calls a value where a site is. -/
def Site.call (s : Site) (f : Value) (args : List Value) : Eval (List Value) :=
  callAt (depthLimit + depthReserve - 1 - s.depth) s f args

/-- What an operator needs at a site. -/
def Site.context (s : Site) : Context :=
  { site := s, caller := Site.call }

/-- How the host names the texts it runs. -/
def hostChunk : Bytes :=
  Text.encode "<python>"

/-- The function of a text the host hands over, or the message why it is none. -/
def prepareChunk (s : Site) (source : Bytes) : Eval (Except Bytes Value) := do
  let globals := ((← Eval.heap).environment s.home).globals
  compile s.home (.table globals) hostChunk source s.depth

end ScriptHost.Script
