import ScriptHost.Border.Environment

/-!
# Installing functions

Functions of the host become fields of global tables, `space.name`. The first one that is installed
under a name stays, and so does whatever scripts find there already. The books tell what was
installed and what was not.
-/
namespace ScriptHost

/-- The name a function is installed under. -/
def FunctionDescriptor.qualified (d : FunctionDescriptor) : String :=
  d.space ++ "." ++ d.name

namespace Op

/-- Changes the books on functions. -/
def modifyFunctionBooks (f : FunctionBooks → FunctionBooks) : Op Unit :=
  modify fun w => { w with functionBooks := f w.functionBooks }

/-- Installs a function unless its name is taken, and tells whether it did. -/
def install (host : Responder) (home : Nat) (d : FunctionDescriptor) : Op Bool := do
  let t ← spaceTable host home d.space
  if (← getField host home t d.name) != .none then
    modifyFunctionBooks fun b => { b with skipped := b.skipped ++ [d.qualified] }
    debug "luahost.functions" s!"Skipped: {d.qualified} (already exists)"
    return false
  let f ← perform host d.bind
  setField host home t d.name f
  modifyFunctionBooks fun b => { b with installed := b.installed ++ [d.qualified] }
  debug "luahost.functions" s!"Registered: {d.qualified}"
  return true

/-- Installs functions in order, on new books, and tells how many it installed. -/
def installAll (host : Responder) (home : Nat) (ds : List FunctionDescriptor) : Op Nat := do
  modifyFunctionBooks fun _ => {}
  ds.forM fun d => discard (install host home d)
  return (← get).functionBooks.installed.length

end Op

end ScriptHost
