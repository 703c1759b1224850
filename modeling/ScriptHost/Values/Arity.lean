import ScriptHost.Request

/-!
# Numbers of arguments

A function takes the arguments it needs and perhaps some more; any other number of them is a fault
that names the parameters left without one, or counts.
-/
namespace ScriptHost

/-- Checks a number of arguments against the names of the parameters that need one and how many
more there are. -/
def checkArity (function : String) (required : List String) (optional : Nat)
    (args : List Datum) : Except Fault Unit :=
  let least := required.length
  if least + optional < args.length then
    .error (.arity (.excess function least (least + optional) args.length))
  else if args.length < least then
    .error (.arity (.missing function (required.drop args.length)))
  else .ok ()

namespace Callable

/-- A function that checks the number of its arguments. -/
def checked (name : String) (required : List String) (optional : Nat)
    (run : List Datum → Program Datum) : Callable where
  type := "function"
  shown := s!"<function {name}>"
  run := fun args =>
    match checkArity name required optional args with
    | .ok _ => run args
    | .error f => Program.fail f

end Callable

end ScriptHost
