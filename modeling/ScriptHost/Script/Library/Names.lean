import ScriptHost.Script.Value

/-!
# The names of library functions

Each library as the list of its functions, and the name of each.
-/
namespace ScriptHost.Script

def TextFunction.name : TextFunction → String
  | .byte => "byte"
  | .char => "char"
  | .dump => "dump"
  | .find => "find"
  | .format => "format"
  | .gmatch => "gmatch"
  | .gsub => "gsub"
  | .len => "len"
  | .lower => "lower"
  | .match => "match"
  | .pack => "pack"
  | .packsize => "packsize"
  | .rep => "rep"
  | .reverse => "reverse"
  | .sub => "sub"
  | .unpack => "unpack"
  | .upper => "upper"

def TextFunction.all : List TextFunction :=
  [.byte, .char, .dump, .find, .format, .gmatch, .gsub, .len, .lower, .match, .pack, .packsize,
    .rep, .reverse, .sub, .unpack, .upper]

def TableFunction.name : TableFunction → String
  | .concat => "concat"
  | .create => "create"
  | .insert => "insert"
  | .move => "move"
  | .pack => "pack"
  | .remove => "remove"
  | .sort => "sort"
  | .unpack => "unpack"

def TableFunction.all : List TableFunction :=
  [.concat, .create, .insert, .move, .pack, .remove, .sort, .unpack]

def MathFunction.name : MathFunction → String
  | .abs => "abs"
  | .acos => "acos"
  | .asin => "asin"
  | .atan => "atan"
  | .ceil => "ceil"
  | .cos => "cos"
  | .deg => "deg"
  | .exp => "exp"
  | .floor => "floor"
  | .fmod => "fmod"
  | .frexp => "frexp"
  | .ldexp => "ldexp"
  | .log => "log"
  | .max => "max"
  | .min => "min"
  | .modf => "modf"
  | .rad => "rad"
  | .random => "random"
  | .randomseed => "randomseed"
  | .sin => "sin"
  | .sqrt => "sqrt"
  | .tan => "tan"
  | .tointeger => "tointeger"
  | .type => "type"
  | .ult => "ult"

def MathFunction.all : List MathFunction :=
  [.abs, .acos, .asin, .atan, .ceil, .cos, .deg, .exp, .floor, .fmod, .frexp, .ldexp, .log, .max,
    .min, .modf, .rad, .random, .randomseed, .sin, .sqrt, .tan, .tointeger, .type, .ult]

def CoroutineFunction.name : CoroutineFunction → String
  | .close => "close"
  | .create => "create"
  | .isyieldable => "isyieldable"
  | .resume => "resume"
  | .running => "running"
  | .status => "status"
  | .wrap => "wrap"
  | .yield => "yield"

def CoroutineFunction.all : List CoroutineFunction :=
  [.close, .create, .isyieldable, .resume, .running, .status, .wrap, .yield]

end ScriptHost.Script
