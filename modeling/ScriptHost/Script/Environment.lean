import ScriptHost.Script.Heap
import ScriptHost.Script.Library.Maths
import ScriptHost.Script.Library.Names

/-!
# Environments

What a new environment holds: the tables of the libraries, the metatable that makes methods of the
text functions, and a globals table with those of the default names that are kept. The libraries
exist in full in every environment; a name that is not kept only makes them hard to reach.
-/
namespace ScriptHost.Script

open Text (Bytes)
open Number (Binary64)

/-- A library, which is a table of functions. -/
inductive Library.Kind where
  | coroutine | debug | io | math | os | package | bridge | string | table | utf8
  deriving DecidableEq, Repr

namespace Library.Kind

/-- The libraries in the order of their places. -/
def all : List Library.Kind :=
  [.coroutine, .debug, .io, .math, .os, .package, .bridge, .string, .table, .utf8]

def name : Library.Kind → String
  | .coroutine => "coroutine"
  | .debug => "debug"
  | .io => "io"
  | .math => "math"
  | .os => "os"
  | .package => "package"
  | .bridge => "python"
  | .string => "string"
  | .table => "table"
  | .utf8 => "utf8"

/-- The place of a library among all. -/
def index (k : Library.Kind) : Nat :=
  all.idxOf k

end Library.Kind

/-- Where the parts of a new environment are: the globals, the metatables of texts and of objects of
the host, the table of loaded libraries, two empty tables and then the libraries, one after the
other. -/
structure Layout where
  base : Nat

namespace Layout

def globals (l : Layout) : Nat := l.base
def texts (l : Layout) : Nat := l.base + 1
def objects (l : Layout) : Nat := l.base + 2
def loaded (l : Layout) : Nat := l.base + 3
def preload (l : Layout) : Nat := l.base + 4
def searchers (l : Layout) : Nat := l.base + 5
def library (l : Layout) (k : Library.Kind) : Nat := l.base + 6 + k.index

end Layout

/-- A default global: a function, a text, the globals themselves or a library. -/
inductive Initial where
  | native (function : Native)
  | text (value : String)
  | globals
  | library (kind : Library.Kind)
  deriving DecidableEq, Repr

def Initial.value (l : Layout) : Initial → Value
  | .native f => .native f
  | .text s => .ofString s
  | .globals => .table l.globals
  | .library k => .table (l.library k)

/-- All default globals by name. -/
def defaultGlobals : List (String × Initial) :=
  [("_G", .globals), ("_VERSION", .text "Lua 5.5"), ("assert", .native .assert),
    ("collectgarbage", .native .collectgarbage), ("coroutine", .library .coroutine),
    ("debug", .library .debug), ("dofile", .native (.outside "dofile")),
    ("error", .native .error), ("getmetatable", .native .getmetatable), ("io", .library .io),
    ("ipairs", .native .ipairs), ("load", .native .load),
    ("loadfile", .native (.outside "loadfile")), ("math", .library .math),
    ("next", .native .next), ("os", .library .os), ("package", .library .package),
    ("pairs", .native .pairs), ("pcall", .native .pcall), ("print", .native .print),
    ("python", .library .bridge), ("rawequal", .native .rawequal), ("rawget", .native .rawget),
    ("rawlen", .native .rawlen), ("rawset", .native .rawset),
    ("require", .native (.outside "require")), ("select", .native .select),
    ("setmetatable", .native .setmetatable), ("string", .library .string),
    ("table", .library .table), ("tonumber", .native .tonumber), ("tostring", .native .tostring),
    ("type", .native .type), ("utf8", .library .utf8), ("warn", .native (.outside "warn")),
    ("xpcall", .native .xpcall)]

/-- Functions that belong to the system outside, under their names. -/
def outsideFunctions (names : List String) : List (String × Value) :=
  names.map fun x => (x, .native (.outside x))

/-- The fields of a library. The bridge holds the object that stands for no value. -/
def Library.Kind.fields (l : Layout) (absent : Value) : Library.Kind → List (String × Value)
  | .coroutine => CoroutineFunction.all.map fun f => (f.name, .native (.coroutine f))
  | .debug => outsideFunctions
    ["debug", "gethook", "getinfo", "getlocal", "getmetatable", "getregistry", "getupvalue",
      "getuservalue", "sethook", "setlocal", "setmetatable", "setupvalue", "setuservalue",
      "traceback", "upvalueid", "upvaluejoin"]
  | .io => outsideFunctions
    ["close", "flush", "input", "lines", "open", "output", "popen", "read", "tmpfile", "type",
      "write"]
  | .math =>
    MathFunction.all.map (fun f => (f.name, .native (.math f))) ++
      [("huge", .float (Binary64.infinity false)), ("maxinteger", .int Int64.maxValue),
        ("mininteger", .int Int64.minValue), ("pi", .float Library.pi)]
  | .os => outsideFunctions
    ["clock", "date", "difftime", "execute", "exit", "getenv", "remove", "rename", "setlocale",
      "time", "tmpname"]
  | .package =>
    outsideFunctions ["loadlib", "searchpath"] ++
      [("config", .ofString "/\n;\n?\n!\n-\n"), ("cpath", .ofString "./?.so"),
        ("loaded", .table l.loaded), ("path", .ofString "./?.lua"),
        ("preload", .table l.preload), ("searchers", .table l.searchers)]
  | .bridge =>
    outsideFunctions
      ["args", "as_attrgetter", "as_function", "as_itemgetter", "enumerate", "iter", "iterex",
        "set_overflow_handler"] ++ [("none", absent)]
  | .string => TextFunction.all.map fun f => (f.name, .native (.text f))
  | .table => TableFunction.all.map fun f => (f.name, .native (.table f))
  | .utf8 =>
    outsideFunctions ["char", "codepoint", "codes", "len", "offset"] ++
      [("charpattern",
        .text (Text.encode "[\x00-\x7f" ++ [0xC2, 0x2D, 0xFD, 0x5D, 0x5B, 0x80, 0x2D, 0xBF]
          ++ Text.encode "]*"))]

/-- The metatable of texts: methods are text functions, and numerals can be calculated with. -/
def textMetatable (l : Layout) : List (String × Value) :=
  let op := fun (f : ArithOp) => Value.native (.textArith f)
  [("__index", .table (l.library .string)), ("__add", op .add), ("__sub", op .sub),
    ("__mul", op .mul), ("__mod", op .mod), ("__pow", op .pow), ("__div", op .div),
    ("__idiv", op .floorDiv), ("__unm", .native .textNegate)]

/-- The metatable of objects of the host. -/
def objectMetatable : List (String × Value) :=
  let op := fun (f : ObjectFunction) => Value.native (.object f)
  [("__name", .ofString "POBJECT"), ("__call", op .call), ("__index", op .index),
    ("__newindex", op .assign), ("__tostring", op .show), ("__gc", .native (.outside "__gc"))]

/-- A table with named fields. -/
def Table.ofFields (home : Nat) (fields : List (String × Value)) : Table :=
  fields.foldl (fun t (x, v) => t.set (.ofString x) v) (.empty home)

/-- What a table of named fields has is one of them. -/
theorem Table.mem_of_find_ofFields {home : Nat} {fields : List (String × Value)} {key : Value}
    (h : (ofFields home fields).find key ≠ .nil) :
    ∃ x, key = .ofString x ∧ (x, (ofFields home fields).find key) ∈ fields := by
  have found : ∀ t : Table, let t' := fields.foldl (fun t (x, v) => t.set (.ofString x) v) t
      t'.find key = t.find key ∨ ∃ x, key = .ofString x ∧ (x, t'.find key) ∈ fields := by
    clear h
    induction fields with
    | nil => exact fun _ => .inl rfl
    | cons e fields ih =>
      intro t
      rcases ih (t.set (.ofString e.1) e.2) with he | ⟨x, hk, hm⟩
      · by_cases hk : key = .ofString e.1
        · subst hk
          have hset : (t.set (.ofString e.1) e.2).find (.ofString e.1) = e.2 :=
            find_set_self t (.ofString e.1) e.2
          refine .inr ⟨e.1, rfl, ?_⟩
          rw [List.foldl_cons, he, hset]
          exact List.mem_cons_self
        · exact .inl (he.trans (find_set_of_ne hk _))
      · exact .inr ⟨x, hk, List.mem_cons_of_mem _ hm⟩
  rcases found (.empty home) with he | hm
  · exact absurd (he.trans (find_empty home key)) h
  · exact hm

@[simp] theorem Table.metatable_ofFields (home : Nat) (fields : List (String × Value)) :
    (ofFields home fields).metatable = none := by
  have kept : ∀ t : Table,
      (fields.foldl (fun t (x, v) => t.set (.ofString x) v) t).metatable = t.metatable := by
    induction fields with
    | nil => exact fun _ => rfl
    | cons e fields ih => exact fun t => (ih _).trans (metatable_set t _ _)
  exact kept (.empty home)

/-- The default globals that are kept. -/
def keptGlobals (keep : List String) : List (String × Initial) :=
  defaultGlobals.filter fun (x, _) => keep.contains x

/-- The fields of the tables of a new environment, in the order of `Layout`. -/
def Layout.fields (l : Layout) (absent : Value) (keep : List String) :
    List (List (String × Value)) :=
  let loaded := ("_G", .table l.globals) ::
    Library.Kind.all.map fun k => (k.name, Value.table (l.library k))
  [(keptGlobals keep).map fun (x, i) => (x, i.value l), textMetatable l, objectMetatable, loaded,
    [], []] ++ Library.Kind.all.map fun k => k.fields l absent

namespace Heap

/-- Adds an environment that keeps some default globals. Its number is the number of environments
before. -/
def openEnvironment (h : Heap) (absent : Value) (keep : List String) : Heap :=
  let home := h.environments.size
  let l : Layout := ⟨h.tables.size⟩
  { h with
    tables := h.tables ++ (l.fields absent keep).map (Table.ofFields home)
    environments := h.environments.push
      ⟨l.globals, l.texts, l.objects, l.loaded, .ofSeeds (UInt64.ofNat home) 0⟩ }

section

variable (h : Heap) (absent : Value) (keep : List String)

end

end Heap

end ScriptHost.Script
