import ScriptHost.Text.Quoted
import ScriptHost.Text.Utf8

/-!
# Faults

Everything that can go wrong at the border between a host and its scripts, by cause, with the text
of each. The faults a session contains and reports, from `scriptMissing` to `callFailed`, carry
what caused them.
-/
namespace ScriptHost

open Text (quote)

/-- Names in a row as an enumeration, the last after `and`. -/
def enumerated : List String → String
  | [] => ""
  | [a] => a
  | [a, b] => a ++ " and " ++ b
  | names => ", ".intercalate names.dropLast ++ ", and " ++ names.getLastD ""

/-- How a value can be of the wrong type for what is done with it. -/
inductive Mismatch where
  /-- An operator that has no meaning for the types of its operands. -/
  | operands (operator left right : String)
  /-- Two types without an order between them. -/
  | order (operator left right : String)
  /-- A text joined with something else. -/
  | concatText (type : String)
  /-- A list joined with something else. -/
  | concatList (type other : String)
  /-- A sequence repeated by something else than a whole number. -/
  | repetition (type : String)
  | notCallable (type : String)
  | notIterable (type : String)
  | notSubscriptable (type : String)
  | notAssignable (type : String)
  | unhashable (type : String)
  /-- A sequence indexed by something else than a whole number. -/
  | indices (sequence type : String)
  | textIndices (type : String)
  | path (type : String)
  /-- A path made of bytes. -/
  | pathOfBytes
  /-- Something else where a text is searched. -/
  | notText (type : String)
  /-- A date compared with a moment. -/
  | dateAndMoment
  /-- A moment that tells its clock compared with one that does not. -/
  | clocks
  /-- A text looked for at the front of bytes. -/
  | frontOfBytes
  /-- An item of a row of texts that is no text. -/
  | joinedItem (index : Nat) (type : String)
  deriving DecidableEq, Repr

def Mismatch.message : Mismatch → String
  | .operands op l r => s!"unsupported operand type(s) for {op}: '{l}' and '{r}'"
  | .order op l r => s!"'{op}' not supported between instances of '{l}' and '{r}'"
  | .concatText t => s!"can only concatenate str (not \"{t}\") to str"
  | .concatList t o => s!"can only concatenate {t} (not \"{o}\") to {t}"
  | .repetition t => s!"can't multiply sequence by non-int of type '{t}'"
  | .notCallable t => s!"'{t}' object is not callable"
  | .notIterable t => s!"'{t}' object is not iterable"
  | .notSubscriptable t => s!"'{t}' object is not subscriptable"
  | .notAssignable t => s!"'{t}' object does not support item assignment"
  | .unhashable t => s!"unhashable type: '{t}'"
  | .indices s t => s!"{s} indices must be integers or slices, not {t}"
  | .textIndices t => s!"string indices must be integers, not '{t}'"
  | .pathOfBytes => "argument should be a str object or an os.PathLike object returning str, "
    ++ "not <class 'bytes'>"
  | .notText t => s!"expected string or bytes-like object, got '{t}'"
  | .dateAndMoment => "can't compare datetime.datetime to datetime.date"
  | .clocks => "can't compare offset-naive and offset-aware datetimes"
  | .frontOfBytes => "startswith first arg must be bytes or a tuple of bytes, not str"
  | .path t => s!"expected str, bytes or os.PathLike object, not {t}"
  | .joinedItem i t => s!"sequence item {i}: expected str instance, {t} found"

/-- How a call can have the wrong number of arguments. -/
inductive ArityFault where
  /-- Parameters that got none. -/
  | missing (function : String) (parameters : List String)
  /-- More arguments than a function takes. -/
  | excess (function : String) (least most given : Nat)
  deriving DecidableEq, Repr

def ArityFault.message : ArityFault → String
  | .missing f ps =>
    let plural := if ps.length = 1 then "" else "s"
    s!"{f}() missing {ps.length} required positional argument{plural}: "
      ++ enumerated (ps.map quote)
  | .excess f least most given =>
    let bounds := if least = most then s!"{most}" else s!"from {least} to {most}"
    let plural := if most = 1 && least = most then "" else "s"
    let verb := if given = 1 then "was" else "were"
    s!"{f}() takes {bounds} positional argument{plural} but {given} {verb} given"

/-- How a file can fail its user. -/
inductive FileFault where
  | missing
  | notDirectory
  | isDirectory
  | nameTooLong
  deriving DecidableEq, Repr

/-- The number the system gives a failure. -/
def FileFault.code : FileFault → Nat
  | .missing => 2
  | .notDirectory => 20
  | .isDirectory => 21
  | .nameTooLong => 36

def FileFault.reason : FileFault → String
  | .missing => "No such file or directory"
  | .notDirectory => "Not a directory"
  | .isDirectory => "Is a directory"
  | .nameTooLong => "File name too long"

inductive Fault where
  /-- A value that foreign code raised, of a kind it named. -/
  | raised (kind text : String)
  /-- A script that failed while it ran. -/
  | script (text : String)
  /-- A text that is no script. -/
  | syntaxError (text : String)
  | mismatch (m : Mismatch)
  | arity (a : ArityFault)
  | file (f : FileFault) (path : String)
  /-- A whole number that scripts have no room for. -/
  | integerTooLarge
  /-- A whole number that is beyond double precision. -/
  | integerTooLargeForFloat
  /-- A whole number that is too large for a place in a sequence. -/
  | indexTooLarge
  /-- A text that was to be repeated too often. -/
  | textTooLong
  | outOfMemory
  /-- A script used all the memory there is. -/
  | scriptOutOfMemory
  /-- A text, quoted, that spells no whole number in a base. -/
  | noInteger (base : Nat) (shown : String)
  /-- A text, quoted, that spells no number. -/
  | noNumber (shown : String)
  /-- A numeral with more digits than are read. -/
  | tooManyDigits (count : Nat)
  /-- A date or a moment that is none, with the reason. -/
  | moment (reason : String)
  /-- A number that no character has. -/
  | noCharacter
  /-- A number of a character that is too large to be looked up. -/
  | characterTooLarge
  /-- A text of a script that is not well-formed. -/
  | undecodable (m : Text.Malformed)
  /-- An attribute that is not for scripts. -/
  | privateAttribute (name : String)
  /-- An object of a class that is not for scripts. -/
  | typeNotExposed (type : String)
  | noAttribute (type name : String)
  /-- A function or thread of a script that is used as if it had attributes. -/
  | partOfFunction
  | attributeMistyped (type : String)
  | keyMissing (shown : String)
  | indexOutOfRange (sequence : String)
  | assignmentOutOfRange (sequence : String)
  | divisionByZero
  | handlerPresent (signal : String)
  | handlerAbsent (signal : String)
  | unnamedFunction
  | patternAbsolute
  | patternStars
  | nullInPath (operation : String)
  | settings (text : String)
  /-- A request of another process that is turned down. -/
  | refused (status : Nat) (detail : String)
  | levelUnknown (shown : String)
  | levelMistyped (shown : String)
  /-- A loop that is broken off. -/
  | cancelled
  /-- Calls between host and scripts that nest too deep. -/
  | tooDeep
  | scriptMissing (path : String)
  | scriptUnreadable (path : String) (cause : Fault)
  | scriptFailed (path : String) (cause : Fault)
  | eventUnknown (event : String)
  | alreadyListening (event : String)
  | subscribing (event : String) (cause : Fault)
  | unsubscribing (event : String) (cause : Fault)
  | callFailed (function : String) (cause : Fault)
  deriving DecidableEq, Repr

namespace Fault

/-- The text of a fault. -/
def message : Fault → String
  | raised kind text => if kind = "KeyError" then quote text else text
  | script text => text
  | syntaxError text => text
  | mismatch m => m.message
  | arity a => a.message
  | file f path => s!"[Errno {f.code}] {f.reason}: " ++ quote path
  | integerTooLarge => "Python int too large to convert to C long"
  | integerTooLargeForFloat => "int too large to convert to float"
  | indexTooLarge => "cannot fit 'int' into an index-sized integer"
  | textTooLong => "repeated string is too long"
  | outOfMemory => ""
  | scriptOutOfMemory => "not enough memory"
  | noInteger base shown =>
    let shown := String.ofList (shown.toList.take 200)
    s!"invalid literal for int() with base {base}: {shown}"
  | noNumber shown => s!"could not convert string to float: {shown}"
  | tooManyDigits n => "Exceeds the limit (4300 digits) for integer string conversion: value has "
    ++ s!"{n} digits; use sys.set_int_max_str_digits() to increase the limit"
  | moment reason => reason
  | noCharacter => "chr() arg not in range(0x110000)"
  | characterTooLarge => "Python int too large to convert to C int"
  | undecodable m => m.message
  | privateAttribute name => s!"Access to private attribute {name} is blocked"
  | typeNotExposed type => s!"Type '{type}' is not exposed to Lua"
  | partOfFunction => "item/attribute access not supported on functions"
  | attributeMistyped type => s!"attribute name must be string, not '{type}'"
  | noAttribute type name => s!"'{type}' object has no attribute '{name}'"
  | keyMissing shown => shown
  | indexOutOfRange s => s!"{s} index out of range"
  | assignmentOutOfRange s => s!"{s} assignment index out of range"
  | divisionByZero => "float division by zero"
  | handlerPresent signal => s!"Handler already connected to signal '{signal}'"
  | handlerAbsent signal => s!"Handler not connected to signal '{signal}'"
  | unnamedFunction => "Lua functions need a non-empty namespace and name"
  | patternAbsolute => "Non-relative patterns are unsupported"
  | patternStars => "Invalid pattern: '**' can only be an entire path component"
  | nullInPath operation => s!"{operation}: embedded null character in path"
  | settings text => text
  | refused _ detail => detail
  | levelUnknown shown => s!"Unknown level: {shown}"
  | levelMistyped shown => s!"Level not an integer or a valid string: {shown}"
  | cancelled => ""
  | tooDeep => "maximum recursion depth exceeded"
  | scriptMissing path => s!"Lua file not found: {path}"
  | scriptUnreadable path cause => s!"Could not read Lua file {path}: {cause.message}"
  | scriptFailed path cause => s!"Lua Error in {path}: {cause.message}"
  | eventUnknown event => s!"Event '{event}' not found."
  | alreadyListening event => s!"Event '{event}' is already being listened to."
  | subscribing event cause => s!"Error subscribing to event '{event}': {cause.message}"
  | unsubscribing event cause => s!"Error unsubscribing from event '{event}': {cause.message}"
  | callFailed function cause => s!"Error calling Lua function '{function}': {cause.message}"

/-- The name of the kind of a fault. -/
def kind : Fault → String
  | raised kind _ => kind
  | script _ => "LuaError"
  | syntaxError _ => "LuaSyntaxError"
  | mismatch _ | arity _ => "TypeError"
  | file .missing _ => "FileNotFoundError"
  | file .notDirectory _ => "NotADirectoryError"
  | file .isDirectory _ => "IsADirectoryError"
  | file .nameTooLong _ => "OSError"
  | integerTooLarge | integerTooLargeForFloat | indexTooLarge | textTooLong => "OverflowError"
  | outOfMemory => "MemoryError"
  | scriptOutOfMemory => "LuaMemoryError"
  | noInteger _ _ | noNumber _ | tooManyDigits _ | moment _ | noCharacter => "ValueError"
  | characterTooLarge => "OverflowError"
  | undecodable _ => "UnicodeDecodeError"
  | privateAttribute _ | typeNotExposed _ | noAttribute _ _ | partOfFunction => "AttributeError"
  | attributeMistyped _ => "TypeError"
  | keyMissing _ => "KeyError"
  | indexOutOfRange _ | assignmentOutOfRange _ => "IndexError"
  | divisionByZero => "ZeroDivisionError"
  | handlerPresent _ | handlerAbsent _ | unnamedFunction | patternStars | nullInPath _ =>
    "ValueError"
  | levelUnknown _ => "ValueError"
  | levelMistyped _ => "TypeError"
  | cancelled => "CancelledError"
  | patternAbsolute => "NotImplementedError"
  | settings _ => "YAMLError"
  | refused _ _ => "HTTPException"
  | tooDeep => "RecursionError"
  | scriptMissing _ => "ScriptNotFoundError"
  | scriptUnreadable _ _ => "ScriptReadError"
  | scriptFailed _ _ => "ScriptExecutionError"
  | eventUnknown _ => "EventNotFoundError"
  | alreadyListening _ => "AlreadyListeningError"
  | subscribing _ _ => "SubscriptionError"
  | unsubscribing _ _ => "UnsubscriptionError"
  | callFailed _ _ => "FunctionCallError"

/-- The faults that a session contains: it reports them instead of failing. -/
def isContained : Fault → Bool
  | scriptMissing _ | scriptUnreadable _ _ | scriptFailed _ _ | eventUnknown _
  | alreadyListening _ | subscribing _ _ | unsubscribing _ _ | callFailed _ _ => true
  | _ => false

/-- What caused a contained fault. -/
def cause? : Fault → Option Fault
  | scriptUnreadable _ c | scriptFailed _ c | subscribing _ c | unsubscribing _ c
  | callFailed _ c => some c
  | _ => none

end Fault

end ScriptHost
