import ScriptHost.Fault

/-!
# Tokens of settings files

A settings file is cut into marks, names and scalars, with marks of its own for where blocks begin
and end, which is told by indentation. A key is only known to be one when its colon is met: until
then its place is remembered, and a key on one line is given its mark there.
-/
namespace ScriptHost.Settings

/-- A piece of a settings file. -/
inductive Token where
  /-- The version of the format, by its first number. -/
  | version (major : Nat)
  /-- A short form of tags, and what it stands for. -/
  | tagHandle (handle full : String)
  /-- A directive that means nothing here. -/
  | directive
  | documentStart
  | documentEnd
  | sequenceStart
  | mappingStart
  | blockEnd
  | flowSequenceStart
  | flowSequenceEnd
  | flowMappingStart
  | flowMappingEnd
  | entry
  | comma
  | key
  | value
  | reference (name : String)
  | anchor (name : String)
  /-- A tag: a short form that it begins with, if it does, and the rest. -/
  | tag (handle : Option String) (rest : String)
  /-- A scalar, plain or between quotes or in a block. -/
  | scalar (text : String) (plain : Bool)
  | finish
  /-- What cannot be read, with the reason. -/
  | broken (fault : Fault)
  deriving DecidableEq, Repr, Inhabited

/-- A place where a key may have begun. -/
structure KeyPlace where
  /-- How many tokens come before it. -/
  token : Nat
  required : Bool
  index : Nat
  line : Nat
  column : Nat

/-- How far a file has been read. -/
structure Reader where
  rest : List Char
  index : Nat := 0
  line : Nat := 0
  column : Nat := 0
  /-- How many brackets are open. -/
  flow : Nat := 0
  /-- The column of the block around, minus one outside of all. -/
  indent : Int := -1
  indents : List Int := []
  /-- Whether a key may begin here. -/
  keyAllowed : Bool := true
  /-- The key that may have begun at each level of brackets. -/
  keys : List (Nat × KeyPlace) := []
  tokens : Array Token := #[]

/-- Reading a settings file. -/
abbrev Read := StateT Reader (Except Fault)

namespace Read

/-- Refuses the file. -/
def fail {α : Type} (why : String) : Read α :=
  throw (.settings why)

def isBreak (c : Char) : Bool :=
  c = '\n' || c = '\r' || c = '\u0085' || c = '\u2028' || c = '\u2029'

/-- A break or the end, which reads as a null. -/
def isBreakOrEnd (c : Char) : Bool :=
  isBreak c || c = '\x00'

/-- What a word ends before. -/
def isGap (c : Char) : Bool :=
  isBreakOrEnd c || c = ' ' || c = '\t'

/-- The character at a distance, a null after the end. -/
def peek (n : Nat) : Read Char := do
  return (← get).rest[n]?.getD '\x00'

/-- Goes on by one character. -/
def advance : Read Unit :=
  modify fun r =>
    match r.rest with
    | [] => r
    | c :: rest =>
      let ends := isBreak c && !(c = '\r' && rest.head? = some '\n')
      { r with
        rest
        index := r.index + 1
        line := if ends then r.line + 1 else r.line
        column := if ends then 0 else if c = '\uFEFF' then r.column else r.column + 1 }

def forward : Nat → Read Unit
  | 0 => return ()
  | n + 1 => do
    advance
    forward n

/-- The next characters, as long as they fit. -/
def span (p : Char → Bool) : Read (List Char) := do
  return (← get).rest.takeWhile p

/-- Takes the next characters, as long as they fit. -/
def takeWhile (p : Char → Bool) : Read (List Char) := do
  let cs ← span p
  forward cs.length
  return cs

/-- Takes a line break and gives what it counts as. -/
def takeBreak : Read (List Char) := do
  let c ← peek 0
  if c = '\r' && (← peek 1) = '\n' then
    forward 2
    return ['\n']
  if c = '\r' || c = '\n' || c = '\u0085' then
    advance
    return ['\n']
  if c = '\u2028' || c = '\u2029' then
    advance
    return [c]
  return []

/-- Whether a document mark stands here. -/
def atDocumentMark : Read Bool := do
  let cs := (← get).rest
  let mark := cs.take 3
  return (mark = ['-', '-', '-'] || mark = ['.', '.', '.']) && isGap ((cs[3]?).getD '\x00')

def emit (t : Token) : Read Unit :=
  modify fun r => { r with tokens := r.tokens.push t }

def allowKey (b : Bool) : Read Unit :=
  modify fun r => { r with keyAllowed := b }

/-- Puts tokens where a key began. -/
def insertAt (n : Nat) (ts : List Token) : Read Unit :=
  modify fun r => { r with
    tokens := (r.tokens.toList.take n ++ ts ++ r.tokens.toList.drop n).toArray }

/-! ### Keys and indentation -/

/-- Drops the keys that can no longer be completed. -/
def dropStale : Read Unit := do
  let r ← get
  let stale := fun (k : KeyPlace) => k.line ≠ r.line || r.index - k.index > 1024
  if r.keys.any fun (_, k) => stale k && k.required then fail "could not find expected ':'"
  set { r with keys := r.keys.filter fun (_, k) => !stale k }

/-- Drops the key that may have begun at this level. -/
def dropKey : Read Unit := do
  let r ← get
  match r.keys.lookup r.flow with
  | some k =>
    if k.required then fail "could not find expected ':'"
    set { r with keys := r.keys.filter fun (level, _) => level ≠ r.flow }
  | none => return ()

/-- Remembers that a key may begin here. -/
def saveKey : Read Unit := do
  let r ← get
  if r.keyAllowed then
    dropKey
    let place : KeyPlace :=
      ⟨r.tokens.size, r.flow = 0 && r.indent = (r.column : Int), r.index, r.line, r.column⟩
    modify fun r => { r with keys := (r.flow, place) :: r.keys }

/-- Ends the blocks that are deeper than a column. -/
def unwind (column : Int) : Read Unit := do
  let r ← get
  if r.flow = 0 then
    let go := (r.indent :: r.indents).takeWhile (column < ·)
    let left := (r.indent :: r.indents).drop go.length
    set { r with
      indent := left.headD (-1)
      indents := left.tail
      tokens := r.tokens ++ go.map fun _ => Token.blockEnd }

/-- Begins a block at a column if it is deeper than the block around. -/
def deepen (column : Nat) : Read Bool := do
  let r ← get
  if r.indent < column then
    set { r with indent := column, indents := r.indent :: r.indents }
    return true
  return false

/-! ### Blanks -/

/-- Skips blanks, comments and line breaks, so many lines of them. -/
def skipBlanks : Nat → Read Unit
  | 0 => return ()
  | n + 1 => do
    if (← get).index = 0 && (← peek 0) = '\uFEFF' then advance
    let _ ← takeWhile (· = ' ')
    if (← peek 0) = '#' then
      let _ ← takeWhile (!isBreakOrEnd ·)
    match ← takeBreak with
    | [] => return ()
    | _ =>
      if (← get).flow = 0 then allowKey true
      skipBlanks n

/-! ### Scalars -/

/-- Skips blank lines with all their spaces, and gives the breaks. Ends early, with none, at a
document mark. -/
def plainBreaks : Nat → List Char → Read (Option (List Char))
  | 0, breaks => return some breaks
  | n + 1, breaks => do
    let _ ← takeWhile (· = ' ')
    if isBreak (← peek 0) then
      let b ← takeBreak
      if ← atDocumentMark then return none
      plainBreaks n (breaks ++ b)
    else return some breaks

/-- What folded lines are joined by. -/
def foldBreaks (first breaks : List Char) : List Char :=
  if first ≠ ['\n'] then first ++ breaks
  else if breaks.isEmpty then [' '] else breaks

/-- The blanks inside a plain scalar, none where it ends. -/
def plainSpaces : Read (List Char) := do
  let spaces ← takeWhile (· = ' ')
  if isBreak (← peek 0) then
    let first ← takeBreak
    allowKey true
    if ← atDocumentMark then return []
    match ← plainBreaks (← get).rest.length [] with
    | none => return []
    | some breaks => return foldBreaks first breaks
  else return spaces

/-- The characters of a plain scalar up to a blank or a mark. -/
def plainWord (flow : Bool) : List Char → List Char
  | [] => []
  | c :: rest =>
    let next := rest.headD '\x00'
    if isGap c then []
    else if c = ':' && (isGap next || (flow && [',', '[', ']', '{', '}'].contains next)) then []
    else if flow && [',', '?', '[', ']', '{', '}'].contains c then []
    else c :: plainWord flow rest

/-- Takes a plain scalar word by word. -/
def plainWords (indent : Int) : Nat → List Char → List Char → Read (List Char)
  | 0, acc, _ => return acc
  | n + 1, acc, spaces => do
    let r ← get
    if (← peek 0) = '#' then return acc
    let word := plainWord (r.flow ≠ 0) r.rest
    if word.isEmpty then return acc
    allowKey false
    forward word.length
    let acc := acc ++ spaces ++ word
    let spaces ← plainSpaces
    if spaces.isEmpty || (← peek 0) = '#' then return acc
    let r ← get
    if r.flow = 0 && (r.column : Int) < indent then return acc
    plainWords indent n acc spaces

/-- The character an escape stands for, or how many digits its number has. -/
def escape? : Char → Option (Char ⊕ Nat)
  | '0' => some (.inl '\x00')
  | 'a' => some (.inl '\x07')
  | 'b' => some (.inl '\x08')
  | 't' | '\t' => some (.inl '\t')
  | 'n' => some (.inl '\n')
  | 'v' => some (.inl '\x0b')
  | 'f' => some (.inl '\x0c')
  | 'r' => some (.inl '\r')
  | 'e' => some (.inl '\x1b')
  | ' ' => some (.inl ' ')
  | '"' => some (.inl '"')
  | '\\' => some (.inl '\\')
  | '/' => some (.inl '/')
  | 'N' => some (.inl '\u0085')
  | '_' => some (.inl '\u00A0')
  | 'L' => some (.inl '\u2028')
  | 'P' => some (.inl '\u2029')
  | 'x' => some (.inr 2)
  | 'u' => some (.inr 4)
  | 'U' => some (.inr 8)
  | _ => none

/-- The value of a hexadecimal digit. -/
def hexValue? (c : Char) : Option Nat :=
  if '0' ≤ c && c ≤ '9' then some (c.toNat - '0'.toNat)
  else if 'a' ≤ c && c ≤ 'f' then some (c.toNat - 'a'.toNat + 10)
  else if 'A' ≤ c && c ≤ 'F' then some (c.toNat - 'A'.toNat + 10)
  else none

/-- The number that so many hexadecimal digits at the front make. -/
def hexNumber? (digits : Nat) (cs : List Char) : Option Nat := do
  let vs ← (cs.take digits).mapM hexValue?
  if vs.length < digits then none else some (vs.foldl (fun a v => a * 16 + v) 0)

/-- The second half of a character that is spelled in two halves, if one follows. -/
def secondHalf? : List Char → Option Nat
  | '\\' :: 'u' :: rest =>
    (hexNumber? 4 rest).filter fun n => 0xDC00 ≤ n && n ≤ 0xDFFF
  | _ => none

/-- The character that a number in an escape stands for. Two halves next to each other make one; a
half alone is shown as a character that is not known. -/
def takeCharacter (code : Nat) : Read Char := do
  if 2 ^ 31 ≤ code then throw .characterTooLarge
  if 0x110000 ≤ code then throw .noCharacter
  if code < 0xD800 || 0xDFFF < code then return Char.ofNat code
  match secondHalf? (← get).rest with
  | some low =>
    if code < 0xDC00 then
      forward 6
      return Char.ofNat (0x10000 + (code - 0xD800) * 0x400 + (low - 0xDC00))
    else return '\uFFFD'
  | none => return '\uFFFD'

/-- Blank lines inside a quoted scalar. -/
def quotedBreaks : Nat → List Char → Read (List Char)
  | 0, breaks => return breaks
  | n + 1, breaks => do
    if ← atDocumentMark then fail "found unexpected document separator"
    let _ ← takeWhile fun c => c = ' ' || c = '\t'
    if isBreak (← peek 0) then
      let b ← takeBreak
      quotedBreaks n (breaks ++ b)
    else return breaks

/-- Takes an escape. -/
def takeEscape : Read (List Char) := do
  advance
  let c ← peek 0
  match escape? c with
  | some (.inl d) =>
    advance
    return [d]
  | some (.inr n) =>
    advance
    match hexNumber? n (← get).rest with
    | some code =>
      forward n
      return [← takeCharacter code]
    | none => fail "expected escape sequence of hexadecimal numbers"
  | none =>
    if isBreak c then
      let _ ← takeBreak
      quotedBreaks (← get).rest.length []
    else fail "found unknown escape character"

/-- Takes the blanks inside a quoted scalar. -/
def quotedSpaces : Read (List Char) := do
  let spaces ← takeWhile fun c => c = ' ' || c = '\t'
  let c ← peek 0
  if c = '\x00' then fail "found unexpected end of stream"
  if isBreak c then
    let first ← takeBreak
    let breaks ← quotedBreaks ((← get).rest.length + 1) []
    return foldBreaks first breaks
  return spaces

/-- Takes a quoted scalar after its first quote. -/
def quotedRest (double : Bool) : Nat → List Char → Read (List Char)
  | 0, _ => fail "found unexpected end of stream"
  | n + 1, acc => do
    let c ← peek 0
    if !double && c = '\'' then
      advance
      if (← peek 0) = '\'' then
        advance
        quotedRest double n (acc ++ ['\''])
      else return acc
    else if double && c = '"' then
      advance
      return acc
    else if double && c = '\\' then
      let cs ← takeEscape
      quotedRest double n (acc ++ cs)
    else if isGap c then
      let cs ← quotedSpaces
      quotedRest double n (acc ++ cs)
    else
      let cs ← takeWhile fun d => !isGap d && d ≠ '\'' && d ≠ '"' && d ≠ '\\'
      if cs.isEmpty then
        advance
        quotedRest double n (acc ++ [c])
      else quotedRest double n (acc ++ cs)

/-- The breaks of the blank lines before a line of a block scalar, with the greatest indentation
among them. -/
def blockIndentation : Nat → List Char → Nat → Read (List Char × Nat)
  | 0, breaks, most => return (breaks, most)
  | n + 1, breaks, most => do
    let c ← peek 0
    if c = ' ' then
      advance
      blockIndentation n breaks (max most (← get).column)
    else if isBreak c then
      let b ← takeBreak
      blockIndentation n (breaks ++ b) most
    else return (breaks, most)

/-- The breaks of the blank lines before a line of a block scalar of a known indentation. -/
def blockBreaks (indent : Nat) : Nat → List Char → Read (List Char)
  | 0, breaks => return breaks
  | n + 1, breaks => do
    let r ← get
    let room := indent - r.column
    forward (r.rest.take room |>.takeWhile (· = ' ')).length
    if isBreak (← peek 0) then
      let b ← takeBreak
      blockBreaks indent n (breaks ++ b)
    else return breaks

/-- The lines of a block scalar, with the breaks after them. -/
def blockLines (folded : Bool) (indent : Nat) :
    Nat → List Char → List Char → List Char → Read (List Char × List Char × List Char)
  | 0, acc, last, breaks => return (acc, last, breaks)
  | n + 1, acc, _, breaks => do
    let r ← get
    if r.column ≠ indent || (← peek 0) = '\x00' then return (acc, [], breaks)
    let c ← peek 0
    let acc := acc ++ breaks
    let opens := c ≠ ' ' && c ≠ '\t'
    let line ← takeWhile (!isBreakOrEnd ·)
    let acc := acc ++ line
    let last ← takeBreak
    let breaks ← blockBreaks indent ((← get).rest.length + 1) []
    let r ← get
    if r.column = indent && (← peek 0) ≠ '\x00' then
      let d ← peek 0
      let acc :=
        if folded && last = ['\n'] && opens && d ≠ ' ' && d ≠ '\t' then
          if breaks.isEmpty then acc ++ [' '] else acc
        else acc ++ last
      blockLines folded indent n acc [] breaks
    else return (acc, last, breaks)

/-- What is kept of the breaks at the end of a block scalar. -/
inductive Chomping where
  | clip | strip | keep
  deriving DecidableEq

/-- The header of a block scalar: what is kept at its end, and how much deeper it is if it says
so. -/
def blockHeader : Read (Chomping × Option Nat) := do
  let sign := fun (c : Char) =>
    if c = '+' then some Chomping.keep else if c = '-' then some Chomping.strip else none
  let digit : Read (Option Nat) := do
    let c ← peek 0
    if c.isDigit then
      if c = '0' then fail "expected indentation indicator in the range 1-9"
      advance
      return some (c.toNat - '0'.toNat)
    return none
  let result ← match sign (← peek 0) with
    | some s => do
      advance
      pure (s, ← digit)
    | none => do
      match ← digit with
      | some d =>
        match sign (← peek 0) with
        | some s =>
          advance
          pure (s, some d)
        | none => pure (Chomping.clip, some d)
      | none => pure (Chomping.clip, none)
  if !isGap (← peek 0) || (← peek 0) = '\t' then
    fail "expected chomping or indentation indicators"
  let _ ← takeWhile (· = ' ')
  if (← peek 0) = '#' then
    let _ ← takeWhile (!isBreakOrEnd ·)
  if !isBreakOrEnd (← peek 0) then fail "expected a comment or a line break"
  let _ ← takeBreak
  return result

/-- Takes a block scalar. -/
def blockScalar (folded : Bool) : Read (List Char) := do
  advance
  let (chomping, increment) ← blockHeader
  let least := (max ((← get).indent + 1) 1).toNat
  let fuel := (← get).rest.length + 1
  let (breaks, indent) ← match increment with
    | none => do
      let (breaks, most) ← blockIndentation fuel [] 0
      pure (breaks, max least most)
    | some k => do
      let indent := least + k - 1
      pure (← blockBreaks indent fuel [], indent)
  let (acc, last, breaks) ← blockLines folded indent fuel [] [] breaks
  match chomping with
  | .strip => return acc
  | .clip => return acc ++ last
  | .keep => return acc ++ last ++ breaks

/-! ### Names and tags -/

/-- A character of a name. -/
def isNameChar (c : Char) : Bool :=
  ('0' ≤ c && c ≤ '9') || ('a' ≤ c && c ≤ 'z') || ('A' ≤ c && c ≤ 'Z') || c = '-' || c = '_'

/-- Takes the name of an anchor or of a reference to one. -/
def takeName : Read String := do
  advance
  let cs ← takeWhile isNameChar
  if cs.isEmpty then fail "expected alphabetic or numeric character"
  let c ← peek 0
  if isGap c || ['?', ':', ',', ']', '}', '%', '@', '\x60'].contains c then
    return String.ofList cs
  else fail "expected alphabetic or numeric character"

/-- What a word of a directive or a tag ends before. -/
def isWordEnd (c : Char) : Bool :=
  isBreakOrEnd c || c = ' '

/-- A character of a tag that stands for itself. -/
def isTagChar (c : Char) : Bool :=
  c.isAlphanum || "-;/?:@&=+$,_.!~*'()[]".toList.contains c

/-- Takes escaped bytes of a tag, which make whole characters. -/
def takeTagBytes : Nat → Text.Bytes → Read (List Char)
  | 0, _ => fail "expected URI escape sequence"
  | n + 1, acc => do
    if (← peek 0) = '%' then
      match hexNumber? 2 ((← get).rest.drop 1) with
      | some b =>
        forward 3
        takeTagBytes n (UInt8.ofNat b :: acc)
      | none => fail "expected URI escape sequence of 2 hexadecimal numbers"
    else
      match Text.decode acc.reverse with
      | .ok s => return s.toList
      | .error m => fail m.message

/-- Takes the characters of a tag. -/
def takeTagChars : Nat → List Char → Read (List Char)
  | 0, acc => return acc
  | n + 1, acc => do
    let cs ← takeWhile isTagChar
    let acc := acc ++ cs
    if (← peek 0) = '%' then
      let cs ← takeTagBytes ((← get).rest.length + 1) []
      takeTagChars n (acc ++ cs)
    else return acc

/-- Takes the rest of a tag after its short form. -/
def takeTagRest : Read String := do
  let start ← peek 0
  let cs ← takeTagChars ((← get).rest.length + 1) []
  if cs.isEmpty && start ≠ '%' then fail "expected URI"
  return String.ofList cs

/-- Takes a short form of tags: a mark, or a name between two marks. -/
def takeTagHandle : Read String := do
  if (← peek 0) ≠ '!' then fail "expected '!'"
  advance
  if (← peek 0) = ' ' then return "!"
  let cs ← takeWhile isNameChar
  if (← peek 0) ≠ '!' then fail "expected '!'"
  advance
  return "!" ++ String.ofList cs ++ "!"

/-- Takes a tag: in full between angle brackets, a mark alone, or a short form and a rest. -/
def takeTag : Read Token := do
  let next ← peek 1
  let made ←
    if next = '<' then do
      forward 2
      let full ← takeTagRest
      if (← peek 0) ≠ '>' then fail "expected '>'"
      advance
      pure (Token.tag none full)
    else if isGap next then do
      advance
      pure (Token.tag none "!")
    else do
      let word := ((← get).rest.drop 1).takeWhile (!isWordEnd ·)
      let handle ← if word.contains '!' then takeTagHandle
        else do
          advance
          pure "!"
      pure (Token.tag (some handle) (← takeTagRest))
  if !isWordEnd (← peek 0) then fail "expected ' '"
  return made

/-! ### Directives -/

/-- Takes a number of a version. -/
def takeVersionNumber : Read Nat := do
  let ds ← takeWhile Char.isDigit
  if ds.isEmpty then fail "expected a digit"
  return ds.foldl (fun a c => a * 10 + (c.toNat - '0'.toNat)) 0

/-- Takes the version of the format. -/
def takeVersion : Read Token := do
  let _ ← takeWhile (· = ' ')
  let major ← takeVersionNumber
  if (← peek 0) ≠ '.' then fail "expected a digit or '.'"
  advance
  let _ ← takeVersionNumber
  if !isWordEnd (← peek 0) then fail "expected a digit or ' '"
  return .version major

/-- Takes a short form of tags and what it stands for. -/
def takeHandleMeaning : Read Token := do
  let _ ← takeWhile (· = ' ')
  let handle ← takeTagHandle
  if (← peek 0) ≠ ' ' then fail "expected ' '"
  let _ ← takeWhile (· = ' ')
  let full ← takeTagRest
  if !isWordEnd (← peek 0) then fail "expected ' '"
  return .tagHandle handle full

/-- Takes a directive with the rest of its line, where nothing but a comment may stand. -/
def takeDirective : Read Token := do
  advance
  let name ← takeWhile isNameChar
  if name.isEmpty || !isWordEnd (← peek 0) then fail "expected alphabetic or numeric character"
  let made ← match String.ofList name with
    | "YAML" => takeVersion
    | "TAG" => takeHandleMeaning
    | _ => do
      let _ ← takeWhile (!isBreakOrEnd ·)
      pure .directive
  let _ ← takeWhile (· = ' ')
  if (← peek 0) = '#' then
    let _ ← takeWhile (!isBreakOrEnd ·)
  if !isBreakOrEnd (← peek 0) then fail "expected a comment or a line break"
  let _ ← takeBreak
  return made

/-! ### Tokens -/

/-- Begins a block before the next token if it is deeper than the block around. -/
def openBlock (t : Token) (why : String) : Read Unit := do
  let r ← get
  if r.flow = 0 then
    if !r.keyAllowed then fail why
    if ← deepen r.column then emit t

/-- Takes a colon: the key before it is given its mark, or there is none. -/
def takeColon : Read Unit := do
  let r ← get
  match r.keys.lookup r.flow with
  | some k =>
    set { r with keys := r.keys.filter fun (level, _) => level ≠ r.flow }
    let opens ← if r.flow = 0 then deepen k.column else pure false
    insertAt k.token (if opens then [.mappingStart, .key] else [.key])
    allowKey false
  | none =>
    openBlock .mappingStart "mapping values are not allowed here"
    allowKey (r.flow = 0)
    dropKey
  advance
  emit .value

/-- Takes the next token. Tells whether that was the last. -/
def takeToken : Read Bool := do
  skipBlanks ((← get).rest.length + 1)
  dropStale
  unwind (← get).column
  let r ← get
  let c ← peek 0
  let next ← peek 1
  let flow := r.flow ≠ 0
  let open_ := fun (t : Token) => do
    saveKey
    modify fun r => { r with flow := r.flow + 1, keyAllowed := true }
    advance
    emit t
  let close := fun (t : Token) => do
    dropKey
    modify fun r => { r with flow := r.flow - 1, keyAllowed := false }
    advance
    emit t
  let scalar := fun (run : Read (List Char)) (plain : Bool) => do
    saveKey
    allowKey false
    let cs ← run
    emit (.scalar (String.ofList cs) plain)
  if c = '\x00' then
    unwind (-1)
    dropKey
    emit .finish
    return true
  if c = '%' && r.column = 0 then
    unwind (-1)
    dropKey
    allowKey false
    emit (← takeDirective)
    return false
  if r.column = 0 && (← atDocumentMark) then
    unwind (-1)
    dropKey
    allowKey false
    forward 3
    emit (if c = '-' then .documentStart else .documentEnd)
    return false
  if c = '[' then open_ .flowSequenceStart
  else if c = '{' then open_ .flowMappingStart
  else if c = ']' then close .flowSequenceEnd
  else if c = '}' then close .flowMappingEnd
  else if c = ',' then
    allowKey true
    dropKey
    advance
    emit .comma
  else if c = '-' && isGap next then
    openBlock .sequenceStart "sequence entries are not allowed here"
    allowKey true
    dropKey
    advance
    emit .entry
  else if c = '?' && (flow || isGap next) then
    openBlock .mappingStart "mapping keys are not allowed here"
    allowKey (!flow)
    dropKey
    advance
    emit .key
  else if c = ':' && (flow || isGap next) then takeColon
  else if c = '*' then
    saveKey
    allowKey false
    emit (.reference (← takeName))
  else if c = '&' then
    saveKey
    allowKey false
    emit (.anchor (← takeName))
  else if c = '!' then
    saveKey
    allowKey false
    emit (← takeTag)
  else if (c = '|' || c = '>') && !flow then
    allowKey true
    dropKey
    let cs ← blockScalar (c = '>')
    emit (.scalar (String.ofList cs) false)
  else if c = '\'' || c = '"' then
    scalar (do
      advance
      quotedRest (c = '"') ((← get).rest.length + 1) []) false
  else if !(isGap c || "-?:,[]\x7b\x7d#&*!|>'\"%@\x60".toList.contains c)
      || (!isGap next && (c = '-' || (!flow && (c = '?' || c = ':')))) then
    scalar (do plainWords (r.indent + 1) ((← get).rest.length + 1) [] []) true
  else fail "found character that cannot start any token"
  return false

/-- Takes tokens up to the last. What does not fit the format refuses the whole file; what fails
otherwise only does so when it is reached. -/
def takeTokens : Nat → Reader → Except Fault (List Token)
  | 0, r => return r.tokens.toList
  | n + 1, r =>
    match takeToken.run r with
    | .ok (isLast, r) => if isLast then .ok r.tokens.toList else takeTokens n r
    | .error (.settings why) => .error (.settings why)
    | .error f => .ok (r.tokens.toList ++ [.broken f])

/-- Whether a character may stand in a settings file. -/
def isAllowed (c : Char) : Bool :=
  let n := c.toNat
  n = 9 || n = 10 || n = 13 || (0x20 ≤ n && n ≤ 0x7E) || n = 0x85 || (0xA0 ≤ n && n ≤ 0xD7FF)
    || (0xE000 ≤ n && n ≤ 0xFFFD) || 0x10000 ≤ n

end Read

/-- The tokens of a settings file. -/
def tokens (cs : List Char) : Except Fault (List Token) := do
  if !cs.all Read.isAllowed then throw (.settings "special characters are not allowed")
  Read.takeTokens (2 * cs.length + 2) { rest := cs }

end ScriptHost.Settings
