import ScriptHost.Settings.Scalar
import ScriptHost.Settings.Token

/-!
# Nodes of settings files

Tokens as a tree of scalars, lists and maps, each of a kind: the kind its tag names, or the one its
form tells. A name stands for the node it was given to.
-/
namespace ScriptHost.Settings

/-- What a file holds, before its scalars are read. -/
inductive Node where
  | scalar (text : String) (kind : Kind)
  | list (items : List Node) (kind : Kind)
  | map (entries : List (Node × Node)) (kind : Kind)
  deriving Inhabited

/-- The short forms of tags that every file has. -/
def commonHandles : List (String × String) :=
  [("!", "!"), ("!!", "tag:yaml.org,2002:")]

/-- What is left to be read, the nodes that have a name, and the short forms of tags. -/
structure Parser where
  rest : List Token
  anchors : List (String × Node) := []
  handles : List (String × String) := commonHandles

abbrev Parse := StateT Parser (Except Fault)

namespace Parse

def fail {α : Type} (why : String) : Parse α :=
  throw (.settings why)

def peek : Parse Token := do
  match (← get).rest.headD .finish with
  | .broken f => throw f
  | t => return t

def advance : Parse Unit :=
  modify fun p => { p with rest := p.rest.tail }

/-- Takes a token if it comes next. -/
def accept (t : Token) : Parse Bool := do
  if (← peek) = t then
    advance
    return true
  return false

/-- A scalar that is not there. -/
def empty : Node := .scalar "" .null

/-- A node, or an empty scalar before some tokens. -/
def orEmpty (stops : List Token) (node : Parse Node) : Parse Node := do
  if stops.contains (← peek) then return empty else node

/-- A tag in full. -/
def fullTag (handle : Option String) (rest : String) : Parse String := do
  match handle with
  | none => return rest
  | some h =>
    match (← get).handles.lookup h with
    | some full => return full ++ rest
    | none => fail "found undefined tag handle"

/-- The anchor and the tag before a node. -/
def properties : Parse (Option String × Option String) := do
  match ← peek with
  | .anchor a =>
    advance
    match ← peek with
    | .tag handle rest =>
      advance
      return (some a, some (← fullTag handle rest))
    | _ => return (some a, none)
  | .tag handle rest =>
    advance
    match ← peek with
    | .anchor a =>
      advance
      return (some a, some (← fullTag handle rest))
    | _ => return (none, some (← fullTag handle rest))
  | _ => return (none, none)

/-- The kind of a node: the one its tag names. A tag that is a mark alone leaves it to the form. -/
def kindOf (tag : Option String) (form : Kind) : Kind :=
  match tag with
  | none | some "!" => form
  | some tag => .ofTag tag

/-- The kind of a scalar. Without a tag only a plain one is told by its form. -/
def scalarKind (text : String) (plain : Bool) (tag : Option String) : Kind :=
  kindOf tag (if plain || tag.isSome then .ofText text else .text)

/-- Entries of a block sequence, up to a token that is none. -/
def entries (node : Parse Node) (stops : List Token) : Nat → Parse (List Node)
  | 0 => return []
  | n + 1 => do
    if ← accept .entry then
      let item ← orEmpty (.entry :: .blockEnd :: stops) node
      return item :: (← entries node stops n)
    else return []

/-- The value after a key, empty where there is none. -/
def valueAfter (stops : List Token) (node : Parse Node) : Parse Node := do
  if ← accept .value then orEmpty stops node else return empty

/-- Pairs of a block mapping. -/
def pairs (node : Parse Node) : Nat → Parse (List (Node × Node))
  | 0 => return []
  | n + 1 => do
    if ← accept .key then
      let k ← orEmpty [.key, .value, .blockEnd] node
      let v ← valueAfter [.key, .value, .blockEnd] node
      return (k, v) :: (← pairs node n)
    else return []

/-- Items between brackets; a key makes a mapping of one pair. -/
def flowItems (node : Parse Node) (first : Bool) : Nat → Parse (List Node)
  | 0 => fail "expected ',' or ']'"
  | n + 1 => do
    if ← accept .flowSequenceEnd then return []
    if !first then
      if !(← accept .comma) then fail "expected ',' or ']'"
      if ← accept .flowSequenceEnd then return []
    let item ←
      if ← accept .key then do
        let k ← orEmpty [.value, .comma, .flowSequenceEnd] node
        let v ← valueAfter [.comma, .flowSequenceEnd] node
        pure (Node.map [(k, v)] .map)
      else node
    return item :: (← flowItems node false n)

/-- Pairs between braces. -/
def flowPairs (node : Parse Node) (first : Bool) : Nat → Parse (List (Node × Node))
  | 0 => fail "expected ',' or '\x7d'"
  | n + 1 => do
    if ← accept .flowMappingEnd then return []
    if !first then
      if !(← accept .comma) then fail "expected ',' or '\x7d'"
      if ← accept .flowMappingEnd then return []
    let pair ←
      if ← accept .key then do
        let k ← orEmpty [.value, .comma, .flowMappingEnd] node
        let v ← valueAfter [.comma, .flowMappingEnd] node
        pure (k, v)
      else do
        let k ← node
        pure (k, empty)
    return pair :: (← flowPairs node false n)

/-- Reads a node with so many levels of nesting left. -/
def node (block indentless : Bool) : Nat → Parse Node
  | 0 => throw .tooDeep
  | n + 1 => do
    match ← peek with
    | .reference name =>
      advance
      match (← get).anchors.lookup name with
      | some m => return m
      | none => fail "found undefined alias"
    | _ =>
      let (anchor, tag) ← properties
      let fuel := (← get).rest.length + 1
      let made : Node ← match ← peek with
        | .entry =>
          if indentless then
            pure (.list (← entries (node true false n) [.key, .value] fuel) (kindOf tag .list))
          else if anchor.isSome || tag.isSome then pure (.scalar "" (kindOf tag .null))
          else fail "expected the node content"
        | .scalar text plain =>
          advance
          pure (.scalar text (scalarKind text plain tag))
        | .flowSequenceStart =>
          advance
          pure (.list (← flowItems (node false false n) true fuel) (kindOf tag .list))
        | .flowMappingStart =>
          advance
          pure (.map (← flowPairs (node false false n) true fuel) (kindOf tag .map))
        | .sequenceStart =>
          if !block then fail "expected the node content"
          advance
          let items ← entries (node true false n) [] fuel
          if !(← accept .blockEnd) then fail "expected <block end>"
          pure (.list items (kindOf tag .list))
        | .mappingStart =>
          if !block then fail "expected the node content"
          advance
          let es ← pairs (node true true n) fuel
          if !(← accept .blockEnd) then fail "expected <block end>"
          pure (.map es (kindOf tag .map))
        | _ =>
          if anchor.isSome || tag.isSome then pure (.scalar "" (kindOf tag .null))
          else fail "expected the node content"
      match anchor with
      | some a =>
        if ((← get).anchors.lookup a).isSome then fail "found duplicate anchor"
        modify fun p => { p with anchors := (a, made) :: p.anchors }
      | none => pure ()
      return made

/-- Skips tokens of one kind. -/
def skip (t : Token) : Parse Unit :=
  modify fun p => { p with rest := p.rest.dropWhile (· = t) }

/-- Takes the directives before a document. -/
def directives : Nat → Bool → List (String × String) → Parse (List (String × String))
  | 0, _, handles => return handles
  | n + 1, versioned, handles => do
    match ← peek with
    | .directive =>
      advance
      directives n versioned handles
    | .version major =>
      if versioned then fail "found duplicate %YAML directive"
      if major ≠ 1 then fail "found incompatible YAML document (version 1.* is required)"
      advance
      directives n true handles
    | .tagHandle h full =>
      if (handles.lookup h).isSome then fail "duplicate tag handle"
      advance
      directives n versioned ((h, full) :: handles)
    | _ => return handles

/-- Whether a document has no content before a token. -/
def endsDocument : Token → Bool
  | .version _ | .tagHandle _ _ | .directive | .documentStart | .documentEnd | .finish => true
  | _ => false

/-- Reads the one document of a file, if it has one. -/
def document (levels : Nat) : Parse (Option Node) := do
  match ← peek with
  | .finish => return none
  | .version _ | .tagHandle _ _ | .directive | .documentStart =>
    let handles ← directives (← get).rest.length false []
    modify fun p => { p with handles := handles ++ commonHandles }
    if !(← accept .documentStart) then fail "expected '<document start>'"
    let made ← if endsDocument (← peek) then pure empty else node true false levels
    close made
  | _ => close (← node true false levels)
where
  /-- Nothing may follow the document but its end. -/
  close (made : Node) : Parse (Option Node) := do
    skip .documentEnd
    match ← peek with
    | .finish => return some made
    | _ => fail "expected a single document in the stream"

end Parse

end ScriptHost.Settings
