import ScriptHost.Script.Compile.Expression

/-!
# Compiling statements

A statement leaves no registers in use but those of the variables in sight. Its readers are given
`expr` and `statements` as those of expressions are; `exprAt` and `statementsAt` close the circle,
with the levels of nesting that are left.
-/
namespace ScriptHost.Script.Compile

open Text (Bytes)

/-- Whether a token ends a block. -/
def endsBlock (t : Token) : Bool :=
  match t with
  | .ended | .mark "end" | .mark "else" | .mark "elseif" | .mark "until" => true
  | _ => false

section

variable (expr : Nat → Compile Term) (statements : Compile Unit)

/-- Reads a block. -/
def inBlock : Compile Unit := do
  openBlock false
  statements
  closeBlock

/-- Reads a condition. Gives the jumps that are made if it does not hold. -/
def readCondition : Compile (List Nat) := do
  let t ← expr 0
  return (← goIfTrue t).whenFalse

/-! ### Branches and loops -/

/-- Reads a condition and what is done if it holds. Gives the jump over the other branches, if
there are any. -/
def branch : Compile (List Nat) := do
  advance
  let no ← readCondition expr
  expect "then"
  inBlock statements
  let around ← match ← token with
    | .mark "else" | .mark "elseif" => do pure [← jump]
    | _ => pure []
  patchHere no
  return around

def ifStatement (opened : Nat) : Compile Unit := do
  let first ← branch expr statements
  let ends ← repeating (fun ends : List Nat => do
    if ← atMark "elseif" then return .inl (ends ++ (← branch expr statements))
    else return .inr ends) first
  if ← accept "else" then inBlock statements
  expectClosing "end" "if" opened
  patchHere ends

def whileStatement (opened : Nat) : Compile Unit := do
  advance
  let start ← label
  let no ← readCondition expr
  openBlock true
  expect "do"
  inBlock statements
  patchTo start [← jump]
  expectClosing "end" "while" opened
  closeBlock
  patchHere no

/-- Reads a loop whose condition comes last and sees the variables of the body. Going round again
closes them. -/
def repeatStatement (opened : Nat) : Compile Unit := do
  let start ← label
  openBlock true
  openBlock false
  advance
  statements
  expectClosing "until" "repeat" opened
  let no ← readCondition expr
  let body ← block
  closeBlock
  let again ←
    if body.captured then do
      let done ← jump
      patchHere no
      write (.close ((← draft).levelOf body.active))
      let again ← jump
      patchHere [done]
      pure [again]
    else pure no
  patchTo start again
  closeBlock

/-- The name of the variables that loops keep to themselves. -/
def hiddenName : Name := ascii "(for state)"

/-- Reads the body of a `for` loop with registers from `base` on. -/
def loopBody (base line count : Nat) (isCounted : Bool) : Compile Unit := do
  expect "do"
  let start ← emit (if isCounted then .countPrepare base 0 else .eachPrepare base 0)
  modifyDraft fun d => { d with free := d.free - 1 }
  openBlock false
  activate count
  reserve count
  inBlock statements
  closeBlock
  let stop ← label
  change start (·.withTarget stop)
  unless isCounted do
    write (.eachCall base count)
    fixLine line
  write (if isCounted then .countLoop base (start + 1) else .eachLoop base (start + 1))
  fixLine line

/-- Reads a loop that counts. -/
def countStatement (x : Name) (line : Nat) : Compile Unit := do
  let base := (← draft).free
  declareLocal hiddenName
  declareLocal hiddenName
  discard (declare (some x) .constant)
  let bound := do discard (toNext (← expr 0))
  expect "="
  bound
  expect ","
  bound
  if ← accept "," then bound
  else
    write (.load (← draft).free (.int 1))
    reserve 1
  activate 2
  loopBody statements base line 1 true

/-- Reads a loop over what a function gives. -/
def eachStatement (x : Name) : Compile Unit := do
  let base := (← draft).free
  declareLocal hiddenName
  declareLocal hiddenName
  declareLocal hiddenName
  discard (declare (some x) .constant)
  let more ← repeating (fun n : Nat => do
    if ← accept "," then
      declareLocal (← name)
      return .inl (n + 1)
    else return .inr n) 0
  expect "in"
  let line ← line
  let (given, last) ← expressions expr
  adjust 4 given last
  activate 3
  markClosed
  need 2
  loopBody statements base line (more + 1) false

def forStatement (opened : Nat) : Compile Unit := do
  openBlock true
  advance
  let x ← name
  match ← token with
  | .mark "=" => countStatement expr statements x opened
  | .mark "," | .mark "in" => eachStatement expr statements x
  | _ => fail "'=' or 'in' expected"
  expectClosing "end" "for" opened
  closeBlock

/-! ### Local variables -/

/-- Reads a mark on a declared name, if there is one. -/
def declaredKind (other : DeclarationKind) : Compile DeclarationKind := do
  if ← accept "<" then
    let x ← name
    expect ">"
    if x == ascii "const" then return .constant
    else if x == ascii "close" then return .closed
    else refuse (ascii "unknown attribute " ++ quoted x)
  return other

/-- The value of a term that is known before the script runs. -/
def knownValue? (t : Term) : Option Constant :=
  match t.form with
  | .constant v | .known _ v => if t.hasJumps then none else some v
  | _ => none

/-- Declares names to be variables. Gives their number, the number of the one that is closed, and
the kind of the last. -/
def localNames (other : DeclarationKind) : Compile (Nat × Option Nat × DeclarationKind) :=
  repeating (fun ((count, closed?) : Nat × Option Nat) => do
    let x ← name
    let kind ← declaredKind other
    discard (declare (some x) kind)
    let closed? ←
      if kind == .closed then do
        if closed?.isSome then
          refuse (ascii "multiple to-be-closed variables in local list")
        pure (some ((← draft).active + count))
      else pure closed?
    if ← accept "," then return .inl (count + 1, closed?)
    else return .inr (count + 1, closed?, kind)) (0, none)

/-- Reads local variables. The last needs no register if its value is known and stays. -/
def localStatement : Compile Unit := do
  let other ← declaredKind .plain
  let (count, closed?, kind) ← localNames other
  let (given, last) ← if ← accept "=" then expressions expr else pure (0, { form := .none })
  let known? := if given = count && kind == .constant then knownValue? last else none
  match known? with
  | some v =>
    modifyDraft fun d => { d with
      declared := d.declared.modify (d.declared.size - 1) ({ · with kind := .known v }) }
    activate (count - 1)
    activatePlain 1
  | none =>
    adjust count given last
    activate count
  match closed? with
  | some n =>
    markClosed
    write (.toClose ((← draft).levelOf n))
  | none => return

/-- Reads a local function, which is in sight of itself. -/
def localFunction : Compile Unit := do
  let x ← name
  declareLocal x
  activate 1
  let n := (← draft).active - 1
  discard (functionBody statements false (← line))
  let span := (← declaration n).span
  modifyDraft fun d => { d with
    spans := d.spans.modify span ({ · with start := d.code.size }) }

/-! ### Globals -/

/-- Reads a mark on a global, if there is one. -/
def globalAttribute (other : DeclarationKind) : Compile DeclarationKind := do
  match ← declaredKind other with
  | .closed => refuse (ascii "global variables cannot be to-be-closed")
  | .constant => return .constantGlobal
  | kind => return kind

/-- Gives a place the value of the latest register. -/
def storeLatest (place : Term) : Compile Unit := do
  store place { form := .register ((← draft).free - 1) }

/-- Makes sure that a global is new. -/
def checkNewGlobal (x : Name) (line : Nat) : Compile Unit := do
  let (r, t) ← toAny (← globalTerm x)
  fixLine line
  write (.checkNew r x)
  fixLine line
  free t

/-- Reads the values of new globals; their places come before them. -/
def initGlobals (count line : Nat) : List Name → Compile Unit
  | [] => do
    let (given, last) ← expressions expr
    adjust count given last
  | x :: rest => do
    let place ← globalTerm x
    deeper (initGlobals count line rest)
    checkNewGlobal x line
    storeLatest place

/-- Reads globals that are declared one by one. -/
def globalNames (other : DeclarationKind) : Compile Unit := do
  let names ← repeating (fun names : List Name => do
    let x ← name
    let kind ← globalAttribute other
    discard (declare (some x) kind)
    if ← accept "," then return .inl (names ++ [x]) else return .inr (names ++ [x])) []
  if ← accept "=" then initGlobals expr names.length (← line) names
  activatePlain names.length

/-- Reads a function that is a new global. -/
def globalFunction (opened : Nat) : Compile Unit := do
  let x ← name
  discard (declare (some x) .global)
  activatePlain 1
  let place ← globalTerm x
  let f ← functionBody statements false (← line)
  checkNewGlobal x opened
  store place f
  fixLine opened

def globalStatement (opened : Nat) : Compile Unit := do
  advance
  if ← accept "function" then globalFunction statements opened
  else
    let other ← globalAttribute .global
    if ← accept "*" then
      discard (declare none other)
      activatePlain 1
    else globalNames expr other

/-- Whether a declaration of globals is in front. Its word is also a name like any other. -/
def atGlobals : Compile Bool := do
  if (← token) != .name (ascii "global") then return false
  match ← lookAhead with
  | .name _ | .mark "<" | .mark "*" | .mark "function" => return true
  | _ => return false

/-! ### Assignments -/

/-- Whether assigning to a variable first would change where an earlier target puts its value; if so,
the target with the variable's copy in its place. -/
def conflict? (copy : Nat) (assigned target : Term) : Option Term :=
  let swap := fun (r n : Nat) => if n = r then copy else n
  match assigned.form, target.form with
  | .upvalue u, .upvalueField t k =>
    if t = u then some { target with form := .field copy k } else none
  | .variable _ r, .index o k =>
    if o = r || k = r then some { target with form := .index (swap r o) (swap r k) } else none
  | .variable _ r, .argument o k =>
    if o = r || k = r then some { target with form := .argument (swap r o) (swap r k) } else none
  | .variable _ r, .integer o k =>
    if o = r then some { target with form := .integer copy k } else none
  | .variable _ r, .field o k =>
    if o = r then some { target with form := .field copy k } else none
  | _, _ => none

/-- Lets earlier targets use a copy of a variable that is assigned to as well. -/
def avoidConflicts (assigned : Term) (targets : List Term) : Compile (List Term) := do
  let copy := (← draft).free
  let found := targets.map (conflict? copy assigned)
  if found.any Option.isSome then
    match assigned.form with
    | .variable _ r => write (.move copy r)
    | .upvalue u => write (.getUpvalue copy u)
    | _ => pure ()
    reserve 1
  return targets.zipWith (fun t f => f.getD t) found

/-- Reads the targets of an assignment after the first and its values; the last target comes
first in the list and gets its value first. -/
def assignment : Nat → List Term → Compile Unit
  | 0, _ => fail "syntax error"
  | n + 1, targets => do
    let latest := targets.headD { form := .none }
    unless latest.isPlace do fail "syntax error"
    checkAssignable latest
    if ← accept "," then
      let next ← suffixed expr
      let targets ← if next.isIndexed then pure targets else avoidConflicts next targets
      deeper (assignment n (next :: targets))
    else
      expect "="
      let (given, last) ← expressions expr
      if given = targets.length then
        store latest (← single last)
        targets.tail.forM storeLatest
      else
        adjust targets.length given last
        targets.forM storeLatest

/-- Reads an assignment or a call. -/
def exprStatement : Compile Unit := do
  let t ← suffixed expr
  if (← atMark "=") || (← atMark ",") then assignment expr depthLimit [t]
  else
    match t.form with
    | .call n => change n (·.withResults (some 0))
    | _ => fail "syntax error"

/-- Reads a function and the place it goes to. -/
def functionStatement (opened : Nat) : Compile Unit := do
  advance
  let first ← variableTerm (← name)
  let place ← repeating (fun t : Term => do
    if ← atMark "." then return .inl (← fieldTerm t) else return .inr t) first
  let isMethod ← atMark ":"
  let place ← if isMethod then fieldTerm place else pure place
  checkAssignable place
  let f ← functionBody statements isMethod opened
  store place f
  fixLine opened

/-! ### Leaving -/

/-- Reads a `return`. A call that is all there is to return takes the place of the function. -/
def returnStatement : Compile Unit := do
  advance
  let first ← level
  if endsBlock (← token) || (← atMark ";") then writeReturn first (some 0)
  else
    let (count, last) ← expressions expr
    if last.isMulti then
      setResults last none
      match last.form with
      | .call n =>
        if count = 1 && !(← block).insideClosed then
          change n fun
            | .call base args _ => .tailCall base args
            | i => i
      | _ => pure ()
      writeReturn first none
    else if count = 1 then writeReturn (← toAny last).1 (some 1)
    else
      discard (toNext last)
      writeReturn first (some count)
  discard (accept ";")

/-- Marks the innermost loop of some blocks as one that is left by a statement; none if there is no
loop. -/
def markLoop : List Block → Option (List Block)
  | [] => none
  | b :: rest =>
    if b.isLoop then some ({ b with hasBreak := true } :: rest) else (markLoop rest).map (b :: ·)

def breakStatement (opened : Nat) : Compile Unit := do
  match markLoop (← draft).blocks with
  | none => fail "break outside loop"
  | some blocks =>
    modifyDraft fun d => { d with blocks := blocks }
    advance
    addJump breakName opened

/-- Reads a label after the sign that opens it, and the statements right after it that do
nothing. A label at the end of a block is out of sight of the variables of the block. -/
def labelStatement : Nat → Nat → Compile Unit
  | 0, _ => fail "syntax error"
  | n + 1, opened => do
    let x ← name
    expect "::"
    repeating (fun _ : Unit => do
      match ← token with
      | .mark ";" =>
        deeper advance
        return .inl ()
      | .mark "::" =>
        let line ← line
        deeper do
          advance
          labelStatement n line
        return .inl ()
      | _ => return .inr ()) ()
    match (← draft).labels.find? (·.name == x) with
    | some other =>
      refuse (ascii "label " ++ quoted x ++ ascii s!" already defined on line {other.line}")
    | none => pure ()
    let next ← token
    let isLast := endsBlock next && next != .mark "until"
    let active ← if isLast then do pure (← block).active else do pure (← draft).active
    addLabel x opened active

/-! ### All statements -/

/-- Reads one statement. -/
def statement : Compile Unit := deeper do
  let opened ← line
  match ← token with
  | .mark ";" => advance
  | .mark "if" => ifStatement expr statements opened
  | .mark "while" => whileStatement expr statements opened
  | .mark "do" =>
    advance
    inBlock statements
    expectClosing "end" "do" opened
  | .mark "for" => forStatement expr statements opened
  | .mark "repeat" => repeatStatement expr statements opened
  | .mark "function" => functionStatement statements opened
  | .mark "local" =>
    advance
    if ← accept "function" then localFunction statements else localStatement expr
  | .mark "::" =>
    advance
    labelStatement depthLimit opened
  | .mark "return" => returnStatement expr
  | .mark "break" => breakStatement opened
  | .mark "goto" =>
    advance
    addJump (← name) opened
  | _ => if ← atGlobals then globalStatement expr statements opened else exprStatement expr
  modifyDraft fun d => { d with free := d.level }

/-- Reads statements up to the end of a block; nothing may follow a `return`. -/
def allStatements : Compile Unit :=
  repeating (fun _ : Unit => do
    let t ← token
    if endsBlock t then return .inr ()
    statement expr statements
    if t == .mark "return" then return .inr () else return .inl ()) ()

end

/-- The fault of a text that nests too deep. -/
def tooDeep {α : Type} : Compile α := throw ⟨none, ascii "C stack overflow"⟩

mutual

/-- Reads an expression whose operators hold tighter than `limit`, with so many levels of nesting
left. -/
def exprAt : Nat → Nat → Compile Term
  | 0, _ => tooDeep
  | levels + 1, limit => deeper (operation (exprAt levels) (statementsAt levels) limit)

/-- Reads the statements of a block with so many levels of nesting left. -/
def statementsAt : Nat → Compile Unit
  | 0 => tooDeep
  | levels + 1 => allStatements (exprAt levels) (statementsAt levels)

end

/-- Reads a whole script: a function with extra arguments, in sight of the globals table. -/
def script : Compile Unit := do
  openBlock false
  makeVariadic
  modifyDraft fun d => { d with upvalues := #[⟨globalsName, true, 0, false⟩] }
  meet (← front)
  statementsAt (depthLimit + 1)
  match ← token with
  | .ended => return
  | _ => fail "<eof> expected"

end ScriptHost.Script.Compile

namespace ScriptHost.Script

open Text (Bytes)

/-- The function that a text is, read where `depth` levels are in use. -/
def Prototype.ofText (chunk text : Bytes) (depth : Nat) : Except SyntaxFault Prototype := do
  let start : Compiler :=
    { chunk := chunk, rest := tokenize text, line := 1, last := 1, depth := depth,
      draft := { line := 0 }, outer := [] }
  let (p, _) ← (do Compile.script; Compile.closeFunction).run start
  return p

end ScriptHost.Script
