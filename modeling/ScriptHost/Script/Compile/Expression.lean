import ScriptHost.Script.Compile.Scope

/-!
# Compiling expressions

The readers below are given `expr`, which reads an expression one level deeper, with how tightly the
operator to its left holds it, and `statements`, which reads statements to the end of their block.
-/
namespace ScriptHost.Script.Compile

open Text (Bytes)

/-! ### Operators -/

def binaryOp? : Token → Option BinaryOp
  | .mark "+" => some (.arith .add)
  | .mark "-" => some (.arith .sub)
  | .mark "*" => some (.arith .mul)
  | .mark "%" => some (.arith .mod)
  | .mark "^" => some (.arith .pow)
  | .mark "/" => some (.arith .div)
  | .mark "//" => some (.arith .floorDiv)
  | .mark "&" => some (.arith .bitAnd)
  | .mark "|" => some (.arith .bitOr)
  | .mark "~" => some (.arith .bitXor)
  | .mark "<<" => some (.arith .shiftLeft)
  | .mark ">>" => some (.arith .shiftRight)
  | .mark ".." => some .concat
  | .mark "==" => some .eq
  | .mark "~=" => some .ne
  | .mark "<" => some .lt
  | .mark "<=" => some .le
  | .mark ">" => some .gt
  | .mark ">=" => some .ge
  | .mark "and" => some .and
  | .mark "or" => some .or
  | _ => none

def unaryOp? : Token → Option UnaryOp
  | .mark "-" => some .neg
  | .mark "not" => some .not
  | .mark "#" => some .length
  | .mark "~" => some .bitNot
  | _ => none

section

variable (expr : Nat → Compile Term) (statements : Compile Unit)

/-- Reads expressions between commas. All but the last go to registers in a row; gives their number
and the last. -/
def expressions : Compile (Nat × Term) := do
  let first ← expr 0
  repeating (fun ((n, t) : Nat × Term) => do
    if ← accept "," then
      let _ ← toNext t
      return .inl (n + 1, ← expr 0)
    else return .inr (n, t)) (1, first)

/-- Fits the values of expressions, of which the last is still a term, to a number of registers. -/
def adjust (wanted given : Nat) (t : Term) : Compile Unit := do
  need (wanted - given)
  if t.isMulti then setResults t (some (wanted + 1 - given))
  else
    match t.form with
    | .none => pure ()
    | _ => discard (toNext t)
    if given < wanted then loadNil (← draft).free (wanted - given)
  if given < wanted then reserve (wanted - given)
  else modifyDraft fun d => { d with free := d.free - (given - wanted) }

/-! ### Tables -/

/-- Reads a key between brackets. -/
def bracketKey : Compile Term := do
  advance
  let key ← expr 0
  let key ← toValue key
  expect "]"
  return key

/-- Reads a field with a key. -/
def keyedField (table : Nat) : Compile Unit := do
  let free := (← draft).free
  let key ← match ← token with
    | .name x => do
      advance
      pure { form := .constant (.text x) }
    | _ => bracketKey expr
  expect "="
  let place ← indexed { form := .register table } key
  let value ← expr 0
  store place value
  modifyDraft fun d => { d with free := free }

/-- How far a table has been read. -/
structure TableItems where
  /-- The item read last, if its value has no register yet. -/
  last : Option Term := none
  stored : Nat := 0
  pending : Nat := 0
  /-- How many fields have a key. -/
  keyed : Nat := 0

/-- How many items may wait for a table, with so many registers in use. -/
def pendingLimit (free : Nat) : Nat :=
  let room := registerLimit - free
  if 160 ≤ room then room / 5 else if 80 ≤ room then 10 else 1

/-- Brings the item read last to a register, and all that wait to the table when they are many. -/
def settleItem (table limit : Nat) (items : TableItems) : Compile TableItems := do
  match items.last with
  | none => return items
  | some t =>
    let _ ← toNext t
    if limit ≤ items.pending then
      write (.setList table (some items.pending) items.stored)
      modifyDraft fun d => { d with free := table + 1 }
      return { stored := items.stored + items.pending, keyed := items.keyed }
    else return { items with last := none }

/-- Brings the last items to the table. Gives how many items there are, those of a call not
counted. -/
def settleItems (table : Nat) (items : TableItems) : Compile Nat := do
  if items.pending = 0 then return items.stored
  let count ← match items.last with
    | none => pure (some items.pending)
    | some t =>
      if t.isMulti then do
        setResults t none
        pure none
      else do
        let _ ← toNext t
        pure (some items.pending)
  write (.setList table count items.stored)
  modifyDraft fun d => { d with free := table + 1 }
  return items.stored + (count.getD (items.pending - 1))

/-- Reads a field of a table. -/
def field (table : Nat) (items : TableItems) : Compile TableItems := do
  let item := do
    let t ← expr 0
    return { items with last := some t, pending := items.pending + 1 }
  match ← token with
  | .name _ =>
    if (← lookAhead) == .mark "=" then
      keyedField expr table
      return { items with keyed := items.keyed + 1 }
    else item
  | .mark "[" =>
    keyedField expr table
    return { items with keyed := items.keyed + 1 }
  | _ => item

/-- Reads a table. -/
def table : Compile Term := do
  let opened ← line
  let free := (← draft).free
  let place ← emit (.newTable free 0 0)
  reserve 1
  expect "\x7b"
  let limit := pendingLimit (← draft).free
  let items ← repeating (fun items : TableItems => do
    if ← atMark "\x7d" then return .inr items
    let items ← settleItem free limit items
    let items ← field expr free items
    if (← accept ",") || (← accept ";") then return .inl items
    else return .inr items) {}
  expectClosing "\x7d" "\x7b" opened
  let count ← settleItems free items
  change place fun _ => .newTable free count items.keyed
  return { form := .register free }

/-! ### Functions -/

/-- Reads parameters up to the closing parenthesis. -/
def parameters : Compile Unit := do
  let variadic ←
    if ← atMark ")" then pure none
    else repeating (fun _ : Unit => do
      match ← token with
      | .name x =>
        advance
        declareLocal x
        if ← accept "," then return .inl () else return .inr none
      | .mark "..." =>
        advance
        match ← token with
        | .name x =>
          advance
          return .inr (some (x, DeclarationKind.arguments))
        | _ => return .inr (some (ascii "(vararg table)", DeclarationKind.plain))
      | _ => fail "<name> or '...' expected") ()
  let d ← draft
  activate (d.declared.size - d.active)
  modifyDraft fun d => { d with parameters := d.active }
  match variadic with
  | some (x, kind) =>
    makeVariadic
    let _ ← declare (some x) kind
    activate 1
  | none => pure ()
  reserve (← draft).active

/-- Reads a function after the word that begins it, on a line. -/
def functionBody (isMethod : Bool) (opened : Nat) : Compile Term := do
  openFunction opened
  expect "("
  if isMethod then
    declareLocal (ascii "self")
    activate 1
  parameters
  expect ")"
  statements
  expectClosing "end" "function" opened
  -- the closure is made where the function ends
  let p ← closeFunction
  modify fun c => { c with draft := c.outer.headD default, outer := c.outer.tail }
  let index := (← draft).inner.size
  modifyDraft fun d => { d with inner := d.inner.push p }
  toNext { form := .result (← emit (.closure 0 index)) }

/-! ### Calls -/

/-- Reads the arguments of a call of what is in a register. -/
def arguments (base : Nat) : Compile Term := do
  let opened ← line
  let last ← match ← token with
    | .mark "(" => do
      advance
      let last ← if ← atMark ")" then pure { form := .none } else do pure (← expressions expr).2
      if last.isMulti then setResults last none
      expectClosing ")" "(" opened
      pure last
    | .mark "\x7b" => table expr
    | .string s => do
      advance
      pure { form := .constant (.text s) }
    | _ => fail "function arguments expected"
  let count ←
    if last.isMulti then pure none
    else do
      match last.form with
      | .none => pure ()
      | _ => discard (toNext last)
      pure (some ((← draft).free - (base + 1)))
  let n ← emit (.call base count (some 1))
  fixLine opened
  modifyDraft fun d => { d with free := base + 1 }
  return { form := .call n }

/-- Reads a name or an expression in parentheses. -/
def primary : Compile Term := do
  match ← token with
  | .name x =>
    advance
    variableTerm x
  | .mark "(" =>
    let opened ← line
    advance
    let t ← expr 0
    expectClosing ")" "(" opened
    discharge t
  | _ => fail "unexpected symbol"

/-- Reads a name after a point or colon: the field of that name. -/
def fieldTerm (t : Term) : Compile Term := do
  let t ← toAnyOrUpvalue t
  advance
  let x ← name
  indexed t { form := .constant (.text x) }

/-- The register of a term that has one. -/
def registerOf (t : Term) : Nat :=
  match t.form with
  | .register r => r
  | _ => 0

/-- Reads what follows a primary expression: fields, indices, methods and calls. -/
def suffixed : Compile Term := do
  let first ← primary expr
  repeating (fun t : Term => do
    match ← token with
    | .mark "." => return .inl (← fieldTerm t)
    | .mark "[" =>
      let t ← toAnyOrUpvalue t
      let key ← bracketKey expr
      return .inl (← indexed t key)
    | .mark ":" =>
      advance
      let x ← name
      let t ← methodOf t x
      return .inl (← arguments expr (registerOf t))
    | .mark "(" | .mark "\x7b" | .string _ =>
      let t ← toNext t
      return .inl (← arguments expr (registerOf t))
    | _ => return .inr t) first

/-- Reads an expression without operators. -/
def simple : Compile Term := do
  let constant := fun (v : Constant) => do
    advance
    return { form := .constant v }
  match ← token with
  | .number n => constant (.ofNumeral n)
  | .string s => constant (.text s)
  | .mark "nil" => constant .nil
  | .mark "true" => constant (.bool true)
  | .mark "false" => constant (.bool false)
  | .mark "..." =>
    unless (← draft).variadic do fail "cannot use '...' outside a vararg function"
    let n ← emit (.varargs 0 none)
    advance
    return { form := .varargs n }
  | .mark "\x7b" => table expr
  | .mark "function" =>
    advance
    functionBody statements false (← line)
  | _ => suffixed expr

/-- Reads an expression whose operators hold tighter than `limit`. -/
def operation (limit : Nat) : Compile Term := do
  let first ← match unaryOp? (← token) with
    | some op => do
      let opened ← line
      advance
      let t ← expr UnaryOp.hold
      applyUnary op t opened
    | none => simple expr statements
  repeating (fun left : Term => do
    match binaryOp? (← token) with
    | some op =>
      if op.hold.1 ≤ limit then return .inr left
      let opened ← line
      advance
      let left ← prepareLeft op left
      let right ← expr op.hold.2
      return .inl (← applyBinary op left right opened)
    | none => return .inr left) first

end

end ScriptHost.Script.Compile
