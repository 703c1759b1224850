import ScriptHost.Dialogue
import ScriptHost.Script.Code.Naming
import ScriptHost.Script.Heap

/-!
# Evaluations

What running a piece of a script is: a dialogue with the host that begins with a heap and ends in a
value, in a raised value, or without an end in sight, each with the heap that is left. The host is
asked about its own objects only. It is shown the heap with each question and may hand back another,
since answering may run other scripts.
-/
namespace ScriptHost.Script

open Text (Bytes)

/-! ### Calls in progress -/

/-- A function that has been called and is not done. -/
inductive Activation where
  /-- A function of a script, at an instruction. One that took the place of its caller does not
  know what it was called. -/
  | script (code : Prototype) (place : Nat) (isTail : Bool)
  /-- A function of a library or of the host, with the number of arguments that metatables put in
  front of its own. -/
  | native (function : Native) (extra : Nat)
  deriving Inhabited

/-- The functions in progress, the latest first. -/
abbrev Trace := List Activation

/-- The place of a line in a text, as a message begins with it. -/
def placeText (chunk : Bytes) (line : Nat) : Bytes :=
  chunk ++ Text.encode s!":{line}: "

/-- Where a function stands, as a message begins with it; nothing for what has no lines. -/
def Activation.placeText : Activation → Bytes
  | .script code place _ => Script.placeText code.chunk (code.lineAt place)
  | .native .. => []

/-- Where the function of a level stands, the latest being zero. -/
def Trace.placeText (t : Trace) (level : Nat) : Bytes :=
  match t[level]? with
  | some a => a.placeText
  | none => []

/-- What the latest function was called by its caller. -/
def Trace.calledAs : Trace → Option Named
  | .script _ _ true :: _ => none
  | _ :: .script code place _ :: _ => code.calleeName place
  | _ => none

/-- Where a piece of a script runs. -/
structure Site where
  home : Nat
  trace : Trace := []
  /-- How many slots of the stack are in use. -/
  top : Nat := 1
  /-- How many runs wait for one another. -/
  depth : Nat := 0
  /-- What is called with a raised value before anything else hears of it. -/
  handler : Option Value := none
  /-- Whether the stack was full when the handler was called. -/
  isFull : Bool := false
  deriving Inhabited

/-! ### Questions and answers -/

/-- What a script may want from an object of the host. -/
inductive Wish where
  /-- To call it. -/
  | call (args : List Value)
  /-- To read a part of it. -/
  | index (key : Value)
  /-- To change a part of it. -/
  | assign (key value : Value)
  /-- Its text. -/
  | show

/-- A question to the host. -/
structure Question where
  heap : Heap
  site : Site
  /-- The place of the object that is asked about. -/
  target : Nat
  wish : Wish

/-- What the host answers: the values wanted, or a value that is raised. -/
structure Answer where
  heap : Heap
  reply : Except Value (List Value)

/-- How an evaluation ends. -/
inductive Outcome (α : Type) where
  | value (result : α) (heap : Heap)
  /-- A value was raised. Other values are still to be closed, the first first. -/
  | raised (error : Value) (closing : List Value) (heap : Heap)
  /-- A loop went round more often than is followed here. -/
  | endless (heap : Heap)

/-- A piece of a script that can run. -/
def Eval (α : Type) : Type :=
  Heap → Dialogue Question Answer (Outcome α)

namespace Eval

variable {α β : Type}

def pure (a : α) : Eval α :=
  fun h => .done (.value a h)

/-- What follows the end of an evaluation. -/
def next (f : α → Eval β) : Outcome α → Dialogue Question Answer (Outcome β)
  | .value a h => f a h
  | .raised e closing h => .done (.raised e closing h)
  | .endless h => .done (.endless h)

def bind (m : Eval α) (f : α → Eval β) : Eval β :=
  fun h => (m h).bind (next f)

instance : Monad Eval where
  pure := pure
  bind := bind

instance : LawfulMonad Eval := by
  have after : ∀ {α : Type} (o : Outcome α), next pure o = .done o := fun o => by cases o <;> rfl
  refine LawfulMonad.mk' Eval (fun m => funext fun h => ?_) (fun _ _ => rfl)
    fun m f g => funext fun h => ?_
  · exact (congrArg (Dialogue.bind (m h)) (funext after)).trans (Dialogue.bind_done _)
  · refine (Dialogue.bind_bind _ _ _).trans (congrArg (Dialogue.bind (m h)) (funext fun o => ?_))
    cases o <;> rfl

/-- Raises a value. -/
def raise (e : Value) : Eval α :=
  fun h => .done (.raised e [] h)

/-- The heap as it is now. -/
def heap : Eval Heap :=
  fun h => .done (.value h h)

/-- What a look at the heap tells. -/
def look (f : Heap → α) : Eval α :=
  fun h => let a := f h; .done (.value a h)

def modifyHeap (f : Heap → Heap) : Eval Unit :=
  fun h => .done (.value () (f h))

/-- Ends with a value or with a raised one and what is still to be closed. -/
def attempt (m : Eval α) : Eval (Except (Value × List Value) α) :=
  fun h => (m h).bind fun
    | .value a h => .done (.value (.ok a) h)
    | .raised e closing h => .done (.value (.error (e, closing)) h)
    | .endless h => .done (.endless h)

/-- Adds values that are to be closed if a value is raised. -/
def leaving (closing : Unit → List Value) (m : Eval α) : Eval α :=
  fun h => (m h).bind fun
    | .raised e inner h => .done (.raised e (inner ++ closing ()) h)
    | o => .done o

/-- Asks the host for values or for a value to raise. -/
def ask (site : Site) (target : Nat) (wish : Wish) : Eval (Except Value (List Value)) :=
  fun h => .ask ⟨h, site, target, wish⟩ fun a => .done (.value a.reply a.heap)

/-- Adds a table and gives its place. -/
def newTable (t : Table) : Eval Nat :=
  fun h => .done (.value h.tables.size (h.addTable t))

/-- A length of a table, which keeps it in mind. -/
def measure (place : Nat) : Eval Nat :=
  fun h => let (n, h) := h.measure place; .done (.value n h)

/-- Adds a cell and gives its place. -/
def newCell (v : Value) : Eval Nat :=
  fun h => .done (.value h.cells.size (h.addCell v))

/-- Adds a function and gives its place. -/
def newFunction (c : Closure) : Eval Nat :=
  fun h => .done (.value h.functions.size { h with functions := h.functions.push c })

/-- How often the loops that are not counted may go round. -/
def roundLimit : Nat := 2 ^ 40

/-- Repeats a step, from a state to the next or to a result. A step that is done at once goes on
without a new dialogue. -/
def iterate {σ : Type} (step : σ → Eval (σ ⊕ α)) : Nat → σ → Eval α
  | 0, _, h => .done (.endless h)
  | n + 1, s, h =>
    match step s h with
    | .done (.value (.inl s) h) => iterate step n s h
    | .done (.value (.inr a) h) => .done (.value a h)
    | .done (.raised e closing h) => .done (.raised e closing h)
    | .done (.endless h) => .done (.endless h)
    | .ask q k => .ask q fun a => (k a).bind fun
      | .value (.inl s) h => iterate step n s h
      | .value (.inr a) h => .done (.value a h)
      | .raised e closing h => .done (.raised e closing h)
      | .endless h => .done (.endless h)

/-- Repeats a step until it gives a result. -/
def repeating {σ : Type} (step : σ → Eval (σ ⊕ α)) (start : σ) : Eval α :=
  iterate step roundLimit start

end Eval

/-! ### Calling and failing -/

/-- How values are called: where from, the function and its arguments. -/
abbrev Caller := Site → Value → List Value → Eval (List Value)

/-- What an operator needs besides its operands. -/
structure Context where
  site : Site
  /-- How functions are called from here. -/
  caller : Caller
  /-- What messages say after the type of an operand, by its number. -/
  describe : Nat → Bytes := fun _ => []

namespace Context

variable {α : Type}

/-- Calls a value. -/
def call (c : Context) (f : Value) (args : List Value) : Eval (List Value) :=
  c.caller c.site f args

/-- The context without names for the operands. -/
def anonymous (c : Context) : Context :=
  { c with describe := fun _ => [] }

end Context

/-- The first of some values, nil where there is none. -/
def firstOf (vs : List Value) : Value :=
  vs.headD .nil

/-- A value as it is raised: nil is replaced by a message. -/
def raisable : Value → Value
  | .nil => .ofString "<no error object>"
  | v => v

/-- The value that is raised where there is no memory left. -/
def memoryError : Value :=
  .ofString "not enough memory"

namespace Context

variable {α : Type}

/-- Raises a value, which the handler may replace. No handler hears of a lack of memory. -/
def raise (c : Context) (e : Value) : Eval α := do
  if e = memoryError then .raise e
  else
    match c.site.handler with
    | none => .raise (raisable e)
    | some g => .raise (raisable (firstOf (← c.call g [e])))

/-- Raises a message with the place of the function of a level in front. -/
def failAt (c : Context) (level : Nat) (message : Bytes) : Eval α :=
  c.raise (.text (c.site.trace.placeText level ++ message))

/-- Raises a message where the latest function stands. -/
def fail (c : Context) (message : Bytes) : Eval α :=
  c.failAt 0 message

def failWith (c : Context) (message : String) : Eval α :=
  c.fail (Text.encode message)

end Context

/-! ### Limits -/

/-- How many slots the stack has. -/
def stackLimit : Nat := 1000000

/-- How many more it has while it is told that it is full. -/
def stackReserve : Nat := 200

/-- How many more may do so while it is told that they are too many. -/
def depthReserve : Nat := 20

namespace Context

variable {α : Type}

/-- Raises that nothing more can be done about a raised value. No handler hears of it. -/
def failHandling : Eval α :=
  .raise (.ofString "error in error handling")

/-- Makes sure that the stack has room up to a slot. -/
def checkStack (c : Context) (slot : Nat) : Eval Unit :=
  if c.site.isFull then
    if stackLimit + stackReserve ≤ slot then failHandling else pure ()
  else if stackLimit < slot then
    { c with site := { c.site with isFull := true } }.failWith "stack overflow"
  else pure ()

end Context

end ScriptHost.Script
