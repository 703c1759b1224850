import ScriptHost.Text.Utf8

/-!
# Operators of scripts

The operators as data, with what the language fixes for each: how tightly it holds its operands, and
the event by which metatables know it.
-/
namespace ScriptHost.Script

open Text (Bytes)

/-- A name or any other piece of script text. -/
abbrev Name := Bytes

inductive UnaryOp where
  | neg | not | length | bitNot
  deriving DecidableEq, Repr

inductive ArithOp where
  | add | sub | mul | mod | pow | div | floorDiv
  | bitAnd | bitOr | bitXor | shiftLeft | shiftRight
  deriving DecidableEq, Repr

inductive CompareOp where
  | eq | lt | le
  deriving DecidableEq, Repr

inductive BinaryOp where
  | arith (op : ArithOp)
  | concat
  | eq | ne | lt | le | gt | ge
  | and
  | or
  deriving DecidableEq, Repr

/-- The event of an operator in metatables, without the underscores. -/
def ArithOp.event : ArithOp → String
  | .add => "add"
  | .sub => "sub"
  | .mul => "mul"
  | .mod => "mod"
  | .pow => "pow"
  | .div => "div"
  | .floorDiv => "idiv"
  | .bitAnd => "band"
  | .bitOr => "bor"
  | .bitXor => "bxor"
  | .shiftLeft => "shl"
  | .shiftRight => "shr"

/-- Operators on the bits of whole numbers. -/
def ArithOp.isBitwise : ArithOp → Bool
  | .bitAnd | .bitOr | .bitXor | .shiftLeft | .shiftRight => true
  | _ => false

/-- The event of a unary operator; `not` has none. -/
def UnaryOp.event : UnaryOp → String
  | .neg => "unm"
  | .not => ""
  | .length => "len"
  | .bitNot => "bnot"

def CompareOp.event : CompareOp → String
  | .eq => "eq"
  | .lt => "lt"
  | .le => "le"

/-- How tightly a binary operator holds its left and its right operand. -/
def BinaryOp.hold : BinaryOp → Nat × Nat
  | .arith .add | .arith .sub => (10, 10)
  | .arith .mul | .arith .mod | .arith .div | .arith .floorDiv => (11, 11)
  | .arith .pow => (14, 13)
  | .arith .bitAnd => (6, 6)
  | .arith .bitOr => (4, 4)
  | .arith .bitXor => (5, 5)
  | .arith .shiftLeft | .arith .shiftRight => (7, 7)
  | .concat => (9, 8)
  | .eq | .ne | .lt | .le | .gt | .ge => (3, 3)
  | .and => (2, 2)
  | .or => (1, 1)

/-- How tightly a unary operator holds its operand. -/
def UnaryOp.hold : Nat := 12

end ScriptHost.Script
