import FormGuard.Script.Check
import FormGuard.Value.Number

/-! The rule that compares two values. -/
namespace FormGuard

inductive Operator where
  | eq
  | ne
  | gt
  | ge
  | lt
  | le
  deriving DecidableEq

namespace Operator

def symbol : Operator → String
  | .eq => "=="
  | .ne => "!="
  | .gt => ">"
  | .ge => ">="
  | .lt => "<"
  | .le => "<="

def word : Operator → String
  | .eq => "eq"
  | .ne => "neq"
  | .gt => "gt"
  | .ge => "gte"
  | .lt => "lt"
  | .le => "lte"

def all : List Operator := [.eq, .ne, .gt, .ge, .lt, .le]

def ofText? (s : String) : Option Operator :=
  all.find? fun op => op.word == s || op.symbol == s

/-- The operator a value names; without one, equality. -/
def ofValue (v : Value) : Except Error Operator :=
  if !v.truthy then .ok .eq
  else do
    v.needKey
    return (v.asText?.bind ofText?).getD .eq

/-- Equality compares texts, the others numbers. -/
def comparesText : Operator → Bool
  | .eq | .ne => true
  | _ => false

def ofNumbers : Operator → Double → Double → Bool
  | .eq, x, y => x.same y
  | .ne, x, y => !x.same y
  | .gt, x, y => y.less x
  | .ge, x, y => y.lessEq x
  | .lt, x, y => x.less y
  | .le, x, y => x.lessEq y

def holds (op : Operator) (left right : Value) : Except Error Bool :=
  match op with
  | .eq => do return (← left.written) == (← right.written)
  | .ne => do return (← left.written) != (← right.written)
  | op => do return op.ofNumbers (← left.toNumber) (← right.toNumber)

/-- The browser function that prepares an operand. -/
def cast (op : Operator) : String := if op.comparesText then "String" else "Number"

end Operator

namespace Comparison

/-- The first two items of a sequence. -/
def operands (name value : Value) : Except Error (Value × Value) :=
  match value with
  | .list (left :: right :: _) | .tuple (left :: right :: _) => .ok (left, right)
  | _ => Error.raise (.data (.operands name value))

def validate (name value format : Value) : Except Error Value := do
  let (left, right) ← operands name value
  return .bool (← (← Operator.ofValue format).holds left right)

def check (format : Value) : Except Error Script.Check := do
  let op ← Operator.ofValue format
  let item (position : String) : String :=
    op.cast ++ "(" ++ Script.placeholder ++ "[" ++ position ++ "])"
  return ⟨"", "'' != " ++ Script.placeholder ++ "[0] && !(" ++ item "0" ++ " " ++ op.symbol ++ " "
    ++ item "1" ++ ")"⟩

end Comparison

end FormGuard
