import FormGuard.Script.Check
import FormGuard.Value.Number

/-! The rules that bound the length of a value as text. -/
namespace FormGuard.Length

/-- The three rules, told apart by the rule's name. -/
inductive Bounds where
  | least (low : Int)
  | most (high : Int)
  | between (low high : Int)
  deriving DecidableEq

/-- A wrong type or a wrong text is reported as a missing bound. -/
def report {α : Type} (name format : Value) : Except Error α → Except Error α
  | .error (.misuse .type) | .error (.misuse .value) => Error.raise (.data (.notABound name format))
  | result => result

def readBounds (name format : Value) : Except Error Bounds :=
  if name.same (.text "minlength") then .least <$> format.toInt
  else if name.same (.text "maxlength") then .most <$> format.toInt
  else do
    let (low, high) ← format.pair
    return .between (← low.toInt) (← high.toInt)

def bounds (name format : Value) : Except Error Bounds := report name format (readBounds name format)

/-- A bound below zero binds nothing. -/
def reaches (low : Int) (length : Nat) : Bool := low < 0 || low ≤ length

def staysWithin (high : Int) (length : Nat) : Bool := high < 0 || length ≤ high

namespace Bounds

def holds (length : Nat) : Bounds → Bool
  | .least low => reaches low length
  | .most high => staysWithin high length
  | .between low high => reaches low length && staysWithin high length

/-- The browser test of the length. -/
def test : Bounds → String
  | .least low => Script.placeholder ++ ".length < " ++ toString low
  | .most high => Script.placeholder ++ ".length > " ++ toString high
  | .between low high =>
    "(" ++ Script.placeholder ++ ".length < " ++ toString low ++ " || " ++ Script.placeholder
      ++ ".length > " ++ toString high ++ ")"

/-- Whether the test can be written. -/
def isWritable : Bounds → Bool
  | .least bound | .most bound => (Value.int bound).isWritable
  | .between low high => (Value.int low).isWritable && (Value.int high).isWritable

/-- The browser check, if the test can be written. -/
def check (b : Bounds) : Except Error Script.Check :=
  if b.isWritable then .ok ⟨"", Script.placeholder ++ " != '' && " ++ b.test⟩
  else Value.misuse .value

theorem check_eq_ok {b : Bounds} {check : Script.Check} : b.check = .ok check ↔
    b.isWritable = true ∧ check = ⟨"", Script.placeholder ++ " != '' && " ++ b.test⟩ := by
  unfold Bounds.check
  cases b.isWritable <;> simp [Value.misuse, eq_comm]

end Bounds

def validate (name value format : Value) : Except Error Value := do
  let text ← value.written
  return .bool ((← bounds name format).holds text.length)

def check (name format : Value) : Except Error Script.Check := do (← bounds name format).check

end FormGuard.Length
