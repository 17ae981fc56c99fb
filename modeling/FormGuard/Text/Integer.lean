import FormGuard.Unicode.Digit
import FormGuard.Unicode.Space

/-! Whole numbers as people type them. -/
namespace FormGuard.Text

/-- Longer runs of digits are refused. -/
def maxDigits : Nat := 4300

/-- Digits of any script with single underscores between them: their value and their number.
`afterDigit` says that a digit came just before. -/
def digitRun? (value count : Nat) (afterDigit : Bool) : List Char → Option (Nat × Nat)
  | [] => if afterDigit then some (value, count) else none
  | c :: rest =>
    if c == '_' && afterDigit then digitRun? value count false rest
    else match Unicode.digitValue? c with
      | some d => digitRun? (10 * value + d) (count + 1) true rest
      | none => none

/-- Drops white space at both ends. -/
def trimmed (text : List Char) : List Char :=
  ((text.dropWhile Unicode.isNumberSpace).reverse.dropWhile Unicode.isNumberSpace).reverse

/-- A sign, when there is one, and what follows. -/
def signed : List Char → Bool × List Char
  | '-' :: rest => (true, rest)
  | '+' :: rest => (false, rest)
  | text => (false, text)

/-- The whole number a text spells, with white space allowed around it. -/
def integer? (text : List Char) : Option Int :=
  let (negative, digits) := signed (trimmed text)
  match digitRun? 0 0 false digits with
  | some (value, count) =>
    if count ≤ maxDigits then some (if negative then -(value : Int) else value) else none
  | none => none

end FormGuard.Text
