import FormGuard.Unicode.Case
import FormGuard.Unicode.Digit
import FormGuard.Unicode.Space
import FormGuard.Unicode.Word

/-! Regular expressions with groups, back references and lookaround, and what one character tests. -/
namespace FormGuard.Regex

inductive Category where
  | digit
  | space
  | word
  deriving DecidableEq

/-- Which characters a shorthand such as `\d` takes in: those of ASCII or those of every script. -/
inductive Script where
  | ascii
  | every
  deriving DecidableEq

namespace Category

def holds : Category → Script → Char → Bool
  | .digit, .ascii, c => c.isDigit
  | .digit, .every, c => Unicode.isDecimal c
  | .space, .ascii, c => Unicode.isAsciiSpace c
  | .space, .every, c => Unicode.isSpace c
  | .word, .ascii, c => c.isAlphanum || c == '_'
  | .word, .every, c => Unicode.isWord c

end Category

/-- One member of a class; a single character is a range of one code point. -/
inductive ClassItem where
  | range (low high : Nat)
  | category (kind : Category) (script : Script) (negated : Bool)
  deriving DecidableEq

/-- How characters that differ only in case are compared. -/
inductive Folding where
  | exact
  | ascii
  | every
  deriving DecidableEq

namespace Folding

/-- The lower case that a folding compares. -/
def lower : Folding → Nat → Nat
  | .exact, n => n
  | .ascii, n => Unicode.lowerAscii n
  | .every, n => Unicode.lowerCode n

/-- The code points that a folding takes for the same. -/
def variants : Folding → Nat → List Nat
  | .exact, n => [n]
  | .ascii, n => Unicode.asciiVariants n
  | .every, n => Unicode.caseVariants n

end Folding

namespace ClassItem

/-- A range takes a character in when some variant of it lies inside; a category looks at the
lower case. -/
def holds (folding : Folding) (c : Char) : ClassItem → Bool
  | .range low high => (folding.variants c.toNat).any fun n => low ≤ n && n ≤ high
  | .category kind script negated =>
    kind.holds script (Char.ofNat (folding.lower c.toNat)) != negated

end ClassItem

structure CharClass where
  negated : Bool
  items : List ClassItem
  folding : Folding
  deriving DecidableEq

namespace CharClass

def holds (cls : CharClass) (c : Char) : Bool :=
  cls.items.any (·.holds cls.folding c) != cls.negated

def single (folding : Folding) (n : Nat) : CharClass := ⟨false, [.range n n], folding⟩

end CharClass

/-- A place between characters. -/
inductive Place where
  | textStart
  | lineStart
  | textEnd
  | lineEnd
  /-- The end of the text, or before a line feed that ends it. -/
  | lastLineEnd
  | wordEdge (script : Script) (negated : Bool)
  deriving DecidableEq

/-- How many rounds of a repetition are tried first, and whether rounds are given back. -/
inductive Greed where
  | greedy
  | lazy
  | possessive
  deriving DecidableEq

inductive Expr where
  | empty
  | single (cls : CharClass)
  | any (lineFeed : Bool)
  | place (p : Place)
  | seq (first second : Expr)
  | alt (left right : Expr)
  | group (index : Nat) (body : Expr)
  | rounds (least : Nat) (most : Option Nat) (greed : Greed) (body : Expr)
  | reference (index : Nat) (folding : Folding)
  | choice (index : Nat) (present absent : Expr)
  | ahead (negated : Bool) (body : Expr)
  | behind (negated : Bool) (width : Nat) (body : Expr)
  | atomic (body : Expr)
  deriving DecidableEq

/-- Why a text is not a regular expression. -/
inductive Fault where
  /-- The text does not follow the grammar. -/
  | malformed
  /-- ASCII and Unicode matching are both asked for, or a count has too many digits to be read. -/
  | conflict
  /-- A repetition count is too large. -/
  | tooLarge
  deriving DecidableEq

end FormGuard.Regex
