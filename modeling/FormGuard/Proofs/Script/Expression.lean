import FormGuard.Script.Check
import Mathlib.Data.List.Chain

/-! Tests of one value as a browser reads them: words, precedence, and what the test says of a text.
Only what bounds a length is read: comparisons with the empty text and of the length with a number. -/
namespace FormGuard.Script

/-- How long a text is in the browser: a character outside the basic plane counts twice. -/
def units (s : String) : Nat := s.length + s.toList.countP fun c => 0x10000 ≤ c.val

inductive Token where
  | subject
  | length
  | empty
  | differs
  | less
  | more
  | conjoins
  | disjoins
  | opens
  | closes
  | minus
  | number (n : Nat)
  deriving DecidableEq

namespace Token

/-- How the tokens other than numbers are written. -/
def symbols : List (List Char × Token) :=
  [(['\x7b', 'j', 's', 'V', 'a', 'r', '\x7d'], subject),
    (['.', 'l', 'e', 'n', 'g', 't', 'h'], length), (['\'', '\''], empty), (['!', '='], differs),
    (['<'], less), (['>'], more), (['&', '&'], conjoins), (['|', '|'], disjoins), (['('], opens),
    ([')'], closes), (['-'], minus)]

/-- The number that digits read so far spell, if there are any. -/
def ofDigits (digits : List Char) : List Token :=
  if digits.isEmpty then [] else [number (Nat.ofDigitChars 10 digits 0)]

/-- Cuts a text into tokens, behind digits already read; `skip` characters belong to the token before
them. -/
def read (digits : List Char) (skip : Nat) : List Char → Option (List Token)
  | [] => some (ofDigits digits)
  | c :: rest =>
    match skip with
    | skip + 1 => read digits skip rest
    | 0 =>
      if c.isDigit then read (digits ++ [c]) 0 rest
      else if c == ' ' then do return ofDigits digits ++ (← read [] 0 rest)
      else
        match symbols.find? fun symbol => symbol.1.isPrefixOf (c :: rest) with
        | some (word, token) => do
          return ofDigits digits ++ token :: (← read [] (word.length - 1) rest)
        | none => none

/-! Tokens that are spelled one after the other are read back. -/

section
variable {digits ds rest word : List Char} {token : Token} {items : List (Option Token)}

theorem read_digits (h : ∀ c ∈ ds, c.isDigit = true) (digits rest : List Char) :
    read digits 0 (ds ++ rest) = read (digits ++ ds) 0 rest := by
  induction ds generalizing digits with
  | nil => rw [List.nil_append, List.append_nil]
  | cons c ds ih =>
    obtain ⟨hc, hrest⟩ := List.forall_mem_cons.mp h
    rw [List.cons_append, read, hc, if_pos rfl, ih hrest, List.append_assoc]
    rfl

theorem read_blank : read digits 0 (' ' :: rest) = (read [] 0 rest).map (ofDigits digits ++ ·) := by
  cases h : read [] 0 rest <;> simp [read, h]

theorem read_symbol (h : (word, token) ∈ symbols) :
    read digits 0 (word ++ rest) = (read [] 0 rest).map (ofDigits digits ++ token :: ·) := by
  simp only [symbols, List.mem_cons, Prod.mk.injEq, List.not_mem_nil, or_false] at h
  cases hr : read [] 0 rest
  all_goals
    rcases h with ⟨rfl, rfl⟩ | ⟨rfl, rfl⟩ | ⟨rfl, rfl⟩ | ⟨rfl, rfl⟩ | ⟨rfl, rfl⟩ | ⟨rfl, rfl⟩ |
      ⟨rfl, rfl⟩ | ⟨rfl, rfl⟩ | ⟨rfl, rfl⟩ | ⟨rfl, rfl⟩ | ⟨rfl, rfl⟩ <;>
    simp [read, symbols, hr]

theorem ofDigits_toDigits (n : Nat) : ofDigits (Nat.toDigits 10 n) = [number n] := by
  have hne : (Nat.toDigits 10 n).isEmpty = false := by
    simp [Nat.toDigits_ne_nil]
  rw [ofDigits, hne, Nat.ofDigitChars_ten_toDigits]
  rfl

def isNumber : Option Token → Bool
  | some (number _) => true
  | _ => false

/-- How a token is written; in the place of none stands a blank. -/
def spell : Option Token → List Char
  | none => [' ']
  | some (number n) => Nat.toDigits 10 n
  | some token => ((symbols.find? fun symbol => symbol.2 == token).map (·.1)).getD []

theorem mem_symbols (h : isNumber (some token) = false) : (spell (some token), token) ∈ symbols := by
  cases token with
  | number n => cases h
  | _ => decide

/-- Two numbers side by side would be read as one. -/
theorem read_spelled (h : items.IsChain fun a b => isNumber a = true → isNumber b = false)
    (hd : digits = [] ∨ ∀ item ∈ items.head?, isNumber item = false) :
    read digits 0 (items.flatMap spell) = some (ofDigits digits ++ items.filterMap id) := by
  -- on the items, with the digits that are not yet a number
  induction items generalizing digits with
  | nil => simp [read]
  | cons item items ih =>
    obtain ⟨hnext, htail⟩ := List.isChain_cons.mp h
    rw [List.flatMap_cons]
    cases hn : isNumber item with
    | true =>
      obtain rfl : digits = [] := hd.resolve_right fun hno => by simp [hn] at hno
      obtain ⟨n, rfl⟩ : ∃ n, item = some (number n) := by
        unfold isNumber at hn
        split at hn
        · exact ⟨_, rfl⟩
        · cases hn
      have hdigits : ∀ c ∈ Nat.toDigits 10 n, c.isDigit = true := fun c hc =>
        Nat.isDigit_of_mem_toDigits (by decide) (by decide) hc
      rw [spell, read_digits hdigits, List.nil_append,
        ih htail (Or.inr fun next hm => hnext next hm hn), ofDigits_toDigits]
      rfl
    | false =>
      cases item with
      | none =>
        rw [spell, List.singleton_append, read_blank, ih htail (Or.inl rfl)]
        rfl
      | some token =>
        rw [read_symbol (mem_symbols hn), ih htail (Or.inl rfl)]
        rfl

end

end Token

/-- What a test says of a value. -/
inductive Expression where
  /-- The value is not empty. -/
  | filled
  | shorter (bound : Int)
  | longer (bound : Int)
  | both (first second : Expression)
  | either (first second : Expression)
  deriving DecidableEq

namespace Expression

def holds (s : String) : Expression → Bool
  | .filled => s != ""
  | .shorter bound => (units s : Int) < bound
  | .longer bound => bound < (units s : Int)
  | .both first second => first.holds s && second.holds s
  | .either first second => first.holds s || second.holds s

/-- Reads a number with its sign. -/
def readInt : List Token → Option (Int × List Token)
  | .number n :: rest => some (n, rest)
  | .minus :: .number n :: rest => some (-n, rest)
  | _ => none

/-- Reads a comparison. -/
def readComparison : List Token → Option (Expression × List Token)
  | .subject :: .differs :: .empty :: rest => some (.filled, rest)
  | .subject :: .length :: .less :: rest => do
    let (bound, rest) ← readInt rest
    return (.shorter bound, rest)
  | .subject :: .length :: .more :: rest => do
    let (bound, rest) ← readInt rest
    return (.longer bound, rest)
  | _ => none

mutual

/-- Reads alternatives; the number bounds how deep expressions stand in one another. -/
def readEither : Nat → List Token → Option (Expression × List Token)
  | 0, _ => none
  | depth + 1, tokens => do
    let (first, rest) ← readBoth depth tokens
    match rest with
    | .disjoins :: rest =>
      let (second, rest) ← readEither depth rest
      return (.either first second, rest)
    | rest => return (first, rest)

/-- Reads what has to hold together; this binds closer than alternatives. -/
def readBoth : Nat → List Token → Option (Expression × List Token)
  | 0, _ => none
  | depth + 1, tokens => do
    let (first, rest) ← readOperand depth tokens
    match rest with
    | .conjoins :: rest =>
      let (second, rest) ← readBoth depth rest
      return (.both first second, rest)
    | rest => return (first, rest)

/-- Reads a comparison, or an expression in parentheses. -/
def readOperand : Nat → List Token → Option (Expression × List Token)
  | 0, _ => none
  | depth + 1, .opens :: rest => do
    match ← readEither depth rest with
    | (e, .closes :: rest) => return (e, rest)
    | _ => none
  | _ + 1, tokens => readComparison tokens

end

/-- Reads a whole test. -/
def read? (test : String) : Option Expression := do
  let tokens ← Token.read [] 0 test.toList
  match ← readEither (3 * tokens.length) tokens with
  | (e, []) => return e
  | _ => none

end Expression

example : Expression.read? "\x7bjsVar\x7d != '' && (\x7bjsVar\x7d.length < 2 || \x7bjsVar\x7d.length > -4)" =
    some (.both .filled (.either (.shorter 2) (.longer (-4)))) := by
  rw [Expression.read?, String.toList_ofList]
  decide +kernel

end FormGuard.Script
