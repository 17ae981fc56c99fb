import FormGuard.Text.Integer
import FormGuard.Value.Access

/-! Values as numbers: whole numbers for bounds, the leading number of a text for comparisons. -/
namespace FormGuard

namespace Text

/-- A number at the beginning of a text, part by part. -/
structure LeadingNumber where
  blanks : List Char
  sign : List Char
  whole : List Char
  /-- The point and the digits behind it. -/
  fraction : List Char
  /-- The letter, the sign and the digits of an exponent. -/
  exponent : List Char
  deriving DecidableEq

namespace LeadingNumber

def text (n : LeadingNumber) : List Char :=
  n.blanks ++ n.sign ++ n.whole ++ n.fraction ++ n.exponent

end LeadingNumber

def isSign (c : Char) : Bool := c == '+' || c == '-'

/-- The sign at the beginning, if there is one. -/
def signPart (text : List Char) : List Char :=
  match text with
  | c :: _ => if isSign c then [c] else []
  | [] => []

def digitPart (text : List Char) : List Char := text.takeWhile Unicode.isDecimal

/-- An exponent at the beginning: a letter, a sign or none, and at least one digit. -/
def exponentPart (text : List Char) : List Char :=
  match text with
  | c :: rest =>
    if c == 'e' || c == 'E' then
      let sign := signPart rest
      let digits := digitPart (rest.drop sign.length)
      if digits.isEmpty then [] else c :: sign ++ digits
    else []
  | [] => []

/-- A point with the digits behind it; `needed` asks for at least one digit. -/
def fractionPart (needed : Bool) (text : List Char) : List Char :=
  match text with
  | '.' :: rest =>
    let digits := digitPart rest
    if needed && digits.isEmpty then [] else '.' :: digits
  | _ => []

/-- The longest number at the beginning of a text: white space, a sign, digits with or without a
fraction or a fraction alone, an exponent. -/
def leadingNumber? (text : List Char) : Option LeadingNumber :=
  let blanks := text.takeWhile Unicode.isSpace
  let text := text.drop blanks.length
  let sign := signPart text
  let text := text.drop sign.length
  let whole := digitPart text
  let text := text.drop whole.length
  let fraction := fractionPart whole.isEmpty text
  let text := text.drop fraction.length
  if whole.isEmpty && fraction.isEmpty then none
  else some ⟨blanks, sign, whole, fraction, exponentPart text⟩

/-- The number that digits of any script spell. -/
def digitsValue (digits : List Char) : Nat :=
  digits.foldl (fun n c => 10 * n + (Unicode.digitValue? c).getD 0) 0

namespace LeadingNumber

/-- The power of ten an exponent names. -/
def power (n : LeadingNumber) : Int :=
  match n.exponent with
  | [] => 0
  | _ :: rest =>
    let magnitude := digitsValue (rest.filter fun c => !isSign c)
    if rest.head? == some '-' then -(magnitude : Int) else magnitude

/-- The nearest double. An information separator among the blanks makes it no number. -/
def value? (n : LeadingNumber) : Option Double :=
  if n.blanks.all Unicode.isNumberSpace then
    let behind := n.fraction.drop 1
    some (Double.ofDecimal (n.sign == ['-']) (digitsValue (n.whole ++ behind))
      (n.power - behind.length))
  else none

end LeadingNumber

end Text

namespace Value

/-- A value as a whole number: a double loses its fraction, a text spells one. -/
def toInt (v : Value) : Except Error Int :=
  match v with
  | .bool b => .ok (if b then 1 else 0)
  | .int i => .ok i
  | .float .nan => misuse .value
  | .float (.infinite _) => misuse .overflow
  | .float d => .ok (d.trunc?.getD 0)
  | v =>
    match v.asText? with
    | some s =>
      match Text.integer? s.toList with
      | some i => .ok i
      | none => misuse .value
    | none => misuse .type

/-- The number of a value: its own, or the one its text begins with, or zero. -/
def toNumber (v : Value) : Except Error Double :=
  match v with
  | .bool b => .ok (Double.ofBool b)
  | .int i => (Double.ofInt? i).elim (misuse .overflow) .ok
  | .float d => .ok d
  | v => do
    match Text.leadingNumber? (← v.written).toList with
    | none => return .finite false 0
    | some number => number.value?.elim (misuse .value) .ok

theorem toNumber_text (s : String) : (text s).toNumber =
    (Text.leadingNumber? s.toList).elim (.ok (.finite false 0)) fun number =>
      number.value?.elim (misuse .value) .ok := by
  unfold toNumber
  dsimp only
  rw [written_text]
  dsimp only [Bind.bind, Except.bind]
  cases Text.leadingNumber? s.toList <;> rfl

end Value

end FormGuard
