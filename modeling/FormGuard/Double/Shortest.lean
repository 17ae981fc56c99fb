import FormGuard.Double

/-! The shortest decimal that reads back as a given number, and its written form. -/
namespace FormGuard.Double

/-- The value `digits * 10 ^ exponent`. -/
structure Decimal where
  digits : Nat
  exponent : Int
  deriving DecidableEq

namespace Decimal

/-- Whether the decimal reads as the positive number of so many units. -/
def reads (d : Decimal) (units : Nat) : Bool :=
  ofDecimal false d.digits d.exponent == .finite false units

/-- Drops trailing zeros; `fuel` bounds their number. -/
def strip : Nat → Decimal → Decimal
  | 0, d => d
  | fuel + 1, d =>
    if d.digits % 10 = 0 && d.digits != 0 then strip fuel ⟨d.digits / 10, d.exponent + 1⟩ else d

end Decimal

/-- Whether `10 ^ e` is at most the number of so many units. -/
def powerLe (e : Int) (units : Nat) : Bool :=
  if 0 ≤ e then Nat.pow 10 e.toNat * one ≤ units else one ≤ units * Nat.pow 10 (-e).toNat

/-- The exponent of the leading decimal digit of a positive number. -/
def leadingExponent (units : Nat) : Int :=
  let guess := ((units.log2 : Int) - 1074) * 30103 / 100000
  if powerLe (guess + 1) units then guess + 1
  else if powerLe guess units then guess
  else guess - 1

/-- The neighbour below on the grid of `10 ^ e`, with the remainder over the common divisor. -/
def gridBelow (e : Int) (units : Nat) : Nat × Nat × Nat :=
  if 0 ≤ e then
    let den := one * Nat.pow 10 e.toNat
    (units / den, units % den, den)
  else
    let num := units * Nat.pow 10 (-e).toNat
    (num / one, num % one, one)

/-- The decimal of `count` digits that reads back, the nearer one if both neighbours do. -/
def withDigits? (units count : Nat) : Option Decimal :=
  let e := leadingExponent units - count + 1
  let (below, rest, den) := gridBelow e units
  let low : Decimal := ⟨below, e⟩
  let high : Decimal := ⟨below + 1, e⟩
  let nearest := if 2 * rest < den then low
    else if den < 2 * rest then high
    else if below % 2 = 0 then low else high
  match low.reads units, high.reads units with
  | true, true => some nearest
  | true, false => some low
  | false, true => some high
  | false, false => none

/-- The shortest decimal that reads back; seventeen digits always suffice. -/
def shortest (units : Nat) : Decimal :=
  if units = 0 then ⟨0, 0⟩
  else match (List.range 17).findSome? fun n => withDigits? units (n + 1) with
    | some d => d.strip 400
    | none => ⟨0, 0⟩

/-- The text of an exponent: a sign and at least two digits. -/
def exponentText (e : Int) : String :=
  let size := toString e.natAbs
  (if e < 0 then "e-" else "e+") ++ (if size.length < 2 then "0" ++ size else size)

/-- Positional notation from `10 ^ -4` up to `10 ^ 16`, scientific outside; a whole number keeps
a zero after the point. -/
def positiveText (units : Nat) : String :=
  let d := shortest units
  let digits := toString d.digits
  let point : Int := digits.length + d.exponent
  if units = 0 then "0.0"
  else if point ≤ -4 || 16 < point then
    let tail := digits.drop 1
    (digits.take 1).toString ++ (if tail.isEmpty then "" else "." ++ tail.toString)
      ++ exponentText (point - 1)
  else if point ≤ 0 then "0." ++ String.ofList (List.replicate (-point).toNat '0') ++ digits
  else if (digits.length : Int) ≤ point then
    digits ++ String.ofList (List.replicate d.exponent.toNat '0') ++ ".0"
  else (digits.take point.toNat).toString ++ "." ++ (digits.drop point.toNat).toString

/-- The written form of a number. -/
def text : Double → String
  | .nan => "nan"
  | .infinite s => if s then "-inf" else "inf"
  | .finite s units => (if s then "-" else "") ++ positiveText units

end FormGuard.Double
