/-! Binary64 numbers held exactly: a finite magnitude counts the least positive number. -/
namespace FormGuard

/-- A binary64 number; `finite s n` is `n` times `2 ^ -1074`, below zero when `s` holds. -/
inductive Double where
  | nan
  | infinite (negative : Bool)
  | finite (negative : Bool) (units : Nat)
  deriving DecidableEq

namespace Double

/-- How many units make one. -/
def one : Nat := Nat.pow 2 1074

/-- The largest finite magnitude. -/
def maxUnits : Nat := (Nat.pow 2 53 - 1) * Nat.pow 2 2045

/-- A quotient to the nearest whole number, a tie to the even neighbour. -/
def roundDiv (num den : Nat) : Nat :=
  let quot := num / den
  let rest := num % den
  if 2 * rest < den then quot
  else if den < 2 * rest then quot + 1
  else if quot % 2 = 0 then quot
  else quot + 1

/-- A quotient of units to the nearest magnitude with 53 significant bits. -/
def roundUnits (num den : Nat) : Nat :=
  let spare := (num / den).log2 + 1 - 53
  roundDiv num (den * Nat.pow 2 spare) * Nat.pow 2 spare

/-- The number nearest to a quotient; beyond the largest one it is infinite. -/
def ofRatio (negative : Bool) (num den : Nat) : Double :=
  let units := roundUnits (num * one) den
  if units ≤ maxUnits then finite negative units else infinite negative

/-- The number nearest to `digits * 10 ^ exponent`. Exponents far outside the range are settled
without computing the power. -/
def ofDecimal (negative : Bool) (digits : Nat) (exponent : Int) : Double :=
  if digits = 0 then finite negative 0
  else if 400 < exponent then infinite negative
  else if exponent + digits.log2 < -400 then finite negative 0
  else if 0 ≤ exponent then ofRatio negative (digits * Nat.pow 10 exponent.toNat) 1
  else ofRatio negative digits (Nat.pow 10 (-exponent).toNat)

/-- The number, when it is in range. -/
def finite? : Double → Option Double
  | .finite s n => some (.finite s n)
  | _ => none

/-- The number nearest to a whole number, when one is in range. -/
def ofInt? (i : Int) : Option Double := (ofRatio (decide (i < 0)) i.natAbs 1).finite?

def ofBool (b : Bool) : Double := if b then .finite false one else .finite false 0

/-- The whole part, the fraction dropped. -/
def trunc? : Double → Option Int
  | .finite s n => some (if s then -((n / one : Nat) : Int) else (n / one : Nat))
  | _ => none

/-- The whole number a double is, when it has no fraction. -/
def integral? : Double → Option Int
  | .finite s n =>
    if n % one = 0 then some (if s then -((n / one : Nat) : Int) else (n / one : Nat)) else none
  | _ => none

/-- Position on the extended number line: infinities stand outside every finite number. -/
def less : Double → Double → Bool
  | .nan, _ => false
  | _, .nan => false
  | .infinite s, .infinite t => s && !t
  | .infinite s, .finite _ _ => s
  | .finite _ _, .infinite t => !t
  | .finite s m, .finite t n =>
    decide ((if s then -(m : Int) else m) < if t then -(n : Int) else n)

/-- Equality as numbers: both zeros agree, and no number agrees with the undefined one. -/
def same : Double → Double → Bool
  | .infinite s, .infinite t => s == t
  | .finite s m, .finite t n =>
    decide ((if s then -(m : Int) else (m : Int)) = if t then -(n : Int) else n)
  | _, _ => false

def lessEq (x y : Double) : Bool := x.less y || x.same y

/-- A double that is neither zero counts as true, the undefined one included. -/
def truthy : Double → Bool
  | .finite _ n => n != 0
  | _ => true

/-- A whole number counts as true unless it is zero. -/
theorem truthy_of_integral? {d : Double} {i : Int} (h : d.integral? = some i) :
    d.truthy = (i != 0) := by
  cases d with
  | finite negative n =>
    have hint : integral? (.finite negative n) = if n % one = 0 then
        some (if negative then -((n / one : Nat) : Int) else (n / one : Nat)) else none := rfl
    rw [hint] at h
    split at h
    · rename_i hn
      have hz : n / one = 0 ↔ n = 0 := by
        constructor
        · intro hq
          rw [← Nat.div_add_mod n one, hq, hn, Nat.mul_zero]
        · rintro rfl
          exact Nat.zero_div _
      rw [← Option.some.inj h, truthy, Bool.eq_iff_iff, bne_iff_ne, bne_iff_ne, ne_eq, ← hz]
      cases negative with
      | true => rw [if_pos rfl, ne_eq, Int.neg_eq_zero, Int.natCast_eq_zero]
      | false => rw [if_neg (by decide), ne_eq, Int.natCast_eq_zero]
    · cases h
  | _ => cases h

end Double

end FormGuard
