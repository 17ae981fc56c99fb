import FormGuard.Main
import FormGuard.Proofs.Action
import Mathlib

/-! Operands and operators of any shape: where a comparison answers, and what it fails with where it
does not. -/
namespace FormGuard

namespace Double

/-- Rounding never goes down by more than the rest, and never up by more than one. -/
theorem roundDiv_bounds (num den : Nat) :
    num / den ≤ roundDiv num den ∧ roundDiv num den ≤ num / den + 1 := by
  unfold roundDiv
  dsimp only
  split
  · omega
  · split
    · omega
    · split <;> omega

/-- The quotient is kept below the middle between two whole numbers. -/
theorem roundDiv_of_lt {num den : Nat} (h : 2 * (num % den) < den) :
    roundDiv num den = num / den := by
  unfold roundDiv
  dsimp only
  rw [if_pos h]

/-- An odd quotient goes up from the middle on. -/
theorem roundDiv_of_le {num den : Nat} (h : den ≤ 2 * (num % den)) (hodd : (num / den) % 2 = 1) :
    roundDiv num den = num / den + 1 := by
  unfold roundDiv
  dsimp only
  rw [if_neg (Nat.not_lt.mpr h)]
  split
  · rfl
  · rw [if_neg (by omega)]

theorem roundUnits_eq (n : Nat) :
    roundUnits n 1 = roundDiv n (2 ^ (n.log2 + 1 - 53)) * 2 ^ (n.log2 + 1 - 53) := by
  rw [roundUnits, Nat.div_one, Nat.one_mul]
  rfl

/-- A quotient of 53 bits is left. -/
theorem div_lt_of_log2 (n : Nat) : n / 2 ^ (n.log2 + 1 - 53) < 2 ^ 53 := by
  rw [Nat.div_lt_iff_lt_mul (Nat.two_pow_pos _), ← Nat.pow_add]
  exact Nat.lt_of_lt_of_le Nat.lt_log2_self (Nat.pow_le_pow_right (by decide) (by omega))

/-- With 54 bits in front of the spare ones, a magnitude is rounded by one bit. -/
theorem roundUnits_of_log2 {n k : Nat} (h : n.log2 = 53 + k) :
    roundUnits n 1 = roundDiv n (2 * 2 ^ k) * (2 * 2 ^ k) := by
  rw [roundUnits_eq, h, show 53 + k + 1 - 53 = k + 1 by omega, Nat.pow_succ']

theorem roundUnits_le_of_log2_lt {n k : Nat} (h : n.log2 < 53 + k) :
    n < 2 ^ 53 * 2 ^ k ∧ roundUnits n 1 ≤ 2 ^ 53 * 2 ^ k := by
  constructor
  · rw [← Nat.pow_add]
    exact Nat.lt_of_lt_of_le Nat.lt_log2_self (Nat.pow_le_pow_right (by decide) h)
  · have hquot := div_lt_of_log2 n
    have hup := (roundDiv_bounds n (2 ^ (n.log2 + 1 - 53))).2
    rw [roundUnits_eq]
    exact Nat.mul_le_mul (by omega) (Nat.pow_le_pow_right (by decide) (by omega))

theorem le_roundUnits_of_lt_log2 {n k : Nat} (h : 53 + k < n.log2) :
    2 ^ 54 * 2 ^ k ≤ n ∧ 2 ^ 54 * 2 ^ k ≤ roundUnits n 1 := by
  have hne : n ≠ 0 := by
    rintro rfl
    simp at h
  constructor
  · rw [← Nat.pow_add]
    exact (Nat.le_log2 hne).mp (by omega)
  · have hdown := (roundDiv_bounds n (2 ^ (n.log2 + 1 - 53))).1
    have hbits : 2 ^ 52 ≤ n / 2 ^ (n.log2 + 1 - 53) := by
      rw [Nat.le_div_iff_mul_le (Nat.two_pow_pos _), ← Nat.pow_add,
        show 52 + (n.log2 + 1 - 53) = n.log2 by omega]
      exact Nat.log2_self_le hne
    rw [roundUnits_eq]
    calc 2 ^ 54 * 2 ^ k = 2 ^ 52 * 2 ^ (k + 2) := by
          rw [Nat.pow_add 2 k 2]
          omega
      _ ≤ _ := Nat.mul_le_mul (by omega) (Nat.pow_le_pow_right (by decide) (by omega))

/-- Only the last quotient can be rounded up to a power of two. -/
theorem roundUnits_le_iff_of_log2 {n k : Nat} (h : n.log2 = 53 + k) :
    roundUnits n 1 ≤ (2 ^ 53 - 1) * (2 * 2 ^ k) ↔ n < (2 ^ 54 - 1) * 2 ^ k := by
  have hhalf := Nat.two_pow_pos k
  have hquot := div_lt_of_log2 n
  rw [h, show 53 + k + 1 - 53 = k + 1 by omega, Nat.pow_succ'] at hquot
  have hn := Nat.div_add_mod n (2 * 2 ^ k)
  have hrest := Nat.mod_lt n (by omega : 0 < 2 * 2 ^ k)
  rw [roundUnits_of_log2 h, Nat.mul_le_mul_right_iff (by omega)]
  by_cases hlast : n / (2 * 2 ^ k) = 2 ^ 53 - 1
  · by_cases hup : 2 * 2 ^ k ≤ 2 * (n % (2 * 2 ^ k))
    · rw [roundDiv_of_le hup (by omega)]
      rw [hlast] at hn ⊢
      omega
    · rw [roundDiv_of_lt (Nat.not_le.mp hup)]
      rw [hlast] at hn ⊢
      omega
  · have hup := (roundDiv_bounds n (2 * 2 ^ k)).2
    have hless : 2 * 2 ^ k * (n / (2 * 2 ^ k)) ≤ 2 * 2 ^ k * (2 ^ 53 - 2) :=
      Nat.mul_le_mul_left _ (by omega)
    omega

/-- A magnitude is rounded to at most 53 ones in front of the spare bits exactly when it lies below the
middle between that and the next power of two. -/
theorem roundUnits_le_iff (n k : Nat) :
    roundUnits n 1 ≤ (2 ^ 53 - 1) * (2 * 2 ^ k) ↔ n < (2 ^ 54 - 1) * 2 ^ k := by
  have hhalf := Nat.two_pow_pos k
  obtain hlow | hmid | hhigh := Nat.lt_trichotomy n.log2 (53 + k)
  · obtain ⟨hn, hround⟩ := roundUnits_le_of_log2_lt hlow
    omega
  · exact roundUnits_le_iff_of_log2 hmid
  · obtain ⟨hn, hround⟩ := le_roundUnits_of_lt_log2 hhigh
    omega

theorem maxUnits_eq : maxUnits = (2 ^ 53 - 1) * (2 * 2 ^ 2044) := by decide +kernel

/-- With the middle in units a magnitude is in range exactly when it lies below the middle. -/
theorem roundUnits_le_maxUnits_iff {n unit : Nat} (hunit : 0 < unit)
    (hhalf : 2 ^ 2044 = 2 ^ 970 * unit) :
    roundUnits (n * unit) 1 ≤ maxUnits ↔ n < (2 ^ 54 - 1) * 2 ^ 970 := by
  rw [maxUnits_eq, roundUnits_le_iff, hhalf, ← Nat.mul_assoc, Nat.mul_lt_mul_right hunit]

theorem finite?_ofRatio (negative : Bool) (num den : Nat) :
    (ofRatio negative num den).finite? = none ↔ ¬ roundUnits (num * one) den ≤ maxUnits := by
  have hchoice : ∀ units top, (if units ≤ top then finite negative units
      else infinite negative).finite? = none ↔ ¬ units ≤ top := by
    intro units top
    by_cases h : units ≤ top
    · simp [h, finite?]
    · simp [h, finite?]
  exact hchoice _ _

/-- A whole number has a double unless it is as near to two to the power of 1024 as to the largest
double. -/
theorem ofInt?_eq_none_iff {i : Int} : ofInt? i = none ↔ (2 ^ 54 - 1) * 2 ^ 970 ≤ i.natAbs := by
  have hrange : roundUnits (i.natAbs * one) 1 ≤ maxUnits ↔ i.natAbs < (2 ^ 54 - 1) * 2 ^ 970 :=
    roundUnits_le_maxUnits_iff (by decide +kernel) (by decide +kernel)
  rw [ofInt?, finite?_ofRatio, hrange, Nat.not_lt]

end Double

/-- A text that begins with a number, among the blanks of which is an information separator. -/
def Text.Separated (s : String) : Prop :=
  ∃ number, leadingNumber? s.toList = some number ∧ number.value? = none

namespace Value

theorem toNumber_of_separated {s : String} (h : Text.Separated s) :
    (text s).toNumber = misuse .value := by
  obtain ⟨number, hl, hv⟩ := h
  rw [toNumber_text, hl, Option.elim_some, hv]
  rfl

theorem toNumber_of_not_separated {s : String} (h : ¬ Text.Separated s) :
    ∃ d, (text s).toNumber = .ok d := by
  rw [toNumber_text]
  cases hl : Text.leadingNumber? s.toList with
  | none => exact ⟨_, rfl⟩
  | some number =>
    cases hv : number.value? with
    | some d => exact ⟨d, by simp [hv]⟩
    | none => exact absurd ⟨number, hl, hv⟩ h

/-- Booleans count as numbers. -/
def isNumber : Value → Bool
  | .bool _ | .int _ | .float _ => true
  | _ => false

theorem toNumber_of_isNumber {v : Value} (h : v.isNumber = true) :
    (∃ d, v.toNumber = .ok d) ∨ ∃ i, v = .int i ∧ Double.ofInt? i = none := by
  cases v with
  | bool b => exact Or.inl ⟨_, rfl⟩
  | float d => exact Or.inl ⟨_, rfl⟩
  | int i =>
    cases hi : Double.ofInt? i with
    | none => exact Or.inr ⟨i, rfl, hi⟩
    | some d =>
      refine Or.inl ⟨d, ?_⟩
      rw [toNumber, hi]
      rfl
  | _ => cases h

theorem toNumber_of_not_isNumber {v : Value} (h : v.isNumber = false) :
    v.toNumber = v.written >>= fun text => (Value.text text).toNumber := by
  rw [funext toNumber_text]
  cases v with
  | bool _ | int _ | float _ => cases h
  | _ =>
    refine congrArg (written _ >>= ·) (funext fun s => ?_)
    cases Text.leadingNumber? s.toList <;> rfl

end Value

/-- Why a value has no number: it is a whole number out of range, or its text begins with a number among
the blanks of which is a separator, or it has no text. -/
inductive Numberless : Value → Misuse → Prop where
  | large {i : Int} (range : (2 ^ 54 - 1) * 2 ^ 970 ≤ i.natAbs) : Numberless (.int i) .overflow
  | separated {v : Value} (other : v.isNumber = false) (writable : v.isWritable = true)
    (separated : Text.Separated v.tested) : Numberless v .value
  | unwritable {v : Value} (other : v.isNumber = false) (unwritable : v.isWritable = false) :
    Numberless v .value

theorem toNumber_of_numberless {v : Value} {fault : Misuse} (h : Numberless v fault) :
    v.toNumber = Value.misuse fault := by
  cases h with
  | large range =>
    rw [Value.toNumber, Double.ofInt?_eq_none_iff.mpr range]
    rfl
  | separated other writable separated =>
    rw [Value.toNumber_of_not_isNumber other, Value.written, if_pos writable]
    exact Value.toNumber_of_separated separated
  | unwritable other unwritable =>
    rw [Value.toNumber_of_not_isNumber other, Value.written, unwritable, if_neg Bool.false_ne_true]
    rfl

theorem toNumber_of_not_numberless {v : Value} (h : ∀ fault, ¬ Numberless v fault) :
    ∃ d, v.toNumber = .ok d := by
  cases hn : v.isNumber with
  | true =>
    obtain hd | ⟨i, rfl, hi⟩ := Value.toNumber_of_isNumber hn
    · exact hd
    · exact absurd (.large (Double.ofInt?_eq_none_iff.mp hi)) (h .overflow)
  | false =>
    have hw : v.isWritable = true := by
      by_contra hw
      exact h .value (.unwritable hn (Bool.not_eq_true _ |>.mp hw))
    rw [Value.toNumber_of_not_isNumber hn, Value.written, if_pos hw]
    exact Value.toNumber_of_not_separated fun hs => h .value (.separated hn hw hs)

namespace Operator

/-- The operator a format names, or equality. -/
def named (format : Value) : Operator := (format.asText?.bind ofText?).getD .eq

/-- A format that counts as true is looked up, which takes a value that can be a key. -/
def Sought (format : Value) : Prop := format.truthy = true → format.isKey = true

theorem named_of_not_truthy {format : Value} (h : format.truthy = false) : named format = .eq := by
  cases format with
  | text s =>
    obtain rfl : s = "" := by simpa using h
    rfl
  | kind k => cases h
  | mode m => cases h
  | _ => rfl

theorem ofValue_of_sought {format : Value} (h : Sought format) :
    ofValue format = .ok (named format) := by
  unfold ofValue
  cases ht : format.truthy with
  | false =>
    rw [named_of_not_truthy ht]
    rfl
  | true =>
    have hkey := Value.needKey_eq_ok (u := ()).mpr (h ht)
    rw [hkey]
    rfl

theorem ofValue_of_not_sought {format : Value} (h : ¬ Sought format) :
    ofValue format = Value.misuse .type := by
  obtain ⟨ht, hk⟩ := Classical.not_imp.mp h
  unfold ofValue Value.needKey
  rw [ht, if_neg hk]
  rfl

/-- What a comparison misses of an operand: equality its text, an ordering its number. -/
def Misses (op : Operator) (v : Value) (fault : Misuse) : Prop :=
  if op.comparesText then v.isWritable = false ∧ fault = .value else Numberless v fault

/-- A text has no number for an ordering where a separator stands before the number. -/
theorem misses_text {op : Operator} {s : String} {fault : Misuse} : op.Misses (.text s) fault ↔
    op.comparesText = false ∧ Text.Separated s ∧ fault = .value := by
  unfold Misses
  cases op.comparesText with
  | true => simp
  | false =>
    constructor
    · intro (h : Numberless (.text s) fault)
      cases h with
      | separated other writable separated => exact ⟨rfl, separated, rfl⟩
      | unwritable other unwritable => simp at unwritable
    · rintro ⟨-, hs, rfl⟩
      exact Numberless.separated rfl (Value.isWritable_text s) hs

/-- A comparison prepares its operands one after the other and then compares what comes out. -/
theorem holds_eq (op : Operator) : ∃ (α : Type) (prepare : Value → Except Error α) (f : α → α → Bool),
    (∀ left right, op.holds left right =
      prepare left >>= fun a => prepare right >>= fun b => .ok (f a b)) ∧
    (∀ v fault, op.Misses v fault → prepare v = Value.misuse fault) ∧
    ∀ v, (∀ fault, ¬ op.Misses v fault) → ∃ a, prepare v = .ok a := by
  have hwritten : ∀ (v : Value) (fault : Misuse), v.isWritable = false ∧ fault = .value →
      v.written = Value.misuse fault := by
    rintro v _ ⟨hw, rfl⟩
    rw [Value.written, hw, if_neg Bool.false_ne_true]
  have hwritable : ∀ v : Value, (∀ fault, ¬ (v.isWritable = false ∧ fault = Misuse.value)) →
      ∃ s, v.written = .ok s := by
    intro v h
    refine ⟨v.tested, Value.written_eq_ok.mpr ⟨?_, rfl⟩⟩
    by_contra hw
    exact h .value ⟨Bool.not_eq_true _ |>.mp hw, rfl⟩
  cases op with
  | eq => exact ⟨String, Value.written, fun a b => a == b, fun _ _ => rfl, hwritten, hwritable⟩
  | ne => exact ⟨String, Value.written, fun a b => a != b, fun _ _ => rfl, hwritten, hwritable⟩
  | gt | ge | lt | le =>
    exact ⟨Double, Value.toNumber, ofNumbers _, fun _ _ => rfl,
      fun v fault => toNumber_of_numberless, fun v => toNumber_of_not_numberless⟩

variable {op : Operator} {left right : Value} {fault : Misuse}

theorem holds_of_not_misses (hl : ∀ fault, ¬ op.Misses left fault)
    (hr : ∀ fault, ¬ op.Misses right fault) : ∃ b, op.holds left right = .ok b := by
  obtain ⟨_, prepare, f, hholds, -, hprepared⟩ := op.holds_eq
  obtain ⟨a, ha⟩ := hprepared left hl
  obtain ⟨b, hb⟩ := hprepared right hr
  rw [hholds, ha, hb]
  exact ⟨_, rfl⟩

/-- The first operand that something is missed of decides what a comparison fails with. -/
theorem holds_of_misses (h : op.Misses left fault ∨
    (∀ fault, ¬ op.Misses left fault) ∧ op.Misses right fault) :
    op.holds left right = Value.misuse fault := by
  obtain ⟨_, prepare, f, hholds, hfails, hprepared⟩ := op.holds_eq
  rw [hholds]
  obtain hl | ⟨hl, hr⟩ := h
  · rw [hfails left fault hl]
    rfl
  · obtain ⟨a, ha⟩ := hprepared left hl
    rw [ha, hfails right fault hr]
    rfl

end Operator

namespace Comparison
open Operator

variable {name left right format : Value} {others : List Value}

theorem validate_of_sought (h : Sought format) :
    validate name (.list (left :: right :: others)) format =
      Value.bool <$> (named format).holds left right := by
  rw [validate, operands, ofValue_of_sought h]
  rfl

theorem validate_of_not_sought (h : ¬ Sought format) :
    validate name (.list (left :: right :: others)) format = Value.misuse .type := by
  rw [validate, operands, ofValue_of_not_sought h]
  rfl

theorem check_of_sought (h : Sought format) : ∃ check, Comparison.check format = .ok check := by
  rw [Comparison.check, ofValue_of_sought h]
  exact ⟨_, rfl⟩

theorem check_of_not_sought (h : ¬ Sought format) : Comparison.check format = Value.misuse .type := by
  rw [Comparison.check, ofValue_of_not_sought h]
  rfl

/-- A list of two or more is compared and has a check exactly where the operator can be looked up and
nothing is missed of the two operands. What cannot be looked up ends both in a type error; otherwise
the first operand that something is missed of decides the failure, and there is a check all the same.
A format that names no operator stands for equality. -/
theorem answers_iff (host : Host) (name left right format : Value) (others : List Value) :
    ((∃ b, (Rule.compare.validate host name (.list (left :: right :: others)) format).1 =
          .ok (.bool b)) ∧
        (∃ check, Rule.compare.check host name format = .ok check) ↔
      Sought format ∧ ∀ v ∈ [left, right], ∀ fault, ¬ (named format).Misses v fault) ∧
    (¬ Sought format →
      (Rule.compare.validate host name (.list (left :: right :: others)) format).1 =
          Value.misuse .type ∧
        Rule.compare.check host name format = Value.misuse .type) ∧
    (∀ fault, Sought format →
      (named format).Misses left fault ∨
        (∀ fault, ¬ (named format).Misses left fault) ∧ (named format).Misses right fault →
      (Rule.compare.validate host name (.list (left :: right :: others)) format).1 =
          Value.misuse fault ∧
        ∃ check, Rule.compare.check host name format = .ok check) ∧
    ((∀ word, format.asText? = some word → ofText? word = none) → Sought format →
      ofValue format = .ok .eq) := by
  have hmissed : ∀ fault, Sought format →
      (named format).Misses left fault ∨
        (∀ fault, ¬ (named format).Misses left fault) ∧ (named format).Misses right fault →
      validate name (.list (left :: right :: others)) format = Value.misuse fault := by
    intro fault hs hm
    rw [validate_of_sought hs, holds_of_misses hm]
    rfl
  change ((∃ b, validate name (.list (left :: right :: others)) format = .ok (.bool b)) ∧
      (∃ check, Comparison.check format = .ok check) ↔ _) ∧ _
  refine ⟨⟨?_, ?_⟩, fun hs => ⟨validate_of_not_sought hs, check_of_not_sought hs⟩,
    fun fault hs hm => ⟨hmissed fault hs hm, check_of_sought hs⟩, fun hno hs => ?_⟩
  · rintro ⟨⟨b, hb⟩, -⟩
    have hs : Sought format := by
      by_contra hs
      cases (validate_of_not_sought hs).symm.trans hb
    have hleft : ∀ fault, ¬ (named format).Misses left fault := by
      intro fault hl
      cases (hmissed fault hs (Or.inl hl)).symm.trans hb
    have hright : ∀ fault, ¬ (named format).Misses right fault := by
      intro fault hr
      cases (hmissed fault hs (Or.inr ⟨hleft, hr⟩)).symm.trans hb
    refine ⟨hs, ?_⟩
    simpa using ⟨hleft, hright⟩
  · rintro ⟨hs, hfine⟩
    obtain ⟨b, hb⟩ := holds_of_not_misses (hfine left (by simp)) (hfine right (by simp))
    refine ⟨⟨b, ?_⟩, check_of_sought hs⟩
    rw [validate_of_sought hs, hb]
    rfl
  · rw [ofValue_of_sought hs]
    cases hw : format.asText? with
    | none => rw [named, hw]; rfl
    | some word => rw [named, hw, Option.bind_some, hno word hw]; rfl

/-- Two is compared with a text as numbers. -/
theorem answers_gt :
    Sought (.text "gt") ∧
    (∀ v ∈ [Value.int 2, .text "10"], ∀ fault, ¬ (named (.text "gt")).Misses v fault) ∧
    (∃ b, (Rule.compare.validate Host.bare (.text "compare") (.list [.int 2, .text "10"])
      (.text "gt")).1 = .ok (.bool b)) ∧
    ∃ check, Rule.compare.check Host.bare (.text "compare") (.text "gt") = .ok check := by
  have hsought : Sought (.text "gt") := fun _ => Value.isKey_text "gt"
  have hfine : ∀ v ∈ [Value.int 2, .text "10"], ∀ fault,
      ¬ (named (.text "gt")).Misses v fault := by
    have hop : named (.text "gt") = .gt := rfl
    rw [hop]
    intro v hv fault (h : Numberless v fault)
    have hten : Text.leadingNumber? "10".toList = some ⟨[], [], ['1', '0'], [], []⟩ := by
      decide +kernel
    obtain rfl | rfl : v = .int 2 ∨ v = .text "10" := by simpa using hv
    · cases h with
      | large range => exact absurd range (by decide +kernel)
      | separated other | unwritable other => cases other
    · cases h with
      | separated _ _ separated =>
        obtain ⟨number, hl, hvalue⟩ := separated
        obtain rfl := Option.some.inj (hten.symm.trans hl)
        cases hvalue
      | unwritable _ unwritable => simp at unwritable
  obtain ⟨hvalidate, hcheck⟩ := (answers_iff Host.bare (.text "compare") (.int 2) (.text "10")
    (.text "gt") []).1.mpr ⟨hsought, hfine⟩
  exact ⟨hsought, hfine, hvalidate, hcheck⟩

/-- A large whole number has no double, a number behind an information separator is none, and a list
cannot be looked up as an operator. -/
theorem answers_fail :
    (Rule.compare.validate Host.bare (.text "compare") (.list [.int (10 ^ 400), .int 1])
      (.text "gt")).1 = Value.misuse .overflow ∧
    (Rule.compare.validate Host.bare (.text "compare") (.list [.text "\x1c1", .int 1])
      (.text "gt")).1 = Value.misuse .value ∧
    (Rule.compare.validate Host.bare (.text "compare") (.list [.int 1, .int 1])
      (.list [.text "gt"])).1 = Value.misuse .type ∧
    Rule.compare.check Host.bare (.text "compare") (.list [.text "gt"]) = Value.misuse .type := by
  have hsought : Sought (.text "gt") := fun _ => Value.isKey_text "gt"
  have hlist : ¬ Sought (.list [.text "gt"]) := by
    intro h
    cases h rfl
  have hmissed : ∀ {left : Value} {fault : Misuse}, Numberless left fault →
      validate (.text "compare") (.list [left, .int 1]) (.text "gt") = Value.misuse fault := by
    intro left fault h
    have hm : (named (.text "gt")).Misses left fault := h
    rw [validate_of_sought hsought, holds_of_misses (Or.inl hm)]
    rfl
  refine ⟨hmissed (.large (by decide +kernel)), hmissed (.separated rfl (Value.isWritable_text _) ?_),
    validate_of_not_sought hlist, check_of_not_sought hlist⟩
  exact ⟨⟨['\x1c'], [], ['1'], [], []⟩, by decide +kernel, by decide +kernel⟩

end Comparison

end FormGuard
