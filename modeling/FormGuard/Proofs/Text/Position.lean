import FormGuard.Form.Submission
import FormGuard.Value.Number
import Mathlib.Tactic.Common

/-! Positions written as text: which digits spell a number, and which only look as if they did. -/
namespace FormGuard

namespace Unicode
variable {c : Char}

theorem isDigit_of_isDecimal (h : isDecimal c = true) : isDigit c = true := by
  -- the ten digits of a script stand between two changes
  have hscripts : ∀ start ∈ zeros, within false digitChanges start = true ∧
      ∀ change ∈ digitChanges, change ≤ start ∨ start + 10 ≤ change := by
    decide +kernel
  obtain ⟨value, hvalue⟩ := Option.isSome_iff_exists.mp h
  obtain ⟨start, hfind, _⟩ := Option.map_eq_some_iff.mp hvalue
  have hbounds := List.find?_some hfind
  simp only [Bool.and_eq_true, decide_eq_true_eq] at hbounds
  obtain ⟨hstart, hlast⟩ := hscripts start (List.mem_of_find?_eq_some hfind)
  rw [isDigit, within_congr hbounds.1 fun change hm hc => (hlast change hm).resolve_right (by omega)]
  exact hstart

theorem isSpace_of_isDigit (h : isDigit c = true) : isSpace c = false := by
  have hapart : ∀ m ∈ 0 :: (digitChanges ++ spaceChanges), within false digitChanges m = true →
      within false spaceChanges m = false := by
    decide +kernel
  exact within_apart hapart h

theorem isNumberSpace_of_isDigit (h : isDigit c = true) : isNumberSpace c = false := by
  unfold isNumberSpace
  split
  · rw [Bool.eq_false_iff]
    intro hs
    simp only [isAsciiSpace, Bool.or_eq_true, beq_iff_eq] at hs
    rcases hs with ((((rfl | rfl) | rfl) | rfl) | rfl) | rfl <;> exact absurd h (by decide)
  · exact isSpace_of_isDigit h

/-! In the ASCII range there are the ten digits and no others. -/

theorem isDigit_of_ascii (h : c.toNat < 128) : isDigit c = c.isDigit := by
  rw [Bool.eq_iff_iff, Char.isDigit_iff_toNat]
  unfold isDigit digitChanges
  by_cases hlow : c.toNat < 48
  · rw [within_cons_of_lt hlow]
    simp
    omega
  · rw [within_cons_of_le (by omega)]
    by_cases hhigh : c.toNat < 58
    · rw [within_cons_of_lt hhigh]
      simp
      omega
    · rw [within_cons_of_le (by omega), within_cons_of_lt (by omega)]
      simp
      omega

theorem digitValue?_of_isDigit (h : c.isDigit = true) :
    digitValue? c = some (c.toNat - '0'.toNat) := by
  obtain ⟨hlow, hhigh⟩ : 48 ≤ c.toNat ∧ c.toNat ≤ 57 := Char.isDigit_iff_toNat.mp h
  have hlt : c.toNat < 58 := by omega
  simp [digitValue?, zeros, hlow, hlt]

end Unicode

namespace Text
variable {key text : List Char} {n : Nat}

/-- A key that spells a number: decimal digits of any script, and no more than are read. -/
structure Spells (key : List Char) (n : Nat) : Prop where
  nonempty : key ≠ []
  decimal : ∀ c ∈ key, Unicode.isDecimal c = true
  short : key.length ≤ maxDigits
  value : digitsValue key = n

/-- Digits that spell no number: one of them is none of the decimal digits, or they are too many. -/
structure Misread (key : List Char) : Prop where
  nonempty : key ≠ []
  digits : ∀ c ∈ key, Unicode.isDigit c = true
  fault : (∃ c ∈ key, Unicode.isDecimal c = false) ∨ maxDigits < key.length

/-- A number as it is written with the ten ASCII digits. -/
structure Numeral (key : List Char) (n : Nat) : Prop where
  nonempty : key ≠ []
  digits : ∀ c ∈ key, c.isDigit = true
  value : Nat.ofDigitChars 10 key 0 = n

/-! Characters that stand in no number. -/

theorem not_mem_of_digitRun? {c : Char} (hd : Unicode.digitValue? c = none) (hu : c ≠ '_')
    {value count : Nat} {after : Bool} {r : Nat × Nat} (h : digitRun? value count after text = some r) :
    c ∉ text := by
  fun_induction digitRun? value count after text with
  | case1 | case2 => exact List.not_mem_nil
  | case3 value count after d rest he ih =>
    have hne : c ≠ d := fun hcd => hu (hcd.trans (beq_iff_eq.mp (Bool.and_eq_true_iff.mp he).1))
    exact List.not_mem_cons_of_ne_of_not_mem hne (ih h)
  | case4 value count after d rest he digit hv ih =>
    have hne : c ≠ d := by
      rintro rfl
      rw [hd] at hv
      cases hv
    exact List.not_mem_cons_of_ne_of_not_mem hne (ih h)
  | case5 => cases h

theorem mem_trimmed {c : Char} (hs : Unicode.isNumberSpace c = false) (h : c ∈ text) :
    c ∈ trimmed text := by
  have hkeep : ∀ l : List Char, c ∈ l → c ∈ l.dropWhile Unicode.isNumberSpace := by
    intro l hl
    rw [← List.takeWhile_append_dropWhile (p := Unicode.isNumberSpace) (l := l)] at hl
    refine (List.mem_append.mp hl).resolve_left fun hw => ?_
    rw [List.all_eq_true.mp List.all_takeWhile c hw] at hs
    cases hs
  exact List.mem_reverse.mpr (hkeep _ (List.mem_reverse.mpr (hkeep _ h)))

/-- What is neither white space nor a sign, a digit or an underscore stands in no number. -/
theorem not_mem_of_integer? {c : Char} {n : Int} (hs : Unicode.isNumberSpace c = false)
    (hd : Unicode.digitValue? c = none) (hsigns : c ∉ ['-', '+', '_']) (h : integer? text = some n) :
    c ∉ text := by
  simp only [List.mem_cons, List.not_mem_nil, or_false, not_or] at hsigns
  obtain ⟨hminus, hplus, hunder⟩ := hsigns
  intro hm
  have hmem := mem_trimmed hs hm
  unfold integer? at h
  split at h
  rename_i negative digits hsigned
  split at h
  · rename_i value count hrun
    have hdigits : c ∉ digits := not_mem_of_digitRun? hd hunder hrun
    have hcut : trimmed text = digits ∨ trimmed text = '-' :: digits ∨ trimmed text = '+' :: digits := by
      unfold signed at hsigned
      split at hsigned <;> simp_all
    rcases hcut with he | he | he
    · exact hdigits (he ▸ hmem)
    · exact hdigits ((List.mem_cons.mp (he ▸ hmem)).resolve_left hminus)
    · exact hdigits ((List.mem_cons.mp (he ▸ hmem)).resolve_left hplus)
  · cases h

/-! Digits. -/

theorem trimmed_of_digits (h : ∀ c ∈ text, Unicode.isDigit c = true) : trimmed text = text := by
  have hkeep : ∀ l : List Char, (∀ c ∈ l, Unicode.isDigit c = true) →
      l.dropWhile Unicode.isNumberSpace = l := by
    intro l hl
    cases l with
    | nil => rfl
    | cons c rest =>
      simp [Unicode.isNumberSpace_of_isDigit (hl c List.mem_cons_self)]
  unfold trimmed
  rw [hkeep text h, hkeep text.reverse (by simpa using h), List.reverse_reverse]

theorem signed_of_digits (h : ∀ c ∈ text, Unicode.isDigit c = true) : signed text = (false, text) := by
  unfold signed
  split
  · exact absurd (h _ List.mem_cons_self) (by decide)
  · exact absurd (h _ List.mem_cons_self) (by decide)
  · rfl

/-- Decimal digits add up, behind those that were read before. -/
theorem digitRun?_of_decimals (h : ∀ c ∈ text, Unicode.isDecimal c = true) (value count : Nat) :
    digitRun? value count true text = some
      (text.foldl (fun n c => 10 * n + (Unicode.digitValue? c).getD 0) value, count + text.length) := by
  induction text generalizing value count with
  | nil => rfl
  | cons c rest ih =>
    obtain ⟨hc, hrest⟩ := List.forall_mem_cons.mp h
    obtain ⟨d, hd⟩ := Option.isSome_iff_exists.mp hc
    have hline : (c == '_') = false := by
      rw [beq_eq_false_iff_ne]
      rintro rfl
      cases hc
    rw [digitRun?, hline, Bool.false_and, if_neg (by decide), hd]
    dsimp only
    rw [ih hrest, List.foldl_cons, hd, List.length_cons, Nat.add_assoc, Nat.add_comm 1]
    rfl

/-- A digit that is not decimal ends the reading. -/
theorem digitRun?_of_not_decimal (h : ∀ c ∈ text, Unicode.isDigit c = true)
    (hn : ∃ c ∈ text, Unicode.isDecimal c = false) (value count : Nat) (afterDigit : Bool) :
    digitRun? value count afterDigit text = none := by
  induction text generalizing value count afterDigit with
  | nil =>
    obtain ⟨c, hc, _⟩ := hn
    cases hc
  | cons c rest ih =>
    obtain ⟨hc, hrest⟩ := List.forall_mem_cons.mp h
    have hline : (c == '_') = false := by
      rw [beq_eq_false_iff_ne]
      rintro rfl
      exact absurd hc (by decide)
    rw [digitRun?, hline, Bool.false_and, if_neg (by decide)]
    cases hd : Unicode.digitValue? c with
    | none => rfl
    | some d =>
      have hdecimal : Unicode.isDecimal c = true := by rw [Unicode.isDecimal, hd]; rfl
      obtain ⟨other, hm, hother⟩ := hn
      rcases List.mem_cons.mp hm with rfl | hm
      · rw [hdecimal] at hother
        cases hother
      · exact ih hrest ⟨other, hm, hother⟩ _ _ _

theorem integer?_of_decimals (hn : text ≠ []) (h : ∀ c ∈ text, Unicode.isDecimal c = true) :
    integer? text = if text.length ≤ maxDigits then some (digitsValue text : Int) else none := by
  have hdigits : ∀ c ∈ text, Unicode.isDigit c = true := fun c hc =>
    Unicode.isDigit_of_isDecimal (h c hc)
  have hrun : digitRun? 0 0 false text = some (digitsValue text, text.length) := by
    obtain ⟨c, rest, rfl⟩ := List.exists_cons_of_ne_nil hn
    obtain ⟨hc, hrest⟩ := List.forall_mem_cons.mp h
    obtain ⟨d, hd⟩ := Option.isSome_iff_exists.mp hc
    rw [digitRun?, Bool.and_false, if_neg (by decide), hd]
    dsimp only
    rw [digitRun?_of_decimals hrest, digitsValue, List.foldl_cons, hd, List.length_cons,
      Nat.add_comm 1, Option.getD_some, Nat.mul_zero, Nat.zero_add]
  unfold integer?
  rw [trimmed_of_digits hdigits, signed_of_digits hdigits]
  simp only [hrun]
  rfl

theorem integer?_of_not_decimal (h : ∀ c ∈ text, Unicode.isDigit c = true)
    (hn : ∃ c ∈ text, Unicode.isDecimal c = false) : integer? text = none := by
  unfold integer?
  rw [trimmed_of_digits h, signed_of_digits h]
  simp only [digitRun?_of_not_decimal h hn]

theorem Spells.integer? (h : Spells key n) : integer? key = some (n : Int) := by
  rw [integer?_of_decimals h.nonempty h.decimal, if_pos h.short, h.value]

theorem Misread.integer? (h : Misread key) : integer? key = none := by
  by_cases hall : ∀ c ∈ key, Unicode.isDecimal c = true
  · have hlong : maxDigits < key.length := by
      rcases h.fault with ⟨c, hc, hn⟩ | hlong
      · rw [hall c hc] at hn
        cases hn
      · exact hlong
    rw [integer?_of_decimals h.nonempty hall, if_neg (by omega)]
  · refine integer?_of_not_decimal h.digits ?_
    simpa using hall

theorem Spells.unique {m : Nat} (h : Spells key n) (k : Spells key m) : n = m :=
  h.value.symm.trans k.value

/-! Positions in lists. -/

theorem isPosition_iff : Submission.isPosition key = true ↔
    key ≠ [] ∧ ∀ c ∈ key, Unicode.isDigit c = true := by
  simp [Submission.isPosition]

/-- A key of digits spells a number or is misread. -/
theorem spells_or_misread (h : Submission.isPosition key = true) :
    Spells key (digitsValue key) ∨ Misread key := by
  obtain ⟨hn, hdigits⟩ := isPosition_iff.mp h
  by_cases hf : (∃ c ∈ key, Unicode.isDecimal c = false) ∨ maxDigits < key.length
  · exact Or.inr ⟨hn, hdigits, hf⟩
  · obtain ⟨hdecimal, hshort⟩ := not_or.mp hf
    exact Or.inl ⟨hn, by simpa using hdecimal, Nat.not_lt.mp hshort, rfl⟩

theorem Spells.isPosition (h : Spells key n) : Submission.isPosition key = true :=
  isPosition_iff.mpr ⟨h.nonempty, fun c hc => Unicode.isDigit_of_isDecimal (h.decimal c hc)⟩

theorem Misread.isPosition (h : Misread key) : Submission.isPosition key = true :=
  isPosition_iff.mpr ⟨h.nonempty, h.digits⟩

theorem Spells.not_misread (h : Spells key n) : ¬ Misread key := by
  intro hm
  have hi := h.integer?
  rw [hm.integer?] at hi
  cases hi

/-! Numerals. -/

theorem digitsValue_of_isDigit (h : ∀ c ∈ key, c.isDigit = true) :
    digitsValue key = Nat.ofDigitChars 10 key 0 := by
  suffices hfold : ∀ start, key.foldl (fun n c => 10 * n + (Unicode.digitValue? c).getD 0) start =
      Nat.ofDigitChars 10 key start from hfold 0
  induction key with
  | nil => exact fun _ => rfl
  | cons c rest ih =>
    intro start
    obtain ⟨hc, hrest⟩ := List.forall_mem_cons.mp h
    rw [List.foldl_cons, Unicode.digitValue?_of_isDigit hc, Nat.ofDigitChars_cons]
    exact ih hrest _

theorem Numeral.spells (h : Numeral key n) (hs : key.length ≤ maxDigits) : Spells key n := by
  refine ⟨h.nonempty, fun c hc => ?_, hs, (digitsValue_of_isDigit h.digits).trans h.value⟩
  rw [Unicode.isDecimal, Unicode.digitValue?_of_isDigit (h.digits c hc)]
  rfl

section
variable (ha : ∀ c ∈ key, c.toNat < 128)
include ha

theorem all_isDigit_of_ascii (h : ∀ c ∈ key, Unicode.isDigit c = true) :
    ∀ c ∈ key, c.isDigit = true := fun c hc => by
  rw [← Unicode.isDigit_of_ascii (ha c hc)]
  exact h c hc

theorem Spells.numeral (h : Spells key n) : Numeral key n := by
  have hd := all_isDigit_of_ascii ha fun c hc => Unicode.isDigit_of_isDecimal (h.decimal c hc)
  exact ⟨h.nonempty, hd, (digitsValue_of_isDigit hd).symm.trans h.value⟩

/-- In the ASCII range only a number that is too long is misread. -/
theorem not_misread_of_ascii (hs : (∀ c ∈ key, c.isDigit = true) → key.length ≤ maxDigits) :
    ¬ Misread key := by
  intro h
  have hd := all_isDigit_of_ascii ha h.digits
  have hnumeral : Numeral key (Nat.ofDigitChars 10 key 0) := ⟨h.nonempty, hd, rfl⟩
  exact (hnumeral.spells (hs hd)).not_misread h

end

end Text

end FormGuard
