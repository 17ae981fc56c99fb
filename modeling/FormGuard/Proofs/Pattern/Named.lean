import FormGuard.Pattern.Named
import FormGuard.Proofs.Regex.Word
import FormGuard.Proofs.Registry.Lookup

/-! Named patterns: the expressions they are read as, and the texts that pass under their names. -/
namespace FormGuard

open scoped Computability

namespace Pattern
open Regex Regex.Expr

/-- The switches in force for a pattern without flag letters. -/
def plainSwitches : Flags := { Flags.none with ascii := true }

/-- A source that is made a list before it is read: evaluating a long text itself is slow. -/
theorem compile_of_toList {p : Pattern} {chars : List Char} (h : p.source.toList = chars) :
    p.compile = Regex.parse (Pattern.switches p.flags.toList) chars := by
  rw [compile, h]

theorem search_of_compile {p : Pattern} {e : Expr} (h : p.compile = .ok ⟨e, plainSwitches⟩)
    (s : String) : p.search s = .ok (e.search s.toList) := by
  rw [search, h]
  rfl

theorem find?_initial :
    ∀ entry ∈ named, Patterns.initial.find? (.text entry.1) = some entry.2 := by
  decide +kernel

/-- A text under the name of a pattern that comes with the library, whatever the format. -/
theorem accepts_of_compile {p : Pattern} {e : Expr} {name : String} (hname : (name, p) ∈ named)
    (h : p.compile = .ok ⟨e, plainSwitches⟩) (host : Host) (format : Value) (s : String) :
    (Rule.regex Patterns.initial).accepts host (.text name) format (.text s) =
      .ok (e.search s.toList) := by
  rw [Rule.accepts_of_pattern host (Value.isKey_text name) (find?_initial _ hname),
    Rule.search_text, search_of_compile h]
  rfl

/-! Letters and digits. -/

theorem holds_alpha {c : Char} :
    ((ClassItem.range 97 122).holds .exact c || (ClassItem.range 65 90).holds .exact c) = c.isAlpha := by
  change _ = (decide ('A'.val ≤ c.val ∧ c.val ≤ 'Z'.val) ||
    (decide ('a'.val ≤ c.val) && decide (c.val ≤ 'z'.val)))
  simp [holds_range, UInt32.le_iff_toNat_le, Bool.or_comm]

theorem spells_alpha : (oneOf [.range 97 122, .range 65 90]).Spells (letters Char.isAlpha) :=
  spells_oneOf fun c => by
    rw [List.any_cons, List.any_cons, List.any_nil, Bool.or_false, holds_alpha]

theorem spells_alphanum :
    (oneOf [.range 97 122, .range 65 90, .range 48 57]).Spells (letters Char.isAlphanum) :=
  spells_oneOf fun c => by
    rw [List.any_cons, List.any_cons, List.any_cons, List.any_nil, Bool.or_false, ← Bool.or_assoc,
      holds_alpha, holds_range]
    rfl

/-- Between anchors a class that is repeated stands for all texts of its letters that are not empty,
with or without a line feed at the end. -/
theorem anchored_search_iff {test : Char → Bool} {items : List ClassItem} {text : List Char}
    (h : (oneOf items).Spells (letters test)) :
    (seq (seq (place .textStart) (oneOf items).plus) (place .lastLineEnd)).search text = true ↔
      ∃ t, UpToLineFeed t text ∧ t ≠ [] ∧ ∀ c ∈ t, test c = true := by
  rw [(opens_textStart.seq h.plus).frames.search_iff rfl, one_mul]
  refine exists_congr fun t => ?_
  rw [mem_letters_plus, and_comm]

theorem compile_lettersOnly : lettersOnly.compile = .ok
    ⟨.seq (.seq (.place .textStart) (oneOf [.range 97 122, .range 65 90]).plus)
      (.place .lastLineEnd), plainSwitches⟩ := by
  refine (compile_of_toList (p := lettersOnly) String.toList_ofList).trans ?_
  decide +kernel

theorem compile_alphanumeric : alphanumeric.compile = .ok
    ⟨.seq (.seq (.place .textStart) (oneOf [.range 97 122, .range 65 90, .range 48 57]).plus)
      (.place .lastLineEnd), plainSwitches⟩ := by
  refine (compile_of_toList (p := alphanumeric) String.toList_ofList).trans ?_
  decide +kernel

/-! Numbers. -/

/-- With a minus in front or none. -/
def Signed (P : List Char → Prop) (t : List Char) : Prop := ∃ u, P u ∧ (t = u ∨ t = '-' :: u)

/-- Digits, which a point may follow and digits again or none; or a point and digits behind it. -/
def IsDecimal (u : List Char) : Prop :=
  (∃ ds, ds ≠ [] ∧ (∀ c ∈ ds, c.isDigit = true) ∧
    (u = ds ∨ ∃ es, (∀ c ∈ es, c.isDigit = true) ∧ u = ds ++ '.' :: es)) ∨
  ∃ es, es ≠ [] ∧ (∀ c ∈ es, c.isDigit = true) ∧ u = '.' :: es

/-- A digit other than zero comes first. -/
def BeginsNonzero (u : List Char) : Prop := ∃ c rest, u = c :: rest ∧ '1' ≤ c ∧ c ≤ '9'

/-- A digit, by its shorthand. -/
def digit : Expr := oneOf [.category .digit .ascii false]

theorem spells_digit : digit.Spells (letters Char.isDigit) :=
  spells_oneOf fun c => by simp [ClassItem.holds, Folding.lower, Category.holds]

def sign : Expr := (char '-').optional

def signs : Language Char := 1 + {['-']}

theorem spells_sign : sign.Spells signs := (spells_char '-').optional

theorem mem_signs_mul {L : Language Char} {t : List Char} :
    t ∈ signs * L ↔ Signed (· ∈ L) t := by
  rw [signs, add_mul, one_mul, Language.mem_add, mem_char_mul]
  constructor
  · rintro (h | ⟨u, hu, rfl⟩)
    · exact ⟨t, h, Or.inl rfl⟩
    · exact ⟨u, hu, Or.inr rfl⟩
  · rintro ⟨u, hu, rfl | rfl⟩
    · exact Or.inl hu
    · exact Or.inr ⟨u, hu, rfl⟩

/-- Digits, then a point, then digits or none. -/
def pointed : Expr :=
  .seq (.seq (.seq (.seq (.seq (.seq (.place .textStart) sign) digit) digit.star) (char '.'))
    digit.star) (.place .lastLineEnd)

/-- Digits alone. -/
def whole : Expr :=
  .seq (.seq (.seq (.seq (.place .textStart) sign) digit) digit.star) (.place .lastLineEnd)

/-- A point, then digits. -/
def fraction : Expr :=
  .seq (.seq (.seq (.seq (.seq (.place .textStart) sign) (char '.')) digit) digit.star)
    (.place .lastLineEnd)

def digits : Language Char := letters Char.isDigit * (letters Char.isDigit)∗

theorem frames_pointed :
    pointed.Frames (signs * (digits * ({['.']} * (letters Char.isDigit)∗))) := by
  have h := (((((opens_textStart.seq spells_sign).seq spells_digit).seq spells_digit.star).seq
    (spells_char '.')).seq spells_digit.star).frames
  simp only [one_mul, mul_assoc] at h
  rw [digits, mul_assoc]
  exact h

theorem frames_whole : whole.Frames (signs * digits) := by
  have h := (((opens_textStart.seq spells_sign).seq spells_digit).seq spells_digit.star).frames
  simp only [one_mul, mul_assoc] at h
  rw [digits]
  exact h

theorem frames_fraction : fraction.Frames (signs * ({['.']} * digits)) := by
  have h := ((((opens_textStart.seq spells_sign).seq (spells_char '.')).seq spells_digit).seq
    spells_digit.star).frames
  simp only [one_mul, mul_assoc] at h
  rw [digits]
  exact h

theorem compile_numeric : numeric.compile = .ok
    ⟨.alt (.group 1 pointed) (.alt (.group 2 whole) (.group 3 fraction)), plainSwitches⟩ := by
  refine (compile_of_toList (p := numeric) String.toList_ofList).trans ?_
  decide +kernel

theorem isDecimal_iff {u : List Char} :
    u ∈ digits * ({['.']} * (letters Char.isDigit)∗) + (digits + {['.']} * digits) ↔
      IsDecimal u := by
  simp only [Language.mem_add, mem_char_mul, digits, mem_letters_plus]
  rw [Language.mem_mul]
  simp only [mem_letters_plus, mem_char_mul, mem_letters_kstar]
  constructor
  · rintro (⟨ds, ⟨hne, hds⟩, _, ⟨es, hes, rfl⟩, rfl⟩ | ⟨hne, hds⟩ | ⟨es, ⟨hne, hes⟩, rfl⟩)
    · exact Or.inl ⟨ds, hne, hds, Or.inr ⟨es, hes, rfl⟩⟩
    · exact Or.inl ⟨u, hne, hds, Or.inl rfl⟩
    · exact Or.inr ⟨es, hne, hes, rfl⟩
  · rintro (⟨ds, hne, hds, rfl | ⟨es, hes, rfl⟩⟩ | ⟨es, hne, hes, rfl⟩)
    · exact Or.inr (Or.inl ⟨hne, hds⟩)
    · exact Or.inl ⟨ds, ⟨hne, hds⟩, _, ⟨es, hes, rfl⟩, rfl⟩
    · exact Or.inr (Or.inr ⟨es, ⟨hne, hes⟩, rfl⟩)

theorem numeric_search_iff {text : List Char} :
    (alt (group 1 pointed) (alt (group 2 whole) (group 3 fraction))).search text = true ↔
      ∃ t, UpToLineFeed t text ∧ Signed IsDecimal t := by
  have hframes := (frames_pointed.group 1).alt ((frames_whole.group 2).alt (frames_fraction.group 3))
  rw [hframes.search_iff rfl, ← mul_add, ← mul_add]
  refine exists_congr fun t => ?_
  rw [mem_signs_mul, and_comm]
  simp only [Signed, isDecimal_iff]

theorem compile_nonzero : nonzero.compile = .ok
    ⟨.seq (.seq (.seq (.place .textStart) sign) (oneOf [.range 49 57])) (oneOf [.range 48 57]).star,
      plainSwitches⟩ := by
  refine (compile_of_toList (p := nonzero) String.toList_ofList).trans ?_
  decide +kernel

theorem nonzero_search_iff {text : List Char} :
    (seq (seq (seq (place .textStart) sign) (oneOf [.range 49 57]))
      (oneOf [.range 48 57]).star).search text = true ↔ Signed BeginsNonzero text := by
  have hfirst : (oneOf [.range 49 57]).Spells (letters fun c => '1' ≤ c && c ≤ '9') :=
    spells_oneOf fun c => by
      rw [List.any_cons, List.any_nil, Bool.or_false, holds_range]
      rfl
  have hopens := ((opens_textStart.seq spells_sign).seq hfirst).seq spells_digits.star
  rw [hopens.search_iff rfl, one_mul, mul_assoc]
  constructor
  · rintro ⟨t, ht, rest, rfl⟩
    obtain ⟨_, hu, ht⟩ := mem_signs_mul.mp ht
    obtain ⟨c, v, rfl, hc, -⟩ := mem_letters_mul.mp hu
    obtain ⟨hlow, hhigh⟩ : '1' ≤ c ∧ c ≤ '9' := by simpa using hc
    refine ⟨c :: v ++ rest, ⟨c, v ++ rest, rfl, hlow, hhigh⟩, ?_⟩
    rcases ht with rfl | rfl
    · exact Or.inl rfl
    · exact Or.inr rfl
  · rintro ⟨_, ⟨c, rest, rfl, hlow, hhigh⟩, ht⟩
    have hword : [c] ∈ (letters fun c => '1' ≤ c && c ≤ '9') * (letters Char.isDigit)∗ :=
      mem_letters_mul.mpr ⟨c, [], rfl, by simpa using ⟨hlow, hhigh⟩, Language.nil_mem_kstar _⟩
    rcases ht with rfl | rfl
    · exact ⟨[c], mem_signs_mul.mpr ⟨_, hword, Or.inl rfl⟩, rest, rfl⟩
    · exact ⟨['-', c], mem_signs_mul.mpr ⟨_, hword, Or.inr rfl⟩, rest, rfl⟩

/-- A text passes as a number exactly if it is a decimal with a sign or none, a line feed at its end
apart; and as nonzero exactly if it begins with a digit from one to nine, behind a minus or not. -/
theorem numbers_accepted_iff (host : Host) (format : Value) (s : String) :
    (∃ b, (Rule.regex Patterns.initial).accepts host (.text "numeric") format (.text s) = .ok b ∧
      (b = true ↔ ∃ t, UpToLineFeed t s.toList ∧ Signed IsDecimal t)) ∧
    ∃ b, (Rule.regex Patterns.initial).accepts host (.text "nonzero") format (.text s) = .ok b ∧
      (b = true ↔ Signed BeginsNonzero s.toList) := by
  have hnumeric : ("numeric", numeric) ∈ named := by simp [named]
  have hnonzero : ("nonzero", nonzero) ∈ named := by simp [named]
  exact ⟨⟨_, accepts_of_compile hnumeric compile_numeric host format s, numeric_search_iff⟩,
    ⟨_, accepts_of_compile hnonzero compile_nonzero host format s, nonzero_search_iff⟩⟩

end Pattern

end FormGuard
