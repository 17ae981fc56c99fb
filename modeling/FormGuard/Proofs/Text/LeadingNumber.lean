import FormGuard.Proofs.Regex.Word
import FormGuard.Proofs.Text.Position

/-! The number that a text begins with: it is the longest of the numbers that the text begins with, and
its parts can be told from its text alone. -/
namespace FormGuard

open scoped Computability

namespace Text
open Regex

section
variable {L M : Language Char} {test : Char → Bool} {text word other u v : List Char}
  {found : Option (List Char)}

/-- The longest of the words of a language that a text begins with. -/
structure Longest (L : Language Char) (text word : List Char) : Prop where
  mem : word ∈ L
  begins : word <+: text
  longest : ∀ other ∈ L, other <+: text → other.length ≤ word.length

/-- What there is to be found of a language at the beginning of a text: the longest word, or none. -/
def Yields (L : Language Char) (text : List Char) : Option (List Char) → Prop
  | some word => Longest L text word
  | none => ∀ word ∈ L, ¬ word <+: text

/-- No character of a word of one language begins a word of another. -/
def Apart (L M : Language Char) : Prop := ∀ u ∈ L, ∀ c ∈ u, ∀ v, c :: v ∉ M

theorem Longest.drop (h : Longest L text word) : word ++ text.drop word.length = text :=
  List.prefix_iff_eq_append.mp h.begins

theorem Longest.extends (h : Longest L text word) (ho : other ∈ L) (hp : other <+: text) :
    other <+: word :=
  List.prefix_of_prefix_length_le hp h.begins (h.longest other ho hp)

/-- Where something follows a word that cannot go on with it, the word is the longest one. -/
theorem Longest.exact (h : Longest L text word) (ha : Apart L M) (hu : u ∈ L) (hv : v ∈ M)
    (hp : u ++ v <+: text) : u = word ∧ v <+: text.drop word.length ∨ v = [] ∧ u <+: word := by
  obtain ⟨more, hmore⟩ := h.extends hu ((List.prefix_append u v).trans hp)
  rw [← h.drop, ← hmore, List.append_assoc, List.prefix_append_right_inj] at hp
  cases more with
  | nil =>
    rw [List.append_nil] at hmore
    exact Or.inl ⟨hmore, by simpa [hmore] using hp⟩
  | cons c more =>
    cases v with
    | nil => exact Or.inr ⟨rfl, ⟨c :: more, hmore⟩⟩
    | cons d v =>
      obtain ⟨rfl, -⟩ := List.cons_prefix_cons.mp hp
      exact absurd hv (ha word h.mem d (by simp [← hmore]) v)

/-- Words that lie apart are told from their append. -/
theorem Apart.append_inj {x y : List Char} (ha : Apart L M) (hu : u ∈ L) (hx : x ∈ L) (hv : v ∈ M)
    (hy : y ∈ M) (h : u ++ v = x ++ y) : u = x ∧ v = y := by
  obtain ⟨more, rfl, rfl⟩ | ⟨more, rfl, rfl⟩ := List.append_eq_append_iff.mp h
  · cases more with
    | nil => exact ⟨(List.append_nil u).symm, rfl⟩
    | cons c more => exact absurd hv (ha _ hx c (by simp) _)
  · cases more with
    | nil => exact ⟨List.append_nil x, rfl⟩
    | cons c more => exact absurd hy (ha _ hu c (by simp) _)

theorem yields_mul (h : Longest L text word) (ha : Apart L M)
    (hf : Yields M (text.drop word.length) found) :
    Yields (L * M) text (found.map (word ++ ·)) := by
  -- A shorter first word is of use only where nothing has to follow it.
  have hsplit : ∀ w ∈ L * M, w <+: text →
      (∃ v ∈ M, w = word ++ v ∧ v <+: text.drop word.length) ∨ [] ∈ M ∧ w <+: word := by
    intro w hw hp
    obtain ⟨u, hu, v, hv, rfl⟩ := Language.mem_mul.mp hw
    obtain ⟨rfl, hp⟩ | ⟨rfl, hp⟩ := h.exact ha hu hv hp
    · exact Or.inl ⟨v, hv, rfl, hp⟩
    · exact Or.inr ⟨hv, by rwa [List.append_nil]⟩
  cases found with
  | none =>
    intro w hw hp
    obtain ⟨v, hv, -, hp⟩ | ⟨hnil, -⟩ := hsplit w hw hp
    · exact hf v hv hp
    · exact hf [] hnil List.nil_prefix
  | some next =>
    refine ⟨Language.append_mem_mul h.mem hf.mem, ?_, fun w hw hp => ?_⟩
    · rw [← h.drop, List.prefix_append_right_inj]
      simpa using hf.begins
    · rw [List.length_append]
      obtain ⟨v, hv, rfl, hnext⟩ | ⟨-, hshort⟩ := hsplit w hw hp
      · rw [List.length_append]
        exact Nat.add_le_add_left (hf.longest v hv hnext) _
      · exact hshort.length_le.trans (Nat.le_add_right _ _)

theorem Longest.mul {next : List Char} (h : Longest L text word) (ha : Apart L M)
    (hn : Longest M (text.drop word.length) next) : Longest (L * M) text (word ++ next) := by
  have hf : Yields M (text.drop word.length) (some next) := hn
  exact yields_mul h ha hf

theorem yields_mul_of_none (h : Yields L text none) : Yields (L * M) text none := by
  intro w hw hp
  obtain ⟨u, hu, v, -, rfl⟩ := Language.mem_mul.mp hw
  exact h u hu ((List.prefix_append u v).trans hp)

theorem longest_optional (h : Yields L text found) : Longest (1 + L) text (found.getD []) := by
  cases found with
  | none =>
    refine ⟨Or.inl rfl, List.nil_prefix, ?_⟩
    rintro w (rfl | hw) hp
    · exact Nat.le_refl _
    · exact absurd hp (h w hw)
  | some word =>
    refine ⟨Or.inr h.mem, h.begins, ?_⟩
    rintro w (rfl | hw) hp
    · exact Nat.zero_le _
    · exact h.longest w hw hp

theorem yields_add_of_none (h : Yields L text none) (hf : Yields M text found) :
    Yields (L + M) text found := by
  cases found with
  | none =>
    rintro w (hw | hw)
    · exact h w hw
    · exact hf w hw
  | some word =>
    refine ⟨Or.inr hf.mem, hf.begins, ?_⟩
    rintro w (hw | hw) hp
    · exact absurd hp (h w hw)
    · exact hf.longest w hw hp

theorem yields_add_of_none_right (h : Yields L text found) (hf : Yields M text none) :
    Yields (L + M) text found := by
  rw [add_comm]
  exact yields_add_of_none hf h

theorem yields_letter {c : Char} (h : test c = true) :
    Yields (letters test) (c :: text) (some [c]) := by
  refine ⟨⟨c, rfl, h⟩, ⟨text, rfl⟩, ?_⟩
  rintro _ ⟨d, rfl, -⟩ -
  exact Nat.le_refl 1

theorem yields_letters_of_stops (h : ∀ c rest, text = c :: rest → test c = false) :
    Yields (letters test) text none := by
  rintro _ ⟨c, rfl, hc⟩ ⟨rest, rfl⟩
  rw [h c rest rfl] at hc
  cases hc

theorem longest_star (test : Char → Bool) (text : List Char) :
    Longest (letters test)∗ text (text.takeWhile test) := by
  refine ⟨mem_letters_kstar.mpr fun c hc => ?_, List.takeWhile_prefix test, ?_⟩
  · exact List.all_eq_true.mp List.all_takeWhile c hc
  · rintro w hw ⟨rest, rfl⟩
    rw [List.takeWhile_append_of_pos (mem_letters_kstar.mp hw), List.length_append]
    exact Nat.le_add_right _ _

/-- Several letters, or none where there is not one. -/
theorem yields_plus (test : Char → Bool) (text : List Char) :
    Yields (letters test * (letters test)∗) text
      (if (text.takeWhile test).isEmpty then none else some (text.takeWhile test)) := by
  have hstar := longest_star test text
  split
  · rename_i hempty
    intro w hw hp
    obtain ⟨hne, hall⟩ := mem_letters_plus.mp hw
    have hnil := hstar.extends (mem_letters_kstar.mpr hall) hp
    rw [List.isEmpty_iff.mp hempty] at hnil
    exact hne (List.prefix_nil.mp hnil)
  · rename_i hempty
    refine ⟨mem_letters_plus.mpr ⟨?_, mem_letters_kstar.mp hstar.mem⟩, hstar.begins, ?_⟩
    · rwa [List.isEmpty_iff] at hempty
    · intro w hw hp
      exact hstar.longest w (mem_letters_kstar.mpr (mem_letters_plus.mp hw).2) hp

end

/-! Numbers. -/

/-- A digit or a point. -/
def isNumeric (c : Char) : Bool := Unicode.isDecimal c || c == '.'

/-- The letter in front of an exponent. -/
def isPower (c : Char) : Bool := c == 'e' || c == 'E'

def blanks : Language Char := (letters Unicode.isSpace)∗

def signs : Language Char := 1 + letters isSign

def digits : Language Char := letters Unicode.isDecimal * (letters Unicode.isDecimal)∗

def point : Language Char := letters (· == '.')

/-- Digits, behind which a point may stand and digits again or none; or a point and digits. -/
def magnitudes : Language Char :=
  digits * (1 + point * (letters Unicode.isDecimal)∗) + point * digits

def exponents : Language Char := letters isPower * (signs * digits)

def numbers : Language Char := blanks * (signs * (magnitudes * (1 + exponents)))

variable {text : List Char}

theorem longest_sign (text : List Char) : Longest signs text (signPart text) := by
  unfold signPart
  split
  · rename_i c rest
    split
    · rename_i hc
      exact longest_optional (yields_letter hc)
    · rename_i hc
      have hnone : Yields (letters isSign) (c :: rest) none :=
        yields_letters_of_stops fun d more he => by
          cases he
          simpa using hc
      exact longest_optional hnone
  · have hnone : Yields (letters isSign) [] none := yields_letters_of_stops (by simp)
    exact longest_optional hnone

theorem yields_digits (text : List Char) : Yields digits text
    (if (digitPart text).isEmpty then none else some (digitPart text)) :=
  yields_plus Unicode.isDecimal text

/-! Which characters stand where. -/

/-- Every word is made of characters that pass a test. -/
def Made (test : Char → Bool) (L : Language Char) : Prop := ∀ w ∈ L, ∀ c ∈ w, test c = true

/-- Every word begins, if it is not empty, with a character that passes a test. -/
def Headed (test : Char → Bool) (L : Language Char) : Prop := ∀ c v, c :: v ∈ L → test c = true

section
variable {L M : Language Char} {p q : Char → Bool}

theorem Made.apart (h : Made p L) (hm : Headed q M) (hpq : ∀ c, p c = true → q c = false) :
    Apart L M := by
  intro u hu c hc v hv
  have hq := hpq c (h u hu c hc)
  rw [hm c v hv] at hq
  cases hq

theorem made_letters (p : Char → Bool) : Made p (letters p) := by
  rintro _ ⟨c, rfl, hc⟩ d hd
  rwa [List.mem_singleton.mp hd]

theorem made_star (p : Char → Bool) : Made p (letters p)∗ := fun _ hw => mem_letters_kstar.mp hw

theorem made_plus (p : Char → Bool) : Made p (letters p * (letters p)∗) :=
  fun _ hw => (mem_letters_plus.mp hw).2

theorem Made.imp (h : Made p L) (hi : ∀ c, p c = true → q c = true) : Made q L :=
  fun w hw c hc => hi c (h w hw c hc)

theorem Made.mul (h : Made p L) (hm : Made p M) : Made p (L * M) := by
  intro w hw c hc
  obtain ⟨u, hu, v, hv, rfl⟩ := Language.mem_mul.mp hw
  rcases List.mem_append.mp hc with hc | hc
  · exact h u hu c hc
  · exact hm v hv c hc

theorem Made.add (h : Made p L) (hm : Made p M) : Made p (L + M) := by
  rintro w (hw | hw)
  · exact h w hw
  · exact hm w hw

theorem made_one (p : Char → Bool) : Made p 1 := by
  rintro _ rfl c hc
  cases hc

theorem headed_of_made (h : Made p L) : Headed p L := fun c _ hv => h _ hv c List.mem_cons_self

theorem headed_letters_mul (p : Char → Bool) (L : Language Char) : Headed p (letters p * L) := by
  intro c v hv
  obtain ⟨d, u, he, hd, -⟩ := mem_letters_mul.mp hv
  cases he
  exact hd

theorem Headed.imp (h : Headed p L) (hi : ∀ c, p c = true → q c = true) : Headed q L :=
  fun c v hv => hi c (h c v hv)

theorem Headed.add (h : Headed p L) (hm : Headed p M) : Headed p (L + M) := by
  rintro c v (hv | hv)
  · exact h c v hv
  · exact hm c v hv

theorem Headed.optional (h : Headed p L) : Headed p (1 + L) := (headed_of_made (made_one p)).add h

end

variable {c : Char}

/-- The signs, the point and the letters of an exponent. -/
def marks : List Char := ['+', '-', '.', 'e', 'E']

/-- No mark is a digit or white space. -/
theorem all_marks_plain :
    (marks.all fun c => !Unicode.isDecimal c && !Unicode.isSpace c) = true := by
  decide +kernel

theorem not_isDecimal_of_mem_marks (h : c ∈ marks) : Unicode.isDecimal c = false := by
  simpa using (Bool.and_eq_true_iff.mp (List.all_eq_true.mp all_marks_plain c h)).1

theorem not_isSpace_of_mem_marks (h : c ∈ marks) : Unicode.isSpace c = false := by
  simpa using (Bool.and_eq_true_iff.mp (List.all_eq_true.mp all_marks_plain c h)).2

theorem not_isSpace_of_isDecimal (h : Unicode.isDecimal c = true) : Unicode.isSpace c = false :=
  Unicode.isSpace_of_isDigit (Unicode.isDigit_of_isDecimal h)

theorem not_mem_marks_of_isDecimal (h : Unicode.isDecimal c = true) : c ∉ marks := fun hc =>
  Bool.false_ne_true ((not_isDecimal_of_mem_marks hc).symm.trans h)

theorem not_mem_marks_of_isSpace (h : Unicode.isSpace c = true) : c ∉ marks := fun hc =>
  Bool.false_ne_true ((not_isSpace_of_mem_marks hc).symm.trans h)

theorem not_sign_or_numeric_of_isSpace (h : Unicode.isSpace c = true) :
    (isSign c || isNumeric c) = false := by
  have hmark := not_mem_marks_of_isSpace h
  have hdigit := @not_isSpace_of_isDecimal c
  grind [isSign, isNumeric, marks]

theorem not_isNumeric_of_isSign (h : isSign c = true) : isNumeric c = false := by
  have hdigit := @not_mem_marks_of_isDecimal c
  grind [isSign, isNumeric, marks]

theorem not_isDecimal_of_isSign (h : isSign c = true) : Unicode.isDecimal c = false :=
  (Bool.or_eq_false_iff.mp (not_isNumeric_of_isSign h)).1

theorem not_isPower_of_isNumeric (h : isNumeric c = true) : isPower c = false := by
  have hdigit := @not_mem_marks_of_isDecimal c
  grind [isPower, isNumeric, marks]

theorem not_sign_or_decimal_of_isPower (h : isPower c = true) :
    (isSign c || Unicode.isDecimal c) = false := by
  have hdigit := @not_mem_marks_of_isDecimal c
  grind [isPower, isSign, marks]

theorem ne_point_of_isDecimal (h : Unicode.isDecimal c = true) : (c == '.') = false := by
  have hdigit := not_mem_marks_of_isDecimal h
  grind [marks]

theorem not_isDecimal_of_point (h : (c == '.') = true) : Unicode.isDecimal c = false := by
  rw [eq_of_beq h]
  exact not_isDecimal_of_mem_marks (by simp [marks])

theorem made_signs : Made isSign signs := (made_one _).add (made_letters isSign)

theorem headed_signs_mul {L : Language Char} {p : Char → Bool} (h : Headed p L) :
    Headed (fun c => isSign c || p c) (signs * L) := by
  rw [signs, add_mul, one_mul]
  exact (h.imp fun c hc => by simp [hc]).add
    ((headed_letters_mul isSign L).imp fun c hc => by simp [hc])

/-! The parts of a number, one after the other. -/

theorem yields_point_of_ne (h : ∀ rest, text ≠ '.' :: rest) : Yields point text none := by
  refine yields_letters_of_stops fun c rest he => ?_
  rw [beq_eq_false_iff_ne]
  rintro rfl
  exact h rest he

theorem longest_fraction (text : List Char) :
    Longest (1 + point * (letters Unicode.isDecimal)∗) text (fractionPart false text) := by
  unfold fractionPart
  split
  · rename_i rest
    have hpoint : Longest point ('.' :: rest) ['.'] := yields_letter rfl
    have hapart : Apart point (letters Unicode.isDecimal)∗ :=
      (made_letters _).apart (headed_of_made (made_star _)) fun _ => not_isDecimal_of_point
    have hall : Yields (point * _) ('.' :: rest) (some ('.' :: digitPart rest)) :=
      hpoint.mul hapart (longest_star Unicode.isDecimal rest)
    exact longest_optional hall
  · rename_i hno
    exact longest_optional (yields_mul_of_none (yields_point_of_ne hno))

theorem yields_fraction (text : List Char) : Yields (point * digits) text
    (if (fractionPart true text).isEmpty then none else some (fractionPart true text)) := by
  unfold fractionPart
  split
  · rename_i rest
    have hpoint : Longest point ('.' :: rest) ['.'] := yields_letter rfl
    have hapart : Apart point digits :=
      (made_letters _).apart (headed_letters_mul _ _) fun _ => not_isDecimal_of_point
    have hall := yields_mul hpoint hapart (yields_digits rest)
    by_cases hempty : (digitPart rest).isEmpty = true
    · simpa [hempty] using hall
    · simpa [hempty] using hall
  · rename_i hno
    exact yields_mul_of_none (yields_point_of_ne hno)

/-- Digits or a fraction, or both. -/
theorem yields_magnitude (text : List Char) : Yields magnitudes text
    (let whole := digitPart text
    let fraction := fractionPart whole.isEmpty (text.drop whole.length)
    if whole.isEmpty && fraction.isEmpty then none else some (whole ++ fraction)) := by
  have hdigits := yields_digits text
  dsimp only
  -- Only one of the two forms is possible: the second one begins with a point.
  by_cases hempty : digitPart text = []
  · rw [hempty] at hdigits ⊢
    exact yields_add_of_none (yields_mul_of_none hdigits) (yields_fraction text)
  · rw [List.isEmpty_eq_false_iff.mpr hempty] at hdigits ⊢
    have hapart : Apart digits (1 + point * (letters Unicode.isDecimal)∗) :=
      (made_plus _).apart (Headed.optional (headed_letters_mul _ _)) fun _ => ne_point_of_isDecimal
    have hpoint : Yields point text none := by
      refine yields_point_of_ne ?_
      rintro rest rfl
      exact hempty rfl
    have hfirst : Yields _ text (some _) := Longest.mul hdigits hapart (longest_fraction _)
    exact yields_add_of_none_right hfirst (yields_mul_of_none hpoint)

theorem longest_exponent (text : List Char) : Longest (1 + exponents) text (exponentPart text) := by
  have hsigns : Apart signs digits :=
    made_signs.apart (headed_letters_mul _ _) fun _ => not_isDecimal_of_isSign
  have hletter : Apart (letters isPower) (signs * digits) :=
    (made_letters _).apart (headed_signs_mul (headed_letters_mul _ _)) fun _ =>
      not_sign_or_decimal_of_isPower
  have hnone : ∀ {text}, (∀ c rest, text = c :: rest → isPower c = false) →
      Longest (1 + exponents) text [] := fun hno =>
    longest_optional (yields_mul_of_none (yields_letters_of_stops hno))
  unfold exponentPart
  split
  · rename_i c rest
    split
    · rename_i hc
      have hone : Longest (letters isPower) (c :: rest) [c] := yields_letter hc
      have hall : Longest (1 + exponents) (c :: rest) _ := longest_optional
        (yields_mul hone hletter (yields_mul (longest_sign rest) hsigns (yields_digits _)))
      by_cases hempty : (digitPart (rest.drop (signPart rest).length)).isEmpty = true
      · simpa [hempty] using hall
      · simpa [hempty] using hall
    · rename_i hc
      refine hnone fun d more he => ?_
      cases he
      exact Bool.eq_false_iff.mpr hc
  · exact hnone (by simp)

theorem made_magnitudes : Made isNumeric magnitudes := by
  have hdigit : ∀ c, Unicode.isDecimal c = true → isNumeric c = true := by simp +contextual [isNumeric]
  have hpoint : Made isNumeric point := (made_letters _).imp (by simp +contextual [isNumeric])
  have hdigits : Made isNumeric digits := (made_plus _).imp hdigit
  have hstar : Made isNumeric (letters Unicode.isDecimal)∗ := (made_star _).imp hdigit
  exact (hdigits.mul ((made_one _).add (hpoint.mul hstar))).add (hpoint.mul hdigits)

theorem headed_magnitudes_mul (L : Language Char) : Headed isNumeric (magnitudes * L) := by
  simp only [magnitudes, digits, point, add_mul, mul_assoc]
  exact ((headed_letters_mul _ _).imp (by simp +contextual [isNumeric])).add
    ((headed_letters_mul _ _).imp (by simp +contextual [isNumeric]))

theorem apart_blanks : Apart blanks (signs * (magnitudes * (1 + exponents))) :=
  (made_star _).apart (headed_signs_mul (headed_magnitudes_mul _)) fun _ =>
    not_sign_or_numeric_of_isSpace

theorem apart_signs : Apart signs (magnitudes * (1 + exponents)) :=
  made_signs.apart (headed_magnitudes_mul _) fun _ => not_isNumeric_of_isSign

theorem apart_magnitudes : Apart magnitudes (1 + exponents) :=
  made_magnitudes.apart (Headed.optional (headed_letters_mul _ _)) fun _ => not_isPower_of_isNumeric

theorem yields_number (text : List Char) :
    Yields numbers text ((leadingNumber? text).map LeadingNumber.text) := by
  have hfront := longest_star Unicode.isSpace text
  unfold leadingNumber?
  dsimp only
  -- Of each part only that it is the longest one is needed from here on.
  generalize text.takeWhile Unicode.isSpace = front at hfront ⊢
  have hsign := longest_sign (text.drop front.length)
  generalize signPart _ = sign at hsign ⊢
  have hmagnitude := yields_magnitude ((text.drop front.length).drop sign.length)
  dsimp only at hmagnitude
  generalize digitPart _ = whole at hmagnitude ⊢
  generalize fractionPart whole.isEmpty _ = fraction at hmagnitude ⊢
  split
  · rename_i hempty
    rw [if_pos hempty] at hmagnitude
    exact yields_mul hfront apart_blanks
      (yields_mul hsign apart_signs (yields_mul_of_none hmagnitude))
  · rename_i hempty
    rw [if_neg hempty] at hmagnitude
    have hall : Longest numbers text _ := hfront.mul apart_blanks
      (hsign.mul apart_signs (Longest.mul hmagnitude apart_magnitudes (longest_exponent _)))
    change Longest numbers text (front ++ sign ++ whole ++ fraction ++ _)
    rw [List.length_append, ← List.drop_drop] at hall
    simpa only [List.append_assoc] using hall

/-! What the parts of a number are made of. -/

namespace LeadingNumber

/-- The parts of a number: white space, a sign or none, digits and a fraction, one of them there, and an
exponent or none. -/
structure Formed (n : LeadingNumber) : Prop where
  blanks : n.blanks ∈ Text.blanks
  sign : n.sign ∈ signs
  whole : n.whole ∈ (letters Unicode.isDecimal)∗
  fraction : n.fraction ∈ 1 + point * (letters Unicode.isDecimal)∗
  magnitude : n.whole ++ n.fraction ∈ magnitudes
  exponent : n.exponent ∈ 1 + exponents

variable {m n : LeadingNumber}

theorem text_eq (n : LeadingNumber) :
    n.text = n.blanks ++ (n.sign ++ ((n.whole ++ n.fraction) ++ n.exponent)) := by
  simp only [text, List.append_assoc]

theorem Formed.rest_mem (h : n.Formed) :
    n.sign ++ ((n.whole ++ n.fraction) ++ n.exponent) ∈ signs * (magnitudes * (1 + exponents)) :=
  Language.append_mem_mul h.sign (Language.append_mem_mul h.magnitude h.exponent)

/-- The text of a number tells its parts. -/
theorem Formed.unique (h : n.Formed) (k : m.Formed) (he : m.text = n.text) : m = n := by
  have hpoint : Apart (letters Unicode.isDecimal)∗ (1 + point * (letters Unicode.isDecimal)∗) :=
    (made_star _).apart (Headed.optional (headed_letters_mul _ _)) fun _ => ne_point_of_isDecimal
  rw [text_eq, text_eq] at he
  obtain ⟨hblanks, he⟩ := apart_blanks.append_inj k.blanks h.blanks k.rest_mem h.rest_mem he
  obtain ⟨hsign, he⟩ := apart_signs.append_inj k.sign h.sign
    (Language.append_mem_mul k.magnitude k.exponent)
    (Language.append_mem_mul h.magnitude h.exponent) he
  obtain ⟨he, hexponent⟩ :=
    apart_magnitudes.append_inj k.magnitude h.magnitude k.exponent h.exponent he
  obtain ⟨hwhole, hfraction⟩ := hpoint.append_inj k.whole h.whole k.fraction h.fraction he
  cases m
  cases n
  simp_all

end LeadingNumber

theorem fractionPart_mem (needed : Bool) (text : List Char) :
    fractionPart needed text ∈ 1 + point * (letters Unicode.isDecimal)∗ := by
  unfold fractionPart
  split
  · rename_i rest
    dsimp only
    split
    · exact Or.inl rfl
    · exact Or.inr (mem_letters_mul.mpr ⟨'.', _, rfl, rfl, (longest_star _ rest).mem⟩)
  · exact Or.inl rfl

theorem formed_of_leadingNumber? {n : LeadingNumber} (h : leadingNumber? text = some n) :
    n.Formed := by
  unfold leadingNumber? at h
  dsimp only at h
  split at h
  · cases h
  · rename_i hempty
    cases h
    have hmagnitude := yields_magnitude
      ((text.drop (text.takeWhile Unicode.isSpace).length).drop
        (signPart (text.drop (text.takeWhile Unicode.isSpace).length)).length)
    dsimp only at hmagnitude
    rw [if_neg hempty] at hmagnitude
    exact ⟨(longest_star _ _).mem, (longest_sign _).mem, (longest_star _ _).mem,
      fractionPart_mem _ _, hmagnitude.mem, (longest_exponent _).mem⟩

/-- A number that is read from a text is read from its own text alone. -/
theorem leadingNumber?_text {n : LeadingNumber} (h : leadingNumber? text = some n) :
    leadingNumber? n.text = some n := by
  have hformed := formed_of_leadingNumber? h
  have hlongest := yields_number text
  have hagain := yields_number n.text
  rw [h] at hlongest
  cases hm : leadingNumber? n.text with
  | none =>
    rw [hm] at hagain
    exact absurd (List.prefix_refl _) (hagain n.text hlongest.mem)
  | some m =>
    rw [hm] at hagain
    have hlength : n.text.length ≤ m.text.length := hagain.longest _ hlongest.mem (List.prefix_refl _)
    have htext : m.text = n.text := hagain.begins.eq_of_length_le hlength
    rw [hformed.unique (formed_of_leadingNumber? hm) htext]

/-- The number of a text is the number of the longest of the numbers that it begins with, and zero if it
begins with none. -/
theorem toNumber_longest (s : String) :
    (∃ n : LeadingNumber, leadingNumber? s.toList = some n ∧ n.Formed ∧
        Longest numbers s.toList n.text ∧
        (Value.text s).toNumber = (Value.text (String.ofList n.text)).toNumber ∧
        (Value.text s).toNumber = n.value?.elim (Value.misuse .value) .ok) ∨
      leadingNumber? s.toList = none ∧ (∀ t ∈ numbers, ¬ t <+: s.toList) ∧
        (Value.text s).toNumber = .ok (.finite false 0) := by
  have hfound := yields_number s.toList
  cases h : leadingNumber? s.toList with
  | none =>
    rw [h] at hfound
    refine Or.inr ⟨rfl, hfound, ?_⟩
    rw [Value.toNumber_text, h]
    rfl
  | some n =>
    rw [h] at hfound
    refine Or.inl ⟨n, rfl, formed_of_leadingNumber? h, hfound, ?_, ?_⟩
    · rw [Value.toNumber_text, Value.toNumber_text, String.toList_ofList, h, leadingNumber?_text h]
    · rw [Value.toNumber_text, h]
      rfl

/-- A half-finished exponent is left out, and a point on its own is no number. -/
example : (leadingNumber? " -1.5e+kg".toList).map LeadingNumber.text = some " -1.5".toList ∧
    leadingNumber? ".e1".toList = none := by
  decide +kernel

end Text

end FormGuard
