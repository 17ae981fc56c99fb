import FormGuard.Script.Check
import FormGuard.Script.Literal
import Mathlib.Data.List.Basic

/-! The tag that closes a script element: how often a text holds it, and what escaping, filling in and
putting texts together do to that number. -/
namespace FormGuard.Script
variable {c d : Char} {a b word text : List Char}

def closer : List Char := ['<', '/', 's', 'c', 'r', 'i', 'p', 't']

/-- Whether a text begins with a word in any letter case; the word is in lower case. -/
def beginsWith : (word text : List Char) → Bool
  | [], _ => true
  | _ :: _, [] => false
  | w :: ws, c :: cs => w == c.toLower && beginsWith ws cs

/-- How often a text holds `</script`, in any letter case. -/
def closings : List Char → Nat
  | [] => 0
  | c :: rest => (if beginsWith closer (c :: rest) then 1 else 0) + closings rest

/-- A character that is no part of the tag. -/
def isNeutral (c : Char) : Bool := !closer.contains c.toLower

theorem eq_of_toLower (h : c.toLower = d) (hd : d.val < 97) : c = d := by
  unfold Char.toLower at h
  split at h
  · rename_i hupper
    subst h
    have hlow : 'A'.val ≤ c.val := hupper.1
    have hhigh : c.val ≤ 'Z'.val := hupper.2
    change c.val + ('a'.val - 'A'.val) < 97 at hd
    simp only [Char.reduceVal, UInt32.le_iff_toNat_le, UInt32.lt_iff_toNat_lt, UInt32.toNat_add,
      UInt32.toNat_sub, UInt32.reduceToNat] at hlow hhigh hd
    omega
  · exact h

theorem beginsWith_cons_of_ne {w : Char} {ws : List Char} (h : c.toLower ≠ w) :
    beginsWith (w :: ws) (c :: text) = false := by
  simp [beginsWith, Ne.symm h]

theorem closings_cons_of_ne (h : c ≠ '<') : closings (c :: text) = closings text := by
  have hno : c.toLower ≠ '<' := fun he => h (eq_of_toLower he (by decide))
  rw [closings, closer, beginsWith_cons_of_ne hno]
  simp

/-- Without a slash there is no tag. -/
theorem closings_eq_zero (h : '/' ∉ text) : closings text = 0 := by
  induction text with
  | nil => rfl
  | cons c rest ih =>
    rw [List.mem_cons, not_or] at h
    have hno : beginsWith closer (c :: rest) = false := by
      cases rest with
      | nil => simp [closer, beginsWith]
      | cons d more =>
        have hd : d.toLower ≠ '/' := fun he =>
          h.2 (eq_of_toLower he (by decide) ▸ List.mem_cons_self)
        rw [closer, beginsWith, beginsWith_cons_of_ne hd, Bool.and_false]
    rw [closings, hno, ih h.2]
    rfl

theorem isNeutral_iff : isNeutral c = true ↔ c.toLower ∉ closer := by
  simp [isNeutral]

theorem ne_of_isNeutral (h : isNeutral c = true) : c ≠ '<' := by
  rintro rfl
  cases h

/-- What a text begins with is decided before the first character that the word has not. -/
theorem beginsWith_append_cons (h : c.toLower ∉ word) (a b : List Char) :
    beginsWith word (a ++ c :: b) = beginsWith word a := by
  induction word generalizing a with
  | nil => rfl
  | cons w ws ih =>
    rw [List.mem_cons, not_or] at h
    cases a with
    | nil => exact beginsWith_cons_of_ne h.1
    | cons x xs =>
      simp only [List.cons_append, beginsWith, ih h.2 xs]

/-- A neutral character keeps what stands on its two sides apart. -/
theorem closings_append_cons (h : isNeutral c = true) (a b : List Char) :
    closings (a ++ c :: b) = closings a + closings b := by
  induction a with
  | nil =>
    rw [List.nil_append, closings_cons_of_ne (ne_of_isNeutral h), closings, Nat.zero_add]
  | cons x xs ih =>
    have hbegin := beginsWith_append_cons (isNeutral_iff.mp h) (x :: xs) b
    rw [List.cons_append] at hbegin
    rw [List.cons_append, closings, closings, hbegin, ih, Nat.add_assoc]

/-- Whether a text is empty or ends in a neutral character. -/
def isShut (text : List Char) : Bool := text.getLast?.all isNeutral

/-- Whether a text is empty or begins with a neutral character. -/
def isApart (text : List Char) : Bool := text.head?.all isNeutral

theorem closings_append_of_shut (h : isShut a = true) (b : List Char) :
    closings (a ++ b) = closings a + closings b := by
  rcases a.eq_nil_or_concat with rfl | ⟨front, c, rfl⟩
  · simp [closings]
  · have hc : isNeutral c = true := by simpa [isShut] using h
    rw [List.concat_eq_append, List.append_assoc, List.singleton_append, closings_append_cons hc,
      closings_append_cons hc, closings, Nat.add_zero]

/-- Whether a text does not hold the tag, and keeps what follows apart. -/
def isQuiet (text : List Char) : Bool := closings text == 0 && isShut text

theorem closings_append_of_quiet (h : isQuiet a = true) (b : List Char) :
    closings (a ++ b) = closings b := by
  obtain ⟨hzero, hshut⟩ := Bool.and_eq_true_iff.mp h
  rw [closings_append_of_shut hshut, eq_of_beq hzero, Nat.zero_add]

theorem closings_behind {lead : String} (h : isQuiet lead.toList = true) (s : String) :
    closings (lead ++ s).toList = closings s.toList := by
  rw [String.toList_append, closings_append_of_quiet h]

theorem closings_append_of_apart (a : List Char) (h : isApart b = true) :
    closings (a ++ b) = closings a + closings b := by
  cases b with
  | nil => simp [closings]
  | cons c rest =>
    have hc : isNeutral c = true := by simpa [isApart] using h
    rw [closings_append_cons hc, closings_cons_of_ne (ne_of_isNeutral hc)]

/-! Escaping a text neither brings the tag in nor takes it out. -/

/-- Only neutral characters are escaped, and no escape holds the beginning of the tag. -/
theorem escapeChar_cases (c : Char) : escapeChar c = [c] ∨
    isNeutral c = true ∧ ∃ x, escapeChar c = ['\\', x] ∧ x ≠ '<' := by
  unfold escapeChar
  split
  case h_7 => exact Or.inl rfl
  all_goals exact Or.inr ⟨by decide, _, rfl, by decide⟩

theorem beginsWith_of_neutral {w : Char} {ws : List Char} (hc : isNeutral c = true)
    (hw : w ∈ closer) : beginsWith (w :: ws) (c :: text) = false :=
  beginsWith_cons_of_ne fun he => isNeutral_iff.mp hc (he ▸ hw)

theorem beginsWith_escape (hw : ∀ w ∈ word, w ∈ closer) (text : List Char) :
    beginsWith word (text.flatMap escapeChar) = beginsWith word text := by
  induction text generalizing word with
  | nil => rfl
  | cons c rest ih =>
    cases word with
    | nil => simp [beginsWith]
    | cons w ws =>
      obtain ⟨hmem, htail⟩ := List.forall_mem_cons.mp hw
      rw [List.flatMap_cons]
      rcases escapeChar_cases c with hc | ⟨hneutral, x, hc, _⟩
      · rw [hc, List.singleton_append, beginsWith, beginsWith, ih htail]
      · rw [hc, List.cons_append, beginsWith_of_neutral (by decide) hmem,
          beginsWith_of_neutral hneutral hmem]

theorem closings_escape (s : String) : closings (escape s).toList = closings s.toList := by
  rw [escape, String.toList_ofList]
  induction s.toList with
  | nil => rfl
  | cons c rest ih =>
    have hbegin := beginsWith_escape (fun w (hw : w ∈ closer) => hw) (c :: rest)
    rw [List.flatMap_cons] at hbegin ⊢
    rcases escapeChar_cases c with hc | ⟨hneutral, x, hc, hx⟩
    · rw [hc, List.singleton_append] at hbegin ⊢
      rw [closings, closings, hbegin, ih]
    · rw [hc, List.cons_append, List.singleton_append, closings_cons_of_ne (by decide),
        closings_cons_of_ne hx, closings_cons_of_ne (ne_of_isNeutral hneutral), ih]

/-! Nor does putting a variable in the place of a word that is none of it. -/

section
variable {rest new : List Char}

theorem beginsWith_replaceFrom (hc : isNeutral c = true) (hn : isApart new = true)
    (hnew : new ≠ []) (hw : ∀ w ∈ word, w ∈ closer) (text : List Char) :
    beginsWith word (Text.replaceFrom c rest new 0 text) = beginsWith word text := by
  induction text generalizing word with
  | nil => rfl
  | cons d text ih =>
    cases word with
    | nil => simp [beginsWith]
    | cons w ws =>
      obtain ⟨hmem, htail⟩ := List.forall_mem_cons.mp hw
      rw [Text.replaceFrom]
      split
      · rename_i hhere
        obtain ⟨hd, _⟩ := Bool.and_eq_true_iff.mp hhere
        obtain rfl : d = c := eq_of_beq hd
        obtain ⟨e, after, rfl⟩ := List.exists_cons_of_ne_nil hnew
        have he : isNeutral e = true := by simpa [isApart] using hn
        rw [List.cons_append, beginsWith_of_neutral he hmem, beginsWith_of_neutral hc hmem]
      · simp only [beginsWith, ih htail]

theorem closings_replaceFrom (hc : isNeutral c = true) (hword : isQuiet (c :: rest) = true)
    (hn : isApart new = true) (hnew : new ≠ []) (hquiet : isQuiet new = true) (skip : Nat)
    (text : List Char) :
    closings (Text.replaceFrom c rest new skip text) = closings (text.drop skip) := by
  induction text generalizing skip with
  | nil => simp [Text.replaceFrom]
  | cons d text ih =>
    cases skip with
    | succ n => exact ih n
    | zero =>
      have hbegin : beginsWith closer (Text.replaceFrom c rest new 0 (d :: text)) =
          beginsWith closer (d :: text) := beginsWith_replaceFrom hc hn hnew (fun _ => id) (d :: text)
      rw [List.drop_zero]
      rw [Text.replaceFrom] at hbegin ⊢
      split
      · rename_i hhere
        obtain ⟨hd, hrest⟩ := Bool.and_eq_true_iff.mp hhere
        obtain rfl : d = c := eq_of_beq hd
        obtain ⟨tail, rfl⟩ := List.isPrefixOf_iff_prefix.mp hrest
        rw [closings_append_of_quiet hquiet, ih, List.drop_left, ← List.cons_append,
          closings_append_of_quiet hword]
      · rename_i hno
        rw [if_neg hno] at hbegin
        rw [closings, closings, hbegin, ih, List.drop_zero]

end

/-- Binding a test to a variable of the script leaves the number as it was. -/
theorem closings_bind (check : Check) {name : String} (hname : name = "value" ∨ name = "value[i]") :
    closings (check.bind name).toList = closings check.test.toList := by
  have hall : isApart name.toList = true ∧ name.toList ≠ [] ∧ isQuiet name.toList = true := by
    rcases hname with rfl | rfl <;> exact ⟨rfl, by simp, rfl⟩
  obtain ⟨hn, hnew, hquiet⟩ := hall
  have hword : placeholder.toList = ['\x7b', 'j', 's', 'V', 'a', 'r', '\x7d'] := rfl
  rw [Check.bind, String.toList_ofList, hword, Text.replaceAll,
    closings_replaceFrom (by decide) (by decide) hn hnew hquiet, List.drop_zero]

end FormGuard.Script
