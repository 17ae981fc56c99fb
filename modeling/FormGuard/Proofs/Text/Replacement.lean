import FormGuard.Text.Occurrence
import Mathlib.Data.List.Infix

/-! Putting a text in the place of a word: one rule where the word begins and one where it does not, and
what the word's first character decides. -/
namespace FormGuard.Text
variable {c d x : Char} {rest new text u v : List Char}

theorem replaceFrom_skip (c : Char) (rest new : List Char) (skip : Nat) (text : List Char) :
    replaceFrom c rest new skip text = replaceFrom c rest new 0 (text.drop skip) := by
  induction text generalizing skip with
  | nil => simp [replaceFrom]
  | cons d text ih =>
    cases skip with
    | zero => rfl
    | succ skip => rw [replaceFrom, ih, List.drop_succ_cons]

theorem replaceAll_word (c : Char) (rest new text : List Char) :
    replaceAll (c :: rest) new (c :: rest ++ text) = new ++ replaceAll (c :: rest) new text := by
  have hhere : (c == c && rest.isPrefixOf (rest ++ text)) = true := by simp
  rw [List.cons_append, replaceAll, replaceFrom, if_pos hhere, replaceFrom_skip, List.drop_left]
  rfl

theorem replaceAll_cons (h : ¬ c :: rest <+: d :: text) :
    replaceAll (c :: rest) new (d :: text) = d :: replaceAll (c :: rest) new text := by
  have hno : ¬ (d == c && rest.isPrefixOf text) = true := by
    rw [Bool.and_eq_true, beq_iff_eq, List.isPrefixOf_iff_prefix]
    rintro ⟨rfl, hrest⟩
    exact h (List.cons_prefix_cons.mpr ⟨rfl, hrest⟩)
  rw [replaceAll, replaceFrom, if_neg hno]
  rfl

theorem replaceAll_eq_nil_iff (h : new ≠ []) : replaceAll (c :: rest) new text = [] ↔ text = [] := by
  cases text with
  | nil => simp [replaceAll, replaceFrom]
  | cons d text =>
    refine iff_of_false (fun he => ?_) (List.cons_ne_nil d text)
    by_cases hp : c :: rest <+: d :: text
    · obtain ⟨after, hafter⟩ := hp
      rw [← hafter, replaceAll_word] at he
      exact h (List.append_eq_nil_iff.mp he).1
    · rw [replaceAll_cons hp] at he
      cases he

/-- A text without the word's first character is kept. -/
theorem replaceAll_append_of_not_mem (h : c ∉ u) (v : List Char) :
    replaceAll (c :: rest) new (u ++ v) = u ++ replaceAll (c :: rest) new v := by
  induction u with
  | nil => rfl
  | cons d u ih =>
    obtain ⟨hd, hu⟩ := List.ne_and_not_mem_of_not_mem_cons h
    rw [List.cons_append, replaceAll_cons fun hp => hd (List.cons_prefix_cons.mp hp).1, ih hu,
      List.cons_append]

/-- A text begins with the word, or its first character stays, or there is none. -/
theorem replacement_induction {P : List Char → Prop} (c : Char) (rest : List Char) (nil : P [])
    (word : ∀ text, P text → P (c :: rest ++ text))
    (other : ∀ d text, ¬ c :: rest <+: d :: text → P text → P (d :: text)) (text : List Char) :
    P text := by
  induction hn : text.length using Nat.strongRecOn generalizing text with
  | ind n ih =>
    cases text with
    | nil => exact nil
    | cons d text =>
      subst hn
      by_cases h : c :: rest <+: d :: text
      · obtain ⟨after, hafter⟩ := h
        rw [← hafter]
        refine word after (ih _ ?_ after rfl)
        rw [← hafter, List.length_append, List.length_cons]
        omega
      · exact other d text h (ih _ (Nat.lt_succ_self _) text rfl)

/-- Without the word nothing is replaced. -/
theorem replaceAll_of_not_infix (h : ¬ c :: rest <:+: text) :
    replaceAll (c :: rest) new text = text := by
  induction text with
  | nil => rfl
  | cons d text ih =>
    rw [List.infix_cons_iff, not_or] at h
    rw [replaceAll_cons h.1, ih h.2]

/-- A character that is none of the word's keeps what is on its two sides apart. -/
theorem prefix_append_cons_iff {word : List Char} (hx : x ∉ word) :
    word <+: u ++ x :: v ↔ word <+: u := by
  induction u generalizing word with
  | nil =>
    cases word with
    | nil => simp
    | cons w word =>
      refine iff_of_false (fun h => ?_) (fun h => by simp at h)
      exact hx (List.mem_cons.mpr (Or.inl (List.cons_prefix_cons.mp h).1.symm))
  | cons d u ih =>
    cases word with
    | nil => simp
    | cons w word =>
      rw [List.cons_append, List.cons_prefix_cons, List.cons_prefix_cons,
        ih fun hm => hx (List.mem_cons_of_mem _ hm)]

theorem infix_append_cons_iff {word : List Char} (hx : x ∉ word) (hne : word ≠ []) :
    word <:+: u ++ x :: v ↔ word <:+: u ∨ word <:+: v := by
  induction u with
  | nil =>
    have hno : ¬ word <+: x :: v := fun h =>
      hne (List.prefix_nil.mp ((prefix_append_cons_iff (u := []) hx).mp h))
    rw [List.nil_append, List.infix_cons_iff]
    simp [hno, hne]
  | cons d u ih =>
    rw [List.cons_append, List.infix_cons_iff, List.infix_cons_iff, ih, ← List.cons_append,
      prefix_append_cons_iff hx, or_assoc]

theorem replaceAll_append_cons (hx : x ∉ c :: rest) :
    replaceAll (c :: rest) new (u ++ x :: v) =
      replaceAll (c :: rest) new u ++ x :: replaceAll (c :: rest) new v := by
  induction u using replacement_induction c rest with
  | nil =>
    refine replaceAll_cons fun h => ?_
    exact List.cons_ne_nil c rest (List.prefix_nil.mp ((prefix_append_cons_iff (u := []) hx).mp h))
  | word u ih => rw [List.append_assoc, replaceAll_word, replaceAll_word, ih, List.append_assoc]
  | other d u h ih =>
    have hno : ¬ c :: rest <+: d :: (u ++ x :: v) := fun hp => h ((prefix_append_cons_iff hx).mp hp)
    rw [List.cons_append, replaceAll_cons hno, replaceAll_cons h, ih, List.cons_append]

/-! A text with another first character is put in, and the word's own stands nowhere else in it. -/

section
variable (hc : c ∉ rest) (hn : c ∉ new) (hx : x ∉ rest)
include hc hx

theorem prefix_replaceAll_iff {word : List Char} (hw : word ⊆ rest) (text : List Char) :
    word <+: replaceAll (c :: rest) (x :: new) text ↔ word <+: text := by
  induction text using replacement_induction c rest generalizing word with
  | nil => rfl
  | word text =>
    cases word with
    | nil => simp
    | cons w word =>
      rw [replaceAll_word]
      refine iff_of_false (fun h => ?_) (fun h => ?_)
      · exact hx ((List.cons_prefix_cons.mp h).1 ▸ hw List.mem_cons_self)
      · exact hc ((List.cons_prefix_cons.mp h).1 ▸ hw List.mem_cons_self)
  | other d text h ih =>
    cases word with
    | nil => simp
    | cons w word =>
      rw [replaceAll_cons h, List.cons_prefix_cons, List.cons_prefix_cons,
        ih fun y hy => hw (List.mem_cons_of_mem _ hy)]

include hn

/-- The word is gone where it was replaced. -/
theorem not_infix_replaceAll (hne : x ≠ c) (text : List Char) :
    ¬ c :: rest <:+: replaceAll (c :: rest) (x :: new) text := by
  have hpass : ∀ (pre after : List Char), c ∉ pre → ¬ c :: rest <:+: after →
      ¬ c :: rest <:+: pre ++ after := by
    intro pre after hpre hafter
    induction pre with
    | nil => exact hafter
    | cons d pre ih =>
      obtain ⟨hd, hpre⟩ := List.ne_and_not_mem_of_not_mem_cons hpre
      rw [List.cons_append, List.infix_cons_iff, List.cons_prefix_cons]
      rintro (⟨rfl, _⟩ | h)
      · exact hd rfl
      · exact ih hpre h
  induction text using replacement_induction c rest with
  | nil => simp [replaceAll, replaceFrom]
  | word text ih =>
    rw [replaceAll_word]
    exact hpass _ _ (by simp [hne.symm, hn]) ih
  | other d text h ih =>
    rw [replaceAll_cons h, List.infix_cons_iff, List.cons_prefix_cons,
      prefix_replaceAll_iff hc hx (fun _ hy => hy), ← List.cons_prefix_cons]
    rintro (hp | hi)
    · exact h hp
    · exact ih hi

end

end FormGuard.Text
