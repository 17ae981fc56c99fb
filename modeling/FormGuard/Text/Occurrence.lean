/-! Words inside a text. -/
namespace FormGuard.Text

def occursIn (word : List Char) : List Char → Bool
  | [] => word.isEmpty
  | c :: rest => word.isPrefixOf (c :: rest) || occursIn word rest

/-- Puts a text in the place of each occurrence of the word `c :: rest`, from left to right; `skip`
characters still belong to the last occurrence. -/
def replaceFrom (c : Char) (rest new : List Char) (skip : Nat) : List Char → List Char
  | [] => []
  | d :: text =>
    match skip with
    | n + 1 => replaceFrom c rest new n text
    | 0 =>
      if d == c && rest.isPrefixOf text then new ++ replaceFrom c rest new rest.length text
      else d :: replaceFrom c rest new 0 text

/-- Puts a text in the place of each occurrence of a word. -/
def replaceAll (word new text : List Char) : List Char :=
  match word with
  | [] => text
  | c :: rest => replaceFrom c rest new 0 text

/-- The parts of a text between the separators. -/
def parts (separator : Char → Bool) : List Char → List (List Char)
  | [] => [[]]
  | c :: rest =>
    if separator c then [] :: parts separator rest
    else
      match parts separator rest with
      | [] => [[c]]
      | part :: others => (c :: part) :: others

/-- The parts of a text before and after the first occurrence of a character. -/
def cut? (c : Char) (text : List Char) : Option (List Char × List Char) :=
  match text.dropWhile (· != c) with
  | [] => none
  | _ :: rest => some (text.takeWhile (· != c), rest)

/-- The parts of a text before and after the last occurrence of a character. -/
def cutLast? (c : Char) (text : List Char) : Option (List Char × List Char) :=
  (cut? c text.reverse).map fun (after, before) => (before.reverse, after.reverse)

theorem bne_of_not_mem {c : Char} {text : List Char} (h : c ∉ text) :
    ∀ d ∈ text, (d != c) = true := by
  intro d hd
  rw [bne_iff_ne]
  rintro rfl
  exact h hd

theorem cut?_of_not_mem {c : Char} {before rest : List Char} (h : c ∉ before) :
    cut? c (before ++ c :: rest) = some (before, rest) := by
  have hall := bne_of_not_mem h
  simp [cut?, List.dropWhile_append_of_pos hall, List.takeWhile_append_of_pos hall]

theorem cut?_eq_none {c : Char} {text : List Char} (h : c ∉ text) : cut? c text = none := by
  have hdrop : (text ++ []).dropWhile (· != c) = [] :=
    List.dropWhile_append_of_pos (bne_of_not_mem h)
  rw [List.append_nil] at hdrop
  rw [cut?, hdrop]

theorem cutLast?_of_not_mem {c : Char} {before rest : List Char} (h : c ∉ rest) :
    cutLast? c (before ++ c :: rest) = some (before, rest) := by
  have hr : (before ++ c :: rest).reverse = rest.reverse ++ c :: before.reverse := by simp
  rw [cutLast?, hr, cut?_of_not_mem (by simpa using h)]
  simp

/-- Cut at the first of something, a list falls apart in one way. -/
theorem append_cons_inj {α : Type} {c : α} {u v x y : List α} (hu : c ∉ u) (hx : c ∉ x) :
    u ++ c :: v = x ++ c :: y ↔ u = x ∧ v = y := by
  constructor
  · intro h
    induction u generalizing x with
    | nil =>
      cases x with
      | nil => exact ⟨rfl, (List.cons.inj h).2⟩
      | cons a x => exact absurd ((List.cons.inj h).1 ▸ List.mem_cons_self) hx
    | cons a u ih =>
      rw [List.mem_cons, not_or] at hu
      cases x with
      | nil => exact absurd (List.cons.inj h).1.symm hu.1
      | cons b x =>
        obtain ⟨rfl, hrest⟩ := List.cons.inj h
        obtain ⟨rfl, rfl⟩ := ih hu.2 (List.not_mem_of_not_mem_cons hx) hrest
        exact ⟨rfl, rfl⟩
  · rintro ⟨rfl, rfl⟩
    rfl

/-- So it does when it is cut at the last. -/
theorem append_cons_inj_last {α : Type} {c : α} {u v x y : List α} (hv : c ∉ v) (hy : c ∉ y) :
    u ++ c :: v = x ++ c :: y ↔ u = x ∧ v = y := by
  rw [← List.reverse_inj, List.reverse_append, List.reverse_append, List.reverse_cons,
    List.reverse_cons, List.append_assoc, List.append_assoc, List.singleton_append,
    List.singleton_append, append_cons_inj (by simpa using hv) (by simpa using hy), List.reverse_inj,
    List.reverse_inj, and_comm]

end FormGuard.Text
