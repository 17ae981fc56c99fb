import FormGuard.Script.Literal

/-! Reading string literals: an escaped text is read back as it was. -/
namespace FormGuard.Script

/-- The character that a backslash before this one stands for. Escapes by number and escaped line
breaks are not read. -/
def escaped? (c : Char) : Option Char :=
  match c with
  | 'n' => some '\n'
  | 'r' => some '\r'
  | 't' => some '\t'
  | 'b' => some (Char.ofNat 8)
  | 'v' => some (Char.ofNat 11)
  | 'f' => some (Char.ofNat 12)
  | 'x' | 'u' | '\n' | '\r' => none
  | c => if c.isDigit || c.val == 0x2028 || c.val == 0x2029 then none else some c

/-- Reads a literal from behind its opening quote: its text, and what follows the closing quote. A
literal does not go on over the end of a line. -/
def readLiteral : List Char → Option (List Char × List Char)
  | [] => none
  | ['\\'] => none
  | '\\' :: c :: rest => do
    let d ← escaped? c
    let (text, after) ← readLiteral rest
    return (d :: text, after)
  | c :: rest =>
    if c == '\'' then some ([], rest)
    else if c == '\n' || c == '\r' then none
    else do
      let (text, after) ← readLiteral rest
      return (c :: text, after)

theorem readLiteral_quote (rest : List Char) : readLiteral ('\'' :: rest) = some ([], rest) := by
  simp [readLiteral]

theorem readLiteral_of_plain {c : Char} (hb : c ≠ '\\') (hq : c ≠ '\'') (hn : c ≠ '\n')
    (hr : c ≠ '\r') (rest : List Char) :
    readLiteral (c :: rest) = (readLiteral rest).map fun (text, after) => (c :: text, after) := by
  have hquote : (c == '\'') = false := beq_false_of_ne hq
  have hend : (c == '\n' || c == '\r') = false := by simp [hn, hr]
  rw [readLiteral]
  · rw [hquote, hend]
    cases readLiteral rest <;> rfl
  · rintro rfl
    exact absurd rfl hb
  · rintro _ _ rfl
    exact absurd rfl hb

/-- What stands for a character is read as that character. -/
theorem readLiteral_escapeChar (c : Char) (rest : List Char) :
    readLiteral (escapeChar c ++ rest) =
      (readLiteral rest).map fun (text, after) => (c :: text, after) := by
  unfold escapeChar
  split
  case h_7 hr hn _ hq _ hb => exact readLiteral_of_plain hb hq hn hr rest
  all_goals
    rw [List.cons_append, List.cons_append, List.nil_append, readLiteral]
    cases readLiteral rest <;> rfl

theorem escape_append (s t : String) : escape (s ++ t) = escape s ++ escape t := by
  simp [escape, String.toList_append]

/-- An escaped text and a quote are read as the text, whatever follows. -/
theorem readLiteral_escape (text : String) (rest : List Char) :
    readLiteral ((escape text).toList ++ '\'' :: rest) = some (text.toList, rest) := by
  have hall : ∀ chars : List Char,
      readLiteral (chars.flatMap escapeChar ++ '\'' :: rest) = some (chars, rest) := by
    intro chars
    induction chars with
    | nil => exact readLiteral_quote rest
    | cons c chars ih =>
      rw [List.flatMap_cons, List.append_assoc, readLiteral_escapeChar, ih]
      rfl
  rw [escape, String.toList_ofList]
  exact hall text.toList

/-- What stands for itself between the quotes of a literal. -/
def isVerbatim (c : Char) : Bool := c != '\\' && c != '\'' && c != '\n' && c != '\r'

/-- A text that is read is shorter than what it is read from, by the closing quote at least. -/
theorem length_of_readLiteral {input text after : List Char}
    (h : readLiteral input = some (text, after)) : text.length + after.length < input.length := by
  fun_induction readLiteral input generalizing text after with
  | case1 => cases h
  | case2 => cases h
  | case3 c rest ih =>
    obtain ⟨d, _, h⟩ := Option.bind_eq_some_iff.mp h
    obtain ⟨⟨tail, behind⟩, hread, h⟩ := Option.bind_eq_some_iff.mp h
    cases h
    have hlen := ih hread
    simp only [List.length_cons]
    omega
  | case4 c rest _ _ hq =>
    cases h
    simp
  | case5 c rest _ _ hq hend => cases h
  | case6 c rest _ _ hq hend ih =>
    obtain ⟨⟨tail, behind⟩, hread, h⟩ := Option.bind_eq_some_iff.mp h
    cases h
    have hlen := ih hread
    simp only [List.length_cons]
    omega

/-- A text between quotes is read as it stands exactly when each of its characters stands for
itself. -/
theorem readLiteral_verbatim_iff {chars rest : List Char} :
    readLiteral (chars ++ '\'' :: rest) = some (chars, rest) ↔ ∀ c ∈ chars, isVerbatim c = true := by
  induction chars with
  | nil => simp [readLiteral_quote]
  | cons c chars ih =>
    rw [List.cons_append, List.forall_mem_cons]
    by_cases hc : isVerbatim c = true
    · obtain ⟨⟨⟨hb, hq⟩, hn⟩, hr⟩ : ((c ≠ '\\' ∧ c ≠ '\'') ∧ c ≠ '\n') ∧ c ≠ '\r' := by
        simpa [isVerbatim] using hc
      rw [readLiteral_of_plain hb hq hn hr, ← ih]
      cases readLiteral (chars ++ '\'' :: rest) <;> simp [hc, Prod.ext_iff]
    · refine iff_of_false (fun h => ?_) fun h => hc h.1
      by_cases hb : c = '\\'
      · -- a backslash and the next character make one character: the text comes out shorter
        subst hb
        obtain ⟨d, tail, hd⟩ : ∃ d tail, chars ++ '\'' :: rest = d :: tail := by
          cases chars <;> exact ⟨_, _, rfl⟩
        rw [hd, readLiteral] at h
        obtain ⟨e, _, h⟩ := Option.bind_eq_some_iff.mp h
        obtain ⟨⟨text, after⟩, hread, h⟩ := Option.bind_eq_some_iff.mp h
        cases h
        have hlen := length_of_readLiteral hread
        have hsame := congrArg List.length hd
        simp only [List.length_append, List.length_cons] at hsame
        omega
      · have hends : c = '\'' ∨ c = '\n' ∨ c = '\r' := by
          simp only [isVerbatim, Bool.and_eq_true, bne_iff_ne] at hc
          grind
        rcases hends with rfl | rfl | rfl
        · rw [readLiteral_quote] at h
          cases h
        · simp [readLiteral] at h
        · simp [readLiteral] at h

end FormGuard.Script
