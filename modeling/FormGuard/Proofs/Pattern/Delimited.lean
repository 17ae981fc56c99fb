import FormGuard.Pattern
import FormGuard.Proofs.Regex.Word

/-! Expressions between slashes: which texts are read as one, and what is read back from the literal
that browser code holds. -/
namespace FormGuard

namespace Regex.Token

/-- What a token was read from. -/
def text : Token → List Char
  | plain c => [c]
  | escaped c => ['\\', c]
  | dangling => ['\\']

theorem flatMap_text (s : List Char) : (ofText s).flatMap text = s := by
  fun_induction ofText s with
  | case1 => rfl
  | case2 => rfl
  | case3 c rest ih => rw [List.flatMap_cons, ih]; rfl
  | case4 c rest _ _ ih => rw [List.flatMap_cons, ih]; rfl

/-- A slash that no backslash escapes gets one, and all else stays as it was. -/
def shielded : Token → List Char
  | plain '/' => ['\\', '/']
  | t => t.text

theorem shielded_plain {c : Char} (h : c ≠ '/') : (plain c).shielded = [c] := by
  rw [shielded]
  · rfl
  · rintro ⟨⟩
    exact h rfl

end Regex.Token

namespace Pattern
open Regex

/-- The text is the expression between slashes with the flag letters behind it, a line feed at its end
apart. -/
def Delimits (text source flags : List Char) : Prop :=
  UpToLineFeed ('/' :: (source ++ '/' :: flags)) text ∧ ∀ c ∈ flags, isFlag c = true

theorem isFlag_of_isBrowserFlag {c : Char} (h : isBrowserFlag c = true) : isFlag c = true := by
  simp only [isBrowserFlag, isFlag, List.contains_iff_mem, List.mem_cons, List.not_mem_nil] at h ⊢
  grind

/-- A text from its end, the line feed there apart. -/
def fromEnd (text : List Char) : List Char :=
  if text.reverse.head? == some '\n' then text.reverse.tail else text.reverse

theorem fromEnd_eq_iff {text u : List Char} (hu : u.head? ≠ some '\n') :
    fromEnd text = u ↔ UpToLineFeed u.reverse text := by
  obtain ⟨back, rfl⟩ : ∃ back : List Char, text = back.reverse := ⟨_, text.reverse_reverse.symm⟩
  rw [fromEnd, UpToLineFeed, List.reverse_reverse, ← List.reverse_cons, List.reverse_inj,
    List.reverse_inj]
  cases back with
  | nil => simp
  | cons c rest =>
    by_cases hc : c = '\n'
    · subst hc
      have hne : '\n' :: rest ≠ u := by
        rintro rfl
        exact hu rfl
      simp [hne]
    · simp [hc]

/-- Where the letters at the front end in front of a slash. -/
theorem takeWhile_isFlag_iff {back source flags : List Char} :
    back.dropWhile isFlag = '/' :: source ∧ back.takeWhile isFlag = flags ↔
      back = flags ++ '/' :: source ∧ ∀ c ∈ flags, isFlag c = true := by
  constructor
  · rintro ⟨hdrop, rfl⟩
    refine ⟨?_, fun c hc => List.all_eq_true.mp List.all_takeWhile c hc⟩
    rw [← hdrop, List.takeWhile_append_dropWhile]
  · rintro ⟨rfl, hflags⟩
    rw [List.dropWhile_append_of_pos hflags, List.takeWhile_append_of_pos hflags]
    exact ⟨rfl, List.append_nil flags⟩

theorem delimited?_slash {rest source flags : List Char} :
    delimited? ('/' :: rest) = some (source, flags) ↔
      (fromEnd rest).dropWhile isFlag = '/' :: source.reverse ∧
        (fromEnd rest).takeWhile isFlag = flags.reverse := by
  have hback : (if rest.reverse.head? == some '\n' then rest.reverse.tail else rest.reverse) =
      fromEnd rest := rfl
  rw [delimited?]
  rw [hback]
  split
  · rename_i found hdrop
    rw [hdrop, Option.some.injEq, Prod.mk.injEq, List.cons.injEq, List.reverse_eq_iff,
      List.reverse_eq_iff]
    simp
  · rename_i hdrop
    simp only [reduceCtorEq, false_iff, not_and]
    exact fun h => absurd h (hdrop _)

theorem fromEnd_eq_flags_iff {rest source flags : List Char} (hflags : ∀ c ∈ flags, isFlag c = true) :
    fromEnd rest = flags.reverse ++ '/' :: source.reverse ↔
      UpToLineFeed (source ++ '/' :: flags) rest := by
  rw [fromEnd_eq_iff]
  · simp
  · cases hr : flags.reverse with
    | nil => simp
    | cons c more =>
      have hc : isFlag c = true := hflags c (List.mem_reverse.mp (hr ▸ List.mem_cons_self))
      rintro ⟨⟩
      exact absurd hc (by decide)

theorem delimited?_eq_some_iff {text source flags : List Char} :
    delimited? text = some (source, flags) ↔ Delimits text source flags := by
  unfold Delimits
  rcases text with _ | ⟨c, rest⟩
  · simp [delimited?, UpToLineFeed]
  · by_cases hc : c = '/'
    · subst hc
      have hcons : UpToLineFeed ('/' :: (source ++ '/' :: flags)) ('/' :: rest) ↔
          UpToLineFeed (source ++ '/' :: flags) rest := by
        simp [UpToLineFeed]
      rw [delimited?_slash, takeWhile_isFlag_iff, hcons]
      simp only [List.mem_reverse]
      exact and_congr_left fromEnd_eq_flags_iff
    · simp [delimited?, UpToLineFeed, hc]

theorem parse_of_delimits {s : String} {source flags : List Char}
    (h : Delimits s.toList source flags) :
    parse s = ⟨String.ofList source, String.ofList flags⟩ := by
  rw [parse, delimited?_eq_some_iff.mpr h]

theorem parse_of_not_delimits {s : String}
    (h : ¬ ∃ source flags, Delimits s.toList source flags) : parse s = ⟨s, ""⟩ := by
  rw [parse]
  cases hd : delimited? s.toList with
  | none => rfl
  | some d => exact absurd ⟨d.1, d.2, delimited?_eq_some_iff.mp hd⟩ h

theorem escapeSlashes_of_escaped (c : Char) (rest : List Char) :
    escapeSlashes true (c :: rest) = c :: escapeSlashes false rest := by
  simp [escapeSlashes]

theorem escapeSlashes_slash (rest : List Char) :
    escapeSlashes false ('/' :: rest) = '\\' :: '/' :: escapeSlashes false rest := by
  simp [escapeSlashes]

theorem escapeSlashes_cons {c : Char} (hc : c ≠ '/') (rest : List Char) :
    escapeSlashes false (c :: rest) = c :: escapeSlashes (c == '\\') rest := by
  simp [escapeSlashes, hc]

/-- The slashes that get a backslash are those outside the pairs of a backslash and what it escapes,
taken from left to right. -/
theorem escapeSlashes_eq (s : List Char) :
    escapeSlashes false s = (Token.ofText s).flatMap Token.shielded := by
  fun_induction Token.ofText s with
  | case1 => rfl
  | case2 => rfl
  | case3 c rest ih =>
    rw [List.flatMap_cons, ← ih, escapeSlashes_cons (by decide), beq_self_eq_true,
      escapeSlashes_of_escaped]
    rfl
  | case4 c rest hend hpair ih =>
    rw [List.flatMap_cons, ← ih]
    by_cases hc : c = '/'
    · subst hc
      exact escapeSlashes_slash rest
    · rw [Token.shielded_plain hc, escapeSlashes_cons hc]
      have hb : (c == '\\') = false := by
        rw [beq_eq_false_iff_ne]
        intro hb
        cases rest with
        | nil => exact hend hb rfl
        | cons d more => exact hpair d more hb rfl
      rw [hb]
      rfl

/-- Escaping what is escaped changes nothing. -/
theorem escapeSlashes_idem (escaped : Bool) (s : List Char) :
    escapeSlashes escaped (escapeSlashes escaped s) = escapeSlashes escaped s := by
  induction s generalizing escaped with
  | nil => rfl
  | cons c rest ih =>
    cases escaped with
    | true => rw [escapeSlashes_of_escaped, escapeSlashes_of_escaped, ih]
    | false =>
      by_cases hc : c = '/'
      · subst hc
        rw [escapeSlashes_slash, escapeSlashes_cons (by decide), beq_self_eq_true,
          escapeSlashes_of_escaped, ih]
      · rw [escapeSlashes_cons hc, escapeSlashes_cons hc, ih]

theorem toList_literal (p : Pattern) :
    p.literal.toList = '/' :: (escapeSlashes false p.source.toList ++
      '/' :: p.flags.toList.filter isBrowserFlag) := by
  simp [literal]

theorem delimits_literal (p : Pattern) :
    Delimits p.literal.toList (escapeSlashes false p.source.toList)
      (p.flags.toList.filter isBrowserFlag) :=
  ⟨Or.inl (toList_literal p), fun _ hc => isFlag_of_isBrowserFlag (List.of_mem_filter hc)⟩

/-- A text is read as the one expression it has between slashes with the flag letters behind it, and
as a bare expression where it has none. From the literal of a pattern come back the source, with a
backslash in front of each slash outside the pairs of a backslash and what it escapes, and the
letters that a browser understands; and this has the same literal. -/
theorem parse_literal_roundtrip (s : String) (p : Pattern) :
    ((∃ source flags, (∀ a b, Delimits s.toList a b ↔ a = source ∧ b = flags) ∧
        parse s = ⟨String.ofList source, String.ofList flags⟩) ∨
      (¬ ∃ source flags, Delimits s.toList source flags) ∧ parse s = ⟨s, ""⟩) ∧
    ((Token.ofText p.source.toList).flatMap Token.text = p.source.toList ∧
      parse p.literal =
        ⟨String.ofList ((Token.ofText p.source.toList).flatMap Token.shielded),
          String.ofList (p.flags.toList.filter isBrowserFlag)⟩) ∧
    (parse p.literal).literal = p.literal := by
  have hparse := parse_of_delimits (delimits_literal p)
  refine ⟨?_, ⟨Token.flatMap_text _, ?_⟩, ?_⟩
  · by_cases h : ∃ source flags, Delimits s.toList source flags
    · obtain ⟨source, flags, hd⟩ := h
      refine Or.inl ⟨source, flags, fun a b => ?_, parse_of_delimits hd⟩
      rw [← delimited?_eq_some_iff, delimited?_eq_some_iff.mpr hd, Option.some.injEq,
        Prod.mk.injEq, eq_comm, eq_comm (a := flags)]
    · exact Or.inr ⟨h, parse_of_not_delimits h⟩
  · rw [hparse, escapeSlashes_eq]
  · rw [← String.toList_inj, toList_literal, toList_literal, hparse]
    simp [escapeSlashes_idem]

end Pattern

end FormGuard
