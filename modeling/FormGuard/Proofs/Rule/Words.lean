import FormGuard.Rule
import FormGuard.Proofs.Action
import FormGuard.Proofs.Script.Closing

/-! The texts that a rule's browser check takes over as they were given. Patterns, bounds and operators
never bring the closing tag of a script element into it. -/
namespace FormGuard
open Script

namespace Pattern

theorem beginsWith_flags {flags : List Char} (h : ∀ c ∈ flags, isBrowserFlag c = true) :
    beginsWith ['s', 'c', 'r', 'i', 'p', 't'] flags = false := by
  match flags, h with
  | [], _ => rfl
  | [_], _ => simp [beginsWith]
  | c :: d :: rest, h =>
    have hd : d ∈ ['i', 'm', 's', 'u'] := by simpa [isBrowserFlag] using h d (by simp)
    have hno : ∀ e ∈ ['i', 'm', 's', 'u'], e.toLower ≠ 'c' := by simp
    rw [beginsWith, beginsWith_cons_of_ne (hno d hd), Bool.and_false]

/-- In the literal of a pattern every slash follows a backslash, except for the two around it. -/
theorem closings_escapeSlashes {flags : List Char} (h : ∀ c ∈ flags, isBrowserFlag c = true)
    (escaped : Bool) (source : List Char) :
    closings (escapeSlashes escaped source ++ '/' :: flags) = 0 := by
  induction source generalizing escaped with
  | nil =>
    rw [escapeSlashes, List.nil_append, closings_cons_of_ne (by decide)]
    exact closings_eq_zero fun hm => absurd (h _ hm) (by decide)
  | cons c rest ih =>
    rw [escapeSlashes]
    split
    · rw [List.cons_append, List.cons_append, closings_cons_of_ne (by decide),
        closings_cons_of_ne (by decide), ih]
    · by_cases hc : c = '<'
      · subst hc
        -- what follows is no slash: an unescaped one gets a backslash, and the last one ends it all
        have hno : beginsWith ['/', 's', 'c', 'r', 'i', 'p', 't']
            (escapeSlashes false rest ++ '/' :: flags) = false := by
          cases rest with
          | nil => rw [escapeSlashes, List.nil_append, beginsWith, beginsWith_flags h, Bool.and_false]
          | cons d more =>
            rw [escapeSlashes]
            split
            · exact beginsWith_cons_of_ne (by decide)
            · rename_i hd
              refine beginsWith_cons_of_ne fun he => hd ?_
              rw [eq_of_toLower he (by decide)]
              rfl
        rw [List.cons_append, closings, closer, beginsWith]
        change (if ('<' == '<'.toLower && beginsWith ['/', 's', 'c', 'r', 'i', 'p', 't']
          (escapeSlashes false rest ++ '/' :: flags)) = true then 1 else 0) +
          closings (escapeSlashes false rest ++ '/' :: flags) = 0
        rw [hno, ih]
        rfl
      · rw [List.cons_append, closings_cons_of_ne hc, ih]

theorem closings_literal (p : Pattern) : closings p.literal.toList = 0 := by
  have hflags : ∀ c ∈ p.flags.toList.filter isBrowserFlag, isBrowserFlag c = true :=
    fun c hc => (List.mem_filter.mp hc).2
  have hlist : p.literal.toList = '/' :: (escapeSlashes false p.source.toList
      ++ '/' :: p.flags.toList.filter isBrowserFlag) := by
    simp [literal]
  rw [hlist, closings_cons_of_ne (by decide), closings_escapeSlashes hflags]

end Pattern

/-! The other rules write numbers, operators, and what the using program gives. -/

theorem Length.not_mem_repr (i : Int) : '/' ∉ i.repr.toList := by
  have hdigits : ∀ n : Nat, '/' ∉ Nat.toDigits 10 n := by
    intro n hm
    have hd := Nat.isDigit_of_mem_toDigits (by decide) (by decide) hm
    cases hd
  cases i <;> simp [Int.repr, Nat.repr, hdigits]

theorem slash_not_mem_placeholder : '/' ∉ placeholder.toList := by simp [placeholder]

theorem Length.closings_test (b : Length.Bounds) : closings b.test.toList = 0 := by
  refine closings_eq_zero ?_
  cases b <;> simp [Length.Bounds.test, slash_not_mem_placeholder, Length.not_mem_repr]

theorem Comparison.closings_check {format : Value} {check : Check}
    (h : Comparison.check format = .ok check) :
    closings check.setup.toList + closings check.test.toList = 0 := by
  obtain ⟨op, _, h⟩ := bind_eq_ok.mp h
  cases h
  have htest : '/' ∉ op.cast.toList ∧ '/' ∉ op.symbol.toList := by
    cases op <;> simp [Operator.cast, Operator.symbol, Operator.comparesText]
  rw [closings_eq_zero (by simp), closings_eq_zero (by simp [slash_not_mem_placeholder, htest])]

theorem Rule.closings_patternCheck (p : Pattern) :
    closings (Rule.patternCheck p).setup.toList = 0 ∧
      closings (Rule.patternCheck p).test.toList = 0 := by
  constructor
  · have hlead : isQuiet "  var regex = ".toList = true := rfl
    have hend : isApart ";\n".toList = true ∧ closings ";\n".toList = 0 := ⟨rfl, rfl⟩
    change closings ("  var regex = " ++ p.literal ++ ";\n").toList = 0
    rw [String.toList_append, closings_append_of_apart _ hend.1, closings_behind hlead,
      p.closings_literal, hend.2]
  · change closings (placeholder ++ " != '' && !regex.test(" ++ placeholder ++ ")").toList = 0
    rfl

theorem Callbacks.closings_browserTest (function parameters : String) :
    closings (Callbacks.browserTest function parameters).test.toList =
      closings function.toList + closings parameters.toList := by
  have hstart : isQuiet (placeholder ++ " != '' && !").toList = true := rfl
  have hcut : (Callbacks.browserTest function parameters).test.toList =
      (placeholder ++ " != '' && !").toList ++ (function.toList ++ '(' :: (parameters.toList
        ++ [')'])) := by
    simp [Callbacks.browserTest]
  rw [hcut, closings_append_of_quiet hstart, closings_append_cons (by decide),
    closings_append_cons (by decide), closings, Nat.add_zero]

/-- The option is escaped on its way into the test; without one the variable stands alone. -/
theorem Callbacks.closings_browserParameters {format : Value} {parameters : String}
    (h : browserParameters format = .ok parameters) :
    closings parameters.toList =
      closings (if format.isNull then "" else format.plain).toList := by
  unfold browserParameters at h
  cases hn : format.isNull with
  | true =>
    rw [hn] at h
    cases h
    exact closings_eq_zero slash_not_mem_placeholder
  | false =>
    rw [hn] at h
    obtain ⟨text, htext, h⟩ := bind_eq_ok.mp h
    obtain ⟨_, rfl⟩ := Value.spelled_eq_ok.mp htext
    cases h
    have hlead : isQuiet (placeholder ++ ", '").toList = true := rfl
    have hquote : closings ("'" : String).toList = 0 := rfl
    rw [String.toList_append, closings_append_of_apart _ rfl, closings_behind hlead,
      closings_escape, hquote]
    rfl

/-- The texts in a check that are neither the library's own nor a pattern: of a callback the name of
the browser function and the option, and all that a class of the using program writes. -/
def Rule.words (rule : Rule) (name format : Value) (check : Check) : List String :=
  match rule with
  | .callback callbacks =>
    match callbacks.find? name with
    | some c => [Callback.browserName c.target, if format.isNull then "" else format.plain]
    | none =>
      match Callbacks.browserTarget format with
      | .ok target => [Callback.browserName target]
      | .error _ => []
  | .external _ _ => [check.setup, check.test]
  | _ => []

/-- How often some texts hold the closing tag, one by one. -/
def Script.closingsOf : List String → Nat
  | [] => 0
  | s :: rest => closings s.toList + closingsOf rest

theorem Callbacks.closings_check {callbacks : Callbacks} {name format : Value} {check : Check}
    (h : callbacks.check name format = .ok check) :
    closings check.setup.toList + closings check.test.toList =
      closingsOf ((Rule.callback callbacks).words name format check) := by
  obtain ⟨_, _, h⟩ := bind_eq_ok.mp h
  unfold Rule.words
  dsimp only
  cases hf : callbacks.find? name with
  | some c =>
    rw [hf] at h
    obtain ⟨parameters, hp, h⟩ := bind_eq_ok.mp h
    cases h
    rw [Callbacks.closings_browserTest, Callbacks.closings_browserParameters hp]
    simp [closingsOf, closings, Callbacks.browserTest]
  | none =>
    rw [hf] at h
    dsimp only at h
    cases hn : format.isNull with
    | true =>
      rw [hn] at h
      cases h
    | false =>
      rw [hn] at h
      obtain ⟨target, ht, h⟩ := bind_eq_ok.mp h
      cases h
      rw [Callbacks.closings_browserTest, ht, closings_eq_zero slash_not_mem_placeholder]
      simp [closingsOf, closings, Callbacks.browserTest]

/-- A check holds the closing tag as often as the texts in it that were given. -/
theorem Rule.closings_check {host : Host} {rule : Rule} {name format : Value} {check : Check}
    (h : rule.check host name format = .ok check) :
    closings check.setup.toList + closings check.test.toList =
      closingsOf (rule.words name format check) := by
  cases rule with
  | base =>
    cases h
    rfl
  | required =>
    cases h
    rw [closings_eq_zero (by simp), closings_eq_zero (by simp [slash_not_mem_placeholder])]
    rfl
  | regex patterns =>
    obtain ⟨p, _, h⟩ := bind_eq_ok.mp h
    cases h
    obtain ⟨hsetup, htest⟩ := Rule.closings_patternCheck p
    rw [hsetup, htest]
    rfl
  | email =>
    cases h
    obtain ⟨hsetup, htest⟩ := Rule.closings_patternCheck Pattern.email
    rw [hsetup, htest]
    rfl
  | callback callbacks => exact Callbacks.closings_check h
  | length =>
    obtain ⟨b, _, h⟩ := bind_eq_ok.mp h
    obtain ⟨_, rfl⟩ := Length.Bounds.check_eq_ok.mp h
    rw [closings_behind rfl b.test, Length.closings_test]
    rfl
  | compare =>
    rw [Comparison.closings_check h]
    rfl
  | external cls state =>
    simp [Rule.words, closingsOf]

end FormGuard
