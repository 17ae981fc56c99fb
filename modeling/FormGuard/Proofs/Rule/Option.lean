import FormGuard.Proofs.Script.Literal
import FormGuard.Proofs.Text.Replacement
import FormGuard.Main

/-! The option of a function test: what of it is read back once the test is bound to a variable. -/
namespace FormGuard
variable {c d : Char} {rest new word text : List Char} {f o x : String}

namespace Script

theorem escapeChar_eq_or (c : Char) : escapeChar c = [c] ∨
    ∃ e ∈ ['r', 'n', 't', '\'', '"', '\\'], escapeChar c = ['\\', e] := by
  unfold escapeChar
  split
  case h_7 => exact Or.inl rfl
  all_goals exact Or.inr ⟨_, by decide, rfl⟩

theorem escapeChar_backslash_ne : escapeChar '\\' ≠ ['\\'] := by decide

theorem flatMap_escapeChar (h : ∀ w ∈ word, escapeChar w = [w]) :
    word.flatMap escapeChar = word := by
  induction word with
  | nil => rfl
  | cons w word ih =>
    obtain ⟨hw, hword⟩ := List.forall_mem_cons.mp h
    rw [List.flatMap_cons, hw, ih hword, List.singleton_append]

/-- A word of characters that stand for themselves begins an escaped text when it begins the text. -/
theorem prefix_flatMap_escapeChar_iff (h : ∀ w ∈ word, escapeChar w = [w]) :
    word <+: text.flatMap escapeChar ↔ word <+: text := by
  induction text generalizing word with
  | nil => rfl
  | cons d text ih =>
    cases word with
    | nil => simp
    | cons w word =>
      obtain ⟨hw, hword⟩ := List.forall_mem_cons.mp h
      rw [List.flatMap_cons, List.cons_prefix_cons]
      obtain hd | ⟨e, _, hd⟩ := escapeChar_eq_or d
      · rw [hd, List.singleton_append, List.cons_prefix_cons, ih hword]
      · rw [hd, List.cons_append, List.cons_prefix_cons]
        refine iff_of_false (fun ⟨he, _⟩ => ?_) (fun ⟨he, _⟩ => ?_)
        · exact escapeChar_backslash_ne (he ▸ hw)
        · rw [← he, hw] at hd
          simp at hd

/-- Replacing such a word and escaping can change places, if no escape ends in its first
character. -/
theorem replaceAll_flatMap_escapeChar (hword : ∀ w ∈ c :: rest, escapeChar w = [w])
    (hnew : ∀ w ∈ new, escapeChar w = [w]) (hc : c ∉ ['r', 'n', 't', '\'', '"', '\\'])
    (text : List Char) :
    Text.replaceAll (c :: rest) new (text.flatMap escapeChar) =
      (Text.replaceAll (c :: rest) new text).flatMap escapeChar := by
  induction text using Text.replacement_induction c rest with
  | nil => rfl
  | word text ih =>
    rw [List.flatMap_append, flatMap_escapeChar hword, Text.replaceAll_word, Text.replaceAll_word, ih,
      List.flatMap_append, flatMap_escapeChar hnew]
  | other d text h ih =>
    have hno : ¬ c :: rest <+: (d :: text).flatMap escapeChar :=
      fun hp => h ((prefix_flatMap_escapeChar_iff hword).mp hp)
    rw [Text.replaceAll_cons h, List.flatMap_cons, List.flatMap_cons, ← ih]
    rw [List.flatMap_cons] at hno
    obtain hd | ⟨e, he, hd⟩ := escapeChar_eq_or d
    · rw [hd, List.singleton_append] at hno ⊢
      exact Text.replaceAll_cons hno
    · rw [hd]
      refine Text.replaceAll_append_of_not_mem (fun hm => ?_) _
      obtain rfl | hm := List.mem_cons.mp hm
      · exact hc (by decide)
      · exact hc (List.mem_singleton.mp hm ▸ he)

end Script

namespace Callbacks
open Script Text

/-- What of the placeholder follows its first character. -/
def hold : List Char := ['j', 's', 'V', 'a', 'r', '\x7d']

theorem placeholder_toList : placeholder.toList = '\x7b' :: hold := rfl

/-- A text with a variable in the place of the placeholder. -/
def bound (x : String) (text : List Char) : List Char := replaceAll ('\x7b' :: hold) x.toList text

/-- A text that does not hold the placeholder. -/
def IsFree (text : List Char) : Prop := ¬ placeholder.toList <:+: text

instance (text : List Char) : Decidable (IsFree text) :=
  inferInstanceAs (Decidable (¬ placeholder.toList <:+: text))

/-- A test that asks a function about a variable, with a literal that is read as the option. -/
def Asks (test x f o : String) : Prop :=
  ∃ inside, test = x ++ " != '' && !" ++ f ++ "(" ++ x ++ ", '" ++ inside ++ "')" ∧
    readLiteral (inside.toList ++ ['\'', ')']) = some (o.toList, [')'])

theorem isFree_append_cons_iff {u v : List Char} (h : d ∉ '\x7b' :: hold) :
    IsFree (u ++ d :: v) ↔ IsFree u ∧ IsFree v := by
  rw [IsFree, IsFree, IsFree, placeholder_toList, infix_append_cons_iff h (List.cons_ne_nil _ _),
    not_or]

theorem isFree_of_append {u v : List Char} (h : IsFree (u ++ v)) : IsFree u :=
  fun hu => h (hu.trans (List.prefix_append u v).isInfix)

section
variable (hx : x = "value" ∨ x = "value[i]")
include hx

theorem isFree_bound (text : List Char) : IsFree (bound x text) := by
  rw [IsFree, placeholder_toList, bound, hold]
  obtain rfl | rfl := hx <;>
    exact not_infix_replaceAll (by decide) (by decide) (by decide) (by decide) text

theorem bound_eq_self_iff : bound x text = text ↔ IsFree text :=
  ⟨fun h => h ▸ isFree_bound hx text, replaceAll_of_not_infix⟩

theorem bound_flatMap_escapeChar (text : List Char) :
    bound x (text.flatMap escapeChar) = (bound x text).flatMap escapeChar := by
  have hplace : ∀ w ∈ '\x7b' :: hold, escapeChar w = [w] := by simp [hold, escapeChar]
  obtain rfl | rfl := hx <;>
    exact replaceAll_flatMap_escapeChar hplace (by simp [escapeChar]) (by decide) text

end

/-- The arguments of a function test, bound to a variable. -/
theorem bound_arguments (e : List Char) :
    bound x (placeholder.toList ++ (", '".toList ++ (e ++ ['\'', ')']))) =
      x.toList ++ (", '".toList ++ (bound x e ++ ['\'', ')'])) := by
  rw [placeholder_toList, bound, replaceAll_word, replaceAll_append_of_not_mem (by decide),
    replaceAll_append_cons (by decide)]
  rfl

theorem toList_bind_browserTest (f e : String) :
    ((browserTest f (placeholder ++ ", '" ++ e ++ "'")).bind x).toList =
      x.toList ++ (" != '' && !".toList ++ (bound x f.toList ++ '(' ::
        bound x (placeholder.toList ++ (", '".toList ++ (e.toList ++ ['\'', ')']))))) := by
  have htest : (browserTest f (placeholder ++ ", '" ++ e ++ "'")).test.toList =
      placeholder.toList ++ (" != '' && !".toList ++ (f.toList ++ '(' ::
        (placeholder.toList ++ (", '".toList ++ (e.toList ++ ['\'', ')']))))) := by
    simp [browserTest, String.toList_append]
  rw [Check.bind, String.toList_ofList, htest, placeholder_toList, replaceAll_word,
    replaceAll_append_of_not_mem (by decide), replaceAll_append_cons (by decide)]
  rfl

/-- What is left of a function name in front of the arguments is the whole name only where the name
does not hold the placeholder. -/
theorem isFree_of_append_eq (hx : x = "value" ∨ x = "value[i]") {f t t' : List Char}
    (ht : IsFree t) (h : bound x f ++ '(' :: t = f ++ '(' :: t') : IsFree f := by
  obtain ⟨as, hf, hrest⟩ | ⟨bs, hf, _⟩ := List.append_eq_append_iff.mp h
  · cases as with
    | nil => exact (bound_eq_self_iff hx).mp (by simpa using hf.symm)
    | cons a as =>
      -- the name goes on behind what is left of it, with arguments
      rw [List.cons_append, List.cons.injEq] at hrest
      obtain ⟨rfl, rfl⟩ := hrest
      rw [hf, isFree_append_cons_iff (by decide)]
      exact ⟨isFree_bound hx f, isFree_of_append ht⟩
  · exact isFree_of_append (hf ▸ isFree_bound hx f)

theorem bound_escape (hx : x = "value" ∨ x = "value[i]") (o : String) :
    bound x (escape o).toList = (escape (String.ofList (bound x o.toList))).toList := by
  rw [escape, escape, String.toList_ofList, String.toList_ofList, String.toList_ofList,
    bound_flatMap_escapeChar hx]

theorem asks_bind_browserTest_iff (hx : x = "value" ∨ x = "value[i]") (f o : String) :
    Asks ((browserTest f (placeholder ++ ", '" ++ escape o ++ "'")).bind x) x f o ↔
      IsFree o.toList ∧ IsFree f.toList := by
  have hform : ∀ inside : String,
      (x ++ " != '' && !" ++ f ++ "(" ++ x ++ ", '" ++ inside ++ "')").toList =
        x.toList ++ (" != '' && !".toList ++ (f.toList ++ '(' ::
          (x.toList ++ (", '".toList ++ (inside.toList ++ ['\'', ')']))))) := by
    intro inside
    simp [String.toList_append]
  constructor
  · rintro ⟨inside, htest, hread⟩
    have hcall := congrArg String.toList htest
    rw [toList_bind_browserTest, hform] at hcall
    replace hcall := List.append_cancel_left (List.append_cancel_left hcall)
    have hf : IsFree f.toList := isFree_of_append_eq hx (isFree_bound hx _) hcall
    rw [(bound_eq_self_iff hx).mpr hf, bound_arguments] at hcall
    replace hcall := List.append_cancel_left
      (List.append_cancel_left (List.cons.inj (List.append_cancel_left hcall)).2)
    rw [← List.append_cancel_right hcall, bound_escape hx, readLiteral_escape,
      String.toList_ofList] at hread
    have ho : bound x o.toList = o.toList := (Prod.ext_iff.mp (Option.some.inj hread)).1
    exact ⟨(bound_eq_self_iff hx).mp ho, hf⟩
  · rintro ⟨ho, hf⟩
    refine ⟨escape o, ?_, readLiteral_escape o [')']⟩
    rw [← String.toList_inj, toList_bind_browserTest, hform, bound_arguments, bound_escape hx,
      (bound_eq_self_iff hx).mpr ho, (bound_eq_self_iff hx).mpr hf, String.ofList_toList]

variable {host : Host} {callbacks : Callbacks} {name : Value} {c : Callback}

/-- The browser test of a stored function asks it about the variable and exactly the option, for as
long as neither the option nor the name of the function holds the placeholder. -/
theorem asks_option_iff (hkey : name.isKey = true) (hfind : callbacks.find? name = some c)
    (hx : x = "value" ∨ x = "value[i]") :
    ∃ check, (Rule.callback callbacks).check host name (.text o) = .ok check ∧
      (Asks (check.bind x) x (Callback.browserName c.target) o ↔
        IsFree o.toList ∧ IsFree (Callback.browserName c.target).toList) := by
  have hneed := Value.needKey_eq_ok (u := ()).mpr hkey
  refine ⟨_, ?_, asks_bind_browserTest_iff hx (Callback.browserName c.target) o⟩
  simp only [Rule.check, Callbacks.check, hneed, hfind]
  rfl

/-- A function of the using program. -/
def sameAs : Callback := ⟨.external ⟨"f", "<function same_as>", some "same_as", "function", true⟩, .null⟩

theorem asks_option_same_as :
    (Table.empty.insert (.text "cb") sameAs).find? (.text "cb") = some sameAs ∧
      ∃ check, (Rule.callback (Table.empty.insert (.text "cb") sameAs)).check Host.bare (.text "cb")
          (.text "it's \\n") = .ok check ∧
        Asks (check.bind "value[i]") "value[i]" "same_as" "it's \\n" := by
  have hfind : (Table.empty.insert (.text "cb") sameAs).find? (.text "cb") = some sameAs := rfl
  obtain ⟨check, hcheck, hasks⟩ := asks_option_iff rfl hfind (Or.inr rfl)
  refine ⟨hfind, check, hcheck, hasks.mpr ⟨?_, ?_⟩⟩
  · decide
  · decide

/-- An option that is the placeholder becomes the name of the variable. -/
theorem placeholder_option_replaced : ∃ check,
    (Rule.callback (Table.empty.insert (.text "cb") sameAs)).check Host.bare (.text "cb")
        (.text "\x7bjsVar\x7d") = .ok check ∧
      check.bind "value" = "value != '' && !same_as(value, 'value')" ∧
      ¬ Asks (check.bind "value") "value" "same_as" "\x7bjsVar\x7d" := by
  refine ⟨browserTest "same_as" (placeholder ++ ", '" ++ escape "\x7bjsVar\x7d" ++ "'"), ?_, ?_, ?_⟩
  · rfl
  · rfl
  · rw [asks_bind_browserTest_iff (Or.inl rfl)]
    exact fun h => h.1 List.infix_rfl

end Callbacks

end FormGuard
