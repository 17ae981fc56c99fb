import FormGuard.Proofs.Action
import FormGuard.Proofs.Script.Expression
import FormGuard.Rule.Length

/-! Bounded lengths: where the rule on the server and the test of the browser agree. -/
namespace FormGuard.Length
open Script

/-- A number with its sign, as tokens. -/
def signed : Int → List (Option Token)
  | .ofNat n => [some (.number n)]
  | .negSucc n => [some .minus, some (.number (n + 1))]

namespace Bounds

/-- What stands in front of the test of the length: the value is not empty. -/
def lead : List (Option Token) :=
  [some .subject, none, some .differs, none, some .empty, none, some .conjoins, none]

def comparison (operator : Token) (bound : Int) : List (Option Token) :=
  [some .subject, some .length, none, some operator, none] ++ signed bound

/-- The tokens of the test. -/
def tokens : Bounds → List (Option Token)
  | .least low => lead ++ comparison .less low
  | .most high => lead ++ comparison .more high
  | .between low high => lead ++ ([some .opens] ++ comparison .less low ++
      [none, some .disjoins, none] ++ comparison .more high ++ [some .closes])

/-- What the test says. -/
def expression : Bounds → Expression
  | .least low => .both .filled (.shorter low)
  | .most high => .both .filled (.longer high)
  | .between low high => .both .filled (.either (.shorter low) (.longer high))

end Bounds

theorem flatMap_signed (i : Int) : (signed i).flatMap Token.spell = i.repr.toList := by
  have hminus : Token.spell (some .minus) = ['-'] := rfl
  cases i with
  | ofNat n => simp [signed, Token.spell, Int.repr, Nat.repr]
  | negSucc n =>
    simp only [signed, List.flatMap_cons, List.flatMap_nil, hminus]
    simp [Token.spell, Int.repr, Nat.repr]

namespace Bounds

theorem flatMap_comparison {operator : Token} {symbol : String}
    (h : [some .subject, some .length, none, some operator, none].flatMap Token.spell =
      (placeholder ++ symbol).toList) (bound : Int) :
    (comparison operator bound).flatMap Token.spell =
      (placeholder ++ symbol ++ toString bound).toList := by
  have htext : (placeholder ++ symbol ++ toString bound).toList =
      (placeholder ++ symbol).toList ++ (toString bound).toList := String.toList_append
  rw [comparison, List.flatMap_append, h, flatMap_signed, htext]
  rfl

/-- The test is the text of its tokens. -/
theorem flatMap_tokens (b : Bounds) :
    b.tokens.flatMap Token.spell = (placeholder ++ " != '' && " ++ b.test).toList := by
  have hlead : lead.flatMap Token.spell = (placeholder ++ " != '' && ").toList := rfl
  have hless := @flatMap_comparison .less ".length < " rfl
  have hmore := @flatMap_comparison .more ".length > " rfl
  cases b with
  | least low =>
    rw [tokens, List.flatMap_append, hlead, hless, ← String.toList_append]
    rfl
  | most high =>
    rw [tokens, List.flatMap_append, hlead, hmore, ← String.toList_append]
    rfl
  | between low high =>
    have hor : [none, some .disjoins, none].flatMap Token.spell = " || ".toList := rfl
    have hopen : [some .opens].flatMap Token.spell = "(".toList := rfl
    have hclose : [some .closes].flatMap Token.spell = ")".toList := rfl
    simp only [tokens, List.flatMap_append, hlead, hless, hmore, hor, hopen, hclose, test,
      String.toList_append, List.append_assoc]

theorem isChain_tokens (b : Bounds) :
    b.tokens.IsChain fun x y => Token.isNumber x = true → Token.isNumber y = false := by
  cases b with
  | least low => cases low <;> simp [tokens, lead, comparison, signed, Token.isNumber]
  | most high => cases high <;> simp [tokens, lead, comparison, signed, Token.isNumber]
  | between low high =>
    cases low <;> cases high <;> simp [tokens, lead, comparison, signed, Token.isNumber]

theorem read?_test (b : Bounds) :
    Expression.read? (placeholder ++ " != '' && " ++ b.test) = some b.expression := by
  have hread : Token.read [] 0 (placeholder ++ " != '' && " ++ b.test).toList =
      some (b.tokens.filterMap id) := by
    rw [← b.flatMap_tokens]
    exact Token.read_spelled b.isChain_tokens (Or.inl rfl)
  rw [Expression.read?, hread]
  cases b with
  | least low => cases low <;> rfl
  | most high => cases high <;> rfl
  | between low high => cases low <;> cases high <;> rfl

/-- The upper bound, where there is one. -/
def upper? : Bounds → Option Int
  | .least _ => none
  | .most high => some high
  | .between _ high => some high

/-- Where the two sides come apart, by the length of a text and its length in the browser: the server
takes an upper bound below zero for none, and the browser counts some characters twice. -/
def Diverges (length units : Nat) : Bounds → Prop
  | .least low => length < low ∧ low ≤ units
  | .most high => high < 0 ∨ length ≤ high ∧ high < units
  | .between low high => high < 0 ∧ low ≤ length ∨
      0 ≤ high ∧ (low ≤ length ∧ length ≤ high ∧ high < units ∨
        length < low ∧ low ≤ units ∧ units ≤ high)

end Bounds

theorem length_le_units (s : String) : s.length ≤ units s := Nat.le_add_right _ _

theorem units_eq_length {s : String} (h : ∀ c ∈ s.toList, c.val < 0x10000) :
    units s = s.length := by
  rw [units, Nat.add_eq_left, List.countP_eq_zero]
  intro c hc
  simpa using h c hc

/-- On a text that is not empty the two sides agree unless they count it differently. -/
theorem Bounds.agrees_iff (b : Bounds) {s : String} (hs : s ≠ "") :
    (b.holds s.length = true ↔ b.expression.holds s = false) ↔ ¬ b.Diverges s.length (units s) := by
  have hle := length_le_units s
  have hfilled : (s != "") = true := by simp [hs]
  cases b with
  | least low =>
    simp only [holds, reaches, expression, Expression.holds, hfilled, Diverges, Bool.true_and,
      Bool.or_eq_true, decide_eq_true_eq, decide_eq_false_iff_not]
    omega
  | most high =>
    simp only [holds, staysWithin, expression, Expression.holds, hfilled, Diverges, Bool.true_and,
      Bool.or_eq_true, decide_eq_true_eq, decide_eq_false_iff_not]
    omega
  | between low high =>
    simp only [holds, reaches, staysWithin, expression, Expression.holds, hfilled, Diverges,
      Bool.true_and, Bool.and_eq_true, Bool.or_eq_true, Bool.or_eq_false_iff, decide_eq_true_eq,
      decide_eq_false_iff_not]
    omega

theorem Bounds.not_diverges (b : Bounds) (hupper : ∀ high, b.upper? = some high → 0 ≤ high)
    (length : Nat) : ¬ b.Diverges length length := by
  cases b with
  | least low =>
    simp only [Diverges]
    omega
  | most high =>
    have hhigh := hupper high rfl
    simp only [Diverges]
    omega
  | between low high =>
    have hhigh := hupper high rfl
    simp only [Diverges]
    omega

/-- How bounds are written: a whole number for one of them, two of them for both. -/
inductive Writes : Value → Value → Bounds → Prop where
  | least (low : Int) : Writes (.text "minlength") (.int low) (.least low)
  | most (high : Int) : Writes (.text "maxlength") (.int high) (.most high)
  | between {format : Value} {low high : Int} (both : format.items = .ok [.int low, .int high]) :
    Writes (.text "rangelength") format (.between low high)

theorem bounds_of_writes {name format : Value} {b : Bounds} (h : Writes name format b) :
    bounds name format = .ok b := by
  cases h with
  | least low =>
    rw [bounds, readBounds, Value.same_self, if_pos rfl]
    rfl
  | most high =>
    have hmin : (Value.text "maxlength").same (.text "minlength") = false := rfl
    rw [bounds, readBounds, hmin, if_neg Bool.false_ne_true, Value.same_self, if_pos rfl]
    rfl
  | between both =>
    have hmin : (Value.text "rangelength").same (.text "minlength") = false := rfl
    have hmax : (Value.text "rangelength").same (.text "maxlength") = false := rfl
    rw [bounds, readBounds, hmin, if_neg Bool.false_ne_true, hmax, if_neg Bool.false_ne_true,
      Value.pair, both]
    rfl

theorem check_of_bounds {name format : Value} {b : Bounds} (h : bounds name format = .ok b) :
    Length.check name format = b.check := by
  rw [Length.check, h]
  rfl

theorem validate_of_bounds {name format : Value} {b : Bounds} (h : bounds name format = .ok b)
    (s : String) : validate name (.text s) format = .ok (.bool (b.holds s.length)) := by
  rw [validate, Value.written_text, h]
  rfl

/-- Bounds that are written out are read. With bounds that are read there is an answer for every text,
and a check for the browser exactly when its test can be written. A text that is not empty then passes
on the server exactly when the test of the browser is false, unless the bounds come apart on it. They
do not where no upper bound is below zero and every character counts once. -/
theorem agrees_with_browser_iff (name format : Value) {s : String} (hs : s ≠ "") :
    (∀ b, Writes name format b → bounds name format = .ok b) ∧
    ∀ b, bounds name format = .ok b →
      ∃ passes, validate name (.text s) format = .ok (.bool passes) ∧
        (b.isWritable = false → Length.check name format = .error (.misuse .value)) ∧
        (b.isWritable = true → ∃ check e, Length.check name format = .ok check ∧
          check.setup = "" ∧ Expression.read? check.test = some e ∧
          ((passes = true ↔ e.holds s = false) ↔ ¬ b.Diverges s.length (units s)) ∧
          ((∀ high, b.upper? = some high → 0 ≤ high) → (∀ c ∈ s.toList, c.val < 0x10000) →
            (passes = true ↔ e.holds s = false))) := by
  refine ⟨fun b => bounds_of_writes, fun b hb => ?_⟩
  refine ⟨b.holds s.length, validate_of_bounds hb s, fun hw => ?_, fun hw => ?_⟩
  · rw [check_of_bounds hb, Bounds.check, hw]
    rfl
  · refine ⟨⟨"", placeholder ++ " != '' && " ++ b.test⟩, b.expression, ?_, rfl, b.read?_test,
      b.agrees_iff hs, fun hupper hplain => (b.agrees_iff hs).mpr ?_⟩
    · rw [check_of_bounds hb]
      exact Bounds.check_eq_ok.mpr ⟨hw, rfl⟩
    · rw [units_eq_length hplain]
      exact b.not_diverges hupper s.length

/-- A text of three within two and four: it passes, and the test of the browser is false. -/
theorem agrees_with_browser_abc :
    "abc" ≠ "" ∧ bounds (.text "rangelength") (.list [.int 2, .int 4]) = .ok (.between 2 4) ∧
    (∀ high, (Bounds.between 2 4).upper? = some high → 0 ≤ high) ∧
    (Bounds.between 2 4).isWritable = true ∧ (∀ c ∈ "abc".toList, c.val < 0x10000) ∧
    ∃ check e, validate (.text "rangelength") (.text "abc") (.list [.int 2, .int 4]) =
        .ok (.bool true) ∧
      Length.check (.text "rangelength") (.list [.int 2, .int 4]) = .ok check ∧
      Expression.read? check.test = some e ∧ e.holds "abc" = false := by
  have hne : "abc" ≠ "" := by decide
  obtain ⟨hwrites, hreads⟩ :=
    agrees_with_browser_iff (.text "rangelength") (.list [.int 2, .int 4]) hne
  have hb := hwrites _ (.between rfl)
  have hupper : ∀ high, (Bounds.between 2 4).upper? = some high → 0 ≤ high := by
    intro high h
    cases h
    decide
  have hplain : ∀ c ∈ "abc".toList, c.val < 0x10000 := by simp
  have hwritable : (Bounds.between 2 4).isWritable = true := by decide +kernel
  obtain ⟨passes, hvalidate, -, hwritten⟩ := hreads _ hb
  obtain ⟨check, e, hcheck, -, hread, -, hagrees⟩ := hwritten hwritable
  have hpasses : validate (.text "rangelength") (.text "abc") (.list [.int 2, .int 4]) =
      .ok (.bool true) := by
    rw [validate_of_bounds hb]
    decide +kernel
  obtain rfl : passes = true := by
    rw [hpasses] at hvalidate
    cases hvalidate
    rfl
  exact ⟨hne, hb, hupper, hwritable, hplain, check, e, hpasses, hcheck, hread,
    (hagrees hupper hplain).mp rfl⟩

/-- An upper bound below zero passes everything on the server and nothing in the browser; a character
outside the basic plane is too long for a bound of one in the browser alone. -/
theorem disagrees_with_browser :
    (validate (.text "maxlength") (.text "a") (.int (-1)) = .ok (.bool true) ∧
      ∃ check e, Length.check (.text "maxlength") (.int (-1)) = .ok check ∧
        Expression.read? check.test = some e ∧ e.holds "a" = true) ∧
    validate (.text "maxlength") (.text "😀") (.int 1) = .ok (.bool true) ∧
      ∃ check e, Length.check (.text "maxlength") (.int 1) = .ok check ∧
        Expression.read? check.test = some e ∧ e.holds "😀" = true := by
  have hcheck := fun i (hw : (Bounds.most i).isWritable = true) =>
    (check_of_bounds (bounds_of_writes (.most i))).trans (Bounds.check_eq_ok.mpr ⟨hw, rfl⟩)
  refine ⟨⟨?_, _, _, hcheck _ (by decide +kernel), Bounds.read?_test _, by decide +kernel⟩,
    ?_, _, _, hcheck _ (by decide +kernel), Bounds.read?_test _, by decide +kernel⟩
  · rw [validate_of_bounds (bounds_of_writes (.most _))]
    decide +kernel
  · rw [validate_of_bounds (bounds_of_writes (.most _))]
    decide +kernel

end FormGuard.Length
