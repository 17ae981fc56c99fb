import FormGuard.Proofs.Regex.Span
import Mathlib.Computability.Language

/-! Expressions and languages: an expression without places stands for the same words wherever it
stands, and one between anchors for whole texts. -/
namespace FormGuard.Regex

open scoped Computability

/-- The words of one character that passes a test. -/
def letters (test : Char → Bool) : Language Char := {w | ∃ c, w = [c] ∧ test c = true}

section
variable {test : Char → Bool} {w : List Char}

theorem mem_letters : w ∈ letters test ↔ ∃ c, w = [c] ∧ test c = true := Iff.rfl

theorem mem_letters_kstar : w ∈ (letters test)∗ ↔ ∀ c ∈ w, test c = true := by
  rw [Language.mem_kstar]
  constructor
  · rintro ⟨words, rfl, h⟩ c hc
    obtain ⟨word, hword, hc⟩ := List.mem_flatten.mp hc
    obtain ⟨d, rfl, hd⟩ := h word hword
    obtain rfl := List.mem_singleton.mp hc
    exact hd
  · intro h
    refine ⟨w.map fun c => [c], ?_, ?_⟩
    · rw [← List.flatMap_def, List.flatMap_singleton']
    · intro word hword
      obtain ⟨c, hc, rfl⟩ := List.mem_map.mp hword
      exact ⟨c, rfl, h c hc⟩

theorem mem_letters_mul {L : Language Char} :
    w ∈ letters test * L ↔ ∃ c v, w = c :: v ∧ test c = true ∧ v ∈ L := by
  rw [Language.mem_mul]
  constructor
  · rintro ⟨_, ⟨c, rfl, hc⟩, v, hv, rfl⟩
    exact ⟨c, v, rfl, hc, hv⟩
  · rintro ⟨c, v, rfl, hc, hv⟩
    exact ⟨[c], ⟨c, rfl, hc⟩, v, hv, rfl⟩

theorem mem_letters_plus : w ∈ letters test * (letters test)∗ ↔
    w ≠ [] ∧ ∀ c ∈ w, test c = true := by
  rw [mem_letters_mul]
  constructor
  · rintro ⟨c, v, rfl, hc, hv⟩
    exact ⟨List.cons_ne_nil c v, List.forall_mem_cons.mpr ⟨hc, mem_letters_kstar.mp hv⟩⟩
  · rintro ⟨hne, h⟩
    obtain ⟨c, v, rfl⟩ := List.exists_cons_of_ne_nil hne
    obtain ⟨hc, hv⟩ := List.forall_mem_cons.mp h
    exact ⟨c, v, rfl, hc, mem_letters_kstar.mpr hv⟩

end

theorem mem_char_mul {c : Char} {w : List Char} {L : Language Char} :
    w ∈ ({[c]} : Language Char) * L ↔ ∃ v ∈ L, w = c :: v := by
  rw [Language.mem_mul]
  constructor
  · rintro ⟨_, rfl, v, hv, rfl⟩
    exact ⟨v, hv, rfl⟩
  · rintro ⟨v, hv, rfl⟩
    exact ⟨[c], rfl, v, hv, rfl⟩

/-- A text is this one, a line feed at its end apart. -/
def UpToLineFeed (t text : List Char) : Prop := text = t ∨ text = t ++ ['\n']

namespace Expr

/-- A character as a member of a class. -/
def one (c : Char) : ClassItem := .range c.toNat c.toNat

/-- One of the members of a class. -/
def oneOf (items : List ClassItem) : Expr := .single ⟨false, items, .exact⟩

/-- One character as it is. -/
def char (c : Char) : Expr := oneOf [one c]

def star (e : Expr) : Expr := .rounds 0 none .greedy e

def plus (e : Expr) : Expr := .rounds 1 none .greedy e

def optional (e : Expr) : Expr := .rounds 0 (some 1) .greedy e

/-- An expression stands for the words of a language, whatever is around. -/
def Spells (e : Expr) (L : Language Char) : Prop := ∀ before w after, e.Spans before w after ↔ w ∈ L

section
variable {e f : Expr} {L M : Language Char} {before w after : List Char}

theorem spells_single (cls : CharClass) : (single cls).Spells (letters cls.holds) :=
  fun _ _ _ => Iff.rfl

theorem holds_range {low high : Nat} {c : Char} : (ClassItem.range low high).holds .exact c =
    (decide (low ≤ c.toNat) && decide (c.toNat ≤ high)) := by
  simp [ClassItem.holds, Folding.variants]

theorem holds_one {c d : Char} : (one c).holds .exact d = (d == c) := by
  rw [one, holds_range, Bool.eq_iff_iff, Bool.and_eq_true, decide_eq_true_eq, decide_eq_true_eq,
    ← Nat.le_antisymm_iff, Char.toNat_inj, beq_iff_eq, eq_comm]

theorem any_one {chars : List Char} {c : Char} :
    (chars.map one).any (·.holds .exact c) = chars.contains c := by
  rw [List.any_map, List.contains_eq_any_beq]
  exact congrArg chars.any (funext fun d => holds_one)

/-- A class stands for the letters that its members take in, one way or another. -/
theorem spells_oneOf {items : List ClassItem} {test : Char → Bool}
    (h : ∀ c, items.any (·.holds .exact c) = test c) : (oneOf items).Spells (letters test) := by
  have htest : (CharClass.mk false items .exact).holds = test := by
    funext c
    rw [← h c, CharClass.holds]
    exact Bool.bne_false _
  exact htest ▸ spells_single _

theorem spells_digits : (oneOf [.range 48 57]).Spells (letters Char.isDigit) :=
  spells_oneOf fun c => by
    rw [List.any_cons, List.any_nil, Bool.or_false, holds_range]
    rfl

theorem spells_char (c : Char) : (char c).Spells {[c]} := by
  intro before w after
  have hone : (char c).Spells (letters (· == c)) :=
    spells_oneOf fun d => by rw [List.any_cons, List.any_nil, Bool.or_false, holds_one]
  rw [hone before w after, mem_letters]
  constructor
  · rintro ⟨d, rfl, hd⟩
    rw [eq_of_beq hd]
    rfl
  · rintro rfl
    exact ⟨c, rfl, beq_self_eq_true c⟩

theorem Spells.seq (he : e.Spells L) (hf : f.Spells M) : (e.seq f).Spells (L * M) := by
  intro before w after
  rw [Language.mem_mul]
  constructor
  · rintro ⟨u, v, rfl, hu, hv⟩
    exact ⟨u, (he _ _ _).mp hu, v, (hf _ _ _).mp hv, rfl⟩
  · rintro ⟨u, hu, v, hv, rfl⟩
    exact ⟨u, v, rfl, (he _ _ _).mpr hu, (hf _ _ _).mpr hv⟩

theorem Spells.alt (he : e.Spells L) (hf : f.Spells M) : (e.alt f).Spells (L + M) := by
  intro before w after
  rw [Language.mem_add, ← he before w after, ← hf before w after]
  exact Iff.rfl

theorem Spells.group (he : e.Spells L) (index : Nat) : (e.group index).Spells L := he

theorem power_iff (he : e.Spells L) {n : Nat} :
    e.Spans.power n before w after ↔ w ∈ L ^ n := by
  induction n generalizing before w with
  | zero => rw [pow_zero, Language.mem_one, Span.power]
  | succ n ih =>
    rw [pow_succ', Language.mem_mul]
    constructor
    · rintro ⟨u, v, rfl, hu, hv⟩
      exact ⟨u, (he _ _ _).mp hu, v, ih.mp hv, rfl⟩
    · rintro ⟨u, hu, v, hv, rfl⟩
      exact ⟨u, v, rfl, (he _ _ _).mpr hu, ih.mpr hv⟩

theorem spans_rounds (he : e.Spells L) {least : Nat} {most : Option Nat} {greed : Greed} :
    (rounds least most greed e).Spans before w after ↔
      ∃ n, least ≤ n ∧ (∀ m, most = some m → n ≤ m) ∧ w ∈ L ^ n := by
  refine exists_congr fun n => and_congr Iff.rfl (and_congr Iff.rfl ?_)
  exact power_iff he

theorem Spells.star (he : e.Spells L) : e.star.Spells L∗ := by
  intro before w after
  rw [Expr.star, spans_rounds he, Language.kstar_eq_iSup_pow, Language.mem_iSup]
  simp

theorem Spells.plus (he : e.Spells L) : e.plus.Spells (L * L∗) := by
  intro before w after
  rw [Expr.plus, spans_rounds he, Language.kstar_eq_iSup_pow, Language.mul_iSup, Language.mem_iSup]
  constructor
  · rintro ⟨n, hn, -, h⟩
    obtain ⟨m, rfl⟩ := Nat.exists_eq_add_of_le hn
    rw [Nat.add_comm, pow_succ'] at h
    exact ⟨m, h⟩
  · rintro ⟨m, h⟩
    exact ⟨m + 1, Nat.le_add_left 1 m, by simp, by rwa [pow_succ']⟩

theorem Spells.optional (he : e.Spells L) : e.optional.Spells (1 + L) := by
  intro before w after
  rw [Expr.optional, spans_rounds he, Language.mem_add]
  constructor
  · rintro ⟨n, -, hn, h⟩
    obtain rfl | rfl := Nat.le_one_iff_eq_zero_or_eq_one.mp (hn 1 rfl)
    · exact Or.inl (by rwa [pow_zero] at h)
    · exact Or.inr (by rwa [pow_one] at h)
  · rintro (h | h)
    · exact ⟨0, Nat.le_refl 0, by simp, by rwa [pow_zero]⟩
    · exact ⟨1, Nat.zero_le 1, by simp, by rwa [pow_one]⟩

/-- So many rounds, neither more nor less. -/
theorem Spells.times (he : e.Spells L) (n : Nat) (greed : Greed) :
    (rounds n (some n) greed e).Spells (L ^ n) := by
  intro before w after
  rw [spans_rounds he]
  constructor
  · rintro ⟨m, hm, hn, h⟩
    obtain rfl := Nat.le_antisymm hm (hn n rfl)
    exact h
  · intro h
    exact ⟨n, Nat.le_refl n, by simp, h⟩

/-- An expression stands for the words of a language at the beginning of a text. -/
def Opens (e : Expr) (L : Language Char) : Prop :=
  ∀ before w after, e.Spans before w after ↔ before = [] ∧ w ∈ L

theorem opens_textStart : (place .textStart).Opens 1 := by
  intro before w after
  rw [Language.mem_one]
  simp [Spans, Place.holds, and_comm]

theorem Opens.seq (he : e.Opens L) (hf : f.Spells M) : (e.seq f).Opens (L * M) := by
  intro before w after
  rw [Language.mem_mul]
  constructor
  · rintro ⟨u, v, rfl, hu, hv⟩
    obtain ⟨hb, hu⟩ := (he _ _ _).mp hu
    exact ⟨hb, u, hu, v, (hf _ _ _).mp hv, rfl⟩
  · rintro ⟨hb, u, hu, v, hv, rfl⟩
    exact ⟨u, v, rfl, (he _ _ _).mpr ⟨hb, hu⟩, (hf _ _ _).mpr hv⟩

/-- An expression stands for the words of a language that begin a text and end it, a last line feed
apart. -/
def Frames (e : Expr) (L : Language Char) : Prop :=
  ∀ before w after, e.Spans before w after ↔ before = [] ∧ w ∈ L ∧ (after = [] ∨ after = ['\n'])

theorem Opens.frames (he : e.Opens L) : (e.seq (place .lastLineEnd)).Frames L := by
  intro before w after
  have hend : ∀ before v, (place .lastLineEnd).Spans before v after ↔
      v = [] ∧ (after = [] ∨ after = ['\n']) := by
    intro before v
    simp [Spans, Place.holds]
  constructor
  · rintro ⟨u, v, rfl, hu, hv⟩
    obtain ⟨rfl, ha⟩ := (hend _ _).mp hv
    obtain ⟨hb, hu⟩ := (he _ _ _).mp hu
    exact ⟨hb, by rwa [List.append_nil], ha⟩
  · rintro ⟨hb, hw, ha⟩
    exact ⟨w, [], (List.append_nil w).symm, (he _ _ _).mpr ⟨hb, hw⟩, (hend _ _).mpr ⟨rfl, ha⟩⟩

theorem Frames.group (he : e.Frames L) (index : Nat) : (e.group index).Frames L := he

theorem Frames.alt (he : e.Frames L) (hf : f.Frames M) : (e.alt f).Frames (L + M) := by
  intro before w after
  change e.Spans before w after ∨ f.Spans before w after ↔ _
  rw [he, hf, Language.mem_add]
  tauto

theorem Opens.search_iff (he : e.Opens L) (h : e.isPlain = true) {text : List Char} :
    e.search text = true ↔ ∃ w ∈ L, w <+: text := by
  rw [search_eq_true_iff h]
  constructor
  · rintro ⟨skipped, w, after, rfl, hs⟩
    obtain ⟨hb, hw⟩ := (he _ _ _).mp hs
    obtain rfl : skipped = [] := List.reverse_eq_nil_iff.mp hb
    exact ⟨w, hw, List.prefix_append w after⟩
  · rintro ⟨w, hw, after, rfl⟩
    exact ⟨[], w, after, rfl, (he _ _ _).mpr ⟨rfl, hw⟩⟩

theorem Frames.search_iff (he : e.Frames L) (h : e.isPlain = true) {text : List Char} :
    e.search text = true ↔ ∃ w ∈ L, UpToLineFeed w text := by
  rw [search_eq_true_iff h]
  constructor
  · rintro ⟨skipped, w, after, rfl, hs⟩
    obtain ⟨hb, hw, ha⟩ := (he _ _ _).mp hs
    obtain rfl : skipped = [] := List.reverse_eq_nil_iff.mp hb
    obtain rfl | rfl := ha
    · exact ⟨w, hw, Or.inl (List.append_nil w)⟩
    · exact ⟨w, hw, Or.inr rfl⟩
  · rintro ⟨w, hw, rfl | rfl⟩
    · exact ⟨[], text, [], (List.append_nil text).symm, (he _ _ _).mpr ⟨rfl, hw, Or.inl rfl⟩⟩
    · exact ⟨[], w, ['\n'], rfl, (he _ _ _).mpr ⟨rfl, hw, Or.inr rfl⟩⟩

end

end Expr

end FormGuard.Regex
