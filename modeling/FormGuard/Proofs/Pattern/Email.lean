import FormGuard.Main
import FormGuard.Proofs.Pattern.Named

/-! Addresses: the language of the e-mail pattern, and where line breaks get into what is accepted. -/
namespace FormGuard

open scoped Computability

namespace Regex

/-- Every letter of every word passes a test. -/
def Within (test : Char → Bool) (L : Language Char) : Prop := ∀ w ∈ L, ∀ c ∈ w, test c = true

section
variable {test : Char → Bool} {L M : Language Char}

theorem within_one : Within test 1 := by
  rintro w rfl c hc
  cases hc

theorem within_char {c : Char} (h : test c = true) : Within test {[c]} := by
  rintro w rfl d hd
  obtain rfl := List.mem_singleton.mp hd
  exact h

theorem within_letters {letter : Char → Bool} (h : ∀ c, letter c = true → test c = true) :
    Within test (letters letter) := by
  rintro w ⟨c, rfl, hc⟩ d hd
  obtain rfl := List.mem_singleton.mp hd
  exact h d hc

theorem Within.imp {other : Char → Bool} (hl : Within test L)
    (h : ∀ c, test c = true → other c = true) : Within other L :=
  fun w hw c hc => h c (hl w hw c hc)

theorem Within.add (hl : Within test L) (hm : Within test M) : Within test (L + M) := by
  intro w hw
  rcases (Language.mem_add L M w).mp hw with h | h
  · exact hl w h
  · exact hm w h

theorem Within.mul (hl : Within test L) (hm : Within test M) : Within test (L * M) := by
  rintro w ⟨u, hu, v, hv, rfl⟩ c hc
  rcases List.mem_append.mp hc with h | h
  · exact hl u hu c h
  · exact hm v hv c h

theorem Within.kstar (hl : Within test L) : Within test L∗ := by
  rintro w ⟨words, rfl, h⟩ c hc
  obtain ⟨word, hword, hc⟩ := List.mem_flatten.mp hc
  exact hl word (h word hword) c hc

theorem Within.plus (hl : Within test L) : Within test (L * L∗) := hl.mul hl.kstar

theorem Within.pow (hl : Within test L) (n : Nat) : Within test (L ^ n) := by
  induction n with
  | zero => exact within_one
  | succ n ih => exact pow_succ L n ▸ ih.mul hl

end

end Regex

namespace Pattern
open Regex Regex.Expr

/-! Characters and languages. -/

/-- What may stand between the quotes of a local part. -/
def isQuotable (c : Char) : Bool :=
  !(['"', '\x0c', '\n', '\r', '\t', '\x0b', '\x08'].contains c)

/-- The marks of a local part without quotes. -/
def marks : List Char :=
  ['!', '#', '$', '%', '&', '\'', '*', '+', '-', '~', '/', '^', '`', '|', '\x7b', '\x7d']

/-- What may stand in a local part without quotes, between its points. -/
def isAtomic (c : Char) : Bool := (c.isAlphanum || c == '_') || marks.contains c

/-- What may stand in a host name, between its points. -/
def isLabel (c : Char) : Bool := c.isAlphanum || c == '-'

/-- What may stand behind the last point of a host name. -/
def isTopLabel (c : Char) : Bool := c.isAlpha || c == '-'

def isBetween (low high c : Char) : Bool := low ≤ c && c ≤ high

def quotedParts : Language Char :=
  {['"']} * (letters isQuotable * (letters isQuotable)∗) * {['"']}

def dottedParts : Language Char :=
  letters isAtomic * (letters isAtomic)∗ * ({['.']} * (letters isAtomic * (letters isAtomic)∗))∗

/-- The numbers up to 255, with zeros in front or none. -/
def octets : Language Char :=
  {['2']} * {['5']} * letters (isBetween '0' '5') +
    ({['2']} * letters (isBetween '0' '4') * letters Char.isDigit +
      (1 + letters (isBetween '0' '1')) * (1 + letters Char.isDigit) * letters Char.isDigit)

def hosts : Language Char :=
  letters isLabel * (letters isLabel)∗ * {['.']} * (letters isLabel * (letters isLabel)∗ * {['.']})∗ *
    (letters isTopLabel * (letters isTopLabel)∗)

/-- What may stand behind the sign: four numbers between brackets or without them, or a host name. -/
def places : Language Char :=
  {['[']} * (octets * {['.']}) ^ 3 * octets * {[']']} + ((octets * {['.']}) ^ 3 * octets + hosts)

def addresses : Language Char := (quotedParts + dottedParts) * {['@']} * places

/-! The expression. -/

def quotable : Expr :=
  .single ⟨true, ['"', '\x0c', '\n', '\r', '\t', '\x0b', '\x08'].map one, .exact⟩

def atomic : Expr := oneOf (.category .word .ascii false :: marks.map one)

def localPart : Expr :=
  .alt (.group 2 (.seq (.seq (char '"') quotable.plus) (char '"')))
    (.group 3 (.seq atomic.plus (star (.group 4 (.seq (char '.') atomic.plus)))))

/-- A number up to 255; the groups are counted from the one around it. -/
def octet (index : Nat) : Expr :=
  .group index
    (.alt (.group (index + 1) (.seq (.seq (char '2') (char '5')) (oneOf [.range 48 53])))
      (.alt
        (.group (index + 2) (.seq (.seq (char '2') (oneOf [.range 48 52])) (oneOf [.range 48 57])))
        (.group (index + 3) (.seq (.seq (oneOf [.range 48 49]).optional (oneOf [.range 48 57]).optional)
          (oneOf [.range 48 57])))))

def threeOctets (index : Nat) : Expr :=
  .rounds 3 (some 3) .greedy (.group index (.seq (octet (index + 1)) (char '.')))

def label : Expr := oneOf [.range 65 90, .range 97 122, .range 48 57, one '-']

def topLabel : Expr := oneOf [.range 65 90, .range 97 122, one '-']

def place : Expr :=
  .alt (.group 6 (.seq (.seq (.seq (char '[') (threeOctets 7)) (octet 12)) (char ']')))
    (.alt (.group 16 (.seq (threeOctets 17) (octet 22)))
      (.group 26 (.seq (plus (.group 27 (.seq (plus (.group 28 label)) (char '.')))) topLabel.plus)))

def address : Expr :=
  .seq (.seq (.seq (.seq (.place .textStart) (.group 1 localPart)) (char '@')) (.group 5 place))
    (.place .lastLineEnd)

theorem compile_email : email.compile = .ok ⟨address, plainSwitches⟩ := by
  refine (compile_of_toList (p := email) (by
    unfold email
    simp only [String.toList_append]
    iterate 7 rewrite [String.toList_ofList]
    exact rfl)).trans ?_
  decide +kernel

theorem spells_quotable : quotable.Spells (letters isQuotable) := by
  have htest : (CharClass.mk true (['"', '\x0c', '\n', '\r', '\t', '\x0b', '\x08'].map one)
      .exact).holds = isQuotable := by
    funext c
    rw [CharClass.holds, any_one, isQuotable]
    exact Bool.bne_true _
  exact htest ▸ spells_single _

theorem spells_atomic : atomic.Spells (letters isAtomic) :=
  spells_oneOf fun c => by
    rw [List.any_cons, any_one, isAtomic]
    simp [ClassItem.holds, Folding.lower, Category.holds]

theorem spells_label : label.Spells (letters isLabel) :=
  spells_oneOf fun c => by
    have hdigit : (ClassItem.range 48 57).holds .exact c = c.isDigit := holds_range
    simp only [List.any_cons, List.any_nil, Bool.or_false, holds_one, isLabel, Char.isAlphanum,
      ← holds_alpha, ← Bool.or_assoc, ← hdigit]
    rw [Bool.or_comm ((ClassItem.range 65 90).holds .exact c)]

theorem spells_topLabel : topLabel.Spells (letters isTopLabel) :=
  spells_oneOf fun c => by
    simp only [List.any_cons, List.any_nil, Bool.or_false, holds_one, isTopLabel, ← holds_alpha,
      ← Bool.or_assoc]
    rw [Bool.or_comm ((ClassItem.range 65 90).holds .exact c)]

theorem spells_between (low high : Char) :
    (oneOf [.range low.toNat high.toNat]).Spells (letters (isBetween low high)) :=
  spells_oneOf fun c => by
    rw [List.any_cons, List.any_nil, Bool.or_false, holds_range]
    rfl

theorem spells_localPart : localPart.Spells (quotedParts + dottedParts) :=
  ((((spells_char '"').seq spells_quotable.plus).seq (spells_char '"')).group 2).alt
    ((spells_atomic.plus.seq ((((spells_char '.').seq spells_atomic.plus).group 4).star)).group 3)

theorem spells_octet (index : Nat) : (octet index).Spells octets :=
  ((((spells_char '2').seq (spells_char '5')).seq (spells_between '0' '5')).group _).alt
    (((((spells_char '2').seq (spells_between '0' '4')).seq spells_digits).group _).alt
      ((((spells_between '0' '1').optional.seq spells_digits.optional).seq spells_digits).group _))

theorem spells_threeOctets (index : Nat) :
    (threeOctets index).Spells ((octets * {['.']}) ^ 3) :=
  (((spells_octet _).seq (spells_char '.')).group index).times 3 .greedy

theorem spells_place : place.Spells places :=
  (((((spells_char '[').seq (spells_threeOctets 7)).seq (spells_octet 12)).seq
      (spells_char ']')).group 6).alt
    ((((spells_threeOctets 17).seq (spells_octet 22)).group 16).alt
      ((((((spells_label.group 28).plus.seq (spells_char '.')).group 27).plus).seq
        spells_topLabel.plus).group 26))

theorem frames_address : address.Frames addresses := by
  have h := (((opens_textStart.seq (spells_localPart.group 1)).seq (spells_char '@')).seq
    (spells_place.group 5)).frames
  rw [one_mul] at h
  exact h

theorem email_search_iff {text : List Char} :
    address.search text = true ↔ ∃ t ∈ addresses, UpToLineFeed t text :=
  frames_address.search_iff rfl

theorem accepts_email (host : Host) (name format : Value) (s : String) :
    Rule.email.accepts host name format (.text s) = .ok (address.search s.toList) := by
  change (Rule.matchesPattern email (.text s)).map Value.truthy = _
  rw [Rule.matchesPattern, Rule.search_text, search_of_compile compile_email]
  rfl

/-! Line breaks. -/

/-- The line breaks outside ASCII. -/
def farBreaks : List Char := ['\u0085', '\u2028', '\u2029']

/-- The characters that end a line in Unicode. -/
def lineBreaks : List Char := ['\n', '\x0b', '\x0c', '\r'] ++ farBreaks

def isLineBreak (c : Char) : Bool := lineBreaks.contains c

/-- What passes one test and no line break passes has no line break in it. -/
theorem not_isLineBreak {test : Char → Bool} (h : lineBreaks.any test = false) (c : Char)
    (hc : test c = true) : (!isLineBreak c) = true := by
  rw [Bool.not_eq_true', isLineBreak, Bool.eq_false_iff]
  intro hb
  exact List.any_eq_false.mp h c (List.contains_iff_mem.mp hb) hc

theorem within_dottedParts : Within (fun c => !isLineBreak c) dottedParts := by
  have hatom : lineBreaks.any isAtomic = false := by decide
  have hatoms := within_letters (not_isLineBreak hatom)
  exact hatoms.plus.mul ((within_char rfl).mul hatoms.plus).kstar

theorem isBetween_iff {low high c : Char} :
    isBetween low high c = true ↔ low.toNat ≤ c.toNat ∧ c.toNat ≤ high.toNat := by
  rw [isBetween, Bool.and_eq_true, decide_eq_true_eq, decide_eq_true_eq]
  rfl

theorem within_octets : Within Char.isDigit octets := by
  have hdigits : Within Char.isDigit (letters Char.isDigit) := within_letters fun _ h => h
  have hupTo : ∀ high, high.toNat ≤ '9'.toNat →
      Within Char.isDigit (letters (isBetween '0' high)) := fun high hh =>
    within_letters fun c hc => by
      obtain ⟨hl, hr⟩ := isBetween_iff.mp hc
      exact Char.isDigit_iff_toNat.mpr ⟨hl, hr.trans hh⟩
  have htwo : Within Char.isDigit {['2']} := within_char rfl
  have hfive : Within Char.isDigit {['5']} := within_char rfl
  exact ((htwo.mul hfive).mul (hupTo '5' (by decide))).add
    (((htwo.mul (hupTo '4' (by decide))).mul hdigits).add
      (((within_one.add (hupTo '1' (by decide))).mul (within_one.add hdigits)).mul hdigits))

theorem within_places : Within (fun c => !isLineBreak c) places := by
  have hlabel : lineBreaks.any isLabel = false := by decide
  have htop : lineBreaks.any isTopLabel = false := by decide
  have hlabels := within_letters (not_isLineBreak hlabel)
  have htops := within_letters (not_isLineBreak htop)
  have hopen : Within (fun c => !isLineBreak c) {['[']} := within_char rfl
  have hclose : Within (fun c => !isLineBreak c) {[']']} := within_char rfl
  have hpoint : Within (fun c => !isLineBreak c) {['.']} := within_char rfl
  have hdigit : lineBreaks.any Char.isDigit = false := by decide
  have hoctets := within_octets.imp (not_isLineBreak hdigit)
  have hthree := (hoctets.mul hpoint).pow 3
  have hhosts : Within (fun c => !isLineBreak c) hosts :=
    ((hlabels.plus.mul hpoint).mul (hlabels.plus.mul hpoint).kstar).mul htops.plus
  exact (((hopen.mul hthree).mul hoctets).mul hclose).add ((hthree.mul hoctets).add hhosts)

theorem quoted_of_mem {u : List Char} (h : u ∈ quotedParts) :
    ∃ q, u = '"' :: (q ++ ['"']) ∧ ∀ c ∈ q, isQuotable c = true := by
  rw [quotedParts, mul_assoc, mem_char_mul] at h
  obtain ⟨v, hv, rfl⟩ := h
  obtain ⟨q, hq, _, rfl, rfl⟩ := Language.mem_mul.mp hv
  exact ⟨q, rfl, (mem_letters_plus.mp hq).2⟩

/-- A line break outside ASCII stands between the quotes of the local part. -/
def BreaksQuoted (text : List Char) : Prop :=
  ∃ q rest, text = '"' :: (q ++ '"' :: '@' :: rest) ∧ '"' ∉ q ∧ ∃ c ∈ q, c ∈ farBreaks

/-- Line breaks stand in an address only between the quotes of its local part, and none of them is
in ASCII. -/
theorem breaksQuoted_of_isLineBreak {t : List Char} {c : Char} (ht : t ∈ addresses) (hc : c ∈ t)
    (hb : isLineBreak c = true) : BreaksQuoted t := by
  have hnone : ∀ {L}, Within (fun c => !isLineBreak c) L → ∀ w ∈ L, c ∉ w := by
    intro L hL w hw hcw
    have hbreak := hL w hw c hcw
    simp [hb] at hbreak
  rw [addresses, mul_assoc] at ht
  obtain ⟨u, hu, v, hv, rfl⟩ := Language.mem_mul.mp ht
  obtain ⟨rest, hrest, rfl⟩ := mem_char_mul.mp hv
  have hsign : c ∉ '@' :: rest := by
    rintro (_ | ⟨_, h⟩)
    · exact absurd hb Bool.false_ne_true
    · exact hnone within_places rest hrest h
  have hcu : c ∈ u := (List.mem_append.mp hc).resolve_right hsign
  rcases (Language.mem_add _ _ u).mp hu with hu | hu
  · obtain ⟨q, rfl, hq⟩ := quoted_of_mem hu
    have hquote : c ≠ '"' := by
      rintro rfl
      exact absurd hb Bool.false_ne_true
    have hcq : c ∈ q := by simpa [hquote] using hcu
    have hclose : '"' ∉ q := fun h => absurd (hq _ h) Bool.false_ne_true
    refine ⟨q, rest, by simp, hclose, c, hcq, ?_⟩
    have hqc := hq c hcq
    simp only [isQuotable, isLineBreak, lineBreaks] at hqc hb
    grind
  · exact absurd hcu (hnone within_dottedParts u hu)

theorem isLineBreak_of_mem_farBreaks {c : Char} (h : c ∈ farBreaks) : isLineBreak c = true :=
  List.contains_iff_mem.mpr (List.mem_append_right _ h)

theorem free_iff_of_accepted {text : List Char} (h : ∃ t ∈ addresses, UpToLineFeed t text) :
    (∀ c ∈ text, isLineBreak c = false) ↔ text.getLast? ≠ some '\n' ∧ ¬ BreaksQuoted text := by
  constructor
  · intro hfree
    constructor
    · intro hlast
      exact absurd (hfree _ (List.mem_of_getLast? hlast)) (by decide)
    · rintro ⟨q, rest, rfl, -, c, hcq, hc⟩
      have hmem : c ∈ '"' :: (q ++ '"' :: '@' :: rest) :=
        List.mem_cons_of_mem _ (List.mem_append_left _ hcq)
      exact absurd (hfree c hmem) (by rw [isLineBreak_of_mem_farBreaks hc]; decide)
  · rintro ⟨hlast, hquoted⟩ c hc
    obtain ⟨t, ht, rfl | rfl⟩ := h
    · exact Bool.eq_false_iff.mpr fun hb => hquoted (breaksQuoted_of_isLineBreak ht hc hb)
    · exact absurd List.getLast?_concat hlast

/-- What a line feed at the end takes from a text of letters that pass a test. -/
theorem letters_iff_of_upToLineFeed {test : Char → Bool} {text : List Char}
    (hn : test '\n' = false) :
    (text ≠ [] ∧ ∀ c ∈ text, test c = true) ↔
      (∃ t, UpToLineFeed t text ∧ t ≠ [] ∧ ∀ c ∈ t, test c = true) ∧
        text.getLast? ≠ some '\n' := by
  constructor
  · rintro ⟨hne, h⟩
    refine ⟨⟨text, Or.inl rfl, hne, h⟩, fun hlast => ?_⟩
    rw [h _ (List.mem_of_getLast? hlast)] at hn
    cases hn
  · rintro ⟨⟨t, rfl | rfl, hne, h⟩, hlast⟩
    · exact ⟨hne, h⟩
    · exact absurd List.getLast?_concat hlast

/-- A text passes as letters, as letters and digits or as an address exactly if it is one, a line
feed at its end apart. Without that line feed it is one as it stands, and an address is then free of
line breaks unless one from outside ASCII is quoted in it. -/
theorem anchors_hold_up_to_line_feed (host : Host) (name format : Value) (s : String) :
    (∃ b, (Rule.regex Patterns.initial).accepts host (.text "lettersonly") format (.text s) = .ok b ∧
      (b = true ↔ ∃ t, UpToLineFeed t s.toList ∧ t ≠ [] ∧ ∀ c ∈ t, c.isAlpha = true) ∧
      ((s.toList ≠ [] ∧ ∀ c ∈ s.toList, c.isAlpha = true) ↔
        b = true ∧ s.toList.getLast? ≠ some '\n')) ∧
    (∃ b, (Rule.regex Patterns.initial).accepts host (.text "alphanumeric") format (.text s) =
        .ok b ∧
      (b = true ↔ ∃ t, UpToLineFeed t s.toList ∧ t ≠ [] ∧ ∀ c ∈ t, c.isAlphanum = true) ∧
      ((s.toList ≠ [] ∧ ∀ c ∈ s.toList, c.isAlphanum = true) ↔
        b = true ∧ s.toList.getLast? ≠ some '\n')) ∧
    ∃ b, Rule.email.accepts host name format (.text s) = .ok b ∧
      (b = true ↔ ∃ t ∈ addresses, UpToLineFeed t s.toList) ∧
      ((b = true ∧ ∀ c ∈ s.toList, isLineBreak c = false) ↔
        b = true ∧ s.toList.getLast? ≠ some '\n' ∧ ¬ BreaksQuoted s.toList) := by
  have hletters : ("lettersonly", lettersOnly) ∈ named := by simp [named]
  have halphanumeric : ("alphanumeric", alphanumeric) ∈ named := by simp [named]
  refine ⟨⟨_, accepts_of_compile hletters compile_lettersOnly host format s,
      anchored_search_iff spells_alpha, ?_⟩,
    ⟨_, accepts_of_compile halphanumeric compile_alphanumeric host format s,
      anchored_search_iff spells_alphanum, ?_⟩,
    _, accepts_email host name format s, email_search_iff, and_congr_right fun hb => ?_⟩
  · rw [anchored_search_iff spells_alpha]
    exact letters_iff_of_upToLineFeed (by decide)
  · rw [anchored_search_iff spells_alphanum]
    exact letters_iff_of_upToLineFeed (by decide)
  · exact free_iff_of_accepted (email_search_iff.mp hb)

/-- A line feed at the end passes with letters, with letters and digits and with an address. -/
theorem line_feed_passes :
    (Rule.regex Patterns.initial).accepts Host.bare (.text "lettersonly") .null (.text "abc\n") =
      .ok true ∧
    (Rule.regex Patterns.initial).accepts Host.bare (.text "alphanumeric") .null
      (.text "abc1\n") = .ok true ∧
    Rule.email.accepts Host.bare (.text "email") .null (.text "user@example.com\n") = .ok true ∧
    '\n'.isAlpha = false ∧ '\n'.isAlphanum = false ∧ isLineBreak '\n' = true := by
  have hletters : ("lettersonly", lettersOnly) ∈ named := by simp [named]
  have halphanumeric : ("alphanumeric", alphanumeric) ∈ named := by simp [named]
  have hmail : address.search "user@example.com\n".toList = true := by decide +kernel
  refine ⟨?_, ?_, ?_, by decide, by decide, by decide⟩
  · rw [accepts_of_compile hletters compile_lettersOnly]
    exact congrArg _
      ((anchored_search_iff spells_alpha).mpr ⟨['a', 'b', 'c'], Or.inr rfl, by simp, by simp⟩)
  · rw [accepts_of_compile halphanumeric compile_alphanumeric]
    exact congrArg _ ((anchored_search_iff spells_alphanum).mpr
      ⟨['a', 'b', 'c', '1'], Or.inr rfl, by simp, by simp⟩)
  · rw [accepts_email, hmail]

end Pattern

end FormGuard
