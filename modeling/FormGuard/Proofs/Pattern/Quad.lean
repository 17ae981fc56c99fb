import FormGuard.Proofs.Pattern.Email

/-! Addresses at four numbers: which numbers pass, in brackets or without them, and that no host name
stands in for them. -/
namespace FormGuard

open scoped Computability

namespace Pattern
open Regex

/-! Numbers up to 255. -/

/-- At most three digits, and at most 255. -/
def IsOctet (d : List Char) : Prop := d.length ≤ 3 ∧ Nat.ofDigitChars 10 d 0 ≤ 255

instance (d : List Char) : Decidable (IsOctet d) := inferInstanceAs (Decidable (_ ∧ _))

theorem mem_one_add_letters_mul {test : Char → Bool} {L : Language Char} {w : List Char} :
    w ∈ (1 + letters test) * L ↔ w ∈ L ∨ ∃ c v, w = c :: v ∧ test c = true ∧ v ∈ L := by
  rw [add_mul, one_mul, Language.mem_add, mem_letters_mul]

/-- The alternatives one by one: from 250, from 200, and below 200 with one digit, two or three. -/
theorem mem_octets {w : List Char} : w ∈ octets ↔
    (∃ c, w = ['2', '5', c] ∧ isBetween '0' '5' c = true) ∨
    (∃ b c, w = ['2', b, c] ∧ isBetween '0' '4' b = true ∧ c.isDigit = true) ∨
    (∃ c, w = [c] ∧ c.isDigit = true) ∨
    (∃ b c, w = [b, c] ∧ (b.isDigit = true ∨ isBetween '0' '1' b = true) ∧ c.isDigit = true) ∨
    ∃ a b c, w = [a, b, c] ∧ isBetween '0' '1' a = true ∧ b.isDigit = true ∧ c.isDigit = true := by
  rw [octets]
  simp only [mul_assoc, Language.mem_add, mem_char_mul, mem_one_add_letters_mul, mem_letters_mul,
    mem_letters]
  match w with
  | [] => simp
  | [c] => simp
  | [b, c] => simp; tauto
  | [a, b, c] => simp; tauto
  | a :: b :: c :: d :: rest => simp

theorem mem_octets_three {a b c : Char} : [a, b, c] ∈ octets ↔
    (a = '2' ∧ b = '5' ∧ isBetween '0' '5' c = true) ∨
    (a = '2' ∧ isBetween '0' '4' b = true ∧ c.isDigit = true) ∨
    (isBetween '0' '1' a = true ∧ b.isDigit = true ∧ c.isDigit = true) := by
  simp [mem_octets, and_assoc]

/-- Of digits the alternatives take in exactly the numbers up to 255. -/
theorem mem_octets_iff {w : List Char} (hne : w ≠ []) (hd : ∀ c ∈ w, c.isDigit = true) :
    w ∈ octets ↔ IsOctet w := by
  have hrange : ∀ c ∈ w, 48 ≤ c.toNat ∧ c.toNat ≤ 57 := fun c hc =>
    Char.isDigit_iff_toNat.mp (hd c hc)
  match w with
  | [] => exact absurd rfl hne
  | [c] =>
    have hvalue : Nat.ofDigitChars 10 [c] 0 ≤ 255 := by
      simp only [List.forall_mem_cons] at hrange
      simp [Nat.ofDigitChars_cons]
      omega
    simp [mem_octets, IsOctet, hd c, hvalue]
  | [b, c] =>
    have hvalue : Nat.ofDigitChars 10 [b, c] 0 ≤ 255 := by
      simp only [List.forall_mem_cons] at hrange
      simp [Nat.ofDigitChars_cons]
      omega
    simp [mem_octets, IsOctet, hd b, hd c, hvalue]
  | [a, b, c] =>
    have hvalue : Nat.ofDigitChars 10 [a, b, c] 0 =
        10 * (10 * (a.toNat - 48) + (b.toNat - 48)) + (c.toNat - 48) := by
      simp [Nat.ofDigitChars_cons]
    have htwo : a = '2' ↔ a.toNat = 50 := Char.toNat_inj.symm
    have hfive : b = '5' ↔ b.toNat = 53 := Char.toNat_inj.symm
    simp only [List.forall_mem_cons] at hrange
    rw [mem_octets_three, IsOctet, hvalue, htwo, hfive]
    simp only [isBetween_iff, Char.isDigit_iff_toNat, List.length_cons, List.length_nil]
    change (_ ∧ _ ∧ 48 ≤ _ ∧ _ ≤ 53) ∨ (_ ∧ (48 ≤ _ ∧ _ ≤ 52) ∧ 48 ≤ _ ∧ _ ≤ 57) ∨
      ((48 ≤ _ ∧ _ ≤ 49) ∧ (48 ≤ _ ∧ _ ≤ 57) ∧ 48 ≤ _ ∧ _ ≤ 57) ↔ _
    omega
  | a :: b :: c :: d :: rest => simp [mem_octets, IsOctet]

/-! Four numbers. -/

/-- Four texts with a point between each two. -/
def quad (a b c d : List Char) : List Char := a ++ '.' :: (b ++ '.' :: (c ++ '.' :: d))

theorem mem_quads {w : List Char} : w ∈ (octets * {['.']}) ^ 3 * octets ↔
    ∃ a ∈ octets, ∃ b ∈ octets, ∃ c ∈ octets, ∃ d ∈ octets, w = quad a b c d := by
  have hpoint : ∀ {L : Language Char} {w}, w ∈ octets * ({['.']} * L) ↔
      ∃ a ∈ octets, ∃ v ∈ L, w = a ++ '.' :: v := by
    intro L w
    rw [Language.mem_mul]
    constructor
    · rintro ⟨a, ha, pointed, hp, rfl⟩
      obtain ⟨v, hv, rfl⟩ := mem_char_mul.mp hp
      exact ⟨a, ha, v, hv, rfl⟩
    · rintro ⟨a, ha, v, hv, rfl⟩
      exact ⟨a, ha, '.' :: v, mem_char_mul.mpr ⟨v, hv, rfl⟩, rfl⟩
  simp only [pow_succ, pow_zero, one_mul, mul_assoc, hpoint]
  constructor
  · rintro ⟨a, ha, _, ⟨b, hb, _, ⟨c, hc, d, hd, rfl⟩, rfl⟩, rfl⟩
    exact ⟨a, ha, b, hb, c, hc, d, hd, rfl⟩
  · rintro ⟨a, ha, b, hb, c, hc, d, hd, rfl⟩
    exact ⟨a, ha, _, ⟨b, hb, _, ⟨c, hc, d, hd, rfl⟩, rfl⟩, rfl⟩

theorem point_not_mem {d : List Char} (hd : ∀ c ∈ d, c.isDigit = true) : '.' ∉ d :=
  fun h => absurd (hd _ h) (by decide)

variable {a b c d : List Char}

/-- Four texts of digits are taken in exactly if each is. -/
theorem quad_mem_iff (ha : ∀ x ∈ a, x.isDigit = true) (hb : ∀ x ∈ b, x.isDigit = true)
    (hc : ∀ x ∈ c, x.isDigit = true) : quad a b c d ∈ (octets * {['.']}) ^ 3 * octets ↔
      a ∈ octets ∧ b ∈ octets ∧ c ∈ octets ∧ d ∈ octets := by
  have hno : ∀ w ∈ octets, '.' ∉ w := fun w hw => point_not_mem (within_octets w hw)
  rw [mem_quads]
  constructor
  · rintro ⟨first, hfirst, second, hsecond, third, hthird, fourth, hfourth, h⟩
    obtain ⟨rfl, htwo⟩ := (Text.append_cons_inj (point_not_mem ha) (hno first hfirst)).mp h
    obtain ⟨rfl, hone⟩ := (Text.append_cons_inj (point_not_mem hb) (hno second hsecond)).mp htwo
    obtain ⟨rfl, rfl⟩ := (Text.append_cons_inj (point_not_mem hc) (hno third hthird)).mp hone
    exact ⟨hfirst, hsecond, hthird, hfourth⟩
  · rintro ⟨hfirst, hsecond, hthird, hfourth⟩
    exact ⟨a, hfirst, b, hsecond, c, hthird, d, hfourth, rfl⟩

/-! Addresses. -/

theorem mem_places {w : List Char} : w ∈ places ↔
    (∃ v ∈ (octets * {['.']}) ^ 3 * octets, w = '[' :: (v ++ [']'])) ∨
      w ∈ (octets * {['.']}) ^ 3 * octets ∨ w ∈ hosts := by
  have hbrackets : w ∈ {['[']} * (octets * {['.']}) ^ 3 * octets * {[']']} ↔
      ∃ v ∈ (octets * {['.']}) ^ 3 * octets, w = '[' :: (v ++ [']']) := by
    rw [mul_assoc {['[']}, mul_assoc {['[']}, mem_char_mul]
    constructor
    · rintro ⟨_, h, rfl⟩
      obtain ⟨v, hv, _, rfl, rfl⟩ := Language.mem_mul.mp h
      exact ⟨v, hv, rfl⟩
    · rintro ⟨v, hv, rfl⟩
      exact ⟨_, Language.mem_mul.mpr ⟨v, hv, [']'], rfl, rfl⟩, rfl⟩
  rw [places, Language.mem_add, Language.mem_add, hbrackets]

/-- A host name ends in a letter or a hyphen. -/
theorem last_of_mem_hosts {w : List Char} (h : w ∈ hosts) :
    ∃ c, w.getLast? = some c ∧ isTopLabel c = true := by
  obtain ⟨u, _, v, hv, rfl⟩ := Language.mem_mul.mp h
  obtain ⟨hne, hall⟩ := mem_letters_plus.mp hv
  refine ⟨v.getLast hne, ?_, hall _ (List.getLast_mem hne)⟩
  rw [List.getLast?_append_of_ne_nil u hne, List.getLast?_eq_getLast_of_ne_nil hne]

theorem not_isTopLabel_of_isDigit {c : Char} (h : c.isDigit = true) : isTopLabel c = false := by
  have hrange : 48 ≤ c.toNat ∧ c.toNat ≤ 57 := Char.isDigit_iff_toNat.mp h
  have hhyphen : (c == '-') = false := beq_false_of_ne (by rintro rfl; cases h)
  rw [isTopLabel, hhyphen, ← holds_alpha, Expr.holds_range, Expr.holds_range]
  simp
  omega

/-- Atoms with a point between each two. -/
def IsDotAtom (l : List Char) : Prop :=
  ∃ atoms : List (List Char), atoms ≠ [] ∧ (∀ a ∈ atoms, a ≠ [] ∧ ∀ c ∈ a, isAtomic c = true) ∧
    l = ['.'].intercalate atoms

theorem IsDotAtom.mem {l : List Char} (h : IsDotAtom l) : l ∈ dottedParts := by
  obtain ⟨atoms, hne, hall, rfl⟩ := h
  obtain ⟨first, rest, rfl⟩ := List.exists_cons_of_ne_nil hne
  obtain ⟨hfirst, hrest⟩ := List.forall_mem_cons.mp hall
  have hcut : ['.'].intercalate (first :: rest) = first ++ (rest.map ('.' :: ·)).flatten := by
    clear hne hall hfirst hrest
    induction rest generalizing first with
    | nil => simp
    | cons second rest ih => rw [List.intercalate_cons_cons, ih]; simp
  rw [hcut, dottedParts]
  refine Language.mem_mul.mpr ⟨first, mem_letters_plus.mpr hfirst, _, ?_, rfl⟩
  refine Language.mem_kstar.mpr ⟨_, rfl, fun w hw => ?_⟩
  obtain ⟨atom, hatom, rfl⟩ := List.mem_map.mp hw
  exact mem_char_mul.mpr ⟨atom, mem_letters_plus.mpr (hrest atom hatom), rfl⟩

theorem within_plain_dottedParts : Within (fun c => c != '@' && c != '"') dottedParts := by
  have hatoms : Within (fun c => c != '@' && c != '"') (letters isAtomic) := by
    refine within_letters fun c hc => ?_
    rw [Bool.and_eq_true, bne_iff_ne, bne_iff_ne]
    constructor <;> rintro rfl <;> exact absurd hc (by decide)
  exact hatoms.plus.mul ((within_char rfl).mul hatoms.plus).kstar

/-- Behind a local part without quotes the place begins at the one sign. -/
theorem mem_addresses_iff {l p : List Char} (hl : IsDotAtom l) :
    l ++ '@' :: p ∈ addresses ↔ p ∈ places := by
  have hplain := within_plain_dottedParts
  have hno : ∀ u ∈ dottedParts, '@' ∉ u := fun u hu hm => absurd (hplain u hu _ hm) (by decide)
  rw [addresses, mul_assoc]
  constructor
  · intro h
    obtain ⟨u, hu, v, hv, h⟩ := Language.mem_mul.mp h
    obtain ⟨place, hplace, rfl⟩ := mem_char_mul.mp hv
    rcases (Language.mem_add _ _ u).mp hu with hu | hu
    · -- a quoted part begins with a quote, which no atom holds
      obtain ⟨q, rfl, _⟩ := quoted_of_mem hu
      have hquote : '"' ∈ l := by
        have hhead := congrArg List.head? h
        cases l with
        | nil => cases hhead
        | cons c rest =>
          cases hhead
          exact List.mem_cons_self
      exact absurd (hplain l hl.mem _ hquote) (by decide)
    · obtain ⟨-, rfl⟩ := (Text.append_cons_inj (hno u hu) (hno l hl.mem)).mp h
      exact hplace
  · intro h
    exact Language.mem_mul.mpr ⟨l, (Language.mem_add _ _ l).mpr (Or.inr hl.mem), '@' :: p,
      mem_char_mul.mpr ⟨p, h, rfl⟩, rfl⟩

/-- Without a line feed at its end an address is a place behind its local part and the sign. -/
theorem search_address_iff {l p : List Char} {c : Char} (hl : IsDotAtom l) (hp : p.getLast? = some c)
    (hc : c ≠ '\n') : address.search (l ++ '@' :: p) = true ↔ p ∈ places := by
  have hlast : (l ++ '@' :: p).getLast? = some c := by
    have hne : p ≠ [] := by
      rintro rfl
      cases hp
    rw [List.getLast?_append_of_ne_nil _ (List.cons_ne_nil _ _), ← hp]
    exact List.getLast?_append_of_ne_nil ['@'] hne
  rw [email_search_iff, ← mem_addresses_iff hl]
  constructor
  · rintro ⟨t, ht, h | h⟩
    · exact h ▸ ht
    · rw [h, List.getLast?_concat] at hlast
      exact absurd (Option.some.inj hlast).symm hc
  · intro h
    exact ⟨_, h, Or.inl rfl⟩

section
variable (hd : ∀ w ∈ [a, b, c, d], w ≠ [] ∧ ∀ x ∈ w, x.isDigit = true)
include hd

/-- Four texts of digits are taken in exactly if each is a number up to 255. -/
theorem quad_mem_iff_isOctet :
    quad a b c d ∈ (octets * {['.']}) ^ 3 * octets ↔ ∀ w ∈ [a, b, c, d], IsOctet w := by
  have hall : ∀ w ∈ [a, b, c, d], (w ∈ octets ↔ IsOctet w) := fun w hw =>
    mem_octets_iff (hd w hw).1 (hd w hw).2
  rw [quad_mem_iff (hd a (by simp)).2 (hd b (by simp)).2 (hd c (by simp)).2]
  simp only [List.forall_mem_cons, List.not_mem_nil, false_implies, implies_true, and_true] at hall ⊢
  rw [hall.1, hall.2.1, hall.2.2.1, hall.2.2.2]

theorem exists_head_quad : ∃ x rest, quad a b c d = x :: rest ∧ x.isDigit = true := by
  obtain ⟨hne, hall⟩ := hd a (by simp)
  obtain ⟨x, rest, rfl⟩ := List.exists_cons_of_ne_nil hne
  exact ⟨x, _, rfl, hall x (by simp)⟩

theorem exists_last_quad : ∃ x, (quad a b c d).getLast? = some x ∧ x.isDigit = true := by
  obtain ⟨hne, hall⟩ := hd d (by simp)
  refine ⟨d.getLast hne, ?_, hall _ (List.getLast_mem hne)⟩
  have hcut : quad a b c d = (a ++ '.' :: (b ++ '.' :: (c ++ ['.']))) ++ d := by simp [quad]
  rw [hcut, List.getLast?_append_of_ne_nil _ hne, List.getLast?_eq_some_getLast hne]

/-- Without brackets there is no other way to read them: a host name does not end in a digit. -/
theorem quad_place_iff : quad a b c d ∈ places ↔ ∀ w ∈ [a, b, c, d], IsOctet w := by
  obtain ⟨first, rest, hfirst, hdigit⟩ := exists_head_quad hd
  obtain ⟨last, hlast, hend⟩ := exists_last_quad hd
  rw [mem_places, ← quad_mem_iff_isOctet hd]
  constructor
  · rintro (⟨v, -, h⟩ | h | h)
    · rw [hfirst] at h
      cases h
      cases hdigit
    · exact h
    · obtain ⟨c, hc, htop⟩ := last_of_mem_hosts h
      rw [hlast] at hc
      cases hc
      rw [not_isTopLabel_of_isDigit hend] at htop
      cases htop
  · exact fun h => Or.inr (Or.inl h)

/-- Within brackets there is no other way to read them either. -/
theorem bracketed_place_iff :
    '[' :: (quad a b c d ++ [']']) ∈ places ↔ ∀ w ∈ [a, b, c, d], IsOctet w := by
  have hlast : ('[' :: (quad a b c d ++ [']'])).getLast? = some ']' :=
    List.getLast?_concat (l := '[' :: quad a b c d)
  have hpoint : Within (fun c => c.isDigit || c == '.') {['.']} := within_char rfl
  have hoctets : Within (fun c => c.isDigit || c == '.') octets :=
    within_octets.imp fun c hc => by rw [hc, Bool.true_or]
  rw [mem_places, ← quad_mem_iff_isOctet hd]
  constructor
  · rintro (⟨v, hv, h⟩ | h | h)
    · rw [List.cons.injEq, List.append_cancel_right_eq] at h
      exact h.2 ▸ hv
    · have hopen := ((hoctets.mul hpoint).pow 3).mul hoctets _ h '[' List.mem_cons_self
      cases hopen
    · obtain ⟨c, hc, htop⟩ := last_of_mem_hosts h
      rw [hlast] at hc
      cases hc
      cases htop
  · exact fun h => Or.inl ⟨_, h, rfl⟩

end

/-- Behind a local part without quotes, four texts of digits pass exactly if each is a number up to 255
of at most three digits, and in brackets under the same condition. -/
theorem quads_accepted_iff (host : Host) (name format : Value) {l a b c d : String}
    (hl : IsDotAtom l.toList)
    (hd : ∀ w ∈ [a, b, c, d], w ≠ "" ∧ ∀ x ∈ w.toList, x.isDigit = true) :
    (∃ passed, Rule.email.accepts host name format
        (.text (l ++ "@" ++ a ++ "." ++ b ++ "." ++ c ++ "." ++ d)) = .ok passed ∧
      (passed = true ↔ ∀ w ∈ [a, b, c, d], IsOctet w.toList)) ∧
    ∃ passed, Rule.email.accepts host name format
        (.text (l ++ "@[" ++ a ++ "." ++ b ++ "." ++ c ++ "." ++ d ++ "]")) = .ok passed ∧
      (passed = true ↔ ∀ w ∈ [a, b, c, d], IsOctet w.toList) := by
  have hdigits : ∀ w ∈ [a.toList, b.toList, c.toList, d.toList],
      w ≠ [] ∧ ∀ x ∈ w, x.isDigit = true := by
    simpa using hd
  have hsame : (∀ w ∈ [a.toList, b.toList, c.toList, d.toList], IsOctet w) ↔
      ∀ w ∈ [a, b, c, d], IsOctet w.toList := by
    simp
  obtain ⟨last, hlast, hend⟩ := exists_last_quad hdigits
  refine ⟨⟨_, accepts_email host name format _, ?_⟩, _, accepts_email host name format _, ?_⟩
  · have hcut : (l ++ "@" ++ a ++ "." ++ b ++ "." ++ c ++ "." ++ d).toList =
        l.toList ++ '@' :: quad a.toList b.toList c.toList d.toList := by
      simp [quad]
    have hfeed : last ≠ '\n' := by
      rintro rfl
      cases hend
    rw [hcut, search_address_iff hl hlast hfeed, quad_place_iff hdigits, hsame]
  · have hcut : (l ++ "@[" ++ a ++ "." ++ b ++ "." ++ c ++ "." ++ d ++ "]").toList =
        l.toList ++ '@' :: '[' :: (quad a.toList b.toList c.toList d.toList ++ [']']) := by
      simp [quad]
    have hclose : ('[' :: (quad a.toList b.toList c.toList d.toList ++ [']'])).getLast? =
        some ']' := List.getLast?_concat (l := '[' :: quad _ _ _ _)
    rw [hcut, search_address_iff hl hclose (by decide), bracketed_place_iff hdigits, hsame]

/-- Zeros in front count as digits, and 256 is too large. -/
theorem quads_accepted_iff_root :
    IsDotAtom "it's.me".toList ∧
    (∀ w ∈ ["255", "0", "099", "256"], w ≠ "" ∧ ∀ x ∈ w.toList, x.isDigit = true) ∧
    Rule.email.accepts Host.bare (.text "email") .null (.text "it's.me@255.0.099.0") = .ok true ∧
    Rule.email.accepts Host.bare (.text "email") .null (.text "it's.me@[255.0.099.256]") =
      .ok false := by
  have hits : ∀ c ∈ ['i', 't', '\'', 's'], isAtomic c = true := List.all_eq_true.mp rfl
  have hme : ∀ c ∈ ['m', 'e'], isAtomic c = true := List.all_eq_true.mp rfl
  have hl : IsDotAtom "it's.me".toList :=
    ⟨[['i', 't', '\'', 's'], ['m', 'e']], by simp, List.forall_mem_cons.mpr ⟨⟨by simp, hits⟩,
      List.forall_mem_singleton.mpr ⟨by simp, hme⟩⟩, by decide⟩
  have hd : ∀ w ∈ ["255", "0", "099", "256"], w ≠ "" ∧ ∀ x ∈ w.toList, x.isDigit = true := by
    have hall : ["255", "0", "099", "256"].all fun w => w != "" && w.toList.all Char.isDigit := by
      decide +kernel
    intro w hw
    simpa using List.all_eq_true.mp hall w hw
  have hsub : ["255", "0", "099", "0"] ⊆ ["255", "0", "099", "256"] := by decide +kernel
  obtain ⟨⟨first, hfirst, hok⟩, _⟩ := quads_accepted_iff Host.bare (.text "email") .null
    (a := "255") (b := "0") (c := "099") (d := "0") hl fun w hw => hd w (hsub hw)
  obtain ⟨_, second, hsecond, hno⟩ := quads_accepted_iff Host.bare (.text "email") .null
    (a := "255") (b := "0") (c := "099") (d := "256") hl hd
  have htrue : first = true := hok.mpr (by decide +kernel)
  have hfalse : second = false := by
    rw [Bool.eq_false_iff, Ne, hno]
    decide +kernel
  refine ⟨hl, hd, ?_, ?_⟩
  · rw [← htrue, ← hfirst]
    exact congrArg _ (by rw [Value.text.injEq, ← String.toList_inj]; simp)
  · rw [← hfalse, ← hsecond]
    exact congrArg _ (by rw [Value.text.injEq, ← String.toList_inj]; simp)

end Pattern

end FormGuard
