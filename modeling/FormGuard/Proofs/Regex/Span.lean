import FormGuard.Regex.Matcher
import Mathlib.Tactic.Common

/-! What a search goes over: the words that an expression takes in between what lies behind and what
lies ahead, whatever the order in which they are tried. -/
namespace FormGuard.Regex

/-- Which words may stand between what lies behind, nearest first, and what lies ahead. -/
abbrev Span := List Char → List Char → List Char → Prop

namespace Span

def one (test : Char → Bool) : Span := fun _ w _ => ∃ c, w = [c] ∧ test c = true

def seq (S T : Span) : Span := fun before w after =>
  ∃ u v, w = u ++ v ∧ S before u (v ++ after) ∧ T (u.reverse ++ before) v after

/-- So many words in a row. -/
def power (S : Span) : Nat → Span
  | 0 => fun _ w _ => w = []
  | n + 1 => S.seq (S.power n)

def upTo (S : Span) (bound : Nat) : Span := fun before w after =>
  ∃ n, n ≤ bound ∧ S.power n before w after

/-- A word can be taken in so that `K` holds of the place behind it. -/
def Leads (S : Span) (K : List Char → List Char → Prop) (before ahead : List Char) : Prop :=
  ∃ w after, ahead = w ++ after ∧ S before w after ∧ K (w.reverse ++ before) after

variable {S T : Span} {K : List Char → List Char → Prop} {before w after ahead : List Char} {m n : Nat}

theorem leads_seq : (S.seq T).Leads K before ahead ↔ S.Leads (T.Leads K) before ahead := by
  constructor
  · rintro ⟨_, after, rfl, ⟨u, v, rfl, hu, hv⟩, hk⟩
    refine ⟨u, v ++ after, List.append_assoc .., hu, v, after, rfl, hv, ?_⟩
    simpa using hk
  · rintro ⟨u, _, rfl, hu, v, after, rfl, hv, hk⟩
    refine ⟨u ++ v, after, (List.append_assoc ..).symm, ⟨u, v, rfl, hu, hv⟩, ?_⟩
    simpa using hk

theorem seq_assoc {U : Span} : (S.seq T).seq U before w after ↔ S.seq (T.seq U) before w after := by
  constructor
  · rintro ⟨_, v, rfl, ⟨t, u, rfl, ht, hu⟩, hv⟩
    refine ⟨t, u ++ v, List.append_assoc .., by simpa using ht, u, v, rfl, hu, by simpa using hv⟩
  · rintro ⟨t, _, rfl, ht, u, v, rfl, hu, hv⟩
    refine ⟨t ++ u, v, (List.append_assoc ..).symm, ⟨t, u, rfl, by simpa using ht, hu⟩, ?_⟩
    simpa using hv

theorem power_add : S.power (m + n) before w after ↔
    (S.power m).seq (S.power n) before w after := by
  induction m generalizing before w with
  | zero =>
    rw [Nat.zero_add]
    constructor
    · intro h
      exact ⟨[], w, rfl, rfl, h⟩
    · rintro ⟨_, v, rfl, rfl, h⟩
      exact h
  | succ m ih =>
    rw [Nat.succ_add, power, power, seq_assoc]
    constructor
    · rintro ⟨u, v, rfl, hu, hv⟩
      exact ⟨u, v, rfl, hu, ih.mp hv⟩
    · rintro ⟨u, v, rfl, hu, hv⟩
      exact ⟨u, v, rfl, hu, ih.mpr hv⟩

/-- Words that are empty can be left out, so that the first one is not. -/
theorem exists_first (h : S.power n before w after) (hw : w ≠ []) :
    ∃ m u v, m < n ∧ w = u ++ v ∧ u ≠ [] ∧ S before u (v ++ after) ∧
      S.power m (u.reverse ++ before) v after := by
  induction n generalizing before w with
  | zero => exact absurd h hw
  | succ n ih =>
    obtain ⟨u, v, rfl, hu, hv⟩ := h
    by_cases hempty : u = []
    · subst hempty
      obtain ⟨m, u, v, hm, rest⟩ := ih hv hw
      exact ⟨m, u, v, Nat.lt_succ_of_lt hm, rest⟩
    · exact ⟨n, u, v, Nat.lt_succ_self n, rfl, hempty, hu, hv⟩

/-- No more words are needed than there are characters. -/
theorem exists_power_le_length (h : S.power n before w after) :
    ∃ m, m ≤ w.length ∧ S.power m before w after := by
  induction n using Nat.strongRecOn generalizing before w with
  | ind n ih =>
    by_cases hw : w = []
    · exact ⟨0, Nat.zero_le _, hw⟩
    · obtain ⟨m, u, v, hm, rfl, hu, hfirst, hrest⟩ := exists_first h hw
      obtain ⟨k, hk, hpower⟩ := ih m hm hrest
      have hpos := List.length_pos_iff.mpr hu
      refine ⟨k + 1, ?_, u, v, rfl, hfirst, hpower⟩
      rw [List.length_append]
      omega

end Span

/-- A rest that succeeds exactly where `K` holds of what lies behind and ahead; what the groups took in
makes no difference. -/
def Rest.Decides (rest : Rest) (K : List Char → List Char → Prop) : Prop :=
  ∀ cur : Cursor, cur.left = cur.rest.length → ((rest cur).isSome = true ↔ K cur.before cur.rest)

/-- A piece that succeeds before a rest exactly if one of these words leads there. -/
def Piece.Takes (piece : Piece) (S : Span) : Prop :=
  ∀ (rest : Rest) (K : List Char → List Char → Prop), rest.Decides K →
    Rest.Decides (fun cur => piece cur rest) (S.Leads K)

theorem isSome_orElse {α : Type} {x : Option α} {y : Unit → Option α} :
    (x.orElse y).isSome = true ↔ x.isSome = true ∨ (y ()).isSome = true := by
  cases x <;> simp

namespace Piece
variable {piece other : Piece} {S T : Span}

theorem takes_congr (h : ∀ before w after, S before w after ↔ T before w after) :
    piece.Takes S ↔ piece.Takes T := by
  obtain rfl : S = T := funext fun before => funext fun w => funext fun after =>
    propext (h before w after)
  exact Iff.rfl

theorem takes_empty : Takes (fun cur rest => rest cur) fun _ w _ => w = [] := by
  intro rest K hk cur hcur
  rw [hk cur hcur]
  constructor
  · intro h
    exact ⟨[], cur.rest, rfl, rfl, h⟩
  · rintro ⟨_, after, ha, rfl, h⟩
    rw [ha]
    exact h

theorem takes_one (test : Char → Bool) : Takes (fun cur rest =>
    match cur.next? with
    | some (c, cur') => if test c then rest cur' else none
    | none => none) (.one test) := by
  rintro rest K hk ⟨before, ahead, left, captures⟩ hcur
  cases ahead with
  | nil =>
    refine iff_of_false (by simp [Cursor.next?]) ?_
    rintro ⟨_, after, ha, ⟨c, rfl, _⟩, _⟩
    cases ha
  | cons c ahead =>
    have hnext := hk ⟨c :: before, ahead, left - 1, captures⟩ (by
      dsimp only [List.length_cons] at hcur ⊢
      omega)
    simp only [Cursor.next?]
    constructor
    · intro h
      split at h
      · exact ⟨[c], ahead, rfl, ⟨c, rfl, ‹_›⟩, hnext.mp h⟩
      · cases h
    · rintro ⟨_, after, ha, ⟨d, rfl, hd⟩, h⟩
      cases ha
      rw [if_pos hd]
      exact hnext.mpr h

theorem takes_seq (hp : piece.Takes S) (ho : other.Takes T) :
    Takes (fun cur rest => piece cur fun cur' => other cur' rest) (S.seq T) := by
  intro rest K hk cur hcur
  rw [hp _ _ (ho rest K hk) cur hcur, Span.leads_seq]

theorem takes_alt (hp : piece.Takes S) (ho : other.Takes T) :
    Takes (fun cur rest => (piece cur rest).orElse fun _ => other cur rest)
      fun before w after => S before w after ∨ T before w after := by
  intro rest K hk cur hcur
  rw [isSome_orElse, hp rest K hk cur hcur, ho rest K hk cur hcur]
  constructor
  · rintro (⟨w, after, ha, hs, h⟩ | ⟨w, after, ha, ht, h⟩)
    · exact ⟨w, after, ha, Or.inl hs, h⟩
    · exact ⟨w, after, ha, Or.inr ht, h⟩
  · rintro ⟨w, after, ha, hs | ht, h⟩
    · exact Or.inl ⟨w, after, ha, hs, h⟩
    · exact Or.inr ⟨w, after, ha, ht, h⟩

theorem takes_group (hp : piece.Takes S) (index : Nat) :
    Takes (fun cur rest => piece cur fun cur' => rest (cur'.capture index cur)) S := by
  intro rest K hk cur hcur
  exact hp _ K (fun cur' h => hk (cur'.capture index cur) h) cur hcur

theorem takes_place (p : Place) : Takes (fun cur rest => if p.holds cur then rest cur else none)
    fun before w after => w = [] ∧ p.holds ⟨before, after, after.length, []⟩ = true := by
  rintro rest K hk ⟨before, ahead, left, captures⟩ hcur
  have hplace : p.holds ⟨before, ahead, left, captures⟩ =
      p.holds ⟨before, ahead, ahead.length, []⟩ := by
    cases p <;> rfl
  dsimp only
  constructor
  · intro h
    split at h
    · rename_i hp
      exact ⟨[], ahead, rfl, ⟨rfl, hplace ▸ hp⟩, (hk _ hcur).mp h⟩
    · cases h
  · rintro ⟨_, after, rfl, ⟨rfl, hp⟩, h⟩
    rw [if_pos (hplace.trans hp)]
    exact (hk _ hcur).mpr h

theorem takes_times (hp : piece.Takes S) (count : Nat) :
    Takes (piece.times count) (S.power count) := by
  induction count with
  | zero => exact takes_empty
  | succ count ih => exact (takes_seq hp ih :)

/-- One more round or none, in either order: a round that takes nothing is the last one. -/
theorem leads_upTo_succ {bound : Nat} {rest : Rest} {K : List Char → List Char → Prop}
    {again : Piece} (hk : rest.Decides K) (hp : piece.Takes S) (ha : again.Takes (S.upTo bound))
    {cur : Cursor} (hcur : cur.left = cur.rest.length) :
    ((piece cur fun cur' => if cur'.left == cur.left then rest cur' else again cur' rest).isSome = true
      ∨ (rest cur).isSome = true) ↔ (S.upTo (bound + 1)).Leads K cur.before cur.rest := by
  have hround : Rest.Decides
      (fun cur' => if cur'.left == cur.left then rest cur' else again cur' rest)
      fun before ahead => if ahead.length = cur.rest.length then K before ahead
        else (S.upTo bound).Leads K before ahead := by
    intro cur' hcur'
    simp only [hcur', hcur, beq_iff_eq]
    split
    · exact hk cur' hcur'
    · exact ha rest K hk cur' hcur'
  rw [hp _ _ hround cur hcur, hk cur hcur]
  constructor
  · rintro (⟨w, after, hw, hs, h⟩ | h)
    · split at h
      · rename_i hlength
        obtain rfl : w = [] := by
          rw [hw, List.length_append] at hlength
          exact List.length_eq_zero_iff.mp (by omega)
        exact ⟨[], after, hw, ⟨0, Nat.zero_le _, rfl⟩, h⟩
      · obtain ⟨v, after, rfl, ⟨n, hn, hv⟩, h⟩ := h
        refine ⟨w ++ v, after, by simp [hw], ⟨n + 1, Nat.succ_le_succ hn, w, v, rfl, hs, hv⟩, ?_⟩
        simpa using h
    · exact ⟨[], cur.rest, rfl, ⟨0, Nat.zero_le _, rfl⟩, h⟩
  · rintro ⟨w, after, hw, ⟨n, hn, hpower⟩, h⟩
    by_cases hempty : w = []
    · subst hempty
      rw [hw]
      exact Or.inr h
    · obtain ⟨m, u, v, hm, rfl, hu, hfirst, hrest⟩ := Span.exists_first hpower hempty
      have hpos := List.length_pos_iff.mpr hu
      refine Or.inl ⟨u, v ++ after, by simp [hw], hfirst, ?_⟩
      have hshort : ¬ (v ++ after).length = cur.rest.length := by
        rw [hw]
        simp only [List.length_append]
        omega
      dsimp only
      rw [if_neg hshort]
      exact ⟨v, after, rfl, ⟨m, by omega, hrest⟩, by simpa using h⟩

theorem takes_greedy (hp : piece.Takes S) (bound : Nat) :
    Takes (piece.greedy bound) (S.upTo bound) := by
  induction bound with
  | zero =>
    refine (takes_congr fun before w after => ?_).mp takes_empty
    constructor
    · intro h
      exact ⟨0, Nat.le_refl _, h⟩
    · rintro ⟨n, hn, h⟩
      obtain rfl := Nat.le_zero.mp hn
      exact h
  | succ bound ih =>
    intro rest K hk cur hcur
    rw [← leads_upTo_succ hk hp ih hcur]
    exact isSome_orElse

theorem takes_lazy (hp : piece.Takes S) (bound : Nat) :
    Takes (piece.lazy bound) (S.upTo bound) := by
  induction bound with
  | zero =>
    exact takes_greedy hp 0
  | succ bound ih =>
    intro rest K hk cur hcur
    rw [← leads_upTo_succ hk hp ih hcur, or_comm]
    exact isSome_orElse

/-- Rounds beyond the least number: the bound that is computed from what is left is no restriction. -/
theorem takes_spare {again : Nat → Piece} (h : ∀ bound, Takes (again bound) (S.upTo bound))
    (least : Nat) (most : Option Nat) :
    Takes (fun cur rest => again (spareRounds least most cur) cur rest)
      fun before w after => ∃ n, (∀ m, most = some m → n ≤ m - least) ∧ S.power n before w after := by
  intro rest K hk cur hcur
  dsimp only
  rw [h _ rest K hk cur hcur]
  constructor
  · rintro ⟨w, after, hw, ⟨n, hn, hpower⟩, hrest⟩
    refine ⟨w, after, hw, ⟨n, ?_, hpower⟩, hrest⟩
    rintro m rfl
    exact hn
  · rintro ⟨w, after, hw, ⟨n, hn, hpower⟩, hrest⟩
    refine ⟨w, after, hw, ?_, hrest⟩
    cases most with
    | some m => exact ⟨n, hn m rfl, hpower⟩
    | none =>
      obtain ⟨m, hm, hpower⟩ := Span.exists_power_le_length hpower
      refine ⟨m, ?_, hpower⟩
      rw [spareRounds, hcur, hw, List.length_append]
      omega

theorem takes_rounds (hp : piece.Takes S) {least : Nat} {most : Option Nat} {greed : Greed}
    (hm : ∀ m, most = some m → least ≤ m) (hg : greed ≠ .possessive) :
    Takes (piece.rounds least most greed) fun before w after =>
      ∃ n, least ≤ n ∧ (∀ m, most = some m → n ≤ m) ∧ S.power n before w after := by
  have hspare : Takes (piece.rounds least most greed) ((S.power least).seq fun before w after =>
      ∃ n, (∀ m, most = some m → n ≤ m - least) ∧ S.power n before w after) := by
    cases greed with
    | greedy => exact (takes_seq (takes_times hp least) (takes_spare (takes_greedy hp) least most) :)
    | lazy => exact (takes_seq (takes_times hp least) (takes_spare (takes_lazy hp) least most) :)
    | possessive => exact absurd rfl hg
  refine (takes_congr fun before w after => ?_).mp hspare
  constructor
  · rintro ⟨u, v, rfl, hu, n, hn, hv⟩
    refine ⟨least + n, Nat.le_add_right .., fun m h => ?_, Span.power_add.mpr ⟨u, v, rfl, hu, hv⟩⟩
    have hleast := hm m h
    have hbound := hn m h
    omega
  · rintro ⟨n, hleast, hn, hpower⟩
    obtain ⟨k, rfl⟩ := Nat.exists_eq_add_of_le hleast
    obtain ⟨u, v, rfl, hu, hv⟩ := Span.power_add.mp hpower
    refine ⟨u, v, rfl, hu, k, fun m h => ?_, hv⟩
    have hbound := hn m h
    omega

end Piece

namespace Expr

/-- The words that an expression takes in; those with references, conditions, look around or committed
parts are left out. -/
def Spans : Expr → Span
  | .empty => fun _ w _ => w = []
  | .single cls => .one cls.holds
  | .any lineFeed => .one fun c => lineFeed || c != '\n'
  | .place p => fun before w after => w = [] ∧ p.holds ⟨before, after, after.length, []⟩ = true
  | .seq first second => first.Spans.seq second.Spans
  | .alt left right => fun before w after => left.Spans before w after ∨ right.Spans before w after
  | .group _ body => body.Spans
  | .rounds least most _ body => fun before w after =>
    ∃ n, least ≤ n ∧ (∀ m, most = some m → n ≤ m) ∧ body.Spans.power n before w after
  | _ => fun _ _ _ => False

/-- Built from characters, places, sequences, alternatives, groups and repetitions that give back. -/
def isPlain : Expr → Bool
  | .empty | .single _ | .any _ | .place _ => true
  | .seq first second => first.isPlain && second.isPlain
  | .alt left right => left.isPlain && right.isPlain
  | .group _ body => body.isPlain
  | .rounds least most greed body =>
    most.all (fun m => least ≤ m) && greed != .possessive && body.isPlain
  | _ => false

theorem takes_run {e : Expr} (h : e.isPlain = true) : Piece.Takes e.run e.Spans := by
  induction e with
  | empty => exact Piece.takes_empty
  | single cls => exact Piece.takes_one cls.holds
  | any lineFeed => exact Piece.takes_one _
  | place p => exact Piece.takes_place p
  | seq first second ihf ihs =>
    obtain ⟨hf, hs⟩ := Bool.and_eq_true_iff.mp h
    exact (Piece.takes_seq (ihf hf) (ihs hs) :)
  | alt left right ihl ihr =>
    obtain ⟨hl, hr⟩ := Bool.and_eq_true_iff.mp h
    exact (Piece.takes_alt (ihl hl) (ihr hr) :)
  | group index body ih => exact (Piece.takes_group (ih h) index :)
  | rounds least most greed body ih =>
    simp only [isPlain, Bool.and_eq_true, bne_iff_ne, ne_eq, Option.all_eq_true,
      decide_eq_true_eq] at h
    exact (Piece.takes_rounds (ih h.2) (fun m hm => h.1.1 m hm) h.1.2 :)
  | _ => cases h

theorem isSome_searchFrom {e : Expr} (h : e.isPlain = true) {text : List Char} {cur : Cursor}
    (ht : cur.rest = text) (hcur : cur.left = text.length) :
    (e.searchFrom text cur).isSome = true ↔ ∃ skipped w after,
      text = skipped ++ (w ++ after) ∧ e.Spans (skipped.reverse ++ cur.before) w after := by
  have hhere : ∀ cur : Cursor, cur.left = cur.rest.length → ((e.run cur some).isSome = true ↔
      ∃ w after, cur.rest = w ++ after ∧ e.Spans cur.before w after) := by
    intro cur hcur
    rw [takes_run h some (fun _ _ => True) (fun _ _ => by simp) cur hcur]
    simp [Span.Leads]
  induction text generalizing cur with
  | nil =>
    rw [searchFrom, hhere cur (by rw [hcur, ht]), ht]
    constructor
    · rintro ⟨w, after, hw, hs⟩
      exact ⟨[], w, after, hw, hs⟩
    · rintro ⟨skipped, w, after, hw, hs⟩
      obtain ⟨rfl, hw⟩ := List.nil_eq_append_iff.mp hw
      exact ⟨w, after, by rw [hw]; rfl, hs⟩
  | cons c text ih =>
    obtain ⟨before, rest, left, captures⟩ := cur
    cases ht
    have hlater := @ih ⟨c :: before, text, left - 1, captures⟩ rfl (by
      dsimp only [List.length_cons] at hcur ⊢
      omega)
    rw [searchFrom, isSome_orElse, hhere _ hcur, Cursor.next?]
    refine (or_congr Iff.rfl hlater).trans ?_
    constructor
    · rintro (⟨w, after, hw, hs⟩ | ⟨skipped, w, after, rfl, hs⟩)
      · exact ⟨[], w, after, hw, hs⟩
      · exact ⟨c :: skipped, w, after, rfl, by simpa using hs⟩
    · rintro ⟨skipped, w, after, hw, hs⟩
      cases skipped with
      | nil => exact Or.inl ⟨w, after, hw, hs⟩
      | cons d skipped =>
        cases hw
        exact Or.inr ⟨skipped, w, after, rfl, by simpa using hs⟩

/-- A search succeeds exactly if somewhere in the text there is a word for the expression. -/
theorem search_eq_true_iff {e : Expr} (h : e.isPlain = true) {text : List Char} :
    e.search text = true ↔ ∃ skipped w after,
      text = skipped ++ (w ++ after) ∧ e.Spans skipped.reverse w after := by
  have hstart : (e.searchFrom text (Cursor.start text)).isSome = true ↔ _ :=
    isSome_searchFrom h rfl rfl
  simpa [search, Cursor.start] using hstart

end Expr

end FormGuard.Regex
