import FormGuard.Proofs.Pattern.Delimited
import FormGuard.Proofs.Regex.Brackets
import FormGuard.Proofs.Script.Identifier

/-! The literal of a pattern in browser code: which patterns have one that is read as one expression. -/
namespace FormGuard

namespace Script

/-- The characters that end a line in a script. -/
def lineEnds : List Char := ['\n', '\r', '\u2028', '\u2029']

def isLineEnd (c : Char) : Bool := lineEnds.contains c

/-- Reads the body of an expression from behind its first slash: what stands in front of the slash that
closes it, and what follows. A slash that is escaped or stands in a class does not close it, and no line
may end in it. -/
def readBody (inside : Bool) : List Char → Option (List Char × List Char)
  | [] => none
  | ['\\'] => none
  | '\\' :: c :: rest => do
    if isLineEnd c then none
    let (body, after) ← readBody inside rest
    return ('\\' :: c :: body, after)
  | c :: rest =>
    if c == '/' && !inside then some ([], rest)
    else if isLineEnd c then none
    else do
      let (body, after) ← readBody (c == '[' || (inside && c != ']')) rest
      return (c :: body, after)

/-- Reads an expression literal: its body, its flag letters, and what follows. Two slashes, or a slash and
a star, begin a comment. -/
def readExpression (k : IdentifierClass) : List Char → Option (List Char × List Char × List Char)
  | '/' :: rest => do
    if rest.head? == some '/' || rest.head? == some '*' then none
    let (body, after) ← readBody false rest
    let (flags, after) ← k.read after
    return (body, flags, after)
  | _ => none

theorem readBody_slash (rest : List Char) : readBody false ('/' :: rest) = some ([], rest) := by
  simp [readBody]

theorem readBody_pair {c : Char} (h : isLineEnd c = false) (inside : Bool) (rest : List Char) :
    readBody inside ('\\' :: c :: rest) =
      (readBody inside rest).map fun (body, after) => ('\\' :: c :: body, after) := by
  rw [readBody, h]
  cases readBody inside rest <;> rfl

theorem readBody_pair_of_isLineEnd {c : Char} (h : isLineEnd c = true) (inside : Bool)
    (rest : List Char) : readBody inside ('\\' :: c :: rest) = none := by
  rw [readBody, h]
  rfl

theorem insideAfter_plain (inside : Bool) (c : Char) :
    (Regex.Token.plain c).insideAfter inside = (c == '[' || (inside && c != ']')) := by
  unfold Regex.Token.insideAfter
  split
  · rename_i h
    cases h
    rfl
  · rename_i h
    cases h
    cases inside <;> rfl
  · rename_i hopen hclose
    have ho : c ≠ '[' := fun he => hopen (congrArg _ he)
    have hc : c ≠ ']' := fun he => hclose (congrArg _ he)
    rw [beq_false_of_ne ho, bne_iff_ne.mpr hc, Bool.and_true, Bool.false_or]

theorem readBody_cons {c : Char} (hb : c ≠ '\\') (inside : Bool) (rest : List Char) :
    readBody inside (c :: rest) =
      if c == '/' && !inside then some ([], rest)
      else if isLineEnd c then none
      else (readBody ((Regex.Token.plain c).insideAfter inside) rest).map
        fun (body, after) => (c :: body, after) := by
  rw [readBody, insideAfter_plain]
  · cases readBody (c == '[' || (inside && c != ']')) rest <;> rfl
  · exact fun he => absurd he hb
  · exact fun _ _ he => absurd he hb

/-- A class that nothing closes goes on to the end. -/
theorem readBody_inside {rest : List Char} (h : ']' ∉ rest) : readBody true rest = none := by
  generalize hi : true = inside
  fun_induction readBody inside rest with
  | case1 | case2 => rfl
  | case3 => rfl
  | case4 inside c rest _ hc ih =>
    change (readBody inside rest >>= _) = none
    rw [ih (fun hm => h (List.mem_cons_of_mem _ (List.mem_cons_of_mem _ hm))) hi]
    rfl
  | case5 inside c rest hend hpair hs =>
    subst hi
    simp at hs
  | case6 => rfl
  | case7 inside c rest hend hpair hs hc ih =>
    subst hi
    have hclose : c ≠ ']' := fun he => h (he ▸ List.mem_cons_self)
    rw [ih (fun hm => h (List.mem_cons_of_mem _ hm)) (by simp [hclose])]
    rfl

end Script

namespace Regex.Token

theorem plain_backslash_not_mem (text : List Char) : plain '\\' ∉ ofText text := by
  fun_induction ofText text with
  | case1 => exact List.not_mem_nil
  | case2 => simp
  | case3 c rest ih => simpa using ih
  | case4 c rest hend hpair ih =>
    refine List.not_mem_cons_of_ne_of_not_mem ?_ ih
    rintro ⟨⟩
    cases rest with
    | nil => exact hend rfl rfl
    | cons d more => exact hpair d more rfl rfl

/-- A line ends in what the token was read from. -/
def endsLine (t : Token) : Bool := t.text.any Script.isLineEnd

theorem any_endsLine (text : List Char) : (ofText text).any endsLine = text.any Script.isLineEnd := by
  rw [← flatMap_text text, List.any_flatMap, flatMap_text]
  rfl

end Regex.Token

namespace Pattern
open Regex
open Script (isLineEnd readBody readExpression IdentifierClass)

/-- A shielded token is read whole, unless a line ends in it. -/
theorem readBody_token {t : Token} (hd : t ≠ .dangling) (hb : t ≠ .plain '\\') (inside : Bool)
    (rest : List Char) :
    readBody inside (t.shielded ++ rest) =
      if t.endsLine then none
      else (readBody (t.insideAfter inside) rest).map
        fun (body, after) => (t.shielded ++ body, after) := by
  cases t with
  | dangling => exact absurd rfl hd
  | escaped c =>
    have hends : (Token.escaped c).endsLine = isLineEnd c := by
      change (isLineEnd '\\' || (isLineEnd c || false)) = isLineEnd c
      rw [Bool.or_false, show isLineEnd '\\' = false from rfl, Bool.false_or]
    rw [hends]
    cases hc : isLineEnd c with
    | true => exact Script.readBody_pair_of_isLineEnd hc inside rest
    | false => exact Script.readBody_pair hc inside rest
  | plain c =>
    have hc : c ≠ '\\' := fun he => hb (congrArg _ he)
    by_cases hs : c = '/'
    · subst hs
      have hslash : isLineEnd '/' = false := rfl
      rw [show (Token.plain '/').endsLine = false from rfl]
      exact Script.readBody_pair hslash inside rest
    · have hends : (Token.plain c).endsLine = isLineEnd c := Bool.or_false _
      have hopen : ¬ (c == '/' && !inside) = true := by simp [hs]
      rw [Token.shielded_plain hs, List.singleton_append, Script.readBody_cons hc, if_neg hopen, hends]
      rfl

/-- Shielded tokens are read one after the other, up to where a line ends. -/
theorem readBody_tokens {tokens : List Token} (hd : .dangling ∉ tokens)
    (hb : .plain '\\' ∉ tokens) (inside : Bool) (rest : List Char) :
    readBody inside (tokens.flatMap Token.shielded ++ rest) =
      if tokens.any Token.endsLine then none
      else (readBody (insideAfter inside tokens) rest).map
        fun (body, after) => (tokens.flatMap Token.shielded ++ body, after) := by
  induction tokens generalizing inside with
  | nil =>
    change readBody inside rest = (readBody inside rest).map _
    cases readBody inside rest <;> rfl
  | cons t tokens ih =>
    obtain ⟨hdt, hd⟩ := List.ne_and_not_mem_of_not_mem_cons hd
    obtain ⟨hbt, hb⟩ := List.ne_and_not_mem_of_not_mem_cons hb
    rw [List.flatMap_cons, List.append_assoc, readBody_token (Ne.symm hdt) (Ne.symm hbt),
      List.any_cons, ih hd hb]
    cases t.endsLine with
    | true => rfl
    | false =>
      cases tokens.any Token.endsLine with
      | true => rfl
      | false =>
        change ((readBody _ rest).map _).map _ = (readBody _ rest).map _
        rw [Option.map_map]
        refine congrFun (congrArg _ (funext fun r => ?_)) _
        simp

theorem any_shielded (text : List Char) :
    ((Token.ofText text).flatMap Token.shielded).any isLineEnd = text.any isLineEnd := by
  have hone : ∀ t : Token, t.shielded.any isLineEnd = t.endsLine := by
    intro t
    unfold Token.shielded
    split <;> rfl
  rw [List.any_flatMap, ← Token.any_endsLine text]
  exact congrArg _ (funext hone)

/-- What stands behind the first slash of a literal begins no comment. -/
theorem exists_head_shielded {text : List Char} (hne : text ≠ []) (hstar : text.head? ≠ some '*') :
    ∃ c rest, (Token.ofText text).flatMap Token.shielded = c :: rest ∧ c ≠ '*' ∧ c ≠ '/' := by
  have htext := Token.flatMap_text text
  cases ht : Token.ofText text with
  | nil =>
    rw [ht] at htext
    exact absurd htext.symm hne
  | cons t tokens =>
    rw [ht, List.flatMap_cons] at htext
    rw [List.flatMap_cons]
    cases t with
    | dangling => exact ⟨'\\', _, rfl, by decide, by decide⟩
    | escaped c => exact ⟨'\\', _, rfl, by decide, by decide⟩
    | plain c =>
      by_cases hs : c = '/'
      · subst hs
        exact ⟨'\\', _, rfl, by decide, by decide⟩
      · rw [Token.shielded_plain hs]
        refine ⟨c, _, rfl, fun hc => hstar ?_, hs⟩
        rw [← htext, hc]
        rfl

theorem part_of_isBrowserFlag (k : IdentifierClass) {c : Char} (h : isBrowserFlag c = true) :
    k.part c = true := by
  simp only [isBrowserFlag, List.contains_iff_mem, List.mem_cons, List.not_mem_nil, or_false] at h
  rcases h with rfl | rfl | rfl | rfl <;> rw [k.ascii _ (by decide)] <;> decide

/-- The literal of a readable pattern is read up to the semicolon behind it or not at all. -/
theorem readExpression_literal (k : IdentifierClass) {p : Pattern} {program : Program}
    (h : p.compile = .ok program) :
    readExpression k (p.literal.toList ++ [';']) =
      if p.source.toList.isEmpty || p.source.toList.any isLineEnd ||
        insideAfter false (Token.ofText p.source.toList) then none
      else some ((Token.ofText p.source.toList).flatMap Token.shielded,
        p.flags.toList.filter isBrowserFlag, [';']) := by
  obtain ⟨hd, -, hstar⟩ := reading_of_parse h
  generalize hflags : p.flags.toList.filter isBrowserFlag = flags
  have hread : k.read (flags ++ [';']) = some (flags, [';']) := by
    rw [IdentifierClass.read_append_iff (by rw [k.ascii _ (by decide)]; decide) (by decide), ← hflags]
    exact fun c hc => part_of_isBrowserFlag k (List.of_mem_filter hc)
  have hclose : ']' ∉ '/' :: (flags ++ [';']) := by
    have hnone : ']' ∉ flags := fun hm =>
      absurd (List.of_mem_filter (hflags ▸ hm)) (by decide)
    simp [hnone]
  rw [toList_literal, escapeSlashes_eq, hflags]
  generalize p.source.toList = text at hd hstar ⊢
  by_cases hne : text = []
  · subst hne
    rfl
  · obtain ⟨c, rest, hhead, hcs, hcl⟩ := exists_head_shielded hne hstar
    have hopen : ¬ (((Token.ofText text).flatMap Token.shielded ++ '/' :: (flags ++ [';'])).head? ==
        some '/' || ((Token.ofText text).flatMap Token.shielded ++ '/' :: (flags ++ [';'])).head? ==
        some '*') = true := by
      rw [hhead]
      simp [hcs, hcl]
    have hbody := readBody_tokens hd (Token.plain_backslash_not_mem text) false
      ('/' :: (flags ++ [';']))
    rw [Token.any_endsLine] at hbody
    rw [List.isEmpty_eq_false_iff.mpr hne, Bool.false_or, List.cons_append, List.append_assoc,
      List.cons_append, readExpression, if_neg hopen]
    change (readBody false _ >>= _) = _
    rw [hbody]
    cases text.any isLineEnd with
    | true => rfl
    | false =>
      cases insideAfter false (Token.ofText text) with
      | true =>
        rw [Script.readBody_inside hclose]
        rfl
      | false =>
        rw [Script.readBody_slash]
        change (k.read (flags ++ [';']) >>= _) = _
        rw [hread]
        simp

/-- A class is open at the end of the source, for a reader that takes every plain `[` for the start of a
class and every plain `]` for its end. -/
def LeavesOpen (p : Pattern) : Prop := insideAfter false (Token.ofText p.source.toList) = true

/-- The literal of a pattern and a semicolon are read as one expression with a body, in which no line
ends and that begins no comment, and with flag letters of which none is repeated. -/
def ReadsAsOne (k : IdentifierClass) (p : Pattern) : Prop :=
  ∃ body flags, readExpression k (p.literal.toList ++ [';']) = some (body, flags, [';']) ∧
    (∃ c rest, body = c :: rest ∧ c ≠ '*' ∧ c ≠ '/') ∧ (∀ c ∈ body, isLineEnd c = false) ∧
    flags.Nodup

/-- The literal of a pattern that can be compiled is read as one expression exactly if the source is not
empty, no line ends in it, it leaves no class open and no flag letter of the browser's is repeated. What
is read is what was written; and only a comment with a bracket in it can leave a class open. -/
theorem literal_read_iff (k : IdentifierClass) {p : Pattern} {program : Program}
    (h : p.compile = .ok program) :
    (ReadsAsOne k p ↔ p.source ≠ "" ∧ (∀ c ∈ p.source.toList, isLineEnd c = false) ∧
      ¬ p.LeavesOpen ∧ (p.flags.toList.filter isBrowserFlag).Nodup) ∧
    (∀ body flags after, readExpression k (p.literal.toList ++ [';']) = some (body, flags, after) →
      body = (Token.ofText p.source.toList).flatMap Token.shielded ∧
        flags = p.flags.toList.filter isBrowserFlag ∧ after = [';']) ∧
    (Uncommented (Token.ofText p.source.toList) → ¬ p.LeavesOpen) := by
  obtain ⟨-, htame, hstar⟩ := reading_of_parse h
  have hread := readExpression_literal k h
  have hsound : ¬ (p.source.toList.isEmpty || p.source.toList.any isLineEnd ||
      insideAfter false (Token.ofText p.source.toList)) = true ↔
      p.source ≠ "" ∧ (∀ c ∈ p.source.toList, isLineEnd c = false) ∧ ¬ p.LeavesOpen := by
    simp [LeavesOpen, and_assoc]
  refine ⟨⟨?_, ?_⟩, fun body flags after hr => ?_, fun hu => ?_⟩
  · rintro ⟨body, flags, hr, -, -, hn⟩
    rw [hread] at hr
    split at hr
    · cases hr
    · rename_i hc
      cases hr
      obtain ⟨hne, hline, hopen⟩ := hsound.mp hc
      exact ⟨hne, hline, hopen, hn⟩
  · rintro ⟨hne, hline, hopen, hn⟩
    rw [if_neg (hsound.mpr ⟨hne, hline, hopen⟩)] at hread
    refine ⟨_, _, hread, exists_head_shielded (by simpa using hne) hstar, ?_, hn⟩
    have hany : ((Token.ofText p.source.toList).flatMap Token.shielded).any isLineEnd = false := by
      rw [any_shielded]
      simpa using hline
    exact fun c hc => Bool.eq_false_iff.mpr (List.any_eq_false.mp hany c hc)
  · rw [hread] at hr
    split at hr
    · cases hr
    · cases hr
      exact ⟨rfl, rfl, rfl⟩
  · rw [LeavesOpen, htame hu]
    decide

/-- Slashes and brackets in a class, and letters that a browser does not know, do no harm. -/
theorem class_of_slashes_read :
    (∃ program, (⟨"^[/*\\]]+/[]a]\\/$", "ixs"⟩ : Pattern).compile = .ok program) ∧
      ReadsAsOne .plain ⟨"^[/*\\]]+/[]a]\\/$", "ixs"⟩ := by
  have hok : (⟨"^[/*\\]]+/[]a]\\/$", "ixs"⟩ : Pattern).compile.isOk = true := by decide +kernel
  cases h : (⟨"^[/*\\]]+/[]a]\\/$", "ixs"⟩ : Pattern).compile with
  | error fault =>
    rw [h] at hok
    cases hok
  | ok program =>
    refine ⟨⟨program, rfl⟩, (literal_read_iff .plain h).1.mpr ⟨by decide, ?_, ?_, by decide⟩⟩
    · simp [isLineEnd, Script.lineEnds]
    · rw [LeavesOpen]
      decide

/-- The literals of an empty source, of one with a line feed in it and of one with a bracket in a comment
cannot be read, and a letter that was given twice is read twice. -/
theorem literals_unread :
    (⟨"", ""⟩ : Pattern).compile.isOk = true ∧
      readExpression .plain ((⟨"", ""⟩ : Pattern).literal.toList ++ [';']) = none ∧
    (⟨"a\nb", ""⟩ : Pattern).compile.isOk = true ∧
      readExpression .plain ((⟨"a\nb", ""⟩ : Pattern).literal.toList ++ [';']) = none ∧
    (⟨"(?#[)a", ""⟩ : Pattern).compile.isOk = true ∧
      readExpression .plain ((⟨"(?#[)a", ""⟩ : Pattern).literal.toList ++ [';']) = none ∧
    (⟨"a", "ii"⟩ : Pattern).compile.isOk = true ∧
      readExpression .plain ((⟨"a", "ii"⟩ : Pattern).literal.toList ++ [';']) =
        some (['a'], ['i', 'i'], [';']) := by
  decide +kernel

end Pattern

end FormGuard
