import FormGuard.Proofs.Regex.Composition
import FormGuard.Proofs.Text.Position

/-! Where the classes of an expression end: a parser that succeeds leaves none open, comments apart. -/
namespace FormGuard.Regex

/-- Whether a class is open behind a token, for a reader that takes every plain `[` for the start of a
class and every plain `]` for its end. -/
def Token.insideAfter (inside : Bool) : Token → Bool
  | plain '[' => true
  | plain ']' => false
  | _ => inside

/-- Whether a class is open behind tokens. -/
def insideAfter (inside : Bool) (tokens : List Token) : Bool :=
  tokens.foldl Token.insideAfter inside

/-- No class can begin in a comment: no `[` stands behind a `#`. -/
def Uncommented (tokens : List Token) : Prop :=
  tokens.Pairwise fun t u => t = .plain '#' → u ≠ .plain '['

/-- These tokens leave no class open, comments apart. -/
def Tame (tokens : List Token) : Prop := Uncommented tokens → insideAfter false tokens = false

/-- These tokens leave no class open, whatever was open before. -/
def Shut (tokens : List Token) : Prop := ∀ inside, insideAfter inside tokens = false

section
variable {c d : List Token} {t : Token}

theorem insideAfter_append (inside : Bool) (c d : List Token) :
    insideAfter inside (c ++ d) = insideAfter (insideAfter inside c) d :=
  List.foldl_append

theorem Token.insideAfter_false (h : t ≠ .plain '[') : t.insideAfter false = false := by
  unfold insideAfter
  split
  · exact absurd rfl h
  · rfl
  · rfl

theorem insideAfter_of_not_mem (h : .plain '[' ∉ c) : insideAfter false c = false := by
  induction c with
  | nil => rfl
  | cons t rest ih =>
    obtain ⟨ht, hrest⟩ := List.ne_and_not_mem_of_not_mem_cons h
    change insideAfter (t.insideAfter false) rest = false
    rw [Token.insideAfter_false (Ne.symm ht), ih hrest]

theorem tame_of_not_mem (h : .plain '[' ∉ c) : Tame c := fun _ => insideAfter_of_not_mem h

theorem tame_nil : Tame [] := fun _ => rfl

theorem Tame.append (hc : Tame c) (hd : Tame d) : Tame (c ++ d) := by
  intro h
  obtain ⟨huc, hud, -⟩ := List.pairwise_append.mp h
  rw [insideAfter_append, hc huc, hd hud]

theorem Tame.cons (ht : t ≠ .plain '[') (hd : Tame d) : Tame (t :: d) :=
  (tame_of_not_mem (List.not_mem_cons_of_ne_of_not_mem (Ne.symm ht) List.not_mem_nil)).append hd

theorem tame_comment (d : List Token) : Tame (.plain '#' :: d) := by
  intro h
  refine insideAfter_of_not_mem fun hmem => ?_
  rcases List.mem_cons.mp hmem with h' | h'
  · cases h'
  · exact (List.pairwise_cons.mp h).1 _ h' rfl rfl

theorem Shut.tame_class (h : Shut d) : Tame (.plain '[' :: d) := fun _ => h true

theorem Shut.append_left (c : List Token) (h : Shut d) : Shut (c ++ d) := by
  intro inside
  rw [insideAfter_append]
  exact h _

theorem shut_close : Shut [.plain ']'] := fun _ => rfl

end

namespace Parser
variable {α β : Type} {x : Parser α} {f : α → Parser β}

/-- The parser leaves no class open, comments apart. -/
def Tamely (x : Parser α) : Prop := Reads (fun c _ => Tame c) x

theorem tamely_pure (a : α) : Tamely (pure a) := fun _ => readsFrom_pure tame_nil

theorem tamely_throw_bind {fault : Fault} {f : α → Parser β} : Tamely (throw fault >>= f) := by
  rintro s hs a t ⟨⟩

theorem tamely_malformed : Tamely (malformed : Parser α) := fun _ => readsFrom_malformed

theorem tamely_bind (hx : Tamely x) (hf : ∀ a, Tamely (f a)) : Tamely (x >>= f) :=
  fun s => readsFrom_bind (hx s) fun _ a hc => (hf a).imp fun _ _ => hc.append

theorem tamely_get_bind {f : ParseState → Parser β} (hf : ∀ s, Tamely (f s)) :
    Tamely (get >>= f) := fun s => readsFrom_get_bind (hf s s)

theorem tamely_modify {g : ParseState → ParseState} (hg : ∀ s, (g s).rest = s.rest) :
    Tamely (modify g) := reads_modify hg tame_nil

theorem tamely_accept {ch : Char} (h : ch ≠ '[') : Tamely (accept ch) :=
  (reads_accept ch).imp fun c a hc => by
    cases a with
    | false => exact hc ▸ tame_nil
    | true => exact hc ▸ tame_nil.cons fun he => h (Token.plain.inj he)

theorem plain_not_mem_map {chars : List Char} (h : '[' ∉ chars) :
    Token.plain '[' ∉ chars.map Token.plain := by
  rw [List.mem_map]
  rintro ⟨ch, hch, he⟩
  exact h (Token.plain.inj he ▸ hch)

theorem tamely_takeWhile {kind : Char → Bool} (h : kind '[' = false) (count : Nat) :
    Tamely (takeWhile kind count) :=
  (reads_takeWhile kind count).imp fun c a ⟨hc, ha⟩ =>
    hc ▸ tame_of_not_mem (plain_not_mem_map fun hm => by rw [ha _ hm] at h; cases h)

theorem tamely_takeAll {kind : Char → Bool} (h : kind '[' = false) : Tamely (takeAll kind) :=
  tamely_get_bind fun _ => tamely_takeWhile h _

/-- What leaves no class open goes through composition. -/
theorem tamely : Composes Tamely where
  pure := tamely_pure
  malformed := tamely_malformed
  bind := tamely_bind
  get := tamely_get_bind
  modify hrest _ := tamely_modify hrest
  accept := tamely_accept
  takeWhile := tamely_takeWhile

end Parser

open FormGuard.Regex.Parser

/-! Counts. -/

theorem tamely_count? (digits : List Char) : Tamely (count? digits) :=
  tamely.ite (tamely_pure _)
    (tamely.ite tamely_throw_bind (tamely.ite tamely_throw_bind (tamely_pure _)))

theorem tamely_braceBounds : Tamely braceBounds := by
  intro s
  refine readsFrom_peek_bind ?_
  split
  · exact readsFrom_pure tame_nil
  · refine tamely_bind (tamely_takeAll (by decide)) (fun low => ?_) s
    refine tamely_bind (tamely_accept (by decide)) fun second => ?_
    extract_lets counts
    have hcounts : ∀ high, Tamely (counts high) := by
      intro high
      refine tamely_bind (tamely_accept (by decide)) fun closed => tamely.ite ?_ (tamely_pure _)
      refine tamely_bind (tamely_count? low) fun least => ?_
      refine tamely_bind (tamely_count? high) fun most => ?_
      cases most with
      | none => exact tamely_pure _
      | some m => exact tamely.guard (tamely_pure _)
    exact tamely.ite (tamely_bind (tamely_takeAll (by decide)) hcounts) (hcounts low)

/-! Classes. -/

theorem shuts_bind {α β : Type} {P : List Token → α → Prop} {x : Parser α} {f : α → Parser β}
    (hx : Reads P x) (hf : ∀ a, Reads (fun c _ => Shut c) (f a)) :
    Reads (fun c _ => Shut c) (x >>= f) :=
  fun s => readsFrom_bind (hx s) fun c a _ => (hf a).imp fun _ _ => Shut.append_left c

theorem reads_classItems (flags : Flags) (fuel : Nat) (items : List ClassItem) :
    Reads (fun c _ => Shut c) (classItems flags fuel items) := by
  induction fuel generalizing items with
  | zero => exact fun s => readsFrom_malformed
  | succ fuel ih =>
    refine fun s => readsFrom_bind (reads_take s) ?_
    rintro _ a rfl
    cases a with
    | none => exact fun u => readsFrom_malformed
    | some t =>
      dsimp only
      split
      · rename_i h
        obtain ⟨ht, -⟩ := Bool.and_eq_true_iff.mp h
        rw [beq_iff_eq.mp ht]
        exact fun u => readsFrom_pure shut_close
      · refine Reads.imp ?_ fun _ _ => Shut.append_left _
        refine shuts_bind (tamely.classAtom flags t) fun low => ?_
        refine shuts_bind (reads_accept '-') fun ranged => ?_
        split
        · -- behind a dash: the closing bracket, or the other end of a range
          refine fun s => readsFrom_bind (reads_take s) ?_
          rintro _ b rfl
          split
          · exact fun u => readsFrom_malformed
          · exact fun u => readsFrom_pure shut_close
          · refine Reads.imp ?_ fun _ _ => Shut.append_left _
            refine shuts_bind (tamely.classAtom flags _) fun high => ?_
            split
            · split
              · exact fun v => readsFrom_malformed_bind
              · exact ih _
            · exact fun v => readsFrom_malformed
        · exact ih _

/-- A class is closed by what ends it for the parser. -/
theorem reads_bracketClass (flags : Flags) : Reads (fun c _ => Shut c) (bracketClass flags) := by
  refine shuts_bind (reads_accept '^') fun negated => ?_
  refine fun s => readsFrom_get_bind (readsFrom_bind (reads_classItems flags _ [] s) ?_)
  intro c a hc u
  refine readsFrom_pure ?_
  rw [List.append_nil]
  exact hc

/-! Groups. -/

/-- The parser never succeeds. -/
def Fails {α : Type} (x : Parser α) : Prop := Reads (fun _ _ => False) x

section
variable {α β : Type} {x : Parser α} {f : α → Parser β}

theorem fails_malformed_bind : Fails ((malformed : Parser α) >>= f) :=
  fun _ => readsFrom_malformed_bind

theorem fails_guard {p : Prop} [Decidable p] {f : PUnit → Parser β} (hf : Fails (f ⟨⟩)) :
    Fails (if p then malformed >>= f else f ⟨⟩) := by
  split
  · exact fails_malformed_bind
  · exact hf

theorem Fails.tamely (h : Fails x) (c : List Token) : Reads (fun d _ => Tame (c ++ d)) x :=
  h.imp fun _ _ => False.elim

theorem tame_chars {chars : List Char} {stop : Char} (hc : '[' ∉ chars) (hs : stop ≠ '[') :
    Tame (chars.map .plain ++ [.plain stop]) :=
  (tame_of_not_mem (plain_not_mem_map hc)).append (tame_nil.cons fun he => hs (Token.plain.inj he))

/-- A name with a bracket in it names nothing. -/
theorem tamely_name_bind {f : List Char → Parser β} {stop : Char} (hs : stop ≠ '[')
    (hfine : ∀ chars, '[' ∉ chars → Tamely (f chars)) (hbad : ∀ chars, '[' ∈ chars → Fails (f chars)) :
    Tamely (name stop >>= f) := by
  refine fun s => readsFrom_bind (reads_name stop s) ?_
  rintro _ chars rfl
  by_cases h : '[' ∈ chars
  · exact (hbad chars h).tamely _
  · exact (hfine chars h).imp fun _ _ => (tame_chars h hs).append

theorem tamely_flagLetters_bind {f : List Char × Char → Parser β} {fuel : Nat}
    (hfine : ∀ a, Tamely (f a)) (hbad : ∀ chars, Fails (f (chars, '['))) :
    Tamely (flagLetters fuel >>= f) := by
  refine fun s => readsFrom_bind (reads_flagLetters fuel s) ?_
  rintro _ ⟨chars, stop⟩ ⟨rfl, hl⟩
  by_cases hs : stop = '['
  · subst hs
    exact (hbad chars).tamely _
  · have hc : '[' ∉ chars := fun hm => absurd (hl _ hm) (by decide)
    exact (hfine _).imp fun _ _ => (tame_chars hc hs).append

end

theorem not_isIdentifier {chars : List Char} (h : '[' ∈ chars) : isIdentifier chars = false := by
  cases chars with
  | nil => cases h
  | cons c rest =>
    by_contra hne
    obtain ⟨hhead, hrest⟩ := Bool.and_eq_true_iff.mp ((Bool.not_eq_false _).mp hne)
    obtain ⟨hc, -⟩ := Bool.and_eq_true_iff.mp hhead
    have hword : Unicode.isWord '[' = true := by
      rcases List.mem_cons.mp h with rfl | hm
      · exact hc
      · exact List.all_eq_true.mp hrest _ hm
    exact absurd hword Bool.false_ne_true

theorem tamely_switches (first : Char) : Tamely (switches first) := by
  refine tamely_get_bind fun s => ?_
  extract_lets fuel ends
  have hbad : ∀ on, Fails (ends (on, '[')) := by
    intro on
    refine fails_guard ?_
    rw [if_neg (by decide)]
    refine fails_guard ?_
    rw [if_neg (by decide), if_pos (by decide)]
    exact fails_malformed_bind
  have hends : ∀ a, Tamely (ends a) := by
    intro a
    refine tamely.guard (tamely.ite (tamely_pure _) (tamely.guard (tamely.ite (tamely_pure _)
      (tamely.guard (tamely_flagLetters_bind (fun b => tamely.guard (tamely.guard (tamely_pure _)))
        fun off => ?_)))))
    dsimp only
    rw [if_pos (by simp)]
    exact fails_malformed_bind
  exact tamely.ite (tamely_bind (tamely_pure _) hends)
    (tamely_flagLetters_bind (fun a => tamely_bind (tamely_pure _) hends) fun more => hbad _)

theorem integer?_of_bracket {chars : List Char} (h : '[' ∈ chars) : Text.integer? chars = none := by
  cases hn : Text.integer? chars with
  | none => rfl
  | some n =>
    exact absurd h (Text.not_mem_of_integer? rfl rfl (by decide) hn)

/-- What names a group, by name or by number, has no bracket in it. -/
theorem tamely_condition : Tamely condition := by
  refine tamely_name_bind (by decide) (fun chars h => ?_) fun chars h => ?_
  · extract_lets refers
    have hrefers : ∀ index, Tamely (refers index) := fun index =>
      tamely_bind (tamely.checkReference index) fun _ => tamely_pure _
    refine tamely.ite (tamely_get_bind fun s => ?_) ?_
    · split
      · exact tamely_bind (tamely_pure _) hrefers
      · exact tamely_bind tamely_malformed hrefers
    · split
      · exact tamely_bind (tamely_modify fun _ => rfl) fun _ => tamely_bind (tamely_pure _) hrefers
      · exact tamely_bind tamely_malformed hrefers
  · dsimp only
    rw [not_isIdentifier h, if_neg (by decide), integer?_of_bracket h]
    exact fails_malformed_bind

/-- The name of a group, which must be an identifier. -/
theorem tamely_identifier_bind {β : Type} {f : List Char → PUnit → Parser β} {stop : Char}
    (hs : stop ≠ '[') (hf : ∀ chars, Tamely (f chars ⟨⟩)) :
    Tamely (name stop >>= fun chars =>
      if isIdentifier chars then f chars ⟨⟩ else malformed >>= f chars) := by
  refine tamely_name_bind hs (fun chars _ => tamely.require (hf chars)) fun chars h => ?_
  rw [if_neg (by rw [not_isIdentifier h]; decide)]
  exact fails_malformed_bind

theorem tamely_opening : Tamely opening := by
  refine tamely_bind (tamely_accept (by decide)) fun special => tamely.ite ?_ (tamely_pure _)
  refine fun s => readsFrom_bind (reads_take s) ?_
  rintro _ a rfl
  have hplain : ∀ {c : Char} {x : Parser Opening}, c ≠ '[' → Tamely x →
      Reads (fun d _ => Tame ([Token.plain c] ++ d)) x := fun hc hx =>
    hx.imp fun _ _ => Tame.cons fun he => hc (Token.plain.inj he)
  split
  · refine hplain (by decide) ?_
    refine tamely_bind (tamely_accept (by decide)) fun named => tamely.ite ?_ ?_
    · exact tamely_identifier_bind (by decide) fun chars => tamely_pure _
    · refine tamely_bind (tamely_accept (by decide)) fun back => tamely.ite ?_ tamely_malformed
      refine tamely_identifier_bind (by decide) fun chars => tamely_get_bind fun s => ?_
      split
      · exact tamely_pure _
      · exact tamely_malformed
  · exact hplain (by decide) (tamely_pure _)
  · refine fun u => readsFrom_get_bind (readsFrom_bind (reads_comment _ u) fun c a _ v => ?_)
    exact readsFrom_pure (tame_comment _)
  · exact hplain (by decide) (tamely_pure _)
  · exact hplain (by decide) (tamely_pure _)
  · refine hplain (by decide) ?_
    refine fun u => readsFrom_bind (reads_take u) ?_
    rintro _ b rfl
    split
    · exact fun v => readsFrom_pure (tame_of_not_mem (by simp))
    · exact fun v => readsFrom_pure (tame_of_not_mem (by simp))
    · exact fun v => readsFrom_malformed
  · exact hplain (by decide) (tamely_bind tamely_condition fun _ => tamely_pure _)
  · exact hplain (by decide) (tamely_pure _)
  · rename_i c _ _ _ _ _ _ _ _
    split
    · rename_i hl
      refine hplain ?_ (tamely_bind (tamely_switches _) fun a => ?_)
      · rintro rfl
        exact absurd hl (by decide)
      · split
        · exact tamely_pure _
        · exact tamely_pure _
    · exact fun u => readsFrom_malformed
  · exact fun u => readsFrom_malformed

theorem tamely_openGroup (name : Option (List Char)) : Tamely (openGroup name) := by
  refine fun s => readsFrom_get_bind ?_
  have hset : ∀ {t : ParseState} {index : Nat}, t.rest = s.rest →
      ReadsFrom s (fun c _ => Tame c) (set t >>= fun _ => pure index) := by
    intro t index ht
    refine readsFrom_bind (readsFrom_set (P := fun c _ => c = []) ht rfl) ?_
    rintro _ _ rfl u
    exact readsFrom_pure tame_nil
  cases name with
  | none => exact hset rfl
  | some chars =>
    dsimp only
    split
    · exact readsFrom_malformed_bind
    · exact hset rfl

/-! Sequences and branches. -/

/-- A brace that bounds nothing stands for itself, and reading goes on right behind it. -/
theorem tamely_brace {α β : Type} {x : Parser (Option α)} {f : ParseState → Option α → Parser β}
    (hx : Tamely x) (hsome : ∀ s a, Tamely (f s (some a))) {y : Parser β} (hy : Tamely y)
    (hnone : ∀ s, f s none = (modify fun t => { t with rest := s.rest }) >>= fun _ => y) :
    Tamely (get >>= fun s => x >>= f s) := by
  refine fun s => readsFrom_get_bind ?_
  intro hs b t h
  obtain ⟨a, u, hr, h⟩ := run_bind_eq_ok.mp h
  cases a with
  | none =>
    rw [hnone] at h
    exact hy { u with rest := s.rest } hs b t h
  | some a =>
    have hread : Tamely (x >>= fun a => a.elim malformed fun a => f s (some a)) := by
      refine tamely_bind hx fun a => ?_
      cases a with
      | none => exact tamely_malformed
      | some a => exact hsome s a
    exact hread s hs b t (run_bind_eq_ok.mpr ⟨some a, u, hr, h⟩)

theorem tamely_sequence_succ {fuel : Nat}
    (halt : ∀ flags top first, Tamely (alternatives fuel flags top first))
    (hseq : ∀ flags first items, Tamely (sequence fuel flags first items))
    (flags : Flags) (first : Bool) (items : List (Expr × Standing)) :
    Tamely (sequence (fuel + 1) flags first items) := by
  unfold sequence
  refine fun s => readsFrom_peek_bind ?_
  split
  · rename_i t ht
    split
    · exact readsFrom_pure tame_nil
    · refine readsFrom_take_bind ?_
      rw [ht]
      cases t with
      | dangling => exact fun u => readsFrom_malformed
      | escaped c =>
        exact (tamely_bind (tamely.escape flags c) fun e => hseq _ _ _).imp fun _ _ =>
          Tame.cons (by simp)
      | plain c =>
        dsimp only
        by_cases hopen : c = '['
        · subst hopen
          have hspace : ¬ (flags.verbose && Unicode.isAsciiSpace '[') = true := by
            simp [show Unicode.isAsciiSpace '[' = false by decide]
          rw [if_neg hspace, if_neg (by simp)]
          refine fun u => readsFrom_bind (reads_bracketClass flags u) fun c a hc => ?_
          exact (hseq _ _ _).imp fun d _ => hc.tame_class.append
        · have hone : Token.plain c ≠ .plain '[' := fun he => hopen (Token.plain.inj he)
          split
          · exact (hseq _ _ _).imp fun _ _ => Tame.cons hone
          split
          · rename_i hhash
            rw [beq_iff_eq.mp (Bool.and_eq_true_iff.mp hhash).2]
            refine fun u => readsFrom_get_bind (readsFrom_bind (reads_lineComment _ u) ?_)
            exact fun c a _ => (hseq _ _ _).imp fun d _ _ => tame_comment (c ++ d)
          · refine Reads.imp (P := fun c _ => Tame c) ?_ fun _ _ => Tame.cons hone
            split
            · exact hseq _ _ _
            · exact hseq _ _ _
            · exact hseq _ _ _
            · exact absurd rfl hopen
            · exact tamely_bind (tamely.repeatLast _ _ _) fun _ => hseq _ _ _
            · exact tamely_bind (tamely.repeatLast _ _ _) fun _ => hseq _ _ _
            · exact tamely_bind (tamely.repeatLast _ _ _) fun _ => hseq _ _ _
            · exact tamely_brace tamely_braceBounds
                (fun _ _ => tamely_bind (tamely.repeatLast _ _ _) fun _ => hseq _ _ _)
                (hseq flags first ((literal flags '{', .piece) :: items)) fun _ => rfl
            · refine tamely_bind tamely_opening fun o => ?_
              cases o with
              | comment => exact hseq _ _ _
              | switches on =>
                exact tamely.require (tamely_bind (tamely_modify fun _ => rfl) fun _ =>
                  tamely_get_bind fun _ => hseq _ _ _)
              | reference index =>
                exact tamely_bind (tamely.groupReference flags index) fun _ => hseq _ _ _
              | capture name =>
                exact tamely_bind (tamely_openGroup name) fun index =>
                  tamely.group (halt _ _ _) fun body =>
                    tamely_bind (tamely.closeGroup index body) fun _ => hseq _ _ _
              | plain on off => exact tamely.group (halt _ _ _) fun _ => hseq _ _ _
              | atomic => exact tamely.group (halt _ _ _) fun _ => hseq _ _ _
              | look behind negated =>
                cases behind with
                | false => exact tamely.group (halt _ _ _) fun _ => hseq _ _ _
                | true =>
                  exact tamely.lookBehind (fun _ => tamely_modify fun _ => rfl) (halt _ _ _)
                    (fun _ => tamely_modify fun _ => rfl) (tamely_modify fun _ => rfl) fun _ _ => hseq _ _ _
              | choice index => exact tamely.choice (hseq _ _ _) fun _ _ => hseq _ _ _
            · exact hseq _ _ _
  · exact readsFrom_pure tame_nil

/-- Branches and the pieces in them leave no class open. -/
theorem tamely_branches (fuel : Nat) :
    (∀ flags top first, Tamely (alternatives fuel flags top first)) ∧
      ∀ flags first items, Tamely (sequence fuel flags first items) := by
  induction fuel with
  | zero => exact ⟨fun _ _ _ => tamely_malformed, fun _ _ _ => tamely_malformed⟩
  | succ fuel ih => exact ⟨tamely.alternatives_succ ih.1 ih.2, tamely_sequence_succ ih.1 ih.2⟩

theorem run_of_parse {flags : Flags} {text : List Char} {program : Program}
    (h : parse flags text = .ok program) : ∃ s e t,
      (alternatives (3 * (Token.ofText text).length + 3) flags true true).run s = .ok (e, t) ∧
        s.rest = Token.ofText text ∧ s.rest.head? ≠ some .dangling ∧ t.rest = [] := by
  unfold parse at h
  extract_lets tokens whole at h
  split at h
  · cases h
  · rename_i hd
    cases hrun : (alternatives (3 * tokens.length + 3) flags true true).run
        ⟨tokens, flags, [], [], none, [], false, false⟩ with
    | error fault =>
      change (_ >>= _) = _ at h
      rw [hrun] at h
      cases h
    | ok p =>
      refine ⟨_, p.1, p.2, hrun, rfl, by simpa using hd, ?_⟩
      change (_ >>= _) = _ at h
      rw [hrun] at h
      change (if (p.2.flags.ascii && p.2.flags.every) = true then _ else _) = _ at h
      split at h
      · cases h
      · dsimp only at h
        split at h
        · rename_i hrest
          exact List.isEmpty_iff.mp hrest
        · cases h

/-- Nothing stands before a star that begins a branch. -/
theorem readsFrom_sequence_star {s : ParseState} (hs : s.rest.head? = some (.plain '*')) (fuel : Nat)
    (flags : Flags) (first : Bool) :
    ReadsFrom s (fun _ _ => False) (sequence (fuel + 1) flags first []) := by
  unfold sequence
  refine readsFrom_peek_bind ?_
  rw [hs]
  refine readsFrom_take_bind ?_
  dsimp only
  have hspace : ¬ (flags.verbose && Unicode.isAsciiSpace '*') = true := by
    simp [show Unicode.isAsciiSpace '*' = false by decide]
  rw [if_neg hspace, if_neg (by simp)]
  exact fun u => readsFrom_malformed_bind

/-- A text that is read as an expression ends in no lone backslash, does not begin with a star, and leaves
no class open, comments apart. -/
theorem reading_of_parse {flags : Flags} {text : List Char} {program : Program}
    (h : parse flags text = .ok program) :
    .dangling ∉ Token.ofText text ∧ Tame (Token.ofText text) ∧ text.head? ≠ some '*' := by
  obtain ⟨s, e, t, hrun, hs, hd, ht⟩ := run_of_parse h
  obtain ⟨c, hc, hcd, -, htame⟩ := (tamely_branches _).1 _ _ _ s hd e t hrun
  rw [ht, List.append_nil, hs] at hc
  refine ⟨hc ▸ hcd, hc ▸ htame, fun hstar => ?_⟩
  have hhead : s.rest.head? = some (.plain '*') := by
    rw [hs]
    cases text with
    | nil => cases hstar
    | cons c rest =>
      cases hstar
      rfl
  have hnone : ReadsFrom s (fun _ _ => False) (alternatives (3 * (Token.ofText text).length + 3) flags
      true true) := by
    unfold alternatives
    exact readsFrom_bind (readsFrom_sequence_star hhead _ flags true) fun _ _ => False.elim
  obtain ⟨_, _, _, _, hfalse⟩ := hnone hd e t hrun
  exact hfalse

end FormGuard.Regex
