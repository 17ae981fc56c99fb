import FormGuard.Proofs.Regex.Steady

/-! Why a text is no expression: where it is not malformed, it asks for a count that is too large, or for
ASCII and Unicode matching at once. -/
namespace FormGuard.Regex

/-- A group in tokens switches a letter on for the whole expression. -/
inductive Switches (letter : Char) : List Token → Prop where
  | intro (front back : List Token) {on : List Char} (asked : letter ∈ on) :
    Switches letter (front ++ .plain '(' :: .plain '?' :: on.map .plain ++ .plain ')' :: back)

/-- The script in force is what it was, or tokens ask for another. -/
structure Switched (tokens : List Token) (before after : Flags) : Prop where
  every : after.every = true → before.every = true ∨ Switches 'u' tokens
  ascii : after.ascii = true → before.ascii = true ∨ Switches 'a' tokens

section
variable {tokens c d : List Token} {letter : Char} {f g h : Flags}

theorem Switches.append (hs : Switches letter c) (d : List Token) : Switches letter (c ++ d) := by
  cases hs with
  | intro front back asked =>
    rw [List.append_assoc, List.cons_append]
    exact .intro front (back ++ d) asked

theorem switched_refl (tokens : List Token) (f : Flags) : Switched tokens f f := ⟨Or.inl, Or.inl⟩

theorem Switched.trans (hc : Switched c f g) (hd : Switched (c ++ d) g h) :
    Switched (c ++ d) f h := by
  refine ⟨fun he => ?_, fun ha => ?_⟩
  · exact (hd.every he).elim (fun hg => (hc.every hg).imp_right fun hs => hs.append d) Or.inr
  · exact (hd.ascii ha).elim (fun hg => (hc.ascii hg).imp_right fun hs => hs.append d) Or.inr

/-- A switch that is on after letters were switched on was on before, or it is that of a letter there. -/
theorem on_of_foldl {read : Flags → Bool}
    (hset : ∀ f ch, read (Flags.set f true ch) = true → read f = true ∨ ch = letter) {on : List Char}
    (h : read (on.foldl (fun f ch => f.set true ch) f) = true) : read f = true ∨ letter ∈ on := by
  induction on generalizing f with
  | nil => exact Or.inl h
  | cons ch rest ih =>
    rcases ih h with hf | hm
    · refine (hset f ch hf).imp_right ?_
      rintro rfl
      exact List.mem_cons_self
    · exact Or.inr (List.mem_cons_of_mem ch hm)

theorem every_of_set {ch : Char} (h : (f.set true ch).every = true) : f.every = true ∨ ch = 'u' := by
  unfold Flags.set at h
  split at h <;> simp_all

theorem ascii_of_set {ch : Char} (h : (f.set true ch).ascii = true) : f.ascii = true ∨ ch = 'a' := by
  unfold Flags.set at h
  split at h <;> simp_all

theorem switched_foldl {on : List Char} (hon : ∀ ch ∈ on, Switches ch tokens) (f : Flags) :
    Switched tokens f (on.foldl (fun f ch => f.set true ch) f) :=
  ⟨fun he => (on_of_foldl (fun _ _ => every_of_set) he).imp_right (hon _),
    fun ha => (on_of_foldl (fun _ _ => ascii_of_set) ha).imp_right (hon _)⟩

end

open FormGuard.Regex.Parser

/-! Counts and switches. -/

section
variable {p : List Token} {s : ParseState}

/-- A count fails when it is too large, or so long that it is not even read. -/
theorem tells_count? {digits : List Char} (hd : Counts digits p) :
    Tells p s (fun _ g _ => g = s.flags) (count? digits) := by
  refine tells_ite (fun _ => tells_pure rfl) fun _ => ?_
  refine tells_ite (fun hlong => ?_) fun _ => tells_ite (fun hlarge => ?_) fun _ => tells_pure rfl
  · exact tells_bind (Q := fun _ _ _ => False) (tells_throw (.tooLong (hd.append _) hlong))
      fun _ _ _ => False.elim
  · exact tells_bind (Q := fun _ _ _ => False) (tells_throw (.tooLarge (hd.append _) hlarge))
      fun _ _ _ => False.elim

theorem tells_braceBounds :
    Tells (p ++ [.plain '{']) s (fun _ g _ => g = s.flags) braceBounds := by
  refine tells_peek_bind ?_
  split
  · exact tells_pure rfl
  · refine tells_bind (tells_takeAll Char.isDigit) ?_
    rintro _ low t ⟨ht, rfl, hlow⟩
    refine tells_bind (tells_accept ',') ?_
    rintro _ second u ⟨hu, rfl⟩
    extract_lets counts
    have hcounts : ∀ {high : List Char} {q : List Token} {v : ParseState}, v.flags = s.flags →
        Counts low q → Counts high q → Tells q v (fun _ g _ => g = s.flags) (counts high) := by
      intro high q v hv hl hh
      refine tells_bind (steady_accept '}' q v) fun c _ w hw => ?_
      refine tells_ite (fun _ => ?_) fun _ => tells_pure (hw.trans hv)
      refine tells_bind (tells_count? (hl.append c)) fun d least w' hw' => ?_
      refine tells_bind (tells_count? ((hh.append c).append d)) fun e most w'' hw'' => ?_
      have hflags := hw''.trans (hw'.trans (hw.trans hv))
      cases most with
      | none => exact tells_pure hflags
      | some m => exact tells_guard (tells_pure hflags)
    cases second with
    | false =>
      have hl : Counts low (p ++ [.plain '{'] ++ low.map .plain ++ []) := by
        simpa using Counts.low p [] hlow
      exact hcounts (hu.trans ht) hl hl
    | true =>
      refine tells_bind (tells_takeAll Char.isDigit) ?_
      rintro _ high v ⟨hv, rfl, hhigh⟩
      refine hcounts (hv.trans (hu.trans ht)) ?_ ?_
      · simpa using Counts.low p (.plain ',' :: high.map .plain) hlow
      · simpa using Counts.high p [] hlow hhigh

/-- Switches for the whole expression are all that stands up to the closing parenthesis. -/
theorem tells_switches (first : Char) :
    Tells p s (fun c g a => g = s.flags ∧
      (a.2 = none → .plain first :: c = a.1.map .plain ++ [.plain ')'])) (switches first) := by
  refine tells_get_bind ?_
  extract_lets fuel ends
  have hends : ∀ (on : List Char) (stop : Char) (q : List Token) (u : ParseState),
      Tells q u (fun c g a => g = u.flags ∧ (a.2 = none → c = [] ∧ a.1 = on ∧ stop = ')'))
        (ends (on, stop)) := by
    intro on stop q u
    refine tells_guard (tells_ite (fun hstop => ?_) fun _ => ?_)
    · exact tells_pure ⟨rfl, fun _ => ⟨rfl, rfl, beq_iff_eq.mp hstop⟩⟩
    · refine tells_guard (tells_ite (fun _ => tells_pure ⟨rfl, nofun⟩) fun _ => tells_guard ?_)
      refine tells_bind (tells_flagLetters _) ?_
      rintro _ ⟨off, stop⟩ v ⟨hv, -⟩
      exact tells_guard (tells_guard (tells_pure ⟨hv, nofun⟩))
  refine tells_ite (fun _ => ?_) fun _ => ?_
  · refine (hends [] '-' p s).imp fun c g a ⟨hg, ha⟩ => ⟨hg, fun hnone => ?_⟩
    exact absurd (ha hnone).2.2 (by decide)
  · refine tells_bind (tells_flagLetters _) ?_
    rintro _ ⟨more, stop⟩ t ⟨ht, rfl⟩
    refine (hends (first :: more) stop _ t).imp fun c g a ⟨hg, ha⟩ => ⟨hg.trans ht, fun hnone => ?_⟩
    obtain ⟨rfl, hon, rfl⟩ := ha hnone
    simp [hon]

/-- The parser keeps the flags and answers nothing that switches the whole expression. -/
def Unswitching (x : Parser Opening) : Prop :=
  ∀ p s, Tells p s (fun _ g o => g = s.flags ∧ ∀ on, o ≠ .switches on) x

theorem unswitching_pure {o : Opening} (h : ∀ on, o ≠ .switches on) : Unswitching (pure o) :=
  fun _ _ => tells_pure ⟨rfl, h⟩

theorem unswitching_malformed : Unswitching malformed := fun _ _ => tells_malformed

theorem unswitching_bind {α : Type} {x : Parser α} {f : α → Parser Opening} (hx : Steady x)
    (hf : ∀ a, Unswitching (f a)) : Unswitching (x >>= f) :=
  fun p s => tells_bind (hx p s) fun c a t ht =>
    (hf a (p ++ c) t).imp fun _ _ _ h => ⟨h.1.trans ht, h.2⟩

theorem unswitching_ite {c : Prop} [Decidable c] {x y : Parser Opening} (hx : Unswitching x)
    (hy : Unswitching y) : Unswitching (if c then x else y) :=
  fun p s => tells_ite (fun _ => hx p s) fun _ => hy p s

/-- What a parenthesis opens; switches for the whole expression end there. -/
theorem tells_opening :
    Tells p s (fun c g o => g = s.flags ∧
      ∀ on, o = .switches on → c = .plain '?' :: on.map .plain ++ [.plain ')']) opening := by
  refine tells_bind (tells_accept '?') ?_
  rintro _ special t ⟨ht, rfl⟩
  refine tells_ite (fun hs => ?_) fun _ => tells_pure ⟨ht, nofun⟩
  subst hs
  rw [if_pos rfl]
  refine tells_bind tells_take ?_
  rintro _ a u ⟨hu, -, rfl⟩
  have hother : ∀ {x : Parser Opening} {q : List Token} {W : List Token → List Char → Prop},
      Unswitching x → Tells q u (fun d g o => g = s.flags ∧ ∀ on, o = .switches on → W d on) x :=
    fun hx => (hx _ u).imp fun _ _ _ h =>
      ⟨h.1.trans (hu.trans ht), fun on ho => absurd ho (h.2 on)⟩
  have hpure : ∀ {o : Opening}, (∀ on, o ≠ .switches on) → Unswitching (pure o) := unswitching_pure
  have hnamed : ∀ {stop : Char} {f : List Char → PUnit → Parser Opening},
      (∀ chars, Unswitching (f chars ⟨⟩)) → Unswitching (name stop >>= fun chars =>
        if isIdentifier chars then f chars ⟨⟩ else malformed >>= f chars) := fun hf =>
    unswitching_bind (steady_name _) fun chars => unswitching_ite (hf chars)
      fun _ _ => tells_malformed_bind
  split
  · refine hother (unswitching_bind (steady_accept '<') fun named => unswitching_ite ?_ ?_)
    · exact hnamed fun chars => hpure nofun
    · refine unswitching_bind (steady_accept '=') fun back => unswitching_ite ?_ unswitching_malformed
      refine hnamed fun chars q v => tells_get_bind ?_
      split
      · exact hpure (by nofun) q v
      · exact tells_malformed
  · exact hother (hpure nofun)
  · exact tells_get_bind (hother (unswitching_bind (steady_comment _) fun _ => hpure nofun))
  · exact hother (hpure nofun)
  · exact hother (hpure nofun)
  · refine hother (unswitching_bind steady_take fun b => ?_)
    split
    · exact hpure nofun
    · exact hpure nofun
    · exact unswitching_malformed
  · exact hother (unswitching_bind steady_condition fun _ => hpure nofun)
  · exact hother (hpure nofun)
  · refine tells_ite (fun _ => ?_) fun _ => tells_malformed
    refine tells_bind (tells_switches _) ?_
    rintro _ ⟨on, off⟩ v ⟨hv, hnone⟩
    cases off with
    | none =>
      refine tells_pure ⟨hv.trans (hu.trans ht), ?_⟩
      rintro _ ⟨⟩
      simpa using hnone rfl
    | some off => exact tells_pure ⟨hv.trans (hu.trans ht), nofun⟩
  · exact tells_malformed

end

/-! Branches. -/

/-- What the parser makes of the script in force is asked for by the tokens up to where it stops. -/
def Accounts {α : Type} (x : Parser α) : Prop :=
  ∀ p s, Tells p s (fun c g _ => Switched (p ++ c) s.flags g) x

section
variable {α β : Type} {x : Parser α} {f : α → Parser β} {p : List Token} {s : ParseState}

theorem Parser.Steady.accounts (h : Steady x) : Accounts x :=
  fun p s => (h p s).imp fun _ _ _ hg => hg ▸ switched_refl _ _

/-- What follows may switch on its own. -/
theorem Parser.Tells.behind {c : List Token} {t : ParseState}
    (h : Tells (p ++ c) t (fun d g _ => Switched (p ++ c ++ d) t.flags g) x)
    (hs : Switched (p ++ c) s.flags t.flags) :
    Tells (p ++ c) t (fun d g _ => Switched (p ++ (c ++ d)) s.flags g) x :=
  h.imp fun d g _ hd => by
    rw [← List.append_assoc]
    exact hs.trans hd

theorem Accounts.behind {c : List Token} {t : ParseState} (h : Accounts x)
    (hs : Switched (p ++ c) s.flags t.flags) :
    Tells (p ++ c) t (fun d g _ => Switched (p ++ (c ++ d)) s.flags g) x :=
  (h _ _).behind hs

/-- What accounts for the script goes through composition. -/
theorem accounts : Composes Accounts where
  pure a := (steady.pure a).accounts
  malformed := steady.malformed.accounts
  bind hx hf := fun p s => tells_bind (hx p s) fun _ a _ hc => (hf a).behind hc
  get hf := fun p s => tells_get_bind (hf s p s)
  modify hrest hflags := (steady.modify hrest hflags).accounts
  accept _ := (steady_accept _).accounts
  takeWhile _ _ := (steady_takeWhile _ _).accounts

end

/-- A brace that bounds nothing stands for itself, and reading goes on right behind it. -/
theorem tells_brace {α β : Type} {x : Parser (Option α)} {f : ParseState → Option α → Parser β}
    {p : List Token} {s : ParseState} (hx : Tells p s (fun _ g _ => g = s.flags) x)
    (hsome : ∀ s a, Accounts (f s (some a))) {y : Parser β} (hy : Accounts y)
    (hnone : ∀ s, f s none = (modify fun t => { t with rest := s.rest }) >>= fun _ => y) :
    Tells p s (fun c g _ => Switched (p ++ c) s.flags g) (get >>= fun s => x >>= f s) := by
  refine tells_get_bind ?_
  have hback : ∀ u : ParseState, u.flags = s.flags →
      Tells p { u with rest := s.rest } (fun c g _ => Switched (p ++ c) s.flags g) y := fun u hu =>
    (hy p { u with rest := s.rest }).imp fun c g _ hg => hu ▸ hg
  have hread : Tells p s (fun c g _ => Switched (p ++ c) s.flags g)
      (x >>= fun a => a.elim malformed fun a => f s (some a)) := by
    refine tells_bind hx fun c a t ht => ?_
    cases a with
    | none => exact tells_malformed
    | some a => exact (hsome s a).behind (ht ▸ switched_refl _ _)
  refine ⟨fun fault h => ?_, fun b t h => ?_⟩
  · obtain h | ⟨a, u, hr, h⟩ := run_bind_eq_error.mp h
    · exact hx.1 fault h
    · cases a with
      | none =>
        rw [hnone] at h
        exact (hback u ((hx.2 none u hr).choose_spec.2)).1 fault h
      | some a => exact hread.1 fault (run_bind_eq_error.mpr (Or.inr ⟨some a, u, hr, h⟩))
  · obtain ⟨a, u, hr, h⟩ := run_bind_eq_ok.mp h
    cases a with
    | none =>
      rw [hnone] at h
      exact (hback u ((hx.2 none u hr).choose_spec.2)).2 b t h
    | some a => exact hread.2 b t (run_bind_eq_ok.mpr ⟨some a, u, hr, h⟩)

theorem accounts_sequence_succ {fuel : Nat}
    (halt : ∀ flags top first, Accounts (alternatives fuel flags top first))
    (hseq : ∀ flags first items, Accounts (sequence fuel flags first items))
    (flags : Flags) (first : Bool) (items : List (Expr × Standing)) :
    Accounts (sequence (fuel + 1) flags first items) := by
  unfold sequence
  refine fun p s => tells_peek_bind ?_
  split
  · rename_i t ht
    refine tells_ite (fun _ => tells_pure (switched_refl _ _)) fun _ => ?_
    refine tells_bind tells_take ?_
    rintro _ a u ⟨hu, ha, rfl⟩
    obtain rfl : a = some t := ha.trans ht
    have hkept : Switched (p ++ [t]) s.flags u.flags := hu ▸ switched_refl _ _
    cases t with
    | dangling => exact tells_malformed
    | escaped c =>
      exact (accounts.bind (accounts.escape flags c) fun e => hseq _ _ _).behind hkept
    | plain c =>
      refine tells_ite (fun _ => (hseq _ _ _).behind hkept) fun _ => ?_
      refine tells_ite (fun _ => ?_) fun _ => ?_
      · exact (accounts.get fun _ => accounts.bind (steady_lineComment _).accounts
          fun _ => hseq _ _ _).behind hkept
      · have hpiece : ∀ {least most}, Accounts (repeatLast least most items >>= fun items =>
            sequence fuel flags first items) :=
          accounts.bind (accounts.repeatLast _ _ _) fun _ => hseq _ _ _
        split
        · exact (hseq _ _ _).behind hkept
        · exact (hseq _ _ _).behind hkept
        · exact (hseq _ _ _).behind hkept
        · exact (accounts.bind (steady_bracketClass flags).accounts fun _ => hseq _ _ _).behind hkept
        · exact hpiece.behind hkept
        · exact hpiece.behind hkept
        · exact hpiece.behind hkept
        · refine Tells.behind (tells_brace tells_braceBounds (fun _ _ => hpiece) ?_ fun _ => rfl) hkept
          exact hseq flags first ((literal flags '{', .piece) :: items)
        · refine Tells.behind (tells_bind tells_opening ?_) hkept
          rintro c o v ⟨hv, hon⟩
          have hopened : Switched (p ++ [.plain '('] ++ c) u.flags v.flags := hv ▸ switched_refl _ _
          cases o with
          | comment => exact (hseq _ _ _).behind hopened
          | switches on =>
            refine tells_unless (tells_bind (Q := fun d g _ => d = [] ∧
              g = on.foldl (fun f c => f.set true c) v.flags) (tells_modify rfl ⟨rfl, rfl⟩) ?_)
            rintro _ _ w ⟨rfl, hw⟩
            have hswitched : Switched (p ++ [.plain '('] ++ c) u.flags w.flags := by
              rw [hw, hv, hon on rfl]
              refine switched_foldl (fun ch hch => ?_) _
              simpa using Switches.intro p [] hch
            rw [List.append_nil]
            exact tells_get_bind ((hseq _ _ _).behind hswitched)
          | reference index =>
            exact (accounts.bind (accounts.groupReference flags index)
              fun _ => hseq _ _ _).behind hopened
          | capture name =>
            exact (accounts.bind (steady_openGroup name).accounts fun index =>
              accounts.group (halt _ _ _) fun body =>
                accounts.bind (accounts.closeGroup index body) fun _ => hseq _ _ _).behind hopened
          | plain on off => exact (accounts.group (halt _ _ _) fun _ => hseq _ _ _).behind hopened
          | atomic => exact (accounts.group (halt _ _ _) fun _ => hseq _ _ _).behind hopened
          | look behind negated =>
            cases behind with
            | false => exact (accounts.group (halt _ _ _) fun _ => hseq _ _ _).behind hopened
            | true =>
              refine Accounts.behind ?_ hopened
              exact accounts.lookBehind (fun _ => accounts.modify (fun _ => rfl) fun _ => rfl)
                (halt _ _ _) (fun _ => accounts.modify (fun _ => rfl) fun _ => rfl)
                (accounts.modify (fun _ => rfl) fun _ => rfl) fun _ _ => hseq _ _ _
          | choice index =>
            refine Accounts.behind ?_ hopened
            exact accounts.choice (hseq _ _ _) fun _ _ => hseq _ _ _
        · exact (hseq _ _ _).behind hkept
  · exact tells_pure (switched_refl _ _)

/-- Branches and the pieces in them account for the script and for every failure. -/
theorem accounts_branches (fuel : Nat) :
    (∀ flags top first, Accounts (alternatives fuel flags top first)) ∧
      ∀ flags first items, Accounts (sequence fuel flags first items) := by
  induction fuel with
  | zero => exact ⟨fun _ _ _ => accounts.malformed, fun _ _ _ => accounts.malformed⟩
  | succ fuel ih => exact ⟨accounts.alternatives_succ ih.1 ih.2, accounts_sequence_succ ih.1 ih.2⟩

/-- What is wrong with an expression: a failure on the tokens on the way, or both scripts at the end. -/
inductive Faulty (flags : Flags) (tokens : List Token) : Fault → Prop where
  | blamed {fault : Fault} (blame : Blamed tokens fault) : Faulty flags tokens fault
  | scripts (every : flags.every = true ∨ Switches 'u' tokens)
    (ascii : flags.ascii = true ∨ Switches 'a' tokens) : Faulty flags tokens .conflict

theorem faulty_of_parse {flags : Flags} {text : List Char} {fault : Fault}
    (h : parse flags text = .error fault) : Faulty flags (Token.ofText text) fault := by
  unfold parse at h
  extract_lets tokens whole at h
  obtain ⟨herror, hok⟩ := (accounts_branches (3 * tokens.length + 3)).1 flags true true []
    ⟨tokens, flags, [], [], none, [], false, false⟩
  split at h
  · cases h
    exact .blamed .malformed
  · cases hrun : (alternatives (3 * tokens.length + 3) flags true true).run
        ⟨tokens, flags, [], [], none, [], false, false⟩ with
    | error other =>
      change (_ >>= _) = _ at h
      rw [hrun] at h
      cases h
      exact .blamed (herror _ hrun)
    | ok q =>
      obtain ⟨c, hc, hswitched⟩ := hok q.1 q.2 hrun
      change (_ >>= _) = _ at h
      rw [hrun] at h
      change (if (q.2.flags.ascii && q.2.flags.every) = true then _ else _) = _ at h
      split at h
      · rename_i hboth
        obtain ⟨hascii, hevery⟩ := Bool.and_eq_true_iff.mp hboth
        cases h
        rw [show Token.ofText text = c ++ q.2.rest from hc]
        exact .scripts ((hswitched.every hevery).imp_right fun hs => hs.append _)
          ((hswitched.ascii hascii).imp_right fun hs => hs.append _)
      · -- what else is checked at the end fails in one way
        have hmalformed : fault = .malformed := by
          dsimp only at h
          split at h
          · split at h
            · cases h
              rfl
            · split at h
              · cases h
                rfl
              · cases h
          · cases h
            rfl
        exact hmalformed ▸ .blamed .malformed

end FormGuard.Regex
