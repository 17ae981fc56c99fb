import FormGuard.Proofs.Regex.Composition

/-! What a parser fails on, and the parsers that leave the switches of an expression as they are. -/
namespace FormGuard.Regex

/-- A count stands in tokens: behind a brace, or behind a first count there and a comma. -/
inductive Counts (digits : List Char) : List Token → Prop where
  | low (front back : List Token) (number : ∀ c ∈ digits, c.isDigit = true) :
    Counts digits (front ++ .plain '{' :: digits.map .plain ++ back)
  | high (front back : List Token) {least : List Char} (first : ∀ c ∈ least, c.isDigit = true)
    (number : ∀ c ∈ digits, c.isDigit = true) :
    Counts digits (front ++ .plain '{' :: (least ++ ',' :: digits).map .plain ++ back)

/-- What stands in tokens that a reader fails on. -/
inductive Blamed (tokens : List Token) : Fault → Prop where
  | malformed : Blamed tokens .malformed
  | tooLarge {digits : List Char} (counts : Counts digits tokens)
    (large : countLimit ≤ numeral 10 digits) : Blamed tokens .tooLarge
  | tooLong {digits : List Char} (counts : Counts digits tokens)
    (long : Text.maxDigits < digits.length) : Blamed tokens .conflict

theorem Counts.append {digits : List Char} {c : List Token} (hc : Counts digits c) (d : List Token) :
    Counts digits (c ++ d) := by
  cases hc with
  | low front back number =>
    rw [List.append_assoc]
    exact .low front (back ++ d) number
  | high front back first number =>
    rw [List.append_assoc]
    exact .high front (back ++ d) first number

namespace Parser
variable {α β : Type} {p : List Token} {s : ParseState} {Q R : List Token → Flags → α → Prop}
  {W : List Token → Flags → β → Prop} {x : Parser α} {f : α → Parser β}

/-- From a state, with tokens passed before: a failure is to be blamed on the tokens, and a success has
moved past some, of which something is said together with the flags and the answer. -/
def Tells (p : List Token) (s : ParseState) (Q : List Token → Flags → α → Prop) (x : Parser α) :
    Prop :=
  (∀ fault, x.run s = .error fault → Blamed (p ++ s.rest) fault) ∧
    ∀ a t, x.run s = .ok (a, t) → ∃ c, s.rest = c ++ t.rest ∧ Q c t.flags a

theorem Tells.imp (h : Tells p s Q x) (hi : ∀ c g a, Q c g a → R c g a) : Tells p s R x := by
  refine ⟨h.1, fun a t hx => ?_⟩
  obtain ⟨c, hc, hq⟩ := h.2 a t hx
  exact ⟨c, hc, hi c _ a hq⟩

theorem tells_pure {a : α} (h : Q [] s.flags a) : Tells p s Q (pure a) := by
  refine ⟨?_, ?_⟩
  · rintro fault ⟨⟩
  · rintro _ _ ⟨⟩
    exact ⟨[], rfl, h⟩

theorem tells_throw {fault : Fault} (h : Blamed (p ++ s.rest) fault) :
    Tells p s Q (throw fault : Parser α) := by
  refine ⟨?_, ?_⟩
  · rintro _ ⟨⟩
    exact h
  · rintro _ _ ⟨⟩

theorem tells_malformed : Tells p s Q (malformed : Parser α) := tells_throw .malformed

theorem run_bind_eq_error {fault : Fault} : (x >>= f).run s = .error fault ↔
    x.run s = .error fault ∨ ∃ a u, x.run s = .ok (a, u) ∧ (f a).run u = .error fault := by
  change (x s >>= fun p => f p.1 p.2) = .error fault ↔
    x s = .error fault ∨ ∃ a u, x s = .ok (a, u) ∧ f a u = .error fault
  cases x s with
  | error other =>
    constructor
    · rintro ⟨⟩
      exact Or.inl rfl
    · rintro (⟨⟨⟩⟩ | ⟨_, _, ⟨⟩, _⟩)
      rfl
  | ok q =>
    constructor
    · intro h
      exact Or.inr ⟨q.1, q.2, rfl, h⟩
    · rintro (⟨⟨⟩⟩ | ⟨_, _, ⟨⟩, h⟩)
      exact h

/-- What follows starts behind the tokens that the first part moved past. -/
theorem tells_bind (hx : Tells p s Q x)
    (hf : ∀ c a t, Q c t.flags a → Tells (p ++ c) t (fun d g b => W (c ++ d) g b) (f a)) :
    Tells p s W (x >>= f) := by
  refine ⟨fun fault h => ?_, fun b t h => ?_⟩
  · obtain h | ⟨a, u, hr, h⟩ := run_bind_eq_error.mp h
    · exact hx.1 fault h
    · obtain ⟨c, hc, hq⟩ := hx.2 a u hr
      rw [hc, ← List.append_assoc]
      exact (hf c a u hq).1 fault h
  · obtain ⟨a, u, hr, h⟩ := run_bind_eq_ok.mp h
    obtain ⟨c, hc, hq⟩ := hx.2 a u hr
    obtain ⟨d, hd, hw⟩ := (hf c a u hq).2 b t h
    exact ⟨c ++ d, by rw [hc, hd, List.append_assoc], hw⟩

theorem tells_get_bind {f : ParseState → Parser β} (h : Tells p s W (f s)) :
    Tells p s W (get >>= f) := h

theorem tells_peek_bind {f : Option Token → Parser β} (h : Tells p s W (f s.rest.head?)) :
    Tells p s W (peek >>= f) := h

theorem tells_ite {c : Prop} [Decidable c] {y : Parser α} (hx : c → Tells p s Q x)
    (hy : ¬ c → Tells p s Q y) : Tells p s Q (if c then x else y) := by
  split
  · exact hx ‹_›
  · exact hy ‹_›

theorem tells_take :
    Tells p s (fun c g a => g = s.flags ∧ a = s.rest.head? ∧ c = a.toList) take := by
  cases hr : s.rest with
  | nil =>
    refine ⟨?_, ?_⟩
    · rw [take_nil hr]
      rintro fault ⟨⟩
    · rw [take_nil hr]
      rintro _ _ ⟨⟩
      exact ⟨[], rfl, rfl, rfl, rfl⟩
  | cons t rest =>
    have hrun := take_cons hr
    split at hrun
    · refine ⟨?_, ?_⟩
      · rw [hrun]
        rintro _ ⟨⟩
        exact .malformed
      · rw [hrun]
        rintro _ _ ⟨⟩
    · refine ⟨?_, ?_⟩
      · rw [hrun]
        rintro _ ⟨⟩
      · rw [hrun]
        rintro _ _ ⟨⟩
        exact ⟨[t], hr, rfl, rfl, rfl⟩

theorem tells_malformed_bind {f : α → Parser β} :
    Tells p s W ((malformed : Parser α) >>= f) :=
  tells_bind (Q := fun _ _ _ => False) tells_malformed fun _ _ _ => False.elim

theorem tells_guard {c : Prop} [Decidable c] {f : PUnit → Parser β} (hf : Tells p s W (f ⟨⟩)) :
    Tells p s W (if c then malformed >>= f else f ⟨⟩) :=
  tells_ite (fun _ => tells_malformed_bind) fun _ => hf

theorem tells_unless {c : Prop} [Decidable c] {f : PUnit → Parser β} (hf : Tells p s W (f ⟨⟩)) :
    Tells p s W (if c then f ⟨⟩ else malformed >>= f) :=
  tells_ite (fun _ => hf) fun _ => tells_malformed_bind

theorem tells_modify {Q : List Token → Flags → PUnit → Prop} {g : ParseState → ParseState}
    (hg : (g s).rest = s.rest) (h : Q [] (g s).flags ⟨⟩) : Tells p s Q (modify g) := by
  refine ⟨?_, ?_⟩
  · rintro fault ⟨⟩
  · rintro _ _ ⟨⟩
    exact ⟨[], hg.symm, h⟩

theorem tells_accept (ch : Char) :
    Tells p s (fun c g a => g = s.flags ∧ c = if a then [.plain ch] else []) (accept ch) := by
  refine tells_peek_bind ?_
  split
  · rename_i h
    refine tells_bind tells_take ?_
    rintro _ _ t ⟨ht, rfl, rfl⟩
    refine tells_pure ⟨ht, ?_⟩
    rw [beq_iff_eq.mp h]
    rfl
  · exact tells_pure ⟨rfl, rfl⟩

theorem tells_takeWhile (kind : Char → Bool) (count : Nat) :
    Tells p s (fun c g a => g = s.flags ∧ c = a.map .plain ∧ ∀ ch ∈ a, kind ch = true)
      (takeWhile kind count) := by
  induction count generalizing p s with
  | zero => exact tells_pure ⟨rfl, rfl, by simp⟩
  | succ count ih =>
    refine tells_peek_bind ?_
    split
    · rename_i ch h
      split
      · rename_i hk
        refine tells_bind tells_take ?_
        rintro _ _ t ⟨ht, rfl, rfl⟩
        refine tells_bind ih ?_
        rintro _ more u ⟨hu, rfl, hmore⟩
        refine tells_pure ⟨hu.trans ht, ?_, List.forall_mem_cons.mpr ⟨hk, hmore⟩⟩
        rw [h, List.append_nil]
        rfl
      · exact tells_pure ⟨rfl, rfl, by simp⟩
    · exact tells_pure ⟨rfl, rfl, by simp⟩

theorem tells_takeAll (kind : Char → Bool) :
    Tells p s (fun c g a => g = s.flags ∧ c = a.map .plain ∧ ∀ ch ∈ a, kind ch = true)
      (takeAll kind) :=
  tells_get_bind (tells_takeWhile kind _)

theorem tells_flagLetters (fuel : Nat) :
    Tells p s (fun c g a => g = s.flags ∧ c = a.1.map .plain ++ [.plain a.2]) (flagLetters fuel) := by
  induction fuel generalizing p s with
  | zero => exact tells_malformed
  | succ fuel ih =>
    refine tells_bind tells_take ?_
    rintro _ _ t ⟨ht, rfl, rfl⟩
    split
    · rename_i ch h
      split
      · refine tells_bind ih ?_
        rintro _ ⟨more, stop⟩ u ⟨hu, rfl⟩
        refine tells_pure ⟨hu.trans ht, ?_⟩
        rw [h, List.append_nil]
        rfl
      · refine tells_pure ⟨ht, ?_⟩
        rw [h]
        rfl
    · exact tells_malformed

/-! Parsers that keep the flags, and fail on what stands in the tokens alone. -/

/-- From every state the parser keeps the flags. -/
def Steady (x : Parser α) : Prop := ∀ p s, Tells p s (fun _ g _ => g = s.flags) x

theorem steady_take : Steady take := fun _ _ => tells_take.imp fun _ _ _ => And.left

theorem steady_accept (ch : Char) : Steady (accept ch) :=
  fun _ _ => (tells_accept ch).imp fun _ _ _ => And.left

theorem steady_takeWhile (kind : Char → Bool) (count : Nat) : Steady (takeWhile kind count) :=
  fun _ _ => (tells_takeWhile kind count).imp fun _ _ _ => And.left

/-- What keeps the flags goes through composition. -/
theorem steady : Composes Steady where
  pure _ := fun _ _ => tells_pure rfl
  malformed := fun _ _ => tells_malformed
  bind hx hf := fun p s => tells_bind (hx p s) fun c a t ht =>
    (hf a (p ++ c) t).imp fun _ _ _ hg => hg.trans ht
  get hf := fun p s => tells_get_bind (hf s p s)
  modify hrest hflags := fun _ s => tells_modify (hrest s) (hflags s)
  accept _ := steady_accept _
  takeWhile _ := steady_takeWhile _

theorem steady_nameUntil (terminator : Char) (count : Nat) :
    Steady (nameUntil terminator count) := by
  induction count with
  | zero => exact steady.malformed
  | succ count ih =>
    refine steady.bind steady_take fun a => ?_
    split
    · exact steady.ite (steady.pure _) (steady.bind ih fun _ => steady.pure _)
    · exact steady.malformed

theorem steady_name (terminator : Char) : Steady (name terminator) :=
  steady.get fun _ => steady.bind (steady_nameUntil terminator _) fun _ =>
    steady.guard (steady.pure _)

end Parser

open FormGuard.Regex.Parser

theorem steady_classItems (flags : Flags) (fuel : Nat) (items : List ClassItem) :
    Steady (classItems flags fuel items) := by
  induction fuel generalizing items with
  | zero => exact steady.malformed
  | succ fuel ih =>
    refine steady.bind steady_take fun a => ?_
    cases a with
    | none => exact steady.malformed
    | some t =>
      refine steady.ite (steady.pure _) (steady.bind (steady.classAtom flags t) fun low => ?_)
      refine steady.bind (steady_accept '-') fun ranged => steady.ite ?_ (ih _)
      refine steady.bind steady_take fun b => ?_
      split
      · exact steady.malformed
      · exact steady.pure _
      · refine steady.bind (steady.classAtom flags _) fun high => ?_
        split
        · exact steady.guard (ih _)
        · exact steady.malformed

theorem steady_bracketClass (flags : Flags) : Steady (bracketClass flags) :=
  steady.bind (steady_accept '^') fun _ => steady.get fun _ =>
    steady.bind (steady_classItems flags _ []) fun _ => steady.pure _

theorem steady_comment (fuel : Nat) : Steady (comment fuel) := by
  induction fuel with
  | zero => exact steady.malformed
  | succ fuel ih =>
    refine steady.bind steady_take fun a => ?_
    cases a with
    | none => exact steady.malformed
    | some t => exact steady.ite (steady.pure _) ih

theorem steady_lineComment (fuel : Nat) : Steady (lineComment fuel) := by
  induction fuel with
  | zero => exact steady.pure _
  | succ fuel ih =>
    refine steady.bind steady_take fun a => ?_
    cases a with
    | none => exact steady.pure _
    | some t => exact steady.ite (steady.pure _) ih

theorem steady_condition : Steady condition := by
  refine steady.bind (steady_name ')') fun chars => ?_
  extract_lets refers
  have hrefers : ∀ index, Steady (refers index) := fun index =>
    steady.bind (steady.checkReference index) fun _ => steady.pure _
  refine steady.ite (steady.get fun s => ?_) ?_
  · split
    · exact steady.bind (steady.pure _) hrefers
    · exact steady.bind steady.malformed hrefers
  · split
    · exact steady.bind (steady.modify (fun _ => rfl) fun _ => rfl) fun _ =>
        steady.bind (steady.pure _) hrefers
    · exact steady.bind steady.malformed hrefers

theorem steady_openGroup (name : Option (List Char)) : Steady (openGroup name) := by
  refine fun p s => tells_get_bind ?_
  have hset : ∀ {t : ParseState} {index : Nat}, t.rest = s.rest → t.flags = s.flags →
      Tells p s (fun _ g _ => g = s.flags) (set t >>= fun _ => pure index) := fun hrest hflags =>
    tells_bind (Q := fun _ g _ => g = s.flags) (tells_modify (g := fun _ => _) hrest hflags)
      fun _ _ _ ht => tells_pure ht
  cases name with
  | none => exact hset rfl rfl
  | some chars => exact tells_guard (hset rfl rfl)

end FormGuard.Regex
