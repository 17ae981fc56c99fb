import FormGuard.Regex.Parser
import Mathlib.Data.List.Basic

/-! What a parser moves past: whole tokens, and what can be said of them. -/
namespace FormGuard.Regex.Parser
variable {α β : Type} {s : ParseState} {P Q : List Token → α → Prop} {W : List Token → β → Prop}
  {x : Parser α} {f : α → Parser β}

/-- From a state: what is said of the tokens that a parser moves past and of its answer, if it
succeeds. A lone backslash is not among those tokens and does not come into view. -/
def ReadsFrom (s : ParseState) (P : List Token → α → Prop) (x : Parser α) : Prop :=
  s.rest.head? ≠ some .dangling → ∀ a t, x.run s = .ok (a, t) →
    ∃ c, s.rest = c ++ t.rest ∧ .dangling ∉ c ∧ t.rest.head? ≠ some .dangling ∧ P c a

/-- The same from every state. -/
def Reads (P : List Token → α → Prop) (x : Parser α) : Prop := ∀ s, ReadsFrom s P x

theorem ReadsFrom.imp (h : ReadsFrom s P x) (hi : ∀ c a, P c a → Q c a) : ReadsFrom s Q x := by
  intro hs a t hx
  obtain ⟨c, hc, hd, ht, hp⟩ := h hs a t hx
  exact ⟨c, hc, hd, ht, hi c a hp⟩

theorem Reads.imp (h : Reads P x) (hi : ∀ c a, P c a → Q c a) : Reads Q x :=
  fun s => (h s).imp hi

theorem readsFrom_pure {a : α} (h : P [] a) : ReadsFrom s P (pure a) := by
  rintro hs _ _ ⟨⟩
  exact ⟨[], rfl, List.not_mem_nil, hs, h⟩

theorem readsFrom_throw (fault : Fault) : ReadsFrom s P (throw fault : Parser α) := by
  rintro hs a t ⟨⟩

theorem readsFrom_malformed : ReadsFrom s P (malformed : Parser α) := readsFrom_throw .malformed

theorem run_bind_eq_ok {b : β} {t : ParseState} :
    (x >>= f).run s = .ok (b, t) ↔ ∃ a u, x.run s = .ok (a, u) ∧ (f a).run u = .ok (b, t) := by
  change (x s >>= fun p => f p.1 p.2) = .ok (b, t) ↔ ∃ a u, x s = .ok (a, u) ∧ f a u = .ok (b, t)
  cases x s with
  | error fault =>
    constructor
    · rintro ⟨⟩
    · rintro ⟨_, _, ⟨⟩, _⟩
  | ok p =>
    constructor
    · intro h
      exact ⟨p.1, p.2, rfl, h⟩
    · rintro ⟨_, _, ⟨⟩, h⟩
      exact h

/-- What follows starts where the first part ended, with its answer. -/
theorem readsFrom_bind (hx : ReadsFrom s P x)
    (hf : ∀ c a, P c a → Reads (fun d b => W (c ++ d) b) (f a)) : ReadsFrom s W (x >>= f) := by
  intro hs b t h
  obtain ⟨a, u, hr, h⟩ := run_bind_eq_ok.mp h
  obtain ⟨c, hc, hcd, hu, hp⟩ := hx hs a u hr
  obtain ⟨d, hd, hdd, ht, hw⟩ := hf c a hp u hu b t h
  refine ⟨c ++ d, ?_, ?_, ht, hw⟩
  · rw [hc, hd, List.append_assoc]
  · rw [List.mem_append]
    exact fun hm => hm.elim hcd hdd

theorem readsFrom_malformed_bind {f : α → Parser β} : ReadsFrom s W ((malformed : Parser α) >>= f) := by
  rintro hs a t ⟨⟩

theorem readsFrom_get_bind {f : ParseState → Parser β} (h : ReadsFrom s W (f s)) :
    ReadsFrom s W (get >>= f) := h

theorem readsFrom_peek_bind {f : Option Token → Parser β} (h : ReadsFrom s W (f s.rest.head?)) :
    ReadsFrom s W (peek >>= f) := h

theorem readsFrom_set {P : List Token → PUnit → Prop} {t : ParseState} (ht : t.rest = s.rest)
    (h : P [] ⟨⟩) : ReadsFrom s P (set t) := by
  rintro hs _ _ ⟨⟩
  exact ⟨[], ht.symm, List.not_mem_nil, ht.symm ▸ hs, h⟩

theorem reads_modify {P : List Token → PUnit → Prop} {g : ParseState → ParseState}
    (hg : ∀ s, (g s).rest = s.rest) (h : P [] ⟨⟩) : Reads P (modify g) := by
  rintro s hs _ _ ⟨⟩
  exact ⟨[], (hg s).symm, List.not_mem_nil, (hg s).symm ▸ hs, h⟩

theorem take_nil (h : s.rest = []) : take.run s = .ok (none, s) := by
  rw [take, StateT.run_bind, StateT.run_get, pure_bind, h]
  rfl

theorem take_cons {t : Token} {rest : List Token} (h : s.rest = t :: rest) :
    take.run s =
      if rest.head? == some .dangling then .error .malformed else .ok (some t, { s with rest }) := by
  rw [take, StateT.run_bind, StateT.run_get, pure_bind, h]
  dsimp only
  split <;> rfl

theorem reads_take : Reads (fun c a => c = a.toList) take := by
  intro s hs a t h
  cases hr : s.rest with
  | nil =>
    rw [take_nil hr] at h
    cases h
    exact ⟨[], hr.symm, List.not_mem_nil, hs, rfl⟩
  | cons u rest =>
    rw [take_cons hr] at h
    split at h
    · cases h
    · rename_i hd
      cases h
      have hu : u ≠ .dangling := fun he => hs (by rw [hr, he]; rfl)
      refine ⟨[u], rfl, fun hm => hu (List.mem_singleton.mp hm).symm, ?_, rfl⟩
      simpa using hd

/-- What is taken is what stood in view. -/
theorem readsFrom_take_bind {f : Option Token → Parser β}
    (hf : Reads (fun d b => W (s.rest.head?.toList ++ d) b) (f s.rest.head?)) :
    ReadsFrom s W (take >>= f) := by
  intro hs b t h
  obtain ⟨a, u, hr, h⟩ := run_bind_eq_ok.mp h
  have ha : a = s.rest.head? := by
    cases hs : s.rest with
    | nil =>
      rw [take_nil hs] at hr
      cases hr
      rfl
    | cons t rest =>
      rw [take_cons hs] at hr
      split at hr
      · cases hr
      · cases hr
        rfl
  subst ha
  obtain ⟨c, hc, hcd, hu, rfl⟩ := reads_take s hs _ u hr
  obtain ⟨d, hd, hdd, ht, hw⟩ := hf u hu b t h
  refine ⟨_, ?_, ?_, ht, hw⟩
  · rw [List.append_assoc, ← hd]
    exact hc
  · rw [List.mem_append]
    exact fun hm => hm.elim hcd hdd

theorem reads_accept (ch : Char) :
    Reads (fun c a => c = if a then [.plain ch] else []) (accept ch) := by
  intro s
  refine readsFrom_peek_bind ?_
  split
  · rename_i h
    refine readsFrom_take_bind fun t => readsFrom_pure ?_
    rw [beq_iff_eq.mp h]
    rfl
  · exact readsFrom_pure rfl

theorem reads_takeWhile (kind : Char → Bool) (count : Nat) :
    Reads (fun c a => c = a.map .plain ∧ ∀ ch ∈ a, kind ch = true) (takeWhile kind count) := by
  induction count with
  | zero => exact fun s => readsFrom_pure ⟨rfl, by simp⟩
  | succ count ih =>
    intro s
    refine readsFrom_peek_bind ?_
    split
    · rename_i ch h
      split
      · rename_i hk
        refine readsFrom_take_bind fun t => readsFrom_bind (ih t) ?_
        rintro c a ⟨rfl, ha⟩
        refine fun u => readsFrom_pure ⟨?_, List.forall_mem_cons.mpr ⟨hk, ha⟩⟩
        rw [h, List.append_nil]
        rfl
      · exact readsFrom_pure ⟨rfl, by simp⟩
    · exact readsFrom_pure ⟨rfl, by simp⟩

theorem reads_nameUntil (terminator : Char) (count : Nat) :
    Reads (fun c a => c = a.map .plain ++ [.plain terminator]) (nameUntil terminator count) := by
  induction count with
  | zero => exact fun s => readsFrom_malformed
  | succ count ih =>
    intro s
    refine readsFrom_take_bind ?_
    split
    · rename_i ch h
      rw [h]
      intro t
      split
      · rename_i he
        refine readsFrom_pure ?_
        rw [beq_iff_eq.mp he]
        rfl
      · refine readsFrom_bind (ih t) ?_
        rintro c a rfl
        exact fun u => readsFrom_pure (by simp)
    · exact fun t => readsFrom_malformed

theorem reads_name (terminator : Char) :
    Reads (fun c a => c = a.map .plain ++ [.plain terminator]) (name terminator) := by
  intro s
  refine readsFrom_get_bind (readsFrom_bind (reads_nameUntil terminator _ s) ?_)
  rintro c a rfl t
  split
  · exact readsFrom_malformed_bind
  · exact readsFrom_pure (List.append_nil _)

theorem reads_flagLetters (fuel : Nat) :
    Reads (fun c a => c = a.1.map .plain ++ [.plain a.2] ∧ ∀ ch ∈ a.1, Flags.letters.contains ch = true)
      (flagLetters fuel) := by
  induction fuel with
  | zero => exact fun s => readsFrom_malformed
  | succ fuel ih =>
    intro s
    refine readsFrom_take_bind ?_
    split
    · rename_i ch h
      rw [h]
      intro t
      split
      · rename_i hl
        refine readsFrom_bind (ih t) ?_
        rintro c ⟨more, stop⟩ ⟨rfl, hmore⟩
        exact fun u => readsFrom_pure ⟨by simp, List.forall_mem_cons.mpr ⟨hl, hmore⟩⟩
      · exact readsFrom_pure ⟨rfl, by simp⟩
    · exact fun t => readsFrom_malformed

/-- Comments are passed over whole, whatever stands in them. -/
theorem reads_comment (fuel : Nat) : Reads (fun _ _ => True) (comment fuel) := by
  induction fuel with
  | zero => exact fun s => readsFrom_malformed
  | succ fuel ih =>
    refine fun s => readsFrom_bind (reads_take s) fun c a _ => ?_
    cases a with
    | none => exact fun t => readsFrom_malformed
    | some u =>
      intro t
      dsimp only
      split
      · exact readsFrom_pure trivial
      · exact ih t

theorem reads_lineComment (fuel : Nat) : Reads (fun _ _ => True) (lineComment fuel) := by
  induction fuel with
  | zero => exact fun s => readsFrom_pure trivial
  | succ fuel ih =>
    refine fun s => readsFrom_bind (reads_take s) fun c a _ => ?_
    cases a with
    | none => exact fun t => readsFrom_pure trivial
    | some u =>
      intro t
      dsimp only
      split
      · exact readsFrom_pure trivial
      · exact ih t

end FormGuard.Regex.Parser
