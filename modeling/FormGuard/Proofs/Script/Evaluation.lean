import FormGuard.Proofs.Script.Grammar

/-! What grouped code comes to, by what its operands come to, and whether a conjunct at the end of it is
asked before the code comes true. -/
namespace FormGuard.Script

/-- What operands do: in a state they come to a value and another state, or end in an exception. A place
is found first and stored in last, which does not fail. -/
structure Meaning (State Place Val : Type) where
  truthy : Val → Bool
  nullish : Val → Bool
  operand : List Char → State → Option (Val × State)
  place : List Char → State → Option (Place × State)
  load : Place → State → Option (Val × State)
  store : Place → Val → State → State

namespace Meaning
variable {State Place Val : Type} (M : Meaning State Place Val)

/-- Whether the right operand is asked once the left one has come to a value. -/
def goesOn : Link → Val → Bool
  | .both, v => M.truthy v
  | .either, v => !M.truthy v
  | .otherwise, v => M.nullish v

def eval : Grouping → State → Option (Val × State)
  | .operand code, s => M.operand code s
  | .link l a b, s => do
    let (v, t) ← eval a s
    if M.goesOn l v then eval b t else return (v, t)
  | .choice c y n, s => do
    let (v, t) ← eval c s
    if M.truthy v then eval y t else eval n t
  | .assign none code e, s => do
    let (p, t) ← M.place code s
    let (v, u) ← eval e t
    return (v, M.store p v u)
  | .assign (some l) code e, s => do
    let (p, t) ← M.place code s
    let (old, u) ← M.load p t
    if M.goesOn l old then
      let (v, w) ← eval e u
      return (v, M.store p v w)
    else return (old, u)
  | .sequence a b, s => do
    let (_, t) ← eval a s
    eval b t

/-- What was asked came to an end, and to something that counts as true. -/
def IsTrue (outcome : Option (Val × State)) : Prop :=
  ∃ v t, outcome = some (v, t) ∧ M.truthy v = true

/-- Code comes true. -/
def Holds (e : Grouping) (s : State) : Prop := M.IsTrue (M.eval e s)

variable {M} {a b c e y n : Grouping} {s : State} {l : Link} {code g : List Char} {flagged : Bool}

theorem isTrue_bind {α : Type} {x : Option α} {f : α → Option (Val × State)} :
    M.IsTrue (x >>= f) ↔ ∃ r, x = some r ∧ M.IsTrue (f r) := by
  cases x with
  | none =>
    refine iff_of_false ?_ ?_
    · rintro ⟨_, _, h, _⟩
      cases h
    · rintro ⟨_, h, _⟩
      cases h
  | some r => exact ⟨fun h => ⟨r, rfl, h⟩, fun ⟨_, h, hr⟩ => Option.some.inj h ▸ hr⟩

theorem isTrue_some {v : Val} {t : State} : M.IsTrue (some (v, t)) ↔ M.truthy v = true := by
  constructor
  · rintro ⟨_, _, h, hv⟩
    cases h
    exact hv
  · exact fun h => ⟨v, t, rfl, h⟩

theorem isTrue_ite {p : Bool} {x z : Option (Val × State)} :
    M.IsTrue (if p then x else z) ↔ if p then M.IsTrue x else M.IsTrue z := by
  cases p <;> rfl

theorem holds_link : M.Holds (.link l a b) s ↔ ∃ v t, M.eval a s = some (v, t) ∧
    if M.goesOn l v then M.Holds b t else M.truthy v = true := by
  simp only [Holds, eval, isTrue_bind, isTrue_ite, isTrue_some, Prod.exists, pure]

theorem holds_choice : M.Holds (.choice c y n) s ↔ ∃ v t, M.eval c s = some (v, t) ∧
    if M.truthy v then M.Holds y t else M.Holds n t := by
  simp only [Holds, eval, isTrue_bind, isTrue_ite, Prod.exists]

theorem holds_assign : M.Holds (.assign none code e) s ↔
    ∃ p t, M.place code s = some (p, t) ∧ M.Holds e t := by
  -- storing changes the state alone
  simp only [Holds, eval, isTrue_bind, isTrue_some, Prod.exists, pure]
  rfl

theorem holds_assign_link : M.Holds (.assign (some l) code e) s ↔
    ∃ p t, M.place code s = some (p, t) ∧ ∃ v u, M.load p t = some (v, u) ∧
      if M.goesOn l v then M.Holds e u else M.truthy v = true := by
  simp only [Holds, eval, isTrue_bind, isTrue_ite, isTrue_some, Prod.exists, pure]
  rfl

theorem holds_sequence : M.Holds (.sequence a b) s ↔
    ∃ v t, M.eval a s = some (v, t) ∧ M.Holds b t := by
  simp only [Holds, eval, isTrue_bind, Prod.exists]

variable (M)

/-- Code comes true without what stands at its end being asked: by a disjunct in front, by the other
branch of a choice, or by what an assignment with an operator finds in its place. -/
def Early : Grouping → State → Prop
  | .operand _, _ | .link .both _ _, _ => False
  | .link l a b, s => ∃ v t, M.eval a s = some (v, t) ∧
    if M.goesOn l v then Early b t else M.truthy v = true
  | .choice c y n, s => ∃ v t, M.eval c s = some (v, t) ∧
    if M.truthy v then M.Holds y t else Early n t
  | .assign none code e, s => ∃ p t, M.place code s = some (p, t) ∧ Early e t
  | .assign (some l) code e, s => ∃ p t, M.place code s = some (p, t) ∧
    ∃ v u, M.load p t = some (v, u) ∧ if M.goesOn l v then Early e u else M.truthy v = true
  | .sequence a b, s => ∃ v t, M.eval a s = some (v, t) ∧ Early b t

/-- An operand asks whether a flag is not set, and does nothing else. -/
def AsksUnset (g : List Char) (flagged : Bool) : Prop :=
  ∀ s, ∃ v, M.operand g s = some (v, s) ∧ M.truthy v = !flagged

variable {M}

theorem holds_and_flag (hg : M.AsksUnset g flagged) :
    M.Holds (.link .both e (.operand g)) s ↔ M.Holds e s ∧ flagged = false := by
  have hask : ∀ t, M.Holds (.operand g) t ↔ flagged = false := by
    intro t
    obtain ⟨v, hv, htrue⟩ := hg t
    rw [Holds, eval, hv, isTrue_some, htrue, Bool.not_eq_true']
  rw [holds_link]
  constructor
  · rintro ⟨v, t, hv, htrue⟩
    split at htrue
    · rename_i hgo
      exact ⟨⟨v, t, hv, hgo⟩, (hask t).mp htrue⟩
    · rename_i hstop
      exact absurd htrue hstop
  · rintro ⟨⟨v, t, hv, htrue⟩, hunset⟩
    refine ⟨v, t, hv, ?_⟩
    rw [goesOn, if_pos htrue]
    exact (hask t).mpr hunset

/-- With a conjunct that asks for the flag, code comes true as before where the flag is not set, and
where it is set only early. -/
theorem holds_guarded_iff (hg : M.AsksUnset g flagged) (hc : e.guarded g = some c) :
    M.Holds c s ↔ if flagged then M.Early e s else M.Holds e s := by
  induction e generalizing c s with
  | operand code =>
    cases hc
    rw [holds_and_flag hg]
    cases flagged <;> simp [Early]
  | link l a b _ ihb =>
    cases l with
    | both =>
      cases hc
      rw [holds_and_flag hg]
      cases flagged <;> simp [Early]
    | either =>
      obtain ⟨b, hb, rfl⟩ := Option.map_eq_some_iff.mp hc
      simp only [holds_link, ihb hb]
      cases flagged <;> simp [Early]
    | otherwise => cases hc
  | choice test yes no _ _ ihn =>
    obtain ⟨n, hn, rfl⟩ := Option.map_eq_some_iff.mp hc
    simp only [holds_choice, ihn hn]
    cases flagged <;> simp [Early]
  | assign l place value ih =>
    obtain ⟨v, hv, rfl⟩ := Option.map_eq_some_iff.mp hc
    cases l with
    | none =>
      simp only [holds_assign, ih hv]
      cases flagged <;> simp [Early]
    | some l =>
      simp only [holds_assign_link, ih hv]
      cases flagged <;> simp [Early]
  | sequence first last _ ihl =>
    obtain ⟨b, hb, rfl⟩ := Option.map_eq_some_iff.mp hc
    simp only [holds_sequence, ihl hb]
    cases flagged <;> simp [Early]

end Meaning

end FormGuard.Script
