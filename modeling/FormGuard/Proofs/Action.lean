import FormGuard.Error
import Mathlib.Order.Defs.Unbundled
import Mathlib.Tactic.Common

/-! Actions that keep a state and may fail: what a run answers, and how it moves the state. -/
namespace FormGuard

/-- A sequence of steps that may fail succeeds exactly when both do. -/
theorem bind_eq_ok {α β : Type} {x : Except Error α} {f : α → Except Error β} {b : β} :
    x >>= f = .ok b ↔ ∃ a, x = .ok a ∧ f a = .ok b := by
  cases x with
  | error e =>
    constructor
    · rintro ⟨⟩
    · rintro ⟨_, ⟨⟩, _⟩
  | ok a =>
    constructor
    · intro h
      exact ⟨a, rfl, h⟩
    · rintro ⟨_, ⟨⟩, h⟩
      exact h

theorem toOption_eq_some {α : Type} {x : Except Error α} {a : α} :
    x.toOption = some a ↔ x = .ok a := by
  cases x <;> simp [Except.toOption]

section
variable {σ α β : Type} {s t : σ}

/-- What an action answers from a state, and the state it leaves, also when it fails. -/
def outcome (x : ExceptT Error (StateM σ) α) (s : σ) : Except Error α × σ := x.run.run s

@[simp] theorem outcome_pure (a : α) (s : σ) :
    outcome (pure a : ExceptT Error (StateM σ) α) s = (.ok a, s) := rfl

@[simp] theorem outcome_throw (e : Error) (s : σ) :
    outcome (throw e : ExceptT Error (StateM σ) α) s = (.error e, s) := rfl

@[simp] theorem outcome_get (s : σ) :
    outcome (get : ExceptT Error (StateM σ) σ) s = (.ok s, s) := rfl

@[simp] theorem outcome_set (s t : σ) :
    outcome (set t : ExceptT Error (StateM σ) PUnit) s = (.ok ⟨⟩, t) := rfl

@[simp] theorem outcome_modify (f : σ → σ) (s : σ) :
    outcome (modify f : ExceptT Error (StateM σ) PUnit) s = (.ok ⟨⟩, f s) := rfl

theorem outcome_bind (x : ExceptT Error (StateM σ) α) (f : α → ExceptT Error (StateM σ) β) (s : σ) :
    outcome (x >>= f) s =
      match outcome x s with
      | (.ok a, t) => outcome (f a) t
      | (.error e, t) => (.error e, t) := by
  change (match x s with | (a, t) => ExceptT.bindCont f a t) =
    match x s with
    | (.ok a, t) => f a t
    | (.error e, t) => (.error e, t)
  rcases x s with ⟨_ | _, _⟩ <;> rfl

@[simp] theorem outcome_map (f : α → β) (x : ExceptT Error (StateM σ) α) (s : σ) :
    outcome (f <$> x) s = ((outcome x s).1.map f, (outcome x s).2) := by
  rw [map_eq_pure_bind, outcome_bind]
  rcases outcome x s with ⟨_ | _, _⟩ <;> rfl

theorem outcome_bind_of_ok {x : ExceptT Error (StateM σ) α} {a : α} (h : outcome x s = (.ok a, t))
    (f : α → ExceptT Error (StateM σ) β) : outcome (x >>= f) s = outcome (f a) t := by
  rw [outcome_bind, h]

theorem outcome_bind_of_error {x : ExceptT Error (StateM σ) α} {e : Error}
    (h : outcome x s = (.error e, t)) (f : α → ExceptT Error (StateM σ) β) :
    outcome (x >>= f) s = (.error e, t) := by
  rw [outcome_bind, h]

/-- The answer of a sequence comes from the second part, where the first one ended. -/
theorem fst_outcome_bind (x : ExceptT Error (StateM σ) α) (f : α → ExceptT Error (StateM σ) β)
    (s : σ) : (outcome (x >>= f) s).1 =
      (outcome x s).1 >>= fun a => (outcome (f a) (outcome x s).2).1 := by
  rw [outcome_bind]
  rcases outcome x s with ⟨_ | _, _⟩ <;> rfl

/-- A sequence succeeds exactly when both parts do, one from where the other ended. -/
theorem outcome_bind_eq_ok {x : ExceptT Error (StateM σ) α} {f : α → ExceptT Error (StateM σ) β}
    {b : β} : outcome (x >>= f) s = (.ok b, t) ↔
      ∃ a u, outcome x s = (.ok a, u) ∧ outcome (f a) u = (.ok b, t) := by
  rw [outcome_bind]
  rcases outcome x s with ⟨_ | a, u⟩
  · simp
  · constructor
    · intro h
      exact ⟨a, u, rfl, h⟩
    · rintro ⟨_, _, ⟨⟩, h⟩
      exact h

end

/-- Every run of an action takes a state to a related one. -/
def Moves {σ α : Type} (R : σ → σ → Prop) (x : ExceptT Error (StateM σ) α) : Prop :=
  ∀ s, R s (outcome x s).2

section
variable {σ α β : Type} {R : σ → σ → Prop} {x : ExceptT Error (StateM σ) α}

theorem moves_pure [Std.Refl R] (a : α) : Moves R (pure a) := fun s => refl s

theorem moves_throw [Std.Refl R] (e : Error) :
    Moves R (throw e : ExceptT Error (StateM σ) α) := fun s => refl s

theorem moves_get [Std.Refl R] : Moves R (get : ExceptT Error (StateM σ) σ) := fun s => refl s

/-- What follows may rely on where and with what the first part ended. -/
theorem moves_bind_of_ok [IsTrans σ R] {f : α → ExceptT Error (StateM σ) β} (hx : Moves R x)
    (hf : ∀ s a t, outcome x s = (.ok a, t) → R t (outcome (f a) t).2) : Moves R (x >>= f) := by
  intro s
  have hs := hx s
  rw [outcome_bind]
  cases h : outcome x s with
  | mk result t =>
    rw [h] at hs
    cases result with
    | error e => exact hs
    | ok a => exact IsTrans.trans _ _ _ hs (hf s a t h)

theorem moves_bind [IsTrans σ R] {f : α → ExceptT Error (StateM σ) β} (hx : Moves R x)
    (hf : ∀ a, Moves R (f a)) : Moves R (x >>= f) :=
  moves_bind_of_ok hx fun _ a t _ => hf a t

theorem moves_discard (h : Moves R x) : Moves R (discard x) := by
  intro s
  have ho : (outcome (discard x) s).2 = (outcome x s).2 :=
    congrArg Prod.snd (outcome_map (fun _ => PUnit.unit) x s)
  rw [ho]
  exact h s

end

/-- Two runs of an action from related states answer the same and leave related states. -/
def Respects {σ α : Type} (R : σ → σ → Prop) (x : ExceptT Error (StateM σ) α) : Prop :=
  ∀ s t, R s t → (outcome x t).1 = (outcome x s).1 ∧ R (outcome x s).2 (outcome x t).2

section
variable {σ α β : Type} {R : σ → σ → Prop} {x : ExceptT Error (StateM σ) α}

theorem respects_pure (a : α) : Respects R (pure a) := fun _ _ h => ⟨rfl, h⟩

theorem respects_bind {f : α → ExceptT Error (StateM σ) β} (hx : Respects R x)
    (hf : ∀ a, Respects R (f a)) : Respects R (x >>= f) := by
  intro s t h
  obtain ⟨ha, hr⟩ := hx s t h
  rcases hs : outcome x s with ⟨answer, u⟩
  rcases ht : outcome x t with ⟨other, v⟩
  rw [hs, ht] at ha hr
  obtain rfl : other = answer := ha
  cases other with
  | error e =>
    rw [outcome_bind_of_error hs, outcome_bind_of_error ht]
    exact ⟨rfl, hr⟩
  | ok a =>
    rw [outcome_bind_of_ok hs, outcome_bind_of_ok ht]
    exact hf a u v hr

end

/-- What several actions answer one after the other is what each answers from the start, if none of them
asks for anything that the others change. -/
theorem fst_outcome_forM {σ α : Type} {R : σ → σ → Prop}
    {f : α → ExceptT Error (StateM σ) PUnit} (hm : ∀ a, Moves R (f a)) (hr : ∀ a, Respects R (f a))
    (xs : List α) (s : σ) :
    (outcome (xs.forM f) s).1 = xs.forM fun a => (outcome (f a) s).1 := by
  induction xs generalizing s with
  | nil => rfl
  | cons a rest ih =>
    have hnext : (fun b => (outcome (f b) (outcome (f a) s).2).1) = fun b => (outcome (f b) s).1 :=
      funext fun b => (hr b s _ (hm a s)).1
    change (outcome (f a >>= fun _ => rest.forM f) s).1 =
      (outcome (f a) s).1 >>= fun _ => rest.forM fun b => (outcome (f b) s).1
    rw [fst_outcome_bind, ih, hnext]

section
variable {α β : Type} {f : α → Except Error β} {x : α} {xs : List α} {y : β} {ys : List β}

theorem mapM_cons_eq_ok :
    (x :: xs).mapM f = .ok ys ↔ ∃ y rest, f x = .ok y ∧ xs.mapM f = .ok rest ∧ ys = y :: rest := by
  rw [List.mapM_cons, bind_eq_ok]
  constructor
  · rintro ⟨y, hy, h⟩
    obtain ⟨rest, hrest, h⟩ := bind_eq_ok.mp h
    cases h
    exact ⟨y, rest, hy, hrest, rfl⟩
  · rintro ⟨y, rest, hy, hrest, rfl⟩
    exact ⟨y, hy, bind_eq_ok.mpr ⟨rest, hrest, rfl⟩⟩

theorem mem_mapM (h : xs.mapM f = .ok ys) : y ∈ ys ↔ ∃ x ∈ xs, f x = .ok y := by
  induction xs generalizing ys with
  | nil =>
    cases h
    simp
  | cons x rest ih =>
    obtain ⟨first, others, hx, hrest, rfl⟩ := mapM_cons_eq_ok.mp h
    simp [ih hrest, hx, eq_comm]

theorem exists_of_mem_mapM (h : xs.mapM f = .ok ys) (hx : x ∈ xs) : ∃ y ∈ ys, f x = .ok y := by
  induction xs generalizing ys with
  | nil => cases hx
  | cons first rest ih =>
    obtain ⟨y, others, hy, hothers, rfl⟩ := mapM_cons_eq_ok.mp h
    obtain rfl | hx := List.mem_cons.mp hx
    · exact ⟨y, List.mem_cons_self, hy⟩
    · obtain ⟨z, hz, hf⟩ := ih hothers hx
      exact ⟨z, List.mem_cons_of_mem y hz, hf⟩

theorem length_of_mapM (h : xs.mapM f = .ok ys) : ys.length = xs.length := by
  induction xs generalizing ys with
  | nil =>
    cases h
    rfl
  | cons x rest ih =>
    obtain ⟨first, others, _, hrest, rfl⟩ := mapM_cons_eq_ok.mp h
    rw [List.length_cons, List.length_cons, ih hrest]

/-- What a member is mapped to stands at its position. -/
theorem getElem?_of_mapM {i : Nat} (h : xs.mapM f = .ok ys) (hy : ys[i]? = some y) :
    ∃ x, xs[i]? = some x ∧ f x = .ok y := by
  induction xs generalizing ys i with
  | nil =>
    cases h
    cases hy
  | cons x rest ih =>
    obtain ⟨first, others, hx, hrest, rfl⟩ := mapM_cons_eq_ok.mp h
    cases i with
    | zero =>
      cases hy
      exact ⟨x, rfl, hx⟩
    | succ i => exact ih hrest hy

end

/-- Whatever a computation fails with is of a kind. -/
def FailsAs {α : Type} (P : Error → Prop) (x : Except Error α) : Prop := ∀ e, x = .error e → P e

section
variable {α β : Type} {P Q : Error → Prop} {x : Except Error α}

theorem failsAs_ok (a : α) : FailsAs P (.ok a : Except Error α) := by
  rintro e ⟨⟩

theorem failsAs_error {e : Error} (h : P e) : FailsAs P (.error e : Except Error α) := by
  rintro _ ⟨⟩
  exact h

theorem failsAs_elim (h : FailsAs P x) (found : Option α) : FailsAs P (found.elim x .ok) := by
  cases found with
  | none => exact h
  | some a => exact failsAs_ok a

theorem FailsAs.imp (h : FailsAs P x) (hi : ∀ e, P e → Q e) : FailsAs Q x :=
  fun e he => hi e (h e he)

/-- What follows may rely on what the first part gave. -/
theorem failsAs_bind_of_ok {f : α → Except Error β} (hx : FailsAs P x)
    (hf : ∀ a, x = .ok a → FailsAs P (f a)) : FailsAs P (x >>= f) := by
  cases x with
  | error e => exact failsAs_error (hx e rfl)
  | ok a => exact hf a rfl

theorem failsAs_bind {f : α → Except Error β} (hx : FailsAs P x) (hf : ∀ a, FailsAs P (f a)) :
    FailsAs P (x >>= f) :=
  failsAs_bind_of_ok hx fun a _ => hf a

theorem failsAs_map (hx : FailsAs P x) (f : α → β) : FailsAs P (x.map f) := by
  cases x with
  | error e => exact failsAs_error (hx e rfl)
  | ok a => exact failsAs_ok _

theorem failsAs_mapM {f : α → Except Error β} (h : ∀ a, FailsAs P (f a)) (xs : List α) :
    FailsAs P (xs.mapM f) := by
  induction xs with
  | nil => exact failsAs_ok _
  | cons a rest ih =>
    rw [List.mapM_cons]
    exact failsAs_bind (h a) fun b => failsAs_bind ih fun bs => failsAs_ok _

theorem failsAs_foldlM {f : β → α → Except Error β} (h : ∀ b a, FailsAs P (f b a)) (xs : List α)
    (b : β) : FailsAs P (xs.foldlM f b) := by
  induction xs generalizing b with
  | nil => exact failsAs_ok _
  | cons a rest ih =>
    rw [List.foldlM_cons]
    exact failsAs_bind (h b a) fun c => ih c

end

/-- A computation fails with an error that is not the library's own. -/
def Foreign {α : Type} (x : Except Error α) (e : Error) : Prop := x = .error e ∧ e.isOwn = false

section
variable {α β : Type} {x : Except Error α} {e : Error}

@[simp] theorem not_foreign_ok (a : α) (e : Error) : ¬ Foreign (.ok a : Except Error α) e := by
  rintro ⟨⟨⟩, _⟩

@[simp] theorem foreign_error {d : Error} :
    Foreign (.error d : Except Error α) e ↔ d = e ∧ d.isOwn = false := by
  constructor
  · rintro ⟨⟨⟩, h⟩
    exact ⟨rfl, h⟩
  · rintro ⟨rfl, h⟩
    exact ⟨rfl, h⟩

/-- An error of the library escapes as another where its report cannot be written. -/
theorem foreign_raise {d : Error} (h : d.isOwn = true) :
    Foreign (Error.raise d : Except Error α) e ↔ d.isWritable = false ∧ e = .misuse .value := by
  rw [Error.raise, foreign_error, Error.isOwn_worded, h, Bool.and_true]
  constructor
  · rintro ⟨rfl, hw⟩
    exact ⟨hw, Error.worded_of_not_isWritable (by simp [hw])⟩
  · rintro ⟨hw, rfl⟩
    exact ⟨Error.worded_of_not_isWritable (by simp [hw]), hw⟩

theorem foreign_bind {f : α → Except Error β} :
    Foreign (x >>= f) e ↔ Foreign x e ∨ ∃ a, x = .ok a ∧ Foreign (f a) e := by
  cases x with
  | error d =>
    change Foreign (.error d) e ↔ _
    simp
  | ok a =>
    change Foreign (f a) e ↔ _
    simp

theorem foreign_bind_pure {f : α → β} : Foreign (x >>= fun a => pure (f a)) e ↔ Foreign x e := by
  rw [foreign_bind]
  refine ⟨?_, Or.inl⟩
  rintro (h | ⟨a, _, h⟩)
  · exact h
  · exact absurd h (not_foreign_ok _ e)

/-- Of two computations that do not need each other the second is reached where the first succeeds. -/
theorem foreign_both {γ : Type} {y : Except Error β} {g : α → β → γ} :
    Foreign (x >>= fun a => y >>= fun b => pure (g a b)) e ↔
      Foreign x e ∨ (∃ a, x = .ok a) ∧ Foreign y e := by
  rw [foreign_bind]
  simp only [foreign_bind_pure, exists_and_right]

@[simp] theorem foreign_map {f : α → β} : Foreign (x.map f) e ↔ Foreign x e := by
  cases x <;> simp [Except.map]

end

/-- Going through things in order one comes to a bad one, after good ones only. -/
inductive ComesTo {α : Type} (good bad : α → Prop) : List α → Prop where
  | here {a : α} {rest : List α} (wrong : bad a) : ComesTo good bad (a :: rest)
  | later {a : α} {rest : List α} (fine : good a) (behind : ComesTo good bad rest) :
      ComesTo good bad (a :: rest)

section
variable {α β : Type} {good bad : α → Prop} {a : α} {xs : List α} {e : Error}

@[simp] theorem not_comesTo_nil : ¬ ComesTo good bad [] := by
  rintro ⟨⟩

theorem comesTo_cons : ComesTo good bad (a :: xs) ↔ bad a ∨ good a ∧ ComesTo good bad xs := by
  constructor
  · intro h
    cases h with
    | here wrong => exact Or.inl wrong
    | later fine behind => exact Or.inr ⟨fine, behind⟩
  · rintro (h | ⟨hg, hb⟩)
    · exact .here h
    · exact .later hg hb

theorem comesTo_iff : ComesTo good bad xs ↔
    ∃ before a after, xs = before ++ a :: after ∧ (∀ b ∈ before, good b) ∧ bad a := by
  constructor
  · intro h
    induction h with
    | here wrong => exact ⟨[], _, _, rfl, by simp, wrong⟩
    | @later b _ fine _ ih =>
      obtain ⟨before, a, after, rfl, hg, hb⟩ := ih
      exact ⟨b :: before, a, after, rfl, List.forall_mem_cons.mpr ⟨fine, hg⟩, hb⟩
  · rintro ⟨before, a, after, rfl, hg, hb⟩
    induction before with
    | nil => exact .here hb
    | cons b rest ih =>
      obtain ⟨hone, hmore⟩ := List.forall_mem_cons.mp hg
      exact .later hone (ih hmore)

theorem comesTo_congr {fine wrong : α → Prop} (hg : ∀ a ∈ xs, good a ↔ fine a)
    (hb : ∀ a ∈ xs, bad a ↔ wrong a) : ComesTo good bad xs ↔ ComesTo fine wrong xs := by
  induction xs with
  | nil => simp
  | cons a rest ih =>
    obtain ⟨hga, hgr⟩ := List.forall_mem_cons.mp hg
    obtain ⟨hba, hbr⟩ := List.forall_mem_cons.mp hb
    rw [comesTo_cons, comesTo_cons, hga, hba, ih hgr hbr]

theorem comesTo_and {p : Prop} :
    ComesTo good (fun a => bad a ∧ p) xs ↔ ComesTo good bad xs ∧ p := by
  constructor
  · intro h
    induction h with
    | here wrong => exact ⟨.here wrong.1, wrong.2⟩
    | later fine _ ih => exact ⟨.later fine ih.1, ih.2⟩
  · rintro ⟨h, hp⟩
    induction h with
    | here wrong => exact .here ⟨wrong, hp⟩
    | later fine _ ih => exact .later fine ih

/-- Where nothing but good things stand before the first bad one anyway, any bad one will do. -/
theorem comesTo_iff_exists (h : ∀ a ∈ xs, good a ∨ bad a) : ComesTo good bad xs ↔ ∃ a ∈ xs, bad a := by
  induction xs with
  | nil => simp
  | cons a rest ih =>
    obtain ⟨hone, hmore⟩ := List.forall_mem_cons.mp h
    rw [comesTo_cons, ih hmore]
    constructor
    · rintro (hb | ⟨_, b, hm, hb⟩)
      · exact ⟨a, List.mem_cons_self, hb⟩
      · exact ⟨b, List.mem_cons_of_mem a hm, hb⟩
    · rintro ⟨b, hm, hb⟩
      rcases List.mem_cons.mp hm with rfl | hm
      · exact Or.inl hb
      · exact hone.symm.imp_right fun hg => ⟨hg, b, hm, hb⟩

theorem comesTo_map {f : β → α} {ys : List β} :
    ComesTo good bad (ys.map f) ↔ ComesTo (fun b => good (f b)) (fun b => bad (f b)) ys := by
  induction ys with
  | nil => simp
  | cons b rest ih => rw [List.map_cons, comesTo_cons, comesTo_cons, ih]

/-- Things are read in order, so that the first that cannot be decides. -/
theorem foreign_mapM {f : α → Except Error β} : Foreign (xs.mapM f) e ↔
    ComesTo (fun a => ∃ b, f a = .ok b) (fun a => Foreign (f a) e) xs := by
  induction xs with
  | nil => exact iff_of_false (not_foreign_ok _ e) not_comesTo_nil
  | cons a rest ih => rw [List.mapM_cons, foreign_both, comesTo_cons, ih]

theorem forM_eq_ok {f : α → Except Error Unit} {u : Unit} :
    xs.forM f = .ok u ↔ ∀ a ∈ xs, f a = .ok () := by
  induction xs with
  | nil => exact iff_of_true rfl (by simp)
  | cons a rest ih =>
    change (f a >>= fun _ => rest.forM f) = _ ↔ _
    rw [bind_eq_ok, List.forall_mem_cons, ih]
    exact ⟨fun ⟨_, h⟩ => h, fun h => ⟨(), h⟩⟩

theorem foreign_forM {f : α → Except Error Unit} : Foreign (xs.forM f) e ↔
    ComesTo (fun a => f a = .ok ()) (fun a => Foreign (f a) e) xs := by
  induction xs with
  | nil => exact iff_of_false (not_foreign_ok _ e) not_comesTo_nil
  | cons a rest ih =>
    change Foreign (f a >>= fun _ => rest.forM f) e ↔ _
    rw [foreign_bind, comesTo_cons, ih]
    exact or_congr Iff.rfl ⟨fun ⟨_, h⟩ => h, fun h => ⟨(), h⟩⟩

end

/-- From states of a kind an action leads to such states, and what it fails with is of a kind. -/
def Guarded {σ α : Type} (I : σ → Prop) (P : Error → Prop) (x : ExceptT Error (StateM σ) α) : Prop :=
  ∀ s, I s → FailsAs P (outcome x s).1 ∧ I (outcome x s).2

section
variable {σ α β : Type} {I : σ → Prop} {P : Error → Prop} {x : ExceptT Error (StateM σ) α}

theorem guarded_pure (a : α) : Guarded I P (pure a) := fun _ hs => ⟨failsAs_ok a, hs⟩

theorem guarded_bind {f : α → ExceptT Error (StateM σ) β} (hx : Guarded I P x)
    (hf : ∀ a, Guarded I P (f a)) : Guarded I P (x >>= f) := by
  intro s hs
  obtain ⟨hfails, hnext⟩ := hx s hs
  rcases ho : outcome x s with ⟨e | a, t⟩
  · rw [ho] at hfails hnext
    rw [outcome_bind_of_error ho]
    exact ⟨failsAs_error (hfails e rfl), hnext⟩
  · rw [ho] at hnext
    rw [outcome_bind_of_ok ho]
    exact hf a t hnext

end

end FormGuard
