import FormGuard.Proofs.Registry.StoredData

/-! Offers: what a registration brings under its name. It is accepted exactly when it brings something
and the name is bound to nothing else, and then it does what the offer says and no more. -/
namespace FormGuard

/-- Whether a callback can be used: a function, or a method that the owner has. -/
def Callback.isUsable (host : Host) (c : Callback) : Bool :=
  if c.owner.isNull then c.target.isCallable
  else c.target.asText?.all fun method => (host.member? c.owner method).isSome

theorem Callbacks.usable_eq_ok {host : Host} {name : Value} {c : Callback} {u : Unit} :
    usable host name c = .ok u ↔ c.isUsable host = true := by
  unfold usable Callback.isUsable
  cases c.owner.isNull with
  | true => cases c.target.isCallable <;> simp
  | false =>
    cases c.target.asText? with
    | none => simp
    | some method => cases hm : host.member? c.owner method <;> simp [hm]

/-- The pattern that a value gives, if it compiles. -/
def Pattern.usable? (data : Value) : Option Pattern :=
  (Rule.patternOf? data).filter fun p => p.compile.isOk

theorem Patterns.readable_eq_ok {name data : Value} {p : Pattern} :
    readable name data = .ok p ↔ Pattern.usable? data = some p := by
  unfold readable Pattern.usable?
  cases Rule.patternOf? data with
  | none => simp
  | some q =>
    cases hq : q.compile with
    | ok program => simp [hq, Except.isOk, Except.toBool, Option.filter]
    | error fault => cases fault <;> simp [hq, Except.isOk, Except.toBool, Option.filter]

inductive Offer where
  | pattern (p : Pattern)
  /-- A function, registered as one or as a callback. -/
  | callback (kind : RuleKind) (c : Callback)
  /-- A rule class or its import path. -/
  | target (t : Target)
  /-- An instance, to be put in the place of the one of its class. -/
  | object (rule : Rule)

namespace Offer

/-- What the name is bound to. -/
def bindsTo : Offer → Target
  | .pattern _ => .ofClass .regex
  | .callback _ _ => .ofClass .callback
  | .target t => t
  | .object rule => .ofClass rule.cls

def kind : Offer → RuleKind
  | .pattern _ => .regex
  | .callback kind _ => kind
  | .target _ => .ofClass
  | .object _ => .custom

/-- What the offer, taken under a name, makes of the instance that serves a class. -/
def serve (o : Offer) (name : Value) (cls : RuleClass) (rule : Except Error Rule) :
    Except Error Rule :=
  match o, cls, rule with
  | .pattern p, .regex, .ok (.regex patterns) => .ok (.regex (patterns.insert name p))
  | .callback _ c, .callback, .ok (.callback callbacks) =>
    .ok (.callback (callbacks.insert name c))
  | .object brought, cls, rule => if cls = brought.cls then .ok brought else rule
  | _, _, rule => rule

theorem serve_of_ne {o : Offer} {cls : RuleClass} (h : o.bindsTo ≠ .ofClass cls) (name : Value)
    (rule : Except Error Rule) : o.serve name cls rule = rule := by
  cases o with
  | pattern p =>
    cases cls with
    | regex => exact absurd rfl h
    | _ => rfl
  | callback kind c =>
    cases cls with
    | callback => exact absurd rfl h
    | _ => rfl
  | target t => rfl
  | object brought =>
    have hne : cls ≠ brought.cls := by
      rintro rfl
      exact h rfl
    exact if_neg hne

end Offer

namespace Registry
variable {host : Host} {r s : Registry} {name kind data owner : Value} {cls : RuleClass}
  {k : RuleKind} {o : Offer}

/-- What a registration brings, if it can be used. -/
def offer? (host : Host) (kind data owner : Value) : Option Offer :=
  match dataKind? kind with
  | some (_, .regex) => (Pattern.usable? data).map .pattern
  | some (k, _) =>
    if (⟨data, owner⟩ : Callback).isUsable host then some (.callback k ⟨data, owner⟩) else none
  | none =>
    if (kindWord kind).isOk then
      match targetOf? data with
      | some t => some (.target t)
      | none => (object? data).map .object
    else none

theorem dataKind?_cases (h : dataKind? kind = some (k, cls)) :
    k = .regex ∧ cls = .regex ∨ (k = .callback ∨ k = .function) ∧ cls = .callback := by
  unfold dataKind? at h
  split at h <;> cases h <;> simp

theorem offer?_cases (h : offer? host kind data owner = some o) :
    (dataKind? kind = some (.regex, .regex) ∧
      ∃ p, Pattern.usable? data = some p ∧ o = .pattern p) ∨
    (∃ k, (k = .callback ∨ k = .function) ∧ dataKind? kind = some (k, .callback) ∧
      (⟨data, owner⟩ : Callback).isUsable host = true ∧ o = .callback k ⟨data, owner⟩) ∨
    (dataKind? kind = none ∧ (kindWord kind).isOk = true ∧
      ∃ t, targetOf? data = some t ∧ o = .target t) ∨
    (dataKind? kind = none ∧ (kindWord kind).isOk = true ∧ targetOf? data = none ∧
      ∃ rule, object? data = some rule ∧ o = .object rule) := by
  cases hk : dataKind? kind with
  | some found =>
    obtain ⟨k, cls⟩ := found
    rcases dataKind?_cases hk with ⟨rfl, rfl⟩ | ⟨hkind, rfl⟩
    · obtain ⟨p, hp, rfl⟩ : ∃ p, Pattern.usable? data = some p ∧ Offer.pattern p = o := by
        simpa [offer?, hk] using h
      exact Or.inl ⟨rfl, p, hp, rfl⟩
    · obtain ⟨huse, rfl⟩ : (⟨data, owner⟩ : Callback).isUsable host = true ∧
          Offer.callback k ⟨data, owner⟩ = o := by
        rcases hkind with rfl | rfl <;> simpa [offer?, hk] using h
      exact Or.inr (Or.inl ⟨k, hkind, rfl, huse, rfl⟩)
  | none =>
    have hw : (kindWord kind).isOk = true := by
      by_contra hw
      simp [offer?, hk, hw] at h
    cases ht : targetOf? data with
    | some t =>
      obtain rfl : Offer.target t = o := by simpa [offer?, hk, hw, ht] using h
      exact Or.inr (Or.inr (Or.inl ⟨rfl, hw, t, rfl, rfl⟩))
    | none =>
      obtain ⟨rule, hrule, rfl⟩ : ∃ rule, object? data = some rule ∧ Offer.object rule = o := by
        simpa [offer?, hk, hw, ht] using h
      exact Or.inr (Or.inr (Or.inr ⟨rfl, hw, rfl, rule, hrule, rfl⟩))

theorem isKey_of_canBind {target : Target} (h : r.canBind name target = .ok ()) :
    name.isKey = true := by
  obtain ⟨_, hk, _⟩ := bind_eq_ok.mp h
  exact Value.needKey_eq_ok.mp hk

theorem canBind_eq_ok {target : Target} : r.canBind name target = .ok () ↔
    name.isKey = true ∧ ∀ current, r.targets.find? name = some current → current = target := by
  constructor
  · intro h
    exact ⟨isKey_of_canBind h, fun current hc => find?_of_canBind h hc⟩
  · rintro ⟨hk, h⟩
    unfold canBind
    rw [Value.needKey_eq_ok (u := ()).mpr hk]
    cases hf : r.targets.find? name with
    | none => rfl
    | some current =>
      obtain rfl := h current hf
      change (if current ≠ current then _ else _) = _
      rw [if_neg (not_not.mpr rfl)]
      rfl

theorem shared_regex (host : Host) (hr : r.Keyed) :
    ∃ patterns, r.shared host .regex = .ok (.regex patterns) := by
  unfold shared
  cases hi : r.instance? .regex with
  | none => exact ⟨Patterns.initial, rfl⟩
  | some rule =>
    have hc := hr _ _ hi
    cases rule with
    | regex patterns => exact ⟨patterns, rfl⟩
    | _ => cases hc

theorem shared_callback (host : Host) (hr : r.Keyed) :
    ∃ callbacks, r.shared host .callback = .ok (.callback callbacks) := by
  unfold shared
  cases hi : r.instance? .callback with
  | none => exact ⟨Table.empty, rfl⟩
  | some rule =>
    have hc := hr _ _ hi
    cases rule with
    | callback callbacks => exact ⟨callbacks, rfl⟩
    | _ => cases hc

/-- An offer taken under a name: the name is bound as it says, and its class is served as it says. -/
structure Taken (host : Host) (name : Value) (o : Offer) (r s : Registry) : Prop where
  keyed : s.Keyed
  canBind : r.canBind name o.bindsTo = .ok ()
  targets : s.targets = r.targets.insert name o.bindsTo
  kinds : s.kinds = r.kinds.insert name o.kind
  shared : ∀ cls, s.shared host cls = o.serve name cls (r.shared host cls)

/-- Data that the shared instance takes is accepted under a name that may be bound to its class. -/
theorem registerData_of_add {before after : Rule} {notes : List Note}
    (hb : r.canBind name (.ofClass cls) = .ok ()) (hs : r.shared host cls = .ok before)
    (ha : before.add host name data owner = .ok (after, notes)) (k : RuleKind) :
    (outcome (registerData host name cls k data owner) r).1 = .ok () := by
  have hi := outcome_classInstance host cls r
  have ht := targets_classInstance host cls r
  rcases ho : outcome (classInstance host cls) r with ⟨answer, t⟩
  rw [ho] at hi ht
  obtain rfl : answer = .ok before := hi.trans hs
  rw [registerData, outcome_bind_of_ok (by rw [outcome_checkRebind, hb]), outcome_bind_of_ok ho, ha,
    outcome_bind_of_ok (outcome_lift _ _)]
  exact congrArg Prod.fst (outcome_store ((canBind_congr ht name _).trans hb) k after notes)

theorem add_regex (host : Host) (patterns : Patterns) {p : Pattern} (hk : name.isKey = true)
    (hp : Pattern.usable? data = some p) (owner : Value) :
    ∃ notes, (Rule.regex patterns).add host name data owner =
      .ok (.regex (patterns.insert name p), notes) := by
  have hread : Patterns.readable name data = .ok p := Patterns.readable_eq_ok.mpr hp
  have hkey := Value.needKey_eq_ok (u := ()).mpr hk
  rw [Rule.add, Patterns.add, hread, hkey]
  exact ⟨_, rfl⟩

theorem add_callback (callbacks : Callbacks) (hk : name.isKey = true)
    (hc : (⟨data, owner⟩ : Callback).isUsable host = true) :
    ∃ notes, (Rule.callback callbacks).add host name data owner =
      .ok (.callback (callbacks.insert name ⟨data, owner⟩), notes) := by
  have huse : Callbacks.usable host name ⟨data, owner⟩ = .ok () := Callbacks.usable_eq_ok.mpr hc
  have hkey := Value.needKey_eq_ok (u := ()).mpr hk
  rw [Rule.add, Callbacks.add]
  dsimp only
  rw [huse, hkey]
  exact ⟨_, rfl⟩

theorem isUsable_of_add {rule after : Rule} {notes : List Note} (hc : rule.cls = .callback)
    (h : rule.add host name data owner = .ok (after, notes)) :
    (⟨data, owner⟩ : Callback).isUsable host = true := by
  cases rule with
  | callback callbacks =>
    obtain ⟨_, hs, _⟩ := bind_eq_ok.mp h
    obtain ⟨_, hu, _⟩ := bind_eq_ok.mp hs
    exact Callbacks.usable_eq_ok.mp hu
  | _ => cases hc

/-- Data that was stored is what the registration offers. -/
theorem taken_of_stored (hr : r.Keyed) (hk : dataKind? kind = some (k, cls))
    (h : Stored host name cls k data owner r s) :
    ∃ o, offer? host kind data owner = some o ∧ Taken host name o r s := by
  obtain ⟨before, after, notes, hb, ha, hs⟩ := h.shared
  have hc := cls_of_shared hr hb
  -- it is enough to name an offer of the same class that makes the same of its instance
  have htaken : ∀ o : Offer, o.bindsTo = .ofClass cls → o.kind = k →
      o.serve name cls (.ok before) = .ok after → Taken host name o r s := by
    rintro o hbinds rfl hserve
    refine ⟨h.keyed, hbinds ▸ h.canBind, hbinds ▸ h.targets, h.kinds, fun c => ?_⟩
    rw [hs]
    by_cases he : c = cls
    · rw [if_pos he, he, hb, hserve]
    · have hne : o.bindsTo ≠ .ofClass c := by
        rw [hbinds]
        exact fun hcls => he (Target.ofClass.inj hcls).symm
      rw [if_neg he, Offer.serve_of_ne hne]
  rcases dataKind?_cases hk with ⟨rfl, rfl⟩ | ⟨hkind, rfl⟩
  · obtain ⟨patterns, p, program, rfl, hp, hq, rfl⟩ := Rule.add_of_regex hc ha
    have huse : Pattern.usable? data = some p := by
      simp [Pattern.usable?, hp, hq, Except.isOk, Except.toBool, Option.filter]
    exact ⟨.pattern p, by simp [offer?, hk, huse], htaken _ rfl rfl rfl⟩
  · have huse := isUsable_of_add hc ha
    obtain ⟨callbacks, _, rfl, _, rfl⟩ := Rule.add_of_callback hc ha
    refine ⟨.callback k ⟨data, owner⟩, ?_, htaken _ rfl rfl rfl⟩
    rcases hkind with rfl | rfl <;> simp [offer?, hk, huse]

/-- What is offered is accepted under a name that may be bound to it. -/
theorem enter_of_offer (hr : r.Keyed) (h : offer? host kind data owner = some o)
    (hb : r.canBind name o.bindsTo = .ok ()) :
    (outcome (enter host name kind data owner) r).1 = .ok () := by
  have hkey := isKey_of_canBind hb
  rcases offer?_cases h with ⟨hk, p, hp, rfl⟩ | ⟨k, _, hk, huse, rfl⟩ | ⟨hk, hw, t, ht, rfl⟩ |
    ⟨hk, hw, _, rule, hrule, rfl⟩
  · obtain ⟨patterns, hs⟩ := shared_regex host hr
    obtain ⟨notes, ha⟩ := add_regex host patterns hkey hp owner
    rw [enter_of_data hk]
    exact registerData_of_add hb hs ha .regex
  · obtain ⟨callbacks, hs⟩ := shared_callback host hr
    obtain ⟨notes, ha⟩ := add_callback callbacks hkey huse
    rw [enter_of_data hk]
    exact registerData_of_add hb hs ha k
  · have hbt : r.canBind name t = .ok () := hb
    rw [enter_of_target hk hw, registerTarget_of_target ht, outcome_bindName, hbt]
  · obtain ⟨cls, held, rfl, hc, rfl⟩ := object?_eq_some.mp hrule
    have hbt : r.canBind name (.ofClass cls) = .ok () := by simpa [Offer.bindsTo] using hb
    rw [enter_of_target hk hw, registerTarget_of_object hc,
      outcome_bind_of_ok (by rw [outcome_bindName, hbt])]
    rfl

/-- What is accepted is what was offered. -/
theorem taken_of_enter (hr : r.Keyed)
    (h : (outcome (enter host name kind data owner) r).1 = .ok ()) :
    ∃ o, offer? host kind data owner = some o ∧
      Taken host name o r (outcome (enter host name kind data owner) r).2 := by
  cases hk : dataKind? kind with
  | some found =>
    obtain ⟨k, cls⟩ := found
    rw [enter_of_data hk] at h ⊢
    rcases registerData_cases host hr name cls k data owner with ⟨s, ho, hs⟩ | ⟨_, s, ho, _⟩
    · rw [ho]
      exact taken_of_stored hr hk hs
    · rw [ho] at h
      cases h
  | none =>
    rcases enter_target_cases hk host name data owner r with
      ⟨_, ho⟩ | ⟨t, hw, ht, hb, ho⟩ | ⟨cls, held, hw, rfl, hc, hb, ho⟩
    · rw [ho] at h
      cases h
    · rw [ho]
      exact ⟨.target t, by simp [offer?, hk, hw, ht], hr, hb, rfl, rfl, fun _ => rfl⟩
    · have hrule : object? (.ruleObject cls held) = some (.ofHeld cls held) :=
        object?_eq_some.mpr ⟨cls, held, rfl, hc, rfl⟩
      have hnone : targetOf? (.ruleObject cls held) = none := rfl
      rw [ho]
      refine ⟨.object (.ofHeld cls held), by simp [offer?, hk, hw, hnone, hrule], keyed_put hr _, ?_,
        ?_, rfl, fun c => shared_put _ _ c⟩
      · rw [Offer.bindsTo, Rule.cls_ofHeld]
        exact hb
      · rw [Offer.bindsTo, Rule.cls_ofHeld]
        rfl

theorem Taken.of_notes {notes : List Note}
    (h : Taken host name o r s) : Taken host name o r { s with notes := s.notes ++ notes } :=
  ⟨h.keyed, h.canBind, h.targets, h.kinds, h.shared⟩

/-- A registration is accepted exactly if it offers something and its name may be bound to that. -/
theorem accepted_iff (hr : r.Keyed) :
    (outcome (register host name kind data owner) r).1 = .ok () ↔
      ∃ o, offer? host kind data owner = some o ∧ r.canBind name o.bindsTo = .ok () := by
  rw [(outcome_register host name kind data owner r).1]
  constructor
  · intro h
    obtain ⟨o, ho, ht⟩ := taken_of_enter hr h
    exact ⟨o, ho, ht.canBind⟩
  · rintro ⟨o, ho, hb⟩
    exact enter_of_offer hr ho hb

/-- What a registration offers is taken if it is accepted. -/
theorem taken_of_accepted (hr : r.Keyed)
    (h : (outcome (register host name kind data owner) r).1 = .ok ()) :
    ∃ o, offer? host kind data owner = some o ∧
      Taken host name o r (outcome (register host name kind data owner) r).2 := by
  obtain ⟨hanswer, notes, hstate⟩ := outcome_register host name kind data owner r
  rw [hanswer] at h
  rw [hstate]
  obtain ⟨o, ho, ht⟩ := taken_of_enter hr h
  exact ⟨o, ho, ht.of_notes⟩

end Registry

end FormGuard
