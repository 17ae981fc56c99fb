import FormGuard.Proofs.Registry.Verdict

/-! Registering rules: what an accepted registration stores, and what a refused one leaves. -/
namespace FormGuard.Registry
variable {host : Host} {r s : Registry} {name other : Value} {target : Target} {kind : RuleKind}

/-- Whether a name may be bound to a target: it is a key, and bound to nothing else. -/
def canBind (r : Registry) (name : Value) (target : Target) : Except Error Unit := do
  name.needKey
  match r.targets.find? name with
  | none => pure ()
  | some current =>
    if current ≠ target then Error.raise (.registration (.bound name current.shown target.shown))

def bound (name : Value) (target : Target) (kind : RuleKind) (r : Registry) : Registry :=
  { r with targets := r.targets.insert name target, kinds := r.kinds.insert name kind }

theorem outcome_checkRebind (name : Value) (target : Target) (r : Registry) :
    outcome (checkRebind name target) r = (r.canBind name target, r) := by
  unfold checkRebind canBind
  cases name.needKey with
  | error e => rfl
  | ok u =>
    rw [outcome_bind_of_ok (by rw [outcome_lift]), outcome_bind_of_ok (outcome_get r)]
    cases r.targets.find? name with
    | none => rfl
    | some current =>
      by_cases h : current = target
      · simp [h]
      · simp [h, fault]
        rfl

theorem outcome_bindName (name : Value) (target : Target) (kind : RuleKind) (r : Registry) :
    outcome (bind name target kind) r =
      (r.canBind name target,
        match r.canBind name target with
        | .ok _ => r.bound name target kind
        | .error _ => r) := by
  unfold bind
  rw [FormGuard.outcome_bind, outcome_checkRebind]
  cases r.canBind name target <;> rfl

/-- A name that is bound is only ever bound again to the same. -/
theorem find?_of_canBind (h : r.canBind name target = .ok ()) {current : Target}
    (hc : r.targets.find? name = some current) : current = target := by
  obtain ⟨_, _, h⟩ := bind_eq_ok.mp h
  rw [hc] at h
  by_contra hne
  simp [hne] at h

theorem canBind_congr (h : s.targets = r.targets) (name : Value) (target : Target) :
    s.canBind name target = r.canBind name target := by
  unfold canBind
  rw [h]

theorem classOf?_bound (name other : Value) (target : Target) (kind : RuleKind) (r : Registry) :
    (r.bound name target kind).classOf? host other =
      if name.same other then some (targetClass host target) else r.classOf? host other := by
  simp only [classOf?, bound, Table.find?_insert]
  split <;> rfl

/-- Binding a name leaves what any bound name stands for. -/
theorem classOf?_bound_of_some (h : r.canBind name target = .ok ()) {found : Except Error RuleClass}
    (hf : r.classOf? host other = some found) :
    (r.bound name target kind).classOf? host other = some found := by
  rw [classOf?_bound]
  split
  · rename_i hs
    obtain ⟨current, hc, rfl⟩ := Option.map_eq_some_iff.mp hf
    rw [← r.targets.find?_congr hs] at hc
    rw [find?_of_canBind h hc]
  · exact hf

theorem targets_classInstance (host : Host) (cls : RuleClass) (r : Registry) :
    (outcome (classInstance host cls) r).2.targets = r.targets := by
  obtain ⟨rule, -, ho⟩ | ⟨e, -, -, ho⟩ | ⟨rule, -, -, ho⟩ := classInstance_cases host cls r <;>
    rw [ho]
  rfl

/-- What an accepted registration with data leaves: the shared instance of the class has the data,
and the name is bound to the class. -/
structure Stored (host : Host) (name : Value) (cls : RuleClass) (kind : RuleKind)
    (data owner : Value) (r s : Registry) : Prop where
  keyed : s.Keyed
  canBind : r.canBind name (.ofClass cls) = .ok ()
  targets : s.targets = r.targets.insert name (.ofClass cls)
  kinds : s.kinds = r.kinds.insert name kind
  shared : ∃ before after notes, r.shared host cls = .ok before ∧
    before.add host name data owner = .ok (after, notes) ∧
    ∀ c, s.shared host c = if c = cls then .ok after else r.shared host c

theorem cls_of_add {rule after : Rule} {data owner : Value} {notes : List Note}
    (h : rule.add host name data owner = .ok (after, notes)) : after.cls = rule.cls := by
  cases rule with
  | regex patterns =>
    obtain ⟨⟨stored, _⟩, _, h⟩ := bind_eq_ok.mp h
    cases h
    rfl
  | callback callbacks =>
    obtain ⟨⟨stored, _⟩, _, h⟩ := bind_eq_ok.mp h
    cases h
    rfl
  | _ => cases h

theorem outcome_store (h : r.canBind name target = .ok ()) (kind : RuleKind) (rule : Rule)
    (notes : List Note) :
    outcome (do
      putInstance rule
      note notes
      bind name target kind) r =
    (.ok (), ({ r.put rule with notes := r.notes ++ notes } : Registry).bound name target kind) := by
  have hb : ({ r.put rule with notes := r.notes ++ notes } : Registry).canBind name target =
      .ok () := (canBind_congr rfl name target).trans h
  rw [outcome_bind_of_ok (outcome_putInstance rule r), note,
    outcome_bind_of_ok (outcome_modify _ _)]
  change outcome (bind name target kind) { r.put rule with notes := r.notes ++ notes } = _
  rw [outcome_bindName, hb]

/-- Data is refused before anything is done, or with no more done than making the instance, or it is
stored and the name is bound. -/
theorem outcome_registerData (host : Host) (hr : r.Keyed) (name : Value) (cls : RuleClass)
    (kind : RuleKind) (data owner : Value) :
    (∃ e, outcome (registerData host name cls kind data owner) r = (.error e, r)) ∨
    (∃ e, outcome (registerData host name cls kind data owner) r =
      (.error e, (outcome (classInstance host cls) r).2)) ∨
    ∃ before after notes t, r.canBind name (.ofClass cls) = .ok () ∧
      outcome (classInstance host cls) r = (.ok before, t) ∧
      before.add host name data owner = .ok (after, notes) ∧ after.cls = cls ∧
      outcome (registerData host name cls kind data owner) r =
        (.ok (), ({ t.put after with notes := t.notes ++ notes } : Registry).bound name
          (.ofClass cls) kind) := by
  unfold registerData
  cases hb : r.canBind name (.ofClass cls) with
  | error e =>
    rw [outcome_bind_of_error (by rw [outcome_checkRebind, hb])]
    exact Or.inl ⟨e, rfl⟩
  | ok u =>
    rw [outcome_bind_of_ok (by rw [outcome_checkRebind, hb])]
    have ht := targets_classInstance host cls r
    have hs := outcome_classInstance host cls r
    rcases hi : outcome (classInstance host cls) r with ⟨e | before, t⟩
    · rw [outcome_bind_of_error hi]
      exact Or.inr (Or.inl ⟨e, rfl⟩)
    · rw [hi] at ht hs
      rw [outcome_bind_of_ok hi]
      cases ha : before.add host name data owner with
      | error e =>
        rw [outcome_bind_of_error (by rw [outcome_lift])]
        exact Or.inr (Or.inl ⟨e, rfl⟩)
      | ok stored =>
        obtain ⟨after, notes⟩ := stored
        rw [outcome_bind_of_ok (by rw [outcome_lift])]
        exact Or.inr (Or.inr ⟨before, after, notes, t, rfl, rfl, ha,
          (cls_of_add ha).trans (cls_of_shared hr hs.symm),
          outcome_store ((canBind_congr ht name _).trans hb) kind after notes⟩)

/-- Data is stored and the name bound, or else nothing is served differently. -/
theorem registerData_cases (host : Host) (hr : r.Keyed) (name : Value) (cls : RuleClass) (kind : RuleKind)
    (data owner : Value) :
    (∃ s, outcome (registerData host name cls kind data owner) r = (.ok (), s) ∧
      Stored host name cls kind data owner r s) ∨
    ∃ e s, outcome (registerData host name cls kind data owner) r = (.error e, s) ∧
      ∀ K, Agree host K r s := by
  have hm := fun K => moves_classInstance (K := K) host cls r hr
  rcases outcome_registerData host hr name cls kind data owner with
    ⟨e, ho⟩ | ⟨e, ho⟩ | ⟨before, after, notes, t, hb, hi, ha, hc, ho⟩
  · exact Or.inr ⟨e, r, ho, fun K => refl (r := Looks host K) r hr⟩
  · exact Or.inr ⟨e, _, ho, hm⟩
  · have ht := targets_classInstance host cls r
    have hs := outcome_classInstance host cls r
    rw [hi] at hm ht hs
    have hall := hm fun _ => True
    refine Or.inl ⟨_, ho, keyed_put hall.keyed after, hb, ?_, ?_, before, after, notes, hs.symm, ha,
      ?_⟩
    · exact congrArg (fun targets => targets.insert name (.ofClass cls)) ht
    · exact congrArg (fun kinds => kinds.insert name kind) hall.kinds
    · intro c
      change (t.put after).shared host c = _
      rw [shared_put, hc, hall.shared c trivial]

/-- The kind and the class of a registration that brings data for a shared instance. -/
def dataKind? (kind : Value) : Option (RuleKind × RuleClass) :=
  match (kindWord kind).toOption.bind RuleKind.ofWord? with
  | some .regex => some (.regex, .regex)
  | some .callback => some (.callback, .callback)
  | some .function => some (.function, .callback)
  | _ => none

/-- What a name is bound to by a class or its import path. -/
def targetOf? (data : Value) : Option Target :=
  match data with
  | .ruleClass cls => if cls.isRule then some (.ofClass cls) else none
  | data => data.asText?.map .path

theorem registerTarget_of_target {data : Value} (h : targetOf? data = some target) :
    registerTarget name data = bind name target .ofClass := by
  cases data with
  | ruleClass cls =>
    cases hc : cls.isRule with
    | true =>
      obtain rfl : Target.ofClass cls = target := by simpa [targetOf?, hc] using h
      simp [registerTarget, hc]
    | false => simp [targetOf?, hc] at h
  | text path | kind path | mode path =>
    cases h
    rfl
  | _ => simp [targetOf?, Value.asText?] at h

theorem registerTarget_of_object {cls : RuleClass} (h : cls.isRule = true) (held : Value) :
    registerTarget name (.ruleObject cls held) = (do
      bind name (.ofClass cls) .custom
      putInstance (Rule.ofHeld cls held)) := by
  simp [registerTarget, h, Value.asText?]

theorem registerTarget_of_other (name : Value) {data : Value} (h : targetOf? data = none)
    (ho : ∀ cls held, data = .ruleObject cls held → cls.isRule = false) :
    ∃ e, registerTarget name data = throw e := by
  cases data with
  | ruleClass cls =>
    have hc : cls.isRule = false := by simpa [targetOf?] using h
    exact ⟨_, by simp [registerTarget, hc]; rfl⟩
  | ruleObject cls held =>
    have hc := ho cls held rfl
    exact ⟨_, by simp [registerTarget, hc, Value.asText?]; rfl⟩
  | text path | kind path | mode path => cases h
  | _ => exact ⟨_, rfl⟩

/-- The part of a registration that changes more than the journal. -/
def enter (host : Host) (name kind data owner : Value) : Action Unit :=
  match dataKind? kind with
  | some (k, cls) => registerData host name cls k data owner
  | none => do
    let _ ← lift (kindWord kind)
    registerTarget name data

theorem enter_of_data {cls : RuleClass} {k : RuleKind} {kind : Value}
    (h : dataKind? kind = some (k, cls)) (host : Host) (name data owner : Value) :
    enter host name kind data owner = registerData host name cls k data owner := by
  simp [enter, h]

theorem enter_of_target {kind : Value} (h : dataKind? kind = none)
    (hw : (kindWord kind).isOk = true) (host : Host) (name data owner : Value) :
    enter host name kind data owner = registerTarget name data := by
  cases hk : kindWord kind with
  | ok word =>
    simp only [enter, h, hk]
    rfl
  | error e =>
    rw [hk] at hw
    cases hw

/-- A registration without data binds the name and puts an instance in place, or is refused and
changes nothing. -/
theorem enter_target_cases {kind : Value} (hk : dataKind? kind = none) (host : Host)
    (name data owner : Value) (r : Registry) :
    (∃ e, outcome (enter host name kind data owner) r = (.error e, r)) ∨
    (∃ target, (kindWord kind).isOk = true ∧ targetOf? data = some target ∧
      r.canBind name target = .ok () ∧
      outcome (enter host name kind data owner) r = (.ok (), r.bound name target .ofClass)) ∨
    ∃ cls held, (kindWord kind).isOk = true ∧ data = .ruleObject cls held ∧ cls.isRule = true ∧
      r.canBind name (.ofClass cls) = .ok () ∧
      outcome (enter host name kind data owner) r =
        (.ok (), (r.bound name (.ofClass cls) .custom).put (Rule.ofHeld cls held)) := by
  cases hw : kindWord kind with
  | error e => exact Or.inl ⟨e, by simp only [enter, hk, hw]; rfl⟩
  | ok word =>
    rw [enter_of_target hk (by rw [hw]; rfl)]
    cases ht : targetOf? data with
    | some target =>
      rw [registerTarget_of_target ht, outcome_bindName]
      cases hb : r.canBind name target with
      | error e => exact Or.inl ⟨e, rfl⟩
      | ok u => exact Or.inr (Or.inl ⟨target, rfl, rfl, hb, rfl⟩)
    | none =>
      by_cases ho : ∃ cls held, data = .ruleObject cls held ∧ cls.isRule = true
      · obtain ⟨cls, held, rfl, hc⟩ := ho
        rw [registerTarget_of_object hc]
        cases hb : r.canBind name (.ofClass cls) with
        | error e =>
          rw [outcome_bind_of_error (by rw [outcome_bindName, hb])]
          exact Or.inl ⟨e, rfl⟩
        | ok u =>
          rw [outcome_bind_of_ok (by rw [outcome_bindName, hb])]
          exact Or.inr (Or.inr ⟨cls, held, rfl, rfl, hc, hb, rfl⟩)
      · obtain ⟨e, he⟩ := registerTarget_of_other name ht
          fun cls held hd => by
            by_contra hc
            exact ho ⟨cls, held, hd, by simpa using hc⟩
        rw [he]
        exact Or.inl ⟨e, rfl⟩

/-- What is noted of a registration that was accepted. -/
def registered (name kind : Value) : List Note :=
  let word := (kindWord kind).toOption.getD ""
  Note.about .debug .registry "Registered rule '" name
    ("' (" ++ (if word.isEmpty then "class" else word) ++ ")")

theorem register_eq (host : Host) (name kind data owner : Value) :
    register host name kind data owner = (do
      enter host name kind data owner
      note (registered name kind)) := by
  unfold register enter dataKind? registered
  cases kindWord kind with
  | error e => rfl
  | ok word =>
    simp only [Except.toOption, Option.bind_some, lift_ok, pure_bind]
    cases RuleKind.ofWord? word with
    | none => rfl
    | some k => cases k <;> rfl

/-- A registration ends as its entry does, with one more note when it is accepted. -/
theorem outcome_register (host : Host) (name kind data owner : Value) (r : Registry) :
    (outcome (register host name kind data owner) r).1 =
      (outcome (enter host name kind data owner) r).1 ∧
    ∃ notes, (outcome (register host name kind data owner) r).2 =
      let s := (outcome (enter host name kind data owner) r).2
      { s with notes := s.notes ++ notes } := by
  rw [register_eq, FormGuard.outcome_bind]
  rcases outcome (enter host name kind data owner) r with ⟨e | u, s⟩
  · exact ⟨rfl, [], by simp⟩
  · exact ⟨rfl, _, rfl⟩

/-- The instance that a value is. -/
def object? : Value → Option Rule
  | .ruleObject cls held => if cls.isRule then some (.ofHeld cls held) else none
  | _ => none

theorem object?_eq_some {data : Value} {rule : Rule} : object? data = some rule ↔
    ∃ cls held, data = .ruleObject cls held ∧ cls.isRule = true ∧ Rule.ofHeld cls held = rule := by
  cases data with
  | ruleObject cls held => cases hc : cls.isRule <;> simp [object?, hc]
  | _ => simp [object?]

/-- What a registration is to bind its name to, whether or not its data can be used. -/
def aim? (kind data : Value) : Option Target :=
  match dataKind? kind with
  | some (_, cls) => some (.ofClass cls)
  | none =>
    if (kindWord kind).isOk then
      match targetOf? data with
      | some target => some target
      | none => (object? data).map fun rule => .ofClass rule.cls
    else none

/-- A registration fails as binding the name to what it is for does. -/
theorem register_of_aim {kind data : Value} (h : aim? kind data = some target) {e : Error}
    (he : r.canBind name target = .error e) (host : Host) (owner : Value) :
    (outcome (register host name kind data owner) r).1 = .error e := by
  rw [(outcome_register host name kind data owner r).1]
  cases hk : dataKind? kind with
  | some found =>
    obtain ⟨k, cls⟩ := found
    obtain rfl : Target.ofClass cls = target := by simpa [aim?, hk] using h
    rw [enter_of_data hk, registerData, outcome_bind_of_error (by rw [outcome_checkRebind, he])]
  | none =>
    cases hw : (kindWord kind).isOk with
    | false => simp [aim?, hk, hw] at h
    | true =>
      rw [enter_of_target hk hw]
      cases ht : targetOf? data with
      | some t =>
        obtain rfl : t = target := by simpa [aim?, hk, hw, ht] using h
        rw [registerTarget_of_target ht, outcome_bindName, he]
      | none =>
        obtain ⟨rule, hrule, rfl⟩ : ∃ rule, object? data = some rule ∧
            Target.ofClass rule.cls = target := by
          simpa [aim?, hk, hw, ht] using h
        obtain ⟨cls, held, rfl, hc, rfl⟩ := object?_eq_some.mp hrule
        rw [Rule.cls_ofHeld] at he
        rw [registerTarget_of_object hc, outcome_bind_of_error (by rw [outcome_bindName, he])]

theorem keyed_register (hr : r.Keyed) (host : Host) (name kind data owner : Value) :
    (outcome (register host name kind data owner) r).2.Keyed := by
  obtain ⟨_, notes, hn⟩ := outcome_register host name kind data owner r
  rw [hn]
  change (outcome (enter host name kind data owner) r).2.Keyed
  cases hk : dataKind? kind with
  | some found =>
    obtain ⟨k, cls⟩ := found
    rw [enter_of_data hk]
    rcases registerData_cases host hr name cls k data owner with
      ⟨s, ho, hs⟩ | ⟨e, s, ho, hs⟩
    · rw [ho]
      exact hs.keyed
    · rw [ho]
      exact (hs fun _ => True).keyed
  | none =>
    rcases enter_target_cases hk host name data owner r with
      ⟨e, ho⟩ | ⟨target, _, _, _, ho⟩ | ⟨cls, held, _, _, _, _, ho⟩
    · rwa [ho]
    · rw [ho]
      exact hr
    · rw [ho]
      exact keyed_put hr _

end FormGuard.Registry
