import FormGuard.Proofs.Registry.Offer

/-! Settling: looking a rule up binds the names of its import path to the class at the path. That is
all it does to the bindings, and it decides whether these names can be registered again. -/
namespace FormGuard.Registry
variable {host : Host} {r s t : Registry} {name other kind data owner : Value} {target : Target}
  {cls : RuleClass}

namespace Operation

def isRegistration : Operation → Bool
  | .register _ _ _ _ => true
  | _ => false

theorem exists_register {op : Operation} (h : op.isRegistration = true) :
    ∃ name kind data owner, op = .register name kind data owner := by
  cases op with
  | register name kind data owner => exact ⟨name, kind, data, owner, rfl⟩
  | _ => cases h

/-- Whether an operation registers a name once more that is bound to an import path, for the path or
for the class at it, and with something that can be used. -/
def RepeatsPath (host : Host) (r : Registry) : Operation → Prop
  | .register name kind data owner =>
    name.isKey = true ∧ ∃ path cls o, r.targets.find? name = some (.path path) ∧
      classAt host path = .ok cls ∧ offer? host kind data owner = some o ∧
      (o.bindsTo = .path path ∨ o.bindsTo = .ofClass cls)
  | _ => False

end Operation

/-- Which registrations of a run are accepted, in order. -/
def answers (host : Host) : List Operation → Registry → List Bool
  | [], _ => []
  | op :: ops, r =>
    if op.isRegistration then op.accepted host r :: answers host ops (op.next host r)
    else answers host ops (op.next host r)

theorem answers_append (ops more : List Operation) (r : Registry) :
    answers host (ops ++ more) r = answers host ops r ++ answers host more (run host ops r) := by
  induction ops generalizing r with
  | nil => rfl
  | cons op ops ih =>
    rw [List.cons_append, answers, answers, ih]
    cases op.isRegistration <;> rfl

/-- The bindings of a registry some time later, when nothing was registered: paths may have been
looked for. -/
def Settles (host : Host) (r s : Registry) : Prop :=
  ∀ name, s.targets.find? name = r.targets.find? name ∨
    ∃ path cls, r.targets.find? name = some (.path path) ∧ classAt host path = .ok cls ∧
      s.targets.find? name = some (.ofClass cls)

theorem settles_of_eq (h : s.targets = r.targets) : Settles host r s :=
  fun name => Or.inl (congrArg (fun targets => targets.find? name) h)

instance : Std.Refl (Settles host) where
  refl _ := settles_of_eq rfl

instance : IsTrans Registry (Settles host) where
  trans r s t hrs hst name := by
    rcases hst name with ht | ⟨path, cls, hs, hc, ht⟩
    · rw [ht]
      exact hrs name
    · right
      rcases hrs name with hr | ⟨_, _, _, _, hs'⟩
      · exact ⟨path, cls, hr ▸ hs, hc, ht⟩
      · rw [hs'] at hs
        cases hs

section
variable (host)

theorem settles_resolve (target : Target) : Moves (Settles host) (resolve host target) := by
  intro r
  cases target with
  | ofClass cls => exact refl r
  | path path =>
    rw [resolve, outcome_resolvePath]
    cases hc : classAt host path with
    | error e => exact refl r
    | ok cls =>
      intro name
      change (r.settle path cls).targets.find? name = _ ∨ _
      rw [settle, Table.find?_map]
      cases hf : r.targets.find? name with
      | none => exact Or.inl rfl
      | some current =>
        by_cases hp : current = .path path
        · exact Or.inr ⟨path, cls, congrArg some hp, hc, by simp [settle, Table.find?_map, hf, hp]⟩
        · exact Or.inl (by simp [hp])

theorem settles_classInstance (cls : RuleClass) : Moves (Settles host) (classInstance host cls) :=
  fun r => settles_of_eq (targets_classInstance host cls r)

theorem settles_passes (cls : RuleClass) (name value format : Value) :
    Moves (Settles host) (passes host cls name value format) := by
  refine moves_bind (settles_classInstance host cls) fun rule r => settles_of_eq ?_
  rw [bind_pure_comp, outcome_map, outcome_ask]
  rfl

theorem settles_getRule (name : Value) : Moves (Settles host) (getRule host name) :=
  moves_getRule_of host (settles_resolve host) (settles_classInstance host) name

theorem settles_lookup {op : Operation} (h : op.isRegistration = false) (r : Registry) :
    Settles host r (op.next host r) := by
  cases op with
  | register name kind data owner => cases h
  | get name => exact moves_discard (settles_getRule host name) r
  | validate name value format whole =>
    exact moves_discard (moves_validate_of host (settles_getRule host) (settles_passes host)
      name value format whole) r
  | block source name a =>
    exact moves_discard (moves_block_of host (settles_getRule host) source name a) r

theorem next_get (name : Value) (r : Registry) :
    (Operation.get name).next host r = (outcome (getRule host name) r).2 :=
  congrArg Prod.snd (outcome_map (fun _ => PUnit.unit) (getRule host name) r)

/-- Looking a name up that is bound to the path of a class binds it to the class. -/
theorem find?_of_getRule {path : String} (hk : name.isKey = true)
    (hf : r.targets.find? name = some (.path path)) (hc : classAt host path = .ok cls) :
    (outcome (getRule host name) r).2.targets.find? name = some (.ofClass cls) := by
  have hresolve : outcome (resolve host (.path path)) r = (.ok cls, r.settle path cls) := by
    rw [resolve, outcome_resolvePath, hc]
  have hkey := Value.needKey_eq_ok (u := ()).mpr hk
  rw [getRule, hkey, outcome_bind_of_ok (outcome_lift _ _), outcome_bind_of_ok (outcome_get r), hf]
  change (outcome (resolve host (.path path) >>= classInstance host) r).2.targets.find? name = _
  rw [outcome_bind_of_ok hresolve, targets_classInstance]
  simp [settle, Table.find?_map, hf]

end

/-- A refused registration leaves the bindings as they are. -/
theorem targets_of_refused (hr : r.Keyed) {e : Error}
    (h : (outcome (register host name kind data owner) r).1 = .error e) :
    (outcome (register host name kind data owner) r).2.targets = r.targets := by
  obtain ⟨hanswer, notes, hstate⟩ := outcome_register host name kind data owner r
  rw [hanswer] at h
  rw [hstate]
  change (outcome (enter host name kind data owner) r).2.targets = r.targets
  cases hk : dataKind? kind with
  | some found =>
    obtain ⟨k, cls⟩ := found
    rw [enter_of_data hk] at h ⊢
    rcases outcome_registerData host hr name cls k data owner with
      ⟨_, ho⟩ | ⟨_, ho⟩ | ⟨_, _, _, _, _, _, _, _, ho⟩
    · rw [ho]
    · rw [ho]
      exact targets_classInstance host cls r
    · rw [ho] at h
      cases h
  | none =>
    rcases enter_target_cases hk host name data owner r with
      ⟨_, ho⟩ | ⟨_, _, _, _, ho⟩ | ⟨_, _, _, _, _, _, ho⟩
    · rw [ho]
    · rw [ho] at h
      cases h
    · rw [ho] at h
      cases h

/-- Registering a name once more changes no binding, accepted or not. -/
theorem find?_register_of_bound (hr : r.Keyed) {current : Target}
    (h : r.targets.find? name = some current) (host : Host) (kind data owner other : Value) :
    (outcome (register host name kind data owner) r).2.targets.find? other =
      r.targets.find? other := by
  rcases ha : (outcome (register host name kind data owner) r).1 with e | ⟨⟩
  · rw [targets_of_refused hr ha]
  · obtain ⟨o, _, ht⟩ := taken_of_accepted hr ha
    rw [ht.targets, Table.find?_insert]
    split
    · rename_i hs
      rw [← Table.find?_congr _ hs, h, find?_of_canBind ht.canBind h]
    · rfl

theorem accepted_eq_true {name kind data owner : Value} :
    (Operation.register name kind data owner).accepted host r = true ↔
      (outcome (register host name kind data owner) r).1 = .ok () := by
  rw [Operation.accepted, Operation.perform]
  cases (outcome (register host name kind data owner) r).1 with
  | error e => simp [Except.isOk, Except.toBool]
  | ok u => simp [Except.isOk, Except.toBool]

/-- Where the bindings of a name are the same, its registrations are accepted alike. -/
theorem accepted_congr (host : Host) (hr : r.Keyed) (hs : s.Keyed)
    (h : s.targets.find? name = r.targets.find? name) (kind data owner : Value) :
    (Operation.register name kind data owner).accepted host s =
      (Operation.register name kind data owner).accepted host r := by
  rw [Bool.eq_iff_iff, accepted_eq_true, accepted_eq_true, accepted_iff hr, accepted_iff hs]
  simp only [canBind_eq_ok, h]

/-- A registration changes the bindings of a registry and those of a later one alike. -/
theorem Settles.register (h : Settles host r s) (hr : r.Keyed) (hs : s.Keyed)
    (name kind data owner : Value) :
    Settles host (outcome (register host name kind data owner) r).2
      (outcome (register host name kind data owner) s).2 := by
  intro other
  cases hf : r.targets.find? name with
  | some current =>
    have hbound : ∃ later, s.targets.find? name = some later := by
      rcases h name with hn | ⟨_, cls, _, _, hn⟩
      · exact ⟨current, hn.trans hf⟩
      · exact ⟨_, hn⟩
    obtain ⟨later, hl⟩ := hbound
    rw [find?_register_of_bound hr hf, find?_register_of_bound hs hl]
    exact h other
  | none =>
    have hn : s.targets.find? name = r.targets.find? name := by
      rcases h name with hn | ⟨_, _, hn, _, _⟩
      · exact hn
      · rw [hf] at hn
        cases hn
    have hacc := accepted_congr host hr hs hn kind data owner
    rw [Bool.eq_iff_iff, accepted_eq_true, accepted_eq_true] at hacc
    rcases ha : (outcome (Registry.register host name kind data owner) r).1 with e | ⟨⟩
    · rcases hb : (outcome (Registry.register host name kind data owner) s).1 with f | ⟨⟩
      · rw [targets_of_refused hr ha, targets_of_refused hs hb]
        exact h other
      · rw [hacc.mp hb] at ha
        cases ha
    · obtain ⟨o, ho, htr⟩ := taken_of_accepted hr ha
      obtain ⟨p, hp, hts⟩ := taken_of_accepted hs (hacc.mpr ha)
      obtain rfl : o = p := by simpa [ho] using hp
      rw [htr.targets, hts.targets, Table.find?_insert, Table.find?_insert]
      split
      · exact Or.inl rfl
      · exact h other

/-- A registration is accepted later as it is now unless it is for a path that was looked for. -/
theorem accepted_of_settles (h : Settles host r s) (hr : r.Keyed) (hs : s.Keyed)
    (hno : ¬ (Operation.register name kind data owner).RepeatsPath host r) :
    (Operation.register name kind data owner).accepted host s =
      (Operation.register name kind data owner).accepted host r := by
  rcases h name with hn | ⟨path, cls, hpath, hc, hcls⟩
  · exact accepted_congr host hr hs hn kind data owner
  · -- neither registry lets the name be bound to what is offered
    have hr' : ¬ (outcome (Registry.register host name kind data owner) r).1 = .ok () := by
      rw [accepted_iff hr]
      rintro ⟨o, ho, hb⟩
      exact hno ⟨isKey_of_canBind hb, path, cls, o, hpath, hc, ho,
        Or.inl (find?_of_canBind hb hpath).symm⟩
    have hs' : ¬ (outcome (Registry.register host name kind data owner) s).1 = .ok () := by
      rw [accepted_iff hs]
      rintro ⟨o, ho, hb⟩
      exact hno ⟨isKey_of_canBind hb, path, cls, o, hpath, hc, ho,
        Or.inr (find?_of_canBind hb hcls).symm⟩
    rw [Bool.eq_iff_iff, accepted_eq_true, accepted_eq_true]
    exact ⟨fun ha => absurd ha hs', fun ha => absurd ha hr'⟩

/-- No registration of a run, made from a registry, is for a path that names are bound to. -/
def RepeatsNoPath (host : Host) (ops : List Operation) (r : Registry) : Prop :=
  ∀ before op after, ops = before ++ op :: after → ¬ op.RepeatsPath host (run host before r)

/-- Registrations that repeat no path are accepted alike wherever rules are looked up between them. -/
theorem answers_of_settles {mixed ops : List Operation} (h : Settles host r s) (hr : r.Keyed)
    (hs : s.Keyed) (hm : mixed.filter Operation.isRegistration = ops)
    (hno : RepeatsNoPath host ops r) : answers host mixed s = answers host ops r := by
  induction mixed generalizing r s ops with
  | nil =>
    obtain rfl : [] = ops := hm
    rfl
  | cons op mixed ih =>
    cases hop : op.isRegistration with
    | false =>
      have hm' : mixed.filter Operation.isRegistration = ops := by simpa [hop] using hm
      have hnext : Settles host r (op.next host s) :=
        IsTrans.trans r s _ h (settles_lookup host hop s)
      rw [answers, hop]
      exact ih hnext hr (keyed_next op hs) hm' hno
    | true =>
      obtain rfl : op :: mixed.filter Operation.isRegistration = ops := by simpa [hop] using hm
      have hnow := hno [] op _ rfl
      have hlater : RepeatsNoPath host (mixed.filter Operation.isRegistration) (op.next host r) :=
        fun before later after hsplit => hno (op :: before) later after (by rw [hsplit]; rfl)
      obtain ⟨name, kind, data, owner, rfl⟩ := Operation.exists_register hop
      have hnext := ih (h.register hr hs name kind data owner)
        (keyed_register hr host name kind data owner)
        (keyed_register hs host name kind data owner) rfl hlater
      exact congrArg₂ List.cons (accepted_of_settles h hr hs hnow) hnext

/-- A look-up before a registration that repeats a path turns its answer round. -/
theorem accepted_after_get {path : String} {o : Offer} (hr : r.Keyed) (hk : name.isKey = true)
    (hf : r.targets.find? name = some (.path path)) (hc : classAt host path = .ok cls)
    (ho : offer? host kind data owner = some o)
    (hb : o.bindsTo = .path path ∨ o.bindsTo = .ofClass cls) :
    (Operation.register name kind data owner).accepted host
        ((Operation.get name).next host r) ≠
      (Operation.register name kind data owner).accepted host r := by
  have hs : ((Operation.get name).next host r).Keyed := keyed_next (.get name) hr
  have hfs : ((Operation.get name).next host r).targets.find? name = some (.ofClass cls) := by
    rw [next_get]
    exact find?_of_getRule host hk hf hc
  rw [Ne, Bool.eq_iff_iff, accepted_eq_true, accepted_eq_true, accepted_iff hs, accepted_iff hr]
  rcases hb with hb | hb <;> simp [canBind_eq_ok, ho, hk, hf, hfs, hb]

/-- Looking rules up between the registrations of a run never changes which of them are accepted,
exactly if none of them registers a name again that is bound to the import path of a class, for that
path or that class, with something that can be used. -/
theorem lookups_harmless_iff (h : r.Reachable host) {ops : List Operation}
    (ho : ∀ op ∈ ops, op.isRegistration = true) :
    (∀ mixed : List Operation, mixed.filter Operation.isRegistration = ops →
        answers host mixed r = answers host ops r) ↔
      ∀ before op after, ops = before ++ op :: after →
        ¬ op.RepeatsPath host (run host before r) := by
  have hr := keyed_of_reachable h
  constructor
  · rintro hsame before op after rfl hrep
    cases op with
    | register name kind data owner =>
      obtain ⟨hk, path, cls, o, hf, hc, hoffer, hb⟩ := hrep
      have hfilter : (before ++ .get name :: .register name kind data owner :: after).filter
          Operation.isRegistration = before ++ .register name kind data owner :: after := by
        rw [List.filter_append, List.filter_cons_of_neg (by simp [Operation.isRegistration]),
          ← List.filter_append, List.filter_eq_self.mpr ho]
      have hanswers := hsame _ hfilter
      rw [answers_append, answers_append] at hanswers
      have htail := List.append_cancel_left hanswers
      exact accepted_after_get (keyed_run hr) hk hf hc hoffer hb (List.cons.inj htail).1
    | _ => exact hrep
  · intro hno mixed hm
    exact answers_of_settles (refl (r := Settles host) r) hr hr hm hno

/-- Two names for one path. -/
def twoMails : List Operation :=
  [.register (.text "mail") .null (.text "formrule.rules.builtin:EmailRule") .null,
    .register (.text "letter") .null (.text "formrule.rules.builtin:EmailRule") .null]

theorem lookups_harmless_two_mails :
    Registry.empty.Reachable Host.bare ∧
    (∀ op ∈ twoMails, op.isRegistration = true) ∧
    ∀ mixed : List Operation, mixed.filter Operation.isRegistration = twoMails →
      answers Host.bare mixed empty = [true, true] := by
  have hr : Registry.empty.Reachable Host.bare := ⟨[], rfl⟩
  have ho : ∀ op ∈ twoMails, op.isRegistration = true := by simp [twoMails, Operation.isRegistration]
  refine ⟨hr, ho, fun mixed hm => ?_⟩
  have hall : answers Host.bare twoMails empty = [true, true] := by decide +kernel
  rw [← hall]
  refine (lookups_harmless_iff hr ho).mpr ?_ mixed hm
  -- neither name is bound before it is registered
  rintro (_ | ⟨first, _ | ⟨second, before⟩⟩) op after hsplit hrep
  · cases hsplit
    obtain ⟨_, _, _, _, hf, _⟩ := hrep
    cases hf
  · cases hsplit
    obtain ⟨_, _, _, _, hf, _⟩ := hrep
    have hnone : (run Host.bare [twoMails[0]] empty).targets.find? (.text "letter") = none := by
      decide +kernel
    exact absurd (hnone.symm.trans hf) (by simp)
  · cases before <;> cases hsplit

/-- A name registered once more for the path it has, which is accepted. -/
def twiceMail : List Operation :=
  [.register (.text "mail") .null (.text "formrule.rules.builtin:EmailRule") .null,
    .register (.text "mail") .null (.text "formrule.rules.builtin:EmailRule") .null]

/-- The same path is refused once the name was looked up. -/
theorem path_refused_after_get :
    let mixed := [twiceMail[0], .get (.text "mail"), twiceMail[1]]
    mixed.filter Operation.isRegistration = twiceMail ∧
      answers Host.bare twiceMail empty = [true, true] ∧
      answers Host.bare mixed empty = [true, false] := by
  refine ⟨rfl, ?_, ?_⟩
  all_goals decide +kernel

end FormGuard.Registry
