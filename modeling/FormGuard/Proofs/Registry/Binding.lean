import FormGuard.Proofs.Registry.Refusal

/-! Bindings: a name that is registered stays so and stands for one class for good. -/
namespace FormGuard.Registry
variable {host : Host} {r s : Registry} {name other kind data owner : Value} {target : Target}
  {cls : RuleClass}

/-- The class that a registration is for: that of its kind of data, of a class or its import path, or
of an instance. -/
def implementation? (host : Host) (kind data : Value) : Option RuleClass :=
  (aim? kind data).bind fun target => (targetClass host target).toOption

theorem implementation?_eq_some : implementation? host kind data = some cls ↔
    ∃ target, aim? kind data = some target ∧ targetClass host target = .ok cls := by
  simp only [implementation?, Option.bind_eq_some_iff, toOption_eq_some]

/-- The tables of one registry are those of another one with a name bound, which nothing forbids. -/
structure Binds (name : Value) (target : Target) (r s : Registry) : Prop where
  canBind : r.canBind name target = .ok ()
  targets : s.targets = r.targets.insert name target
  kinds : ∃ kind, s.kinds = r.kinds.insert name kind

theorem Binds.classOf? (h : Binds name target r s) (host : Host) (other : Value) :
    s.classOf? host other =
      if name.same other then some (targetClass host target) else r.classOf? host other := by
  simp only [Registry.classOf?, h.targets, Table.find?_insert]
  split <;> rfl

/-- An accepted registration binds the name to what it is for. -/
theorem binds_of_accepted (hr : r.Keyed)
    (h : (outcome (register host name kind data owner) r).1 = .ok ()) :
    ∃ target, aim? kind data = some target ∧
      Binds name target r (outcome (register host name kind data owner) r).2 := by
  obtain ⟨hanswer, notes, hstate⟩ := outcome_register host name kind data owner r
  rw [hanswer] at h
  rw [hstate]
  suffices hb : ∃ target, aim? kind data = some target ∧
      Binds name target r (outcome (enter host name kind data owner) r).2 by
    obtain ⟨target, ha, hcan, htargets, hkinds⟩ := hb
    exact ⟨target, ha, hcan, htargets, hkinds⟩
  cases hk : dataKind? kind with
  | some found =>
    obtain ⟨k, c⟩ := found
    rw [enter_of_data hk] at h ⊢
    rcases registerData_cases host hr name c k data owner with ⟨s, ho, hs⟩ | ⟨_, s, ho, _⟩
    · rw [ho]
      exact ⟨.ofClass c, by simp [aim?, hk], hs.canBind, hs.targets, k, hs.kinds⟩
    · rw [ho] at h
      cases h
  | none =>
    rcases enter_target_cases hk host name data owner r with
      ⟨_, ho⟩ | ⟨target, hw, ht, hb, ho⟩ | ⟨c, held, hw, rfl, hc, hb, ho⟩
    · rw [ho] at h
      cases h
    · rw [ho]
      exact ⟨target, by simp [aim?, hk, hw, ht], hb, rfl, _, rfl⟩
    · rw [ho]
      exact ⟨.ofClass c, by simp [aim?, hk, hw, targetOf?, Value.asText?, object?, hc], hb, rfl, _,
        rfl⟩

/-- An operation changes no binding, or it binds one name. -/
theorem next_binds (host : Host) (hr : r.Keyed) (op : Operation) :
    (op.next host r).kinds = r.kinds ∧
      (∀ name, (op.next host r).classOf? host name = r.classOf? host name) ∨
    ∃ name target, Binds name target r (op.next host r) := by
  by_cases hreg : ∃ name kind data owner, op = .register name kind data owner
  · obtain ⟨name, kind, data, owner, rfl⟩ := hreg
    rw [Operation.next, Operation.perform]
    rcases hanswer : (outcome (register host name kind data owner) r).1 with e | ⟨⟩
    · have ha := (alike_of_refused hr hanswer).agree
      exact Or.inl ⟨ha.kinds, ha.classOf⟩
    · obtain ⟨target, _, hb⟩ := binds_of_accepted hr hanswer
      exact Or.inr ⟨name, target, hb⟩
  · have ha : Agree host (Rule.KeepsState host) r (op.next host r) :=
      looks_next (fun name kind data owner he => hreg ⟨name, kind, data, owner, he⟩) r hr
    exact Or.inl ⟨ha.kinds, ha.classOf⟩

theorem contains_iff_classOf? (host : Host) (r : Registry) (name : Value) :
    r.targets.contains name = (r.classOf? host name).isSome := by
  rw [classOf?, Option.isSome_map, Table.contains]

/-- What a name stands for it stands for after any operation. -/
theorem classOf?_next (hr : r.Keyed) {found : Except Error RuleClass}
    (h : r.classOf? host name = some found) (op : Operation) :
    (op.next host r).classOf? host name = some found := by
  rcases next_binds host hr op with ⟨_, hc⟩ | ⟨other, target, hb⟩
  · rw [hc, h]
  · rw [hb.classOf?, ← classOf?_bound other name target .ofClass r]
    exact classOf?_bound_of_some hb.canBind h

theorem classOf?_run (hr : r.Keyed) {found : Except Error RuleClass}
    (h : r.classOf? host name = some found) (ops : List Operation) :
    (run host ops r).classOf? host name = some found := by
  induction ops generalizing r with
  | nil => exact h
  | cons op ops ih => exact ih (keyed_next op hr) (classOf?_next hr h op)

theorem keeps_next (host : Host) (r : Registry) (op : Operation) : r.Keeps (op.next host r) := by
  intro hr
  refine ⟨keyed_next op hr, fun name hc => ?_⟩
  rw [contains_iff_classOf? host] at hc ⊢
  obtain ⟨found, hf⟩ := Option.isSome_iff_exists.mp hc
  rw [classOf?_next hr hf op]
  rfl

/-- A name that was registered for a class stands for that class ever after. -/
theorem classOf?_of_registered (host : Host) {before after : List Operation}
    (h : (outcome (register host name kind data owner) (run host before empty)).1 = .ok ())
    (hi : implementation? host kind data = some cls) :
    (run host (before ++ .register name kind data owner :: after) empty).classOf? host name =
      some (.ok cls) := by
  have hr : (run host before empty).Keyed := keyed_run keyed_empty
  obtain ⟨target, ha, hb⟩ := binds_of_accepted hr h
  obtain ⟨_, hone, hcls⟩ := implementation?_eq_some.mp hi
  obtain rfl := Option.some.inj (ha.symm.trans hone)
  rw [run_append]
  refine classOf?_run (keyed_next (.register name kind data owner) hr) ?_ after
  rw [Operation.next, Operation.perform, hb.classOf?, if_pos (Value.same_self name), hcls]

/-- The names that have a kind are those that are bound. -/
def Paired (r : Registry) : Prop := ∀ name, r.kinds.contains name = r.targets.contains name

theorem Paired.next (h : r.Paired) (hr : r.Keyed) (host : Host) (op : Operation) :
    (op.next host r).Paired := by
  intro name
  rcases next_binds host hr op with ⟨hk, hc⟩ | ⟨other, target, hb⟩
  · rw [hk, h name, contains_iff_classOf? host r, contains_iff_classOf? host (op.next host r), hc]
  · obtain ⟨kind, hk⟩ := hb.kinds
    rw [hk, hb.targets, Table.contains_insert, Table.contains_insert, h name]

theorem Paired.run (h : r.Paired) (hr : r.Keyed) (host : Host) (ops : List Operation) :
    (run host ops r).Paired := by
  induction ops generalizing r with
  | nil => exact h
  | cons op ops ih => exact ih (h.next hr host op) (keyed_next op hr)

theorem isRegistered_eq_true : (outcome (isRegistered name) r).1 = .ok true ↔
    name.isKey = true ∧ r.targets.contains name = true := by
  rw [outcome_isRegistered, Value.needKey]
  cases name.isKey with
  | false => simp [Value.misuse, Except.map]
  | true => simp [Except.map]

theorem kind_eq_ok_iff {k : RuleKind} : (outcome (Registry.kind name) r).1 = .ok k ↔
    name.isKey = true ∧ r.kinds.find? name = some k := by
  rw [outcome_kind]
  constructor
  · intro h
    obtain ⟨_, hn, hf⟩ := bind_eq_ok.mp h
    refine ⟨Value.needKey_eq_ok.mp hn, ?_⟩
    cases hk : r.kinds.find? name with
    | none => simp [hk] at hf
    | some found =>
      obtain rfl : found = k := by simpa [hk] using hf
      rfl
  · rintro ⟨hn, hk⟩
    exact bind_eq_ok.mpr ⟨(), Value.needKey_eq_ok.mpr hn, by rw [hk]⟩

theorem kind_eq_ok : (∃ kind, (outcome (Registry.kind name) r).1 = .ok kind) ↔
    name.isKey = true ∧ r.kinds.contains name = true := by
  simp only [kind_eq_ok_iff, exists_and_left, Table.contains, Option.isSome_iff_exists]

/-- A name is not bound to anything else than what it is bound to, and the refusal is reported where
the name can be written. -/
theorem refused_of_bound (hk : name.isKey = true) {current : Target}
    (hc : r.targets.find? name = some current) (ha : aim? kind data = some target)
    (hne : target ≠ current) (host : Host) (owner : Value) :
    ∃ e, (outcome (register host name kind data owner) r).1 = .error e ∧
      (name.isWritable = true → ∃ f, e = .registration f) := by
  have hbind : r.canBind name target =
      Error.raise (.registration (.bound name current.shown target.shown)) := by
    unfold canBind
    rw [Value.needKey_eq_ok (u := ()).mpr hk, hc]
    change (if current ≠ target then _ else _) = _
    rw [if_pos hne.symm]
  refine ⟨_, register_of_aim ha hbind host owner, fun hw => ⟨_, Error.worded_of_isWritable ?_⟩⟩
  simp [RegistrationFault.named, hw]

/-- What a name is for stands in the way of binding it to anything that is for something else. -/
theorem refused_of_other_class (hk : name.isKey = true) {found : Except Error RuleClass}
    (hf : s.classOf? host name = some found) (h : implementation? host kind data = some cls)
    (hne : found ≠ .ok cls) (owner : Value) :
    ∃ e, (outcome (register host name kind data owner) s).1 = .error e ∧
      (name.isWritable = true → ∃ f, e = .registration f) := by
  obtain ⟨current, hc, rfl⟩ := Option.map_eq_some_iff.mp hf
  obtain ⟨target, ha, ht⟩ := implementation?_eq_some.mp h
  have hother : target ≠ current := by
    rintro rfl
    exact hne ht
  exact refused_of_bound hk hc ha hother host owner

theorem classOf?_of_getRule {rule : Rule} (hr : r.Keyed)
    (h : (outcome (getRule host name) r).1 = .ok rule) :
    r.classOf? host name = some (.ok rule.cls) := by
  rw [outcome_getRule] at h
  obtain ⟨_, cls, hc, hs⟩ := ruleOf_eq_ok.mp h
  rw [hc, cls_of_shared hr hs]

/-- Names are registered exactly if they have a kind. A name that is registered stays registered
whatever follows, is served by rules of one class only, and a registration of it for another class
is refused, with a report where the name can be written. -/
theorem bound_for_good (host : Host) (before after : List Operation) (name : Value) :
    let r := run host before empty
    let s := run host after r
    ((outcome (isRegistered name) r).1 = .ok true ↔
      ∃ kind, (outcome (Registry.kind name) r).1 = .ok kind) ∧
    ((outcome (isRegistered name) r).1 = .ok true →
      (outcome (isRegistered name) s).1 = .ok true ∧
      (∀ rule later, (outcome (getRule host name) r).1 = .ok rule →
        (outcome (getRule host name) s).1 = .ok later → later.cls = rule.cls) ∧
      ∀ kind data owner cls, implementation? host kind data = some cls →
        r.classOf? host name ≠ some (.ok cls) →
        ∃ e, (outcome (register host name kind data owner) s).1 = .error e ∧
          (name.isWritable = true → ∃ f, e = .registration f)) := by
  intro r s
  have hr : r.Keyed := keyed_run keyed_empty
  have hs : s.Keyed := keyed_run hr
  have hp : r.Paired := Paired.run (fun _ => rfl) keyed_empty host before
  refine ⟨?_, fun h => ?_⟩
  · rw [isRegistered_eq_true, kind_eq_ok, hp name]
  obtain ⟨hk, hc⟩ := isRegistered_eq_true.mp h
  rw [contains_iff_classOf? host] at hc
  obtain ⟨found, hf⟩ := Option.isSome_iff_exists.mp hc
  have hfs : s.classOf? host name = some found := classOf?_run hr hf after
  refine ⟨?_, ?_, ?_⟩
  · rw [isRegistered_eq_true, contains_iff_classOf? host, hfs]
    exact ⟨hk, rfl⟩
  · intro rule later hrule hlater
    have hone := classOf?_of_getRule hr hrule
    have htwo := classOf?_of_getRule hs hlater
    rw [hfs, ← hf, hone] at htwo
    exact (Except.ok.inj (Option.some.inj htwo)).symm
  · intro kind data owner cls hi hne
    exact refused_of_other_class hk hfs hi (fun he => hne (hf.trans (congrArg some he))) owner

/-- A name bound by the path of its class, which is looked for when the name is first used. -/
def pathRun : List Operation :=
  [.register (.text "mail") .null (.text "formrule.rules.builtin:EmailRule") .null]

theorem bound_for_good_mail :
    let r := run Host.bare pathRun empty
    let s := run Host.bare [.get (.text "mail"),
      .register (.text "mail") (.kind .regex) (.text "@") .null] r
    r.targets.find? (.text "mail") = some (.path "formrule.rules.builtin:EmailRule") ∧
    s.targets.find? (.text "mail") = some (.ofClass .email) ∧
    (outcome (isRegistered (.text "mail")) s).1 = .ok true ∧
    (outcome (getRule Host.bare (.text "mail")) r).1 = .ok .email ∧
    ∃ f, (outcome (register Host.bare (.text "mail") (.kind .regex) (.text "@") .null) s).1 =
      .error (.registration f) := by
  intro r s
  have hpath : r.targets.find? (.text "mail") = some (.path "formrule.rules.builtin:EmailRule") := rfl
  have hc : r.classOf? Host.bare (.text "mail") = some (.ok .email) := rfl
  obtain ⟨_, h⟩ := bound_for_good Host.bare pathRun [.get (.text "mail"),
    .register (.text "mail") (.kind .regex) (.text "@") .null] (.text "mail")
  obtain ⟨hs, _, hrefused⟩ := h rfl
  have hne : r.classOf? Host.bare (.text "mail") ≠ some (.ok .regex) := by
    rw [hc]
    simp
  obtain ⟨e, he, hreport⟩ :=
    hrefused (.kind .regex) (.text "@") .null .regex (by decide +kernel) hne
  obtain ⟨f, rfl⟩ := hreport (Value.isWritable_text "mail")
  exact ⟨hpath, rfl, hs, rfl, f, he⟩

end FormGuard.Registry
