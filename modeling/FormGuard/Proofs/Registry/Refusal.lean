import FormGuard.Main
import FormGuard.Proofs.Registry.Run

/-! Refused registrations: nothing that a registry can be asked tells that there was one. -/
namespace FormGuard.Registry
variable {host : Host} {r s t : Registry} {name value format : Value} {cls : RuleClass}

/-- Two registries serve every name by the same class and every class by the same instance. -/
structure Alike (host : Host) (r s : Registry) : Prop where
  keyed : r.Keyed
  agree : Agree host (fun _ => True) r s

theorem Alike.refl (hr : r.Keyed) : Alike host r r :=
  ⟨hr, hr, rfl, rfl, fun _ => rfl, fun _ _ => rfl⟩

theorem Alike.symm (h : Alike host r s) : Alike host s r :=
  ⟨h.agree.keyed, h.keyed, h.agree.keys.symm, h.agree.kinds.symm,
    fun name => (h.agree.classOf name).symm, fun cls hc => (h.agree.shared cls hc).symm⟩

theorem Alike.trans (hrs : Alike host r s) (hst : Alike host s t) : Alike host r t :=
  ⟨hrs.keyed, hst.agree.keyed, hst.agree.keys.trans hrs.agree.keys,
    hst.agree.kinds.trans hrs.agree.kinds,
    fun name => (hst.agree.classOf name).trans (hrs.agree.classOf name),
    fun cls hc => (hst.agree.shared cls hc).trans (hrs.agree.shared cls hc)⟩

theorem Alike.of_looks (hr : r.Keyed) (h : Looks host (fun _ => True) r s) : Alike host r s :=
  ⟨hr, h hr⟩

theorem Alike.ruleOf (h : Alike host r s) (name : Value) :
    s.ruleOf host name = r.ruleOf host name :=
  ruleOf_congr h.agree fun _ _ => trivial

/-- An instance put in the place of the one of its class makes no difference where both have it. -/
theorem Alike.put (h : Alike host r s) (rule : Rule) : Alike host (r.put rule) (s.put rule) := by
  refine ⟨keyed_put h.keyed rule, keyed_put h.agree.keyed rule, h.agree.keys, h.agree.kinds,
    h.agree.classOf, fun cls hc => ?_⟩
  rw [shared_put, shared_put, h.agree.shared cls hc]

section
variable (host)

/-- Looking up answers alike registries the same if its answer depends on nothing else. -/
theorem respects_of_looks {α : Type} {x : Action α} (hm : Moves (Looks host fun _ => True) x)
    (ha : ∀ r s, Alike host r s → (outcome x s).1 = (outcome x r).1) :
    Respects (Alike host) x := by
  intro r s h
  have hr := Alike.of_looks h.keyed (hm r)
  have hs := Alike.of_looks h.agree.keyed (hm s)
  exact ⟨ha r s h, (hr.symm.trans h).trans hs⟩

theorem respects_lift {α : Type} (result : Except Error α) :
    Respects (Alike host) (Registry.lift result) := by
  intro r s h
  rw [outcome_lift, outcome_lift]
  exact ⟨rfl, h⟩

theorem respects_getRule (name : Value) : Respects (Alike host) (getRule host name) := by
  refine respects_of_looks host (moves_getRule host name) fun r s h => ?_
  rw [outcome_getRule, outcome_getRule, h.ruleOf]

theorem respects_classInstance (cls : RuleClass) :
    Respects (Alike host) (classInstance host cls) := by
  refine respects_of_looks host (moves_classInstance host cls) fun r s h => ?_
  rw [outcome_classInstance, outcome_classInstance, h.agree.shared cls trivial]

theorem respects_ask (rule : Rule) (name value format : Value) :
    Respects (Alike host) (ask host rule name value format) := by
  intro r s h
  rw [outcome_ask, outcome_ask]
  exact ⟨rfl, h.put _⟩

theorem respects_passes (cls : RuleClass) (name value format : Value) :
    Respects (Alike host) (passes host cls name value format) := by
  refine respects_bind (respects_classInstance host cls) fun rule => ?_
  exact respects_bind (respects_ask host rule name value format) fun answer => respects_pure _

theorem respects_count (cls : RuleClass) (name format : Value) (values : List Value) :
    Respects (Alike host) (count host cls name format values) := by
  induction values with
  | nil => exact respects_pure 0
  | cons value rest ih =>
    refine respects_bind (respects_passes host cls name value format) fun first => ?_
    exact respects_bind ih fun others => respects_pure _

theorem respects_validate (name value format : Value) (whole : Bool) :
    Respects (Alike host) (validate host name value format whole) := by
  refine respects_bind (respects_getRule host name) fun rule => ?_
  cases if whole then none else collected? value with
  | none =>
    exact respects_bind (respects_passes host rule.cls name value format) fun b => respects_pure _
  | some items =>
    exact respects_bind (respects_count host rule.cls name format items) fun n => respects_pure _

theorem respects_check (name format : Value) :
    Respects (Alike host) (check host name format) :=
  respects_bind (respects_getRule host name) fun _ => respects_lift host _

end

/-- A refused registration leaves a registry that is alike: what it writes comes after all that can
fail, but for a first instance of the class. -/
theorem alike_of_refused (hr : r.Keyed) {kind data owner : Value} {e : Error}
    (h : (outcome (register host name kind data owner) r).1 = .error e) :
    Alike host r (outcome (register host name kind data owner) r).2 := by
  obtain ⟨hanswer, notes, hstate⟩ := outcome_register host name kind data owner r
  rw [hanswer] at h
  rw [hstate]
  have hentry : Alike host r (outcome (enter host name kind data owner) r).2 := by
    cases hk : dataKind? kind with
    | some found =>
      obtain ⟨k, cls⟩ := found
      rw [enter_of_data hk] at h ⊢
      rcases registerData_cases host hr name cls k data owner with ⟨s, ho, _⟩ | ⟨_, s, ho, hs⟩
      · rw [ho] at h
        cases h
      · rw [ho]
        exact ⟨hr, hs _⟩
    | none =>
      rcases enter_target_cases hk host name data owner r with
        ⟨_, ho⟩ | ⟨target, _, _, _, ho⟩ | ⟨cls, held, _, _, _, _, ho⟩
      · rw [ho]
        exact Alike.refl hr
      · rw [ho] at h
        cases h
      · rw [ho] at h
        cases h
  exact hentry.trans (Alike.of_looks hentry.agree.keyed (looks_note notes))

/-- Two registries answer every question the same: which names are registered, how, by which rule,
what it says about a value, and what its browser side is. -/
structure SameAnswers (host : Host) (r s : Registry) : Prop where
  isRegistered : ∀ name, (outcome (isRegistered name) s).1 = (outcome (isRegistered name) r).1
  names : (outcome names s).1 = (outcome names r).1
  kind : ∀ name, (outcome (kind name) s).1 = (outcome (kind name) r).1
  rule : ∀ name, (outcome (getRule host name) s).1 = (outcome (getRule host name) r).1
  verdict : ∀ name value format whole, (outcome (validate host name value format whole) s).1 =
    (outcome (validate host name value format whole) r).1
  check : ∀ name format, (outcome (check host name format) s).1 =
    (outcome (check host name format) r).1

theorem Alike.sameAnswers (h : Alike host r s) : SameAnswers host r s where
  isRegistered name := by
    rw [outcome_isRegistered, outcome_isRegistered, h.agree.contains]
  names := by
    rw [outcome_names, outcome_names, h.agree.keys]
  kind name := by
    rw [outcome_kind, outcome_kind, h.agree.kinds]
  rule name := (respects_getRule host name r s h).1
  verdict name value format whole := (respects_validate host name value format whole r s h).1
  check name format := (respects_check host name format r s h).1

/-- A registration that is refused, for whatever reason, changes no answer of the registry. -/
theorem sameAnswers_of_refused (h : r.Reachable host) {kind data owner : Value} {e : Error}
    (he : (outcome (register host name kind data owner) r).1 = .error e) :
    SameAnswers host r (outcome (register host name kind data owner) r).2 :=
  (alike_of_refused (keyed_of_reachable h) he).sameAnswers

/-- A registry of one rule, which serves no pattern yet. -/
def mailRegistry : Registry :=
  run Host.bare [.register (.text "mail") .null (.ruleClass .email) .null] empty

/-- The pattern that is refused has left an instance for patterns behind, which no answer shows. -/
theorem sameAnswers_of_refused_pattern :
    mailRegistry.instance? .regex = none ∧
    ∃ s, outcome (register Host.bare (.text "word") (.kind .regex) (.text "(") .null) mailRegistry =
        (.error (.registration (.badPattern (.text "word"))), s) ∧
      s.instance? .regex = some (.regex Patterns.initial) ∧
      SameAnswers Host.bare mailRegistry s := by
  have he : (outcome (register Host.bare (.text "word") (.kind .regex) (.text "(") .null)
      mailRegistry).1 = .error (.registration (.badPattern (.text "word"))) := by decide +kernel
  have hs := sameAnswers_of_refused ⟨_, rfl⟩ he
  exact ⟨rfl, _, Prod.ext he rfl, by decide +kernel, hs⟩

end FormGuard.Registry
