import FormGuard.Proofs.Failure
import FormGuard.Proofs.Registry.Verdict

/-! Presence: in a registry that has some names, asking the rules of these names never fails for want
of a name. -/
namespace FormGuard.Registry
variable {host : Host} {names : Value → Prop} {r s : Registry} {name : Value}
  {K : RuleClass → Prop}

/-- A registry has some names, and every instance is kept under its own class. -/
structure Has (names : Value → Prop) (r : Registry) : Prop where
  keyed : r.Keyed
  registered : ∀ name, names name → r.targets.contains name = true

theorem Has.looks (h : r.Has names) (hl : Looks host K r s) : s.Has names := by
  refine ⟨(hl h.keyed).keyed, fun name hn => ?_⟩
  rw [(hl h.keyed).contains name, h.registered name hn]

/-- An action on registries with some names fails for want of a name only where the using program
does, and leaves the names there. -/
abbrev Safe {α : Type} (host : Host) (names : Value → Prop) (x : Action α) : Prop :=
  Guarded (Has names) (fun e => e.isLookup = true → host.Raises e) x

theorem safe_of_looks {α : Type} {x : Action α} (hm : Moves (Looks host K) x)
    (hf : ∀ r, r.Has names → FindsOwn host (outcome x r).1) : Safe host names x :=
  fun r hr => ⟨hf r hr, hr.looks (hm r)⟩

theorem safe_lift {α : Type} {result : Except Error α} (h : FindsOwn host result) :
    Safe host names (Registry.lift result) := by
  intro r hr
  rw [outcome_lift]
  exact ⟨h, hr⟩

theorem safe_lift_of_finds {α : Type} {result : Except Error α} (h : Finds result) :
    Safe host names (Registry.lift result) :=
  safe_lift (findsOwn_of_finds host h)

section
variable (host)

theorem finds_classAt (path : String) : Finds (classAt host path) := by
  have hp := finds_resolveText host path
  unfold classAt
  split
  · exact failsAs_error rfl
  · rename_i e _ he
    exact failsAs_error (hp e he)
  · split
    · exact failsAs_ok _
    · exact failsAs_error rfl
  · exact failsAs_error rfl

theorem finds_shared (r : Registry) (cls : RuleClass) : Finds (r.shared host cls) := by
  unfold shared
  split
  · exact failsAs_ok _
  · split
    · exact failsAs_error rfl
    · exact failsAs_ok _

/-- A name that is registered is found, though its class may not be there or not be made. -/
theorem finds_ruleOf (h : r.targets.contains name = true) : Finds (r.ruleOf host name) := by
  refine failsAs_bind (Value.finds_needKey name) fun _ => ?_
  obtain ⟨target, ht⟩ := Option.isSome_iff_exists.mp h
  have hc : r.classOf? host name = some (targetClass host target) := by rw [classOf?, ht]; rfl
  rw [hc]
  refine failsAs_bind ?_ fun cls => finds_shared host r cls
  cases target with
  | ofClass cls => exact failsAs_ok cls
  | path path => exact finds_classAt host path

theorem safe_getRule (h : names name) : Safe host names (getRule host name) := by
  refine safe_of_looks (K := fun _ => True) (moves_getRule host name) fun r hr => ?_
  rw [outcome_getRule]
  exact findsOwn_of_finds host (finds_ruleOf host (hr.registered name h))

theorem safe_passes (cls : RuleClass) (name value format : Value) :
    Safe host names (passes host cls name value format) := by
  refine safe_of_looks (moves_passes host cls name value format) fun r _ => ?_
  rw [outcome_passes]
  refine failsAs_bind (findsOwn_of_finds host (finds_shared host r cls)) fun rule => ?_
  exact failsAs_map (Rule.findsOwn_validate host rule name value format) _

theorem safe_count (cls : RuleClass) (name format : Value) (values : List Value) :
    Safe host names (count host cls name format values) := by
  induction values with
  | nil => exact guarded_pure 0
  | cons value rest ih =>
    refine guarded_bind (safe_passes host cls name value format) fun first => ?_
    exact guarded_bind ih fun _ => guarded_pure _

theorem safe_validate (h : names name) (value format : Value) (whole : Bool) :
    Safe host names (validate host name value format whole) := by
  refine guarded_bind (safe_getRule host h) fun rule => ?_
  cases if whole then none else collected? value with
  | none => exact guarded_bind (safe_passes host rule.cls name value format) fun _ => guarded_pure _
  | some items =>
    exact guarded_bind (safe_count host rule.cls name format items) fun _ => guarded_pure _

end

end FormGuard.Registry
