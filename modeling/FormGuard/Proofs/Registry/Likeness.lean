import FormGuard.Proofs.Registry.Refusal

/-! Likeness: what a registry says of a value under one name depends on the class of the name and on
what the instance of that class holds for it, and on nothing else. -/
namespace FormGuard

namespace Rule
variable {host : Host} {name : Value} {rule other : Rule}

/-- Two instances that hold the same for a name. -/
inductive LikeFor (name : Value) : Rule → Rule → Prop where
  | refl (rule : Rule) : LikeFor name rule rule
  | regex {patterns others : Patterns} (h : others.find? name = patterns.find? name) :
    LikeFor name (.regex patterns) (.regex others)
  | callback {callbacks others : Callbacks} (h : others.find? name = callbacks.find? name) :
    LikeFor name (.callback callbacks) (.callback others)

/-- Instances that hold the same for a name answer the same under it, and go on doing so. -/
theorem LikeFor.validate (h : LikeFor name rule other) (host : Host) (value format : Value) :
    (other.validate host name value format).1 = (rule.validate host name value format).1 ∧
      LikeFor name (rule.validate host name value format).2
        (other.validate host name value format).2 := by
  cases h with
  | refl => exact ⟨rfl, .refl _⟩
  | @regex patterns others h =>
    refine ⟨?_, .regex h⟩
    simp only [Rule.validate, Patterns.validate, Patterns.patternFor, h]
  | @callback callbacks others h =>
    refine ⟨?_, .callback h⟩
    simp only [Rule.validate, Callbacks.validate, h]

theorem LikeFor.cls_eq (h : LikeFor name rule other) : other.cls = rule.cls := by
  cases h <;> rfl

end Rule

namespace Registry
variable {host : Host} {r s : Registry} {name value format : Value} {cls : RuleClass} {rule : Rule}

/-- What serves a class in two registries: instances that hold the same for a name, or nothing for
one and the same reason. -/
def ServedAlike (name : Value) (one two : Except Error Rule) : Prop :=
  (∃ e, one = .error e ∧ two = .error e) ∨
    ∃ rule other, one = .ok rule ∧ two = .ok other ∧ rule.LikeFor name other

theorem ServedAlike.refl (name : Value) (served : Except Error Rule) :
    ServedAlike name served served := by
  cases served with
  | error e => exact Or.inl ⟨e, rfl, rfl⟩
  | ok rule => exact Or.inr ⟨rule, rule, rfl, rfl, .refl rule⟩

/-- Two registries serve a class alike for a name. -/
structure LikeAt (host : Host) (name : Value) (cls : RuleClass) (r s : Registry) : Prop where
  left : r.Keyed
  right : s.Keyed
  served : ServedAlike name (r.shared host cls) (s.shared host cls)

section
variable (host)

theorem shared_passes (hr : r.Keyed) (hs : r.shared host cls = .ok rule) (name value format : Value) :
    (outcome (passes host cls name value format) r).2.shared host cls =
      .ok (rule.validate host name value format).2 := by
  have hi := outcome_classInstance host cls r
  unfold passes
  rcases ho : outcome (classInstance host cls) r with ⟨answer, t⟩
  rw [ho] at hi
  obtain rfl : answer = .ok rule := hi.trans hs
  rw [outcome_bind_of_ok ho, bind_pure_comp, outcome_map, outcome_ask, shared_put,
    Rule.cls_validate, cls_of_shared hr hs, if_pos rfl]

theorem shared_passes_of_error {e : Error} (hr : r.Keyed) (hs : r.shared host cls = .error e)
    (name value format : Value) :
    (outcome (passes host cls name value format) r).2.shared host cls = .error e := by
  have hi := outcome_classInstance host cls r
  have ha := moves_classInstance (K := fun _ => True) host cls r hr
  unfold passes
  rcases ho : outcome (classInstance host cls) r with ⟨answer, t⟩
  rw [ho] at hi ha
  obtain rfl : answer = .error e := hi.trans hs
  rw [outcome_bind_of_error ho, ha.shared cls trivial, hs]

theorem respects_passes_at (name value format : Value) :
    Respects (LikeAt host name cls) (passes host cls name value format) := by
  intro r s h
  have hr := (moves_passes host cls name value format r h.left).keyed
  have hs := (moves_passes host cls name value format s h.right).keyed
  rw [outcome_passes, outcome_passes]
  rcases h.served with ⟨e, hone, htwo⟩ | ⟨rule, other, hone, htwo, hlike⟩
  · rw [hone, htwo]
    refine ⟨rfl, hr, hs, Or.inl ⟨e, ?_, ?_⟩⟩
    · exact shared_passes_of_error host h.left hone name value format
    · exact shared_passes_of_error host h.right htwo name value format
  · obtain ⟨hanswer, hnext⟩ := hlike.validate host value format
    rw [hone, htwo]
    refine ⟨?_, hr, hs, Or.inr ⟨_, _, ?_, ?_, hnext⟩⟩
    · change other.accepts host name format value = rule.accepts host name format value
      rw [Rule.accepts, Rule.accepts, hanswer]
    · exact shared_passes host h.left hone name value format
    · exact shared_passes host h.right htwo name value format

theorem respects_count_at (name format : Value) (values : List Value) :
    Respects (LikeAt host name cls) (count host cls name format values) := by
  induction values with
  | nil => exact respects_pure 0
  | cons value rest ih =>
    refine respects_bind (respects_passes_at host name value format) fun first => ?_
    exact respects_bind ih fun others => respects_pure _

end

theorem ruleOf_alike (hc : s.classOf? host name = r.classOf? host name)
    (h : ∀ cls, r.classOf? host name = some (.ok cls) →
      ServedAlike name (r.shared host cls) (s.shared host cls)) :
    ServedAlike name (r.ruleOf host name) (s.ruleOf host name) := by
  unfold ruleOf
  rw [hc]
  cases name.needKey with
  | error e => exact Or.inl ⟨e, rfl, rfl⟩
  | ok u =>
    rcases hfound : r.classOf? host name with _ | e | cls
    · exact Or.inl ⟨.worded (.unknownRule name), rfl, rfl⟩
    · exact Or.inl ⟨e, rfl, rfl⟩
    · exact h cls hfound

/-- Two registries that have the same class for a name and serve it alike give the same verdicts
under the name. -/
theorem verdict_of_alike (hr : r.Keyed) (hs : s.Keyed)
    (hc : s.classOf? host name = r.classOf? host name)
    (h : ∀ cls, r.classOf? host name = some (.ok cls) →
      ServedAlike name (r.shared host cls) (s.shared host cls))
    (value format : Value) (whole : Bool) :
    (outcome (validate host name value format whole) s).1 =
      (outcome (validate host name value format whole) r).1 := by
  have hmr := moves_getRule (K := fun _ => True) host name r hr
  have hms := moves_getRule (K := fun _ => True) host name s hs
  rw [validate, fst_outcome_bind, fst_outcome_bind, outcome_getRule, outcome_getRule]
  rcases ruleOf_alike hc h with ⟨e, hone, htwo⟩ | ⟨rule, other, hone, htwo, hlike⟩
  · rw [hone, htwo]
    rfl
  · obtain ⟨_, cls, hcls, hshared⟩ := ruleOf_eq_ok.mp hone
    obtain rfl := cls_of_shared hr hshared
    -- looking the name up leaves both registries as much alike as they were
    have hat : LikeAt host name rule.cls (outcome (getRule host name) r).2
        (outcome (getRule host name) s).2 := by
      refine ⟨hmr.keyed, hms.keyed, ?_⟩
      rw [hmr.shared _ trivial, hms.shared _ trivial]
      exact h rule.cls hcls
    rw [hone, htwo]
    change (outcome _ _).1 = (outcome _ _).1
    rw [hlike.cls_eq]
    cases if whole then none else collected? value with
    | none =>
      exact (respects_bind (respects_passes_at host name value format)
        (fun _ => respects_pure _) _ _ hat).1
    | some items =>
      exact (respects_bind (respects_count_at host name format items)
        (fun _ => respects_pure _) _ _ hat).1

end Registry

end FormGuard
