import FormGuard.Proofs.Registry.Lookup

/-! Verdicts: what asking a rule answers, whatever was looked up or asked before. -/
namespace FormGuard.Registry
variable {K : RuleClass → Prop} {r s : Registry} {cls : RuleClass} {rule : Rule}
  {name value format : Value}

section
variable (host : Host)

theorem outcome_ask (rule : Rule) (name value format : Value) (r : Registry) :
    outcome (ask host rule name value format) r =
      ((rule.validate host name value format).1,
        r.put (rule.validate host name value format).2) := by
  unfold ask
  rcases rule.validate host name value format with ⟨answer, after⟩
  cases answer <;> rfl

theorem outcome_passes (cls : RuleClass) (name value format : Value) (r : Registry) :
    (outcome (passes host cls name value format) r).1 =
      r.shared host cls >>= fun rule => rule.accepts host name format value := by
  rw [passes, fst_outcome_bind, outcome_classInstance]
  congr 1
  funext rule
  rw [bind_pure_comp, outcome_map, outcome_ask]
  rfl

/-- Asking moves only instances of classes that keep something between two questions. -/
theorem moves_passes (cls : RuleClass) (name value format : Value) :
    Moves (Looks host (Rule.KeepsState host)) (passes host cls name value format) := by
  intro r hr
  have ha := moves_classInstance (K := Rule.KeepsState host) host cls r hr
  unfold passes
  rcases h : outcome (classInstance host cls) r with ⟨e | rule, t⟩
  · rw [outcome_bind_of_error h]
    rwa [h] at ha
  · have hs := shared_of_classInstance host hr h
    rw [h] at ha
    rw [outcome_bind_of_ok h, bind_pure_comp, outcome_map, outcome_ask]
    have hc := Rule.cls_validate host rule name value format
    refine IsTrans.trans (r := Looks host _) r t _ (fun _ => ha) (looks_put ?_) hr
    rintro ht hk
    rw [hc] at hk
    rw [hc, hk rule rfl name value format, cls_of_shared ht hs, hs]

section
variable {R : Registry → Registry → Prop} [Std.Refl R] [IsTrans Registry R]

theorem moves_count_of (hp : ∀ cls name value format, Moves R (passes host cls name value format))
    (cls : RuleClass) (name format : Value) (values : List Value) :
    Moves R (count host cls name format values) := by
  induction values with
  | nil => exact moves_pure 0
  | cons value rest ih =>
    refine moves_bind (hp cls name value format) fun _ => ?_
    exact moves_bind ih fun _ => moves_pure _

/-- Validating looks the name up and asks its rule, for one value or for several. -/
theorem moves_validate_of (hg : ∀ name, Moves R (getRule host name))
    (hp : ∀ cls name value format, Moves R (passes host cls name value format))
    (name value format : Value) (whole : Bool) :
    Moves R (validate host name value format whole) := by
  refine moves_bind (hg name) fun rule => ?_
  cases if whole then none else collected? value with
  | none => exact moves_bind (hp rule.cls name value format) fun _ => moves_pure _
  | some items =>
    exact moves_bind (moves_count_of host hp rule.cls name format items) fun _ => moves_pure _

theorem moves_block_of (hg : ∀ name, Moves R (getRule host name)) (source : Script.Source)
    (name : Value) (a : Application) : Moves R (block host source name a) :=
  moves_bind (moves_bind (hg a.type) fun _ => moves_lift _) fun _ => moves_lift _

end

theorem moves_validate (name value format : Value) (whole : Bool) :
    Moves (Looks host (Rule.KeepsState host)) (validate host name value format whole) :=
  moves_validate_of host (moves_getRule host) (moves_passes host) name value format whole

theorem moves_block (source : Script.Source) (name : Value) (a : Application) :
    Moves (Looks host K) (block host source name a) :=
  moves_block_of host (moves_getRule host) source name a

end

/-- Counting asks one rule for each value, as long as asking does not change it. -/
theorem outcome_count {host : Host} (hk : Rule.KeepsState host cls) (hr : r.Keyed)
    (hs : r.shared host cls = .ok rule) (name format : Value) (values : List Value) :
    (outcome (count host cls name format values) r).1 =
      rule.countAccepted host name format values := by
  induction values generalizing r with
  | nil => rfl
  | cons value rest ih =>
    have ha := moves_passes host cls name value format r hr
    have ht := ih ha.keyed ((ha.shared cls hk).trans hs)
    rw [count, fst_outcome_bind, outcome_passes, hs]
    simp only [bind_pure_comp, outcome_map, ht]
    rfl

/-- Validating answers the verdict of the rule that serves the name; only several values asked one
by one need a rule that asking does not change. -/
theorem outcome_validate {host : Host} (hr : r.Keyed) {whole : Bool}
    (hk : ∀ items, (if whole then none else collected? value) = some items →
      ∀ cls, r.classOf? host name = some (.ok cls) → Rule.KeepsState host cls) :
    (outcome (validate host name value format whole) r).1 =
      r.verdictOf host name value format whole := by
  have ha := moves_getRule (K := fun _ => True) host name r hr
  rw [validate, fst_outcome_bind, outcome_getRule, verdictOf]
  cases hrule : r.ruleOf host name with
  | error e => rfl
  | ok rule =>
    obtain ⟨_, cls, hc, hs⟩ := ruleOf_eq_ok.mp hrule
    obtain rfl := cls_of_shared hr hs
    have ht := (ha.shared rule.cls trivial).trans hs
    cases hi : if whole then none else collected? value with
    | none =>
      change (outcome (_ >>= _) _).1 = _
      rw [bind_pure_comp, outcome_map, outcome_passes, ht]
      rfl
    | some items =>
      change (outcome (_ >>= _) _).1 = _
      rw [bind_pure_comp, outcome_map, outcome_count (hk items hi rule.cls hc) ha.keyed ht]
      rfl

theorem outcome_check (host : Host) (name format : Value) (r : Registry) :
    (outcome (check host name format) r).1 =
      r.ruleOf host name >>= fun rule => rule.check host name format := by
  rw [check, fst_outcome_bind, outcome_getRule]
  congr 1
  funext rule
  rw [outcome_lift]

theorem verdictOf_congr {host : Host} (h : Agree host K r s)
    (hk : ∀ cls, r.classOf? host name = some (.ok cls) → K cls) (value format : Value)
    (whole : Bool) :
    s.verdictOf host name value format whole = r.verdictOf host name value format whole := by
  rw [verdictOf, verdictOf, ruleOf_congr h hk]

end FormGuard.Registry
