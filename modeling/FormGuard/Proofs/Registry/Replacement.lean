import FormGuard.Proofs.Registry.Likeness
import FormGuard.Proofs.Registry.Binding
import FormGuard.Proofs.Registry.Offer

/-! Replacement: an instance that is registered takes the place of the one of its class, for every
name of the class, and no other name notices. -/
namespace FormGuard

theorem Rule.countAccepted_congr {host : Host} {rule other : Rule} {name format : Value}
    (h : ∀ value, other.accepts host name format value = rule.accepts host name format value)
    (values : List Value) :
    other.countAccepted host name format values = rule.countAccepted host name format values := by
  induction values with
  | nil => rfl
  | cons value rest ih => rw [countAccepted, countAccepted, h value, ih]

namespace Registry
variable {host : Host} {r s : Registry} {name other kind owner : Value} {cls : RuleClass}
  {rule old : Rule}

/-- An instance stands for itself. -/
theorem eq_of_object? (h : object? rule.object = some old) : old = rule := by
  obtain ⟨_, _, hvalue, _, rfl⟩ := object?_eq_some.mp h
  cases hvalue
  exact rule.ofHeld_held

/-- What an accepted registration of an instance leaves: the class has that instance, and only the
name is bound. -/
theorem replaced_of_accepted (hr : r.Keyed)
    (hi : (Operation.register name kind rule.object owner).bringsInstance)
    (h : (outcome (register host name kind rule.object owner) r).1 = .ok ()) :
    Taken host name (.object rule) r (outcome (register host name kind rule.object owner) r).2 := by
  obtain ⟨o, ho, ht⟩ := taken_of_accepted hr h
  have hk : dataKind? kind = none := hi
  rcases offer?_cases ho with ⟨hd, _⟩ | ⟨_, _, hd, _⟩ | ⟨_, _, t, hnone, _⟩ | ⟨_, _, _, found, hf, rfl⟩
  · cases hk.symm.trans hd
  · cases hk.symm.trans hd
  · cases hnone
  · obtain rfl := eq_of_object? hf
    exact ht

theorem Taken.classOf?_of_other {o : Offer} (h : Taken host name o r s)
    (hne : name.same other = false) : s.classOf? host other = r.classOf? host other := by
  simp [classOf?, h.targets, Table.find?_insert, hne]

theorem verdictOf_of_ruleOf (h : r.ruleOf host other = .ok rule) (value format : Value)
    (whole : Bool) : r.verdictOf host other value format whole = (do
      match if whole then none else collected? value with
      | some items => return .several (← rule.countAccepted host other format items)
      | none => return .single (← rule.accepts host other format value)) := by
  rw [verdictOf, h]
  rfl

theorem single_injective {x y : Except Error Bool}
    (h : (x >>= fun b => pure (Verdict.single b)) = (y >>= fun b => pure (Verdict.single b))) :
    x = y := by
  cases x <;> cases y <;> cases h <;> rfl

/-- Two registries that serve a name by instances of one class give it the same verdicts exactly if
these instances accept the same under it. -/
theorem same_verdicts_iff (hr : r.Keyed) (hs : s.Keyed) (hk : Rule.KeepsState host cls)
    (hcr : r.classOf? host other = some (.ok cls)) (hcs : s.classOf? host other = some (.ok cls))
    (hrule : s.ruleOf host other = .ok rule) :
    (∀ value format whole, (outcome (validate host other value format whole) s).1 =
        (outcome (validate host other value format whole) r).1) ↔
      ∃ old, r.ruleOf host other = .ok old ∧ ∀ value format,
        rule.accepts host other format value = old.accepts host other format value := by
  have keeps : ∀ {t : Registry}, t.classOf? host other = some (.ok cls) →
      ∀ c, t.classOf? host other = some (.ok c) → Rule.KeepsState host c := by
    intro t ht c hc
    obtain rfl : cls = c := by simpa [ht] using hc
    exact hk
  have hvr : ∀ value format whole, (outcome (validate host other value format whole) r).1 =
      r.verdictOf host other value format whole :=
    fun _ _ _ => outcome_validate hr fun _ _ => keeps hcr
  have hvs : ∀ value format whole, (outcome (validate host other value format whole) s).1 =
      s.verdictOf host other value format whole :=
    fun _ _ _ => outcome_validate hs fun _ _ => keeps hcs
  constructor
  · intro h
    cases hold : r.ruleOf host other with
    | error e =>
      -- nothing at all passes where there is a rule, and without one there is no answer
      have hempty := h (.list []) .null false
      rw [hvr, hvs, verdictOf_of_ruleOf hrule, verdictOf, hold] at hempty
      cases hempty
    | ok old =>
      refine ⟨old, rfl, fun value format => single_injective ?_⟩
      have hone := h value format true
      rwa [hvr, hvs, verdictOf_of_ruleOf hrule, verdictOf_of_ruleOf hold] at hone
  · rintro ⟨old, hold, haccepts⟩ value format whole
    rw [hvr, hvs, verdictOf_of_ruleOf hrule, verdictOf_of_ruleOf hold]
    cases if whole then none else collected? value with
    | none => simp only [haccepts]
    | some items => simp only [Rule.countAccepted_congr fun value => haccepts value format]

/-- An accepted registration of an instance, whatever it holds, changes no verdict of another name that
is for another class. A name for its class is served by the instance from then on, so that its verdicts
are the same exactly if the instance accepts under it what the one before accepted. -/
theorem verdicts_kept_iff (h : r.Reachable host) {rule : Rule}
    (hi : (Operation.register name kind rule.object owner).bringsInstance)
    (ha : (outcome (register host name kind rule.object owner) r).1 = .ok ())
    (ho : (outcome (isRegistered other) r).1 = .ok true) (hne : name.same other = false) :
    let s := (outcome (register host name kind rule.object owner) r).2
    (r.classOf? host other ≠ some (.ok rule.cls) → ∀ value format whole,
      (outcome (validate host other value format whole) s).1 =
        (outcome (validate host other value format whole) r).1) ∧
    (r.classOf? host other = some (.ok rule.cls) →
      (outcome (getRule host other) s).1 = .ok rule ∧
      (Rule.KeepsState host rule.cls →
        ((∀ value format whole, (outcome (validate host other value format whole) s).1 =
            (outcome (validate host other value format whole) r).1) ↔
          ∃ old, (outcome (getRule host other) r).1 = .ok old ∧ ∀ value format,
            rule.accepts host other format value = old.accepts host other format value))) := by
  intro s
  have hr := keyed_of_reachable h
  obtain ⟨hkey, _⟩ := isRegistered_eq_true.mp ho
  have ht : Taken host name (.object rule) r s := replaced_of_accepted hr hi ha
  have hc : s.classOf? host other = r.classOf? host other := ht.classOf?_of_other hne
  constructor
  · intro hother
    refine verdict_of_alike hr ht.keyed hc fun c hcls => ?_
    have hcne : c ≠ rule.cls := by
      rintro rfl
      exact hother hcls
    have hsame : s.shared host c = r.shared host c := (ht.shared c).trans (if_neg hcne)
    rw [hsame]
    exact ServedAlike.refl other _
  · intro hclass
    have hrule : s.ruleOf host other = .ok rule :=
      ruleOf_eq_ok.mpr ⟨hkey, rule.cls, hc.trans hclass, (ht.shared rule.cls).trans (if_pos rfl)⟩
    refine ⟨by rw [outcome_getRule, hrule], fun hk => ?_⟩
    rw [outcome_getRule]
    exact same_verdicts_iff hr ht.keyed hk hclass (hc.trans hclass) hrule

/-- A registry with a name for a pattern and one for the class of e-mail addresses. -/
def addressRegistry : Registry :=
  run Host.bare [.register (.text "zip") (.kind .regex) (.text "^[0-9]+$") .null,
    .register (.text "mail") .null (.ruleClass .email) .null] empty

/-- An instance for patterns that has been given two of them. -/
def filledRule : Rule :=
  .regex (Table.ofList [(.text "zip", .parse "^[0-9]+$"), (.text "odd", .parse "[13579]$")])

/-- An instance for patterns under a third name leaves both names their verdicts: the one is for
another class, and for the other one the instance has the pattern that is searched already. -/
theorem verdicts_kept_iff_filled :
    let bring := register Host.bare (.text "odd") .null filledRule.object .null
    let s := (outcome bring addressRegistry).2
    (outcome bring addressRegistry).1 = .ok () ∧
    (∀ value format whole,
      (outcome (validate Host.bare (.text "mail") value format whole) s).1 =
        (outcome (validate Host.bare (.text "mail") value format whole) addressRegistry).1) ∧
    (outcome (getRule Host.bare (.text "zip")) s).1 = .ok filledRule ∧
    ∀ value format whole,
      (outcome (validate Host.bare (.text "zip") value format whole) s).1 =
        (outcome (validate Host.bare (.text "zip") value format whole) addressRegistry).1 := by
  intro bring s
  have hr : addressRegistry.Reachable Host.bare := ⟨_, rfl⟩
  have hi : (Operation.register (.text "odd") .null filledRule.object .null).bringsInstance := by
    change dataKind? .null = none
    decide +kernel
  have ha : (outcome bring addressRegistry).1 = .ok () := by decide +kernel
  have hk : Rule.KeepsState Host.bare .regex := Rule.keepsState_of_ne_external (by simp)
  have hone : (outcome (isRegistered (.text "mail")) addressRegistry).1 = .ok true := by
    decide +kernel
  have htwo : (outcome (isRegistered (.text "zip")) addressRegistry).1 = .ok true := by
    decide +kernel
  have hmail := (verdicts_kept_iff hr hi ha hone (by decide +kernel)).1 (by decide +kernel)
  obtain ⟨hzip, hsame⟩ :=
    (verdicts_kept_iff hr hi ha htwo (by decide +kernel)).2 (by decide +kernel)
  refine ⟨ha, hmail, hzip, (hsame hk).mpr ⟨.regex (Patterns.initial.insert (.text "zip")
    (.parse "^[0-9]+$")), by decide +kernel, fun value format => ?_⟩⟩
  have hkey := Value.isKey_text "zip"
  have hfilled : (Table.ofList [(Value.text "zip", Pattern.parse "^[0-9]+$"),
      (.text "odd", .parse "[13579]$")]).find? (.text "zip") = some (.parse "^[0-9]+$") := by
    decide +kernel
  have hstored : (Patterns.initial.insert (.text "zip") (.parse "^[0-9]+$")).find? (.text "zip") =
      some (.parse "^[0-9]+$") := by
    decide +kernel
  rw [filledRule, Rule.accepts_of_pattern Host.bare hkey hfilled,
    Rule.accepts_of_pattern Host.bare hkey hstored]

/-- A new instance for patterns, registered under a name of its own, has no pattern for the others. -/
theorem pattern_lost_to_instance :
    let bring := register Host.bare (.text "odd") .null (Rule.regex Patterns.initial).object .null
    let s := (outcome bring addressRegistry).2
    addressRegistry.Reachable Host.bare ∧ Host.bare.Stateless ∧
    (outcome bring addressRegistry).1 = .ok () ∧
    (outcome (isRegistered (.text "zip")) addressRegistry).1 = .ok true ∧
    (outcome (validate Host.bare (.text "zip") (.text "12") .null false) addressRegistry).1 =
      .ok (.single true) ∧
    (outcome (validate Host.bare (.text "zip") (.text "12") .null false) s).1 =
      .error (.data (.noPattern (.text "zip"))) := by
  refine ⟨⟨_, rfl⟩, fun _ _ _ _ _ => rfl, ?_, ?_, ?_, ?_⟩
  all_goals decide +kernel

end Registry

end FormGuard
