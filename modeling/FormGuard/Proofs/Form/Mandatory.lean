import FormGuard.Proofs.Form.Acceptance

/-! Mandatory elements: which applications of the required rule refuse a blank value. -/
namespace FormGuard

namespace Registry
variable {host : Host} {r : Registry} {name value : Value}

theorem shared_required (hr : r.Keyed) : r.shared host .required = .ok .required := by
  cases hi : r.instance? .required with
  | none => simp [shared, hi, Rule.make]
  | some rule =>
    have hc := hr _ _ hi
    cases rule with
    | required => simp [shared, hi]
    | _ => cases hc

/-- The required rule asks whether a value is there. -/
theorem outcome_validate_required (hr : r.Keyed) (hk : name.isKey = true)
    (hc : r.classOf? host name = some (.ok .required)) (format : Value) {whole : Bool}
    (hv : (if whole then none else collected? value) = none) :
    (outcome (validate host name value format whole) r).1 =
      (Rule.isPresent value).map .single := by
  have hrule : r.ruleOf host name = .ok .required :=
    ruleOf_eq_ok.mpr ⟨hk, .required, hc, shared_required hr⟩
  rw [outcome_validate hr (by simp [hv]), verdictOf, hrule, hv]
  change (((.bool <$> Rule.isPresent value).map Value.truthy) >>=
    fun b => pure (Verdict.single b)) = _
  cases Rule.isPresent value <;> rfl

end Registry

namespace Form
variable {host : Host} {form : Form} {submitted value target : Value} {a : Application}
  {r : Registry}

/-- On a blank value the required rule passes exactly where it reads other elements as well: the
value is then one of several, and several are never nothing. -/
theorem passes_required_iff (submitted : Value) (hr : r.Keyed)
    (hc : r.classOf? host a.type = some (.ok .required)) (hk : a.type.isKey = true)
    (ht : a.dependents ≠ [] → a.howmany = .null) (hb : value = .null ∨ value = .text "") :
    Passes host submitted value a r ↔ a.dependents ≠ [] ∧
      ∃ others, a.dependents.mapM (Submission.value submitted) = .ok others := by
  have hanswer := fun value whole => @Registry.outcome_validate_required host r a.type value hr hk
    hc a.format whole
  constructor
  · rintro ⟨asked, whole, verdict, ha, hv, hm⟩
    cases ha with
    | together hd ho => exact ⟨hd, _, ho⟩
    | list _ hl _ => rcases hb with rfl | rfl <;> cases hl
    | plain _ _ =>
      exfalso
      have hblank : Registry.collected? value = none ∧ Rule.isPresent value = .ok false := by
        rcases hb with rfl | rfl <;> exact ⟨rfl, rfl⟩
      rw [hanswer value false hblank.1, hblank.2] at hv
      cases hv
      exact absurd hm.holds (by decide)
  · rintro ⟨hd, others, ho⟩
    refine ⟨_, true, .single true, .together hd ho, hanswer _ true rfl, rfl, ?_⟩
    intro hm
    rw [ht hd] at hm
    cases hm

/-- A form is accepted with a blank mandatory element exactly when its required rule reads other
elements as well, and all else is satisfied. -/
theorem accepts_iff_of_blank (h : form.Reachable host)
    (hc : form.registry.classOf? host requiredRule = some (.ok .required))
    {before rest : List (Value × Application)} (hs : form.stored = before ++ (target, a) :: rest)
    (hq : a.type.same requiredRule = true) (hv : Submission.value submitted target = .ok value)
    (hb : value = .null ∨ value = .text "") :
    Accepts host form submitted ↔
      (a.dependents ≠ [] ∧ ∃ others, a.dependents.mapM (Submission.value submitted) = .ok others) ∧
      Clear host form submitted before form.registry ∧
      Clear host form submitted rest
        (afterAll host form submitted (before ++ [(target, a)]) form.registry) ∧
      FormRulesPass host form submitted := by
  have hsound := h.sound
  obtain ⟨applications, hentry, ha⟩ := mem_stored.mp (show (target, a) ∈ form.stored by simp [hs])
  have hneeded : Needed form target value := Or.inl (hsound.mandatory _ hentry a ha hq)
  have hagree := looks_afterAll host form submitted before form.registry hsound.keyed
  have hclass : (afterAll host form submitted before form.registry).classOf? host a.type =
      some (.ok .required) := by
    rw [hagree.classOf, ← hc, Registry.classOf?, Registry.classOf?, Table.find?_congr _ hq]
  have hkey : a.type.isKey = true := by
    rw [Value.isKey_congr hq]
    rfl
  have hpasses := passes_required_iff submitted hagree.keyed hclass hkey
    (hsound.together _ hentry a ha) hb
  rw [accepts_iff_clear hsound, hs, clear_append, Clear, satisfied_iff hv hneeded, hpasses,
    afterAll_append]
  constructor
  · rintro ⟨⟨hbefore, hself, hrest⟩, hrules⟩
    exact ⟨hself, hbefore, hrest, hrules⟩
  · rintro ⟨hself, hbefore, hrest, hrules⟩
    exact ⟨⟨hbefore, hself, hrest⟩, hrules⟩

/-- A form with one mandatory element, read alone or with others. -/
def mandatoryForm (element : Value) : Form :=
  run Host.bare [.elementRule element (.text "Needed") (.text "required") .null .null .null]
    ⟨plainRegistry, Table.ofList ([textField "name", textField "again"].map fun d => (d.name, d)),
      Table.empty, [], []⟩

theorem mandatoryForm_reachable (element : Value) :
    (mandatoryForm element).Reachable Host.bare :=
  ⟨plainRegistry, [textField "name", textField "again"], _, _, ⟨_, rfl⟩, rfl, rfl⟩

theorem accepts_iff_of_blank_name :
    ¬ Accepts Host.bare (mandatoryForm (.text "name")) (.map []) ∧
    Accepts Host.bare (mandatoryForm (.list [.text "name", .text "again"])) (.map []) := by
  have hv : Submission.value (.map []) (.text "name") = .ok .null := rfl
  constructor
  · intro ha
    have hs : (mandatoryForm (.text "name")).stored = [] ++ (.text "name", ⟨requiredRule,
      .text "Needed", .null, .null, .null, .null, .server, []⟩) :: [] := rfl
    have h := (accepts_iff_of_blank (mandatoryForm_reachable _) rfl hs rfl hv (Or.inl rfl)).mp ha
    exact h.1.1 rfl
  · have hs : (mandatoryForm (.list [.text "name", .text "again"])).stored =
      [] ++ (.text "name", ⟨requiredRule, .text "Needed", .null, .null, .null, .null, .server,
        [.text "again"]⟩) :: [] := rfl
    refine (accepts_iff_of_blank (mandatoryForm_reachable _) rfl hs rfl hv (Or.inl rfl)).mpr
      ⟨⟨by decide, [.null], rfl⟩, trivial, trivial, ?_⟩
    intro rule hm
    cases hm

/-- Two elements, both mandatory by one rule, and nothing submitted for either: nothing is
reported. -/
theorem blank_pair_accepted :
    ∃ form a, form.Reachable Host.bare ∧
      form.registry.classOf? Host.bare requiredRule = some (.ok .required) ∧
      (.text "name", a) ∈ form.stored ∧ a.type = requiredRule ∧
      Submission.value (.map []) (.text "name") = .ok .null ∧
      (outcome (validate Host.bare (.map [])) form).1 = .ok Table.empty :=
  ⟨mandatoryForm (.list [.text "name", .text "again"]), _, mandatoryForm_reachable _, rfl,
    List.mem_singleton_self _, rfl, rfl, rfl⟩

end Form

end FormGuard
