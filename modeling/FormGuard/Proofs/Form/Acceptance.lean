import FormGuard.Main
import FormGuard.Proofs.Form.Run

/-! Accepted submissions: validating reports nothing exactly when every application that is looked at
passes and no form rule objects. -/
namespace FormGuard.Form
variable {host : Host} {form : Form} {submitted : Value}

/-- Validating a submission answers that there is nothing to report. -/
def Accepts (host : Host) (form : Form) (submitted : Value) : Prop :=
  (outcome (validate host submitted) form).1 = .ok Table.empty

/-- Every form rule answers true or with no message. -/
def FormRulesPass (host : Host) (form : Form) (submitted : Value) : Prop :=
  ∀ rule ∈ form.formRules, host.apply rule [submitted] = .ok (.bool true) ∨
    host.apply rule [submitted] = .ok (.map [])

/-- An early end of the pass, at a reported target or group or at an unneeded value, never hides an
application that fails. -/
theorem accepts_iff_clear (h : form.Sound) : Accepts host form submitted ↔
    Clear host form submitted form.stored form.registry ∧ FormRulesPass host form submitted := by
  have hpass := fun report t => @checkTargets_eq_empty host form submitted report form.registry t
    form.rules.entries h.applied h.groups
  unfold Accepts validate
  rw [outcome_bind_of_ok (outcome_get form), outcome_onRegistry]
  constructor
  · intro ha
    obtain ⟨found, t, hf, ha⟩ := outcome_bind_eq_ok.mp (Prod.ext ha rfl)
    obtain ⟨report, u, hr, ha⟩ := outcome_bind_eq_ok.mp ha
    obtain ⟨_, _, _, ha⟩ := outcome_bind_eq_ok.mp ha
    obtain rfl : report = Table.empty := by
      cases ha
      rfl
    rw [Registry.outcome_lift] at hr
    obtain ⟨rfl, hrules⟩ := checkFormRules_eq_empty.mp (congrArg Prod.fst hr)
    exact ⟨((hpass _ t).mp hf).2.1, hrules⟩
  · rintro ⟨hc, hr⟩
    have ht := (hpass Table.empty _).mpr ⟨rfl, hc, rfl⟩
    have hf := checkFormRules_eq_empty.mpr ⟨rfl, hr⟩
    rw [outcome_bind_of_ok ht, outcome_bind_of_ok (by rw [Registry.outcome_lift, hf])]
    rfl

/-- What an application is asked does not depend on what was asked before it, as long as its rule
keeps nothing. -/
theorem satisfied_afterAll {target : Value} {a : Application} (h : form.Sound)
    (hs : Steady host form.registry a.type) (before : List (Value × Application)) :
    Satisfied host form submitted target a (afterAll host form submitted before form.registry) ↔
      Satisfied host form submitted target a form.registry := by
  have ha := looks_afterAll host form submitted before form.registry h.keyed
  simp only [Satisfied, passes_congr hs h.keyed ha]

theorem clear_iff_satisfied (h : form.Sound)
    (hs : ∀ target a, (target, a) ∈ form.stored → Steady host form.registry a.type) :
    Clear host form submitted form.stored form.registry ↔
      ∀ target a, (target, a) ∈ form.stored →
        Satisfied host form submitted target a form.registry := by
  rw [clear_iff]
  constructor
  · intro hc target a hm
    obtain ⟨before, rest, he⟩ := List.append_of_mem hm
    exact (satisfied_afterAll h (hs target a hm) before).mp (hc before target a rest he)
  · intro hall before target a rest he
    have hm : (target, a) ∈ form.stored := by simp [he]
    exact (satisfied_afterAll h (hs target a hm) before).mpr (hall target a hm)

/-- A submission is accepted exactly when every application whose target is mandatory or has a value
passes, each on the registry that those before it left, and no form rule objects. Where classes of
the using program keep nothing between two questions, the order does not matter. -/
theorem accepts_iff_satisfied (h : form.Reachable host) (submitted : Value) :
    (Accepts host form submitted ↔
      (∀ before target a rest, form.stored = before ++ (target, a) :: rest →
        Satisfied host form submitted target a
          (afterAll host form submitted before form.registry)) ∧
      FormRulesPass host form submitted) ∧
    (host.Stateless → (Accepts host form submitted ↔
      (∀ target a, (target, a) ∈ form.stored →
        Satisfied host form submitted target a form.registry) ∧
      FormRulesPass host form submitted)) := by
  constructor
  · rw [accepts_iff_clear h.sound, clear_iff]
  · intro hs
    rw [accepts_iff_clear h.sound,
      clear_iff_satisfied h.sound fun _ a _ => steady_of_stateless hs form.registry a.type]

/-- A registry of rules that need no data. -/
def plainRegistry : Registry :=
  Registry.run Host.bare
    [.register (.text "required") (.kind .ofClass) (.ruleClass .required) .null,
      .register (.text "maxlength") (.kind .ofClass) (.ruleClass .range) .null,
      .register (.text "compare") (.kind .ofClass) (.ruleClass .compare) .null] Registry.empty

def textField (name : String) : Descriptor :=
  ⟨.text name, .field, .bool false, [], [], .bool false⟩

def phoneGroup : Descriptor :=
  ⟨.text "phone", .group, .bool false, [textField "area", textField "number"],
    [.text "phone[area]", .text "phone[number]"], .bool false⟩

/-- A form with a mandatory element, two that have to agree, and a group of which one value has to be
short. -/
def contactForm : Form :=
  run Host.bare
    [.elementRule (.text "name") (.text "Needed") (.text "required") .null .null .null,
      .elementRule (.list [.text "name", .text "again"]) (.text "Differ") (.text "compare") .null
        .null .null,
      .groupRule (.text "phone") (.text "Long") (.text "maxlength") (.int 3) (.int 1) .null .null]
    ⟨plainRegistry, Table.ofList ([textField "name", textField "again", phoneGroup].map fun d =>
      (d.name, d)), Table.empty, [], []⟩

def contact : Value :=
  .map [(.text "name", .text "Ann"), (.text "again", .text "Ann"),
    (.text "phone", .map [(.text "area", .text "020"), (.text "number", .text "5550")])]

theorem bare_stateless : Host.bare.Stateless := fun _ _ _ _ _ => rfl

theorem accepts_iff_satisfied_contact :
    contactForm.Reachable Host.bare ∧ Host.bare.Stateless ∧ contactForm.stored.length = 3 ∧
    Accepts Host.bare contactForm contact ∧
    ∀ target a, (target, a) ∈ contactForm.stored →
      Satisfied Host.bare contactForm contact target a contactForm.registry := by
  have hr : contactForm.Reachable Host.bare :=
    ⟨plainRegistry, [textField "name", textField "again", phoneGroup], _, _, ⟨_, rfl⟩, rfl, rfl⟩
  have ha : Accepts Host.bare contactForm contact := by
    unfold Accepts
    rfl
  have hall := ((accepts_iff_satisfied hr contact).2 bare_stateless).mp ha
  exact ⟨hr, bare_stateless, rfl, ha, hall.1⟩

end FormGuard.Form
