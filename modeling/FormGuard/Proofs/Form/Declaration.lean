import FormGuard.Form
import FormGuard.Proofs.Registry.Run
import Mathlib.Logic.Relation

/-! Declarations: what each call may add to a form, also when it fails on the way. -/
namespace FormGuard.Form
variable {form next : Form} {name target type : Value} {a : Application} {d : Descriptor}

/-- Every application with its target, in the order in which they are checked. -/
def stored (form : Form) : List (Value × Application) :=
  form.rules.entries.flatMap fun entry => entry.2.map fun a => (entry.1, a)

/-- The form with one more application; the required rule makes its target mandatory. -/
def declare (target : Value) (a : Application) (form : Form) : Form :=
  { form with
    rules := form.rules.alter target [] (· ++ [a])
    required := if a.type.same requiredRule then form.required ++ [target] else form.required }

/-- What a call may apply: a rule to an element and its dependents, to a group as a whole, or to a
child of a group. -/
inductive Declarable (elements : Table Descriptor) : Value → Application → Prop where
  | element {target : Value} {a : Application}
      (known : ∀ name ∈ target :: a.dependents, name.isKey = true ∧ elements.contains name = true)
      (group : a.group = .null) (howmany : a.howmany = .null) : Declarable elements target a
  | whole {target : Value} {a : Application} {d : Descriptor} (isKey : target.isKey = true)
      (found : elements.find? target = some d) (kind : d.kind = .group) (group : a.group = .null)
      (howmany : a.howmany.truthy = true ∨ a.howmany = .int (defaultCount d a.type))
      (alone : a.dependents = []) : Declarable elements target a
  | child {target : Value} {a : Application} {d child : Descriptor} (isKey : target.isKey = true)
      (groupKey : a.group.isKey = true) (found : elements.find? a.group = some d)
      (kind : d.kind = .group) (member : (target, child) ∈ d.members) (howmany : a.howmany = .null)
      (alone : a.dependents = []) : Declarable elements target a

/-- One change of a form. -/
inductive Change : Form → Form → Prop where
  | registry (form : Form) {r : Registry} (keeps : form.registry.Keeps r) :
      Change form { form with registry := r }
  | declare {form : Form} {target : Value} {a : Application}
      (registered : form.registry.targets.contains a.type = true)
      (declarable : Declarable form.elements target a) : Change form (form.declare target a)
  | require (form : Form) (name : Value) :
      Change form { form with required := form.required ++ [name] }
  | formRule (form : Form) {rule : Value} (callable : rule.isCallable = true) :
      Change form { form with formRules := form.formRules ++ [rule] }

/-- Some changes of a form with these elements, one after the other. -/
def Changes (elements : Table Descriptor) (form next : Form) : Prop :=
  form.elements = elements → next.elements = elements ∧ Relation.ReflTransGen Change form next

variable {elements : Table Descriptor}

instance : Std.Refl (Changes elements) where
  refl _ h := ⟨h, .refl⟩

instance : IsTrans Form (Changes elements) where
  trans _ _ _ hab hbc h := by
    obtain ⟨hb, hsteps⟩ := hab h
    obtain ⟨hc, hmore⟩ := hbc hb
    exact ⟨hc, hsteps.trans hmore⟩

theorem Change.elements_eq (h : Change form next) : next.elements = form.elements := by
  cases h <;> rfl

theorem Change.changes (h : Change form next) : Changes elements form next :=
  fun he => ⟨h.elements_eq.trans he, .single h⟩

@[simp] theorem outcome_lift {α : Type} (result : Except Error α) (form : Form) :
    outcome (Form.lift result) form = (result, form) := by
  cases result <;> rfl

theorem moves_lift {α : Type} {R : Form → Form → Prop} [Std.Refl R] (result : Except Error α) :
    Moves R (Form.lift result) := by
  intro form
  rw [outcome_lift]
  exact refl form

theorem outcome_onRegistry {α : Type} (x : Registry.Action α) (form : Form) :
    outcome (onRegistry x) form =
      ((outcome x form.registry).1, { form with registry := (outcome x form.registry).2 }) := by
  unfold onRegistry
  rw [outcome_bind_of_ok (outcome_get form)]
  change outcome (do
    set { form with registry := (outcome x form.registry).2 }
    Form.lift (outcome x form.registry).1) form = _
  rw [outcome_bind_of_ok (outcome_set _ _), outcome_lift]

theorem moves_onRegistry {α : Type} {x : Registry.Action α}
    (h : Moves Registry.Keeps x) : Moves (Changes elements) (onRegistry x) := by
  intro form
  rw [outcome_onRegistry]
  exact (Change.registry form (h form.registry)).changes

theorem outcome_require (name : Value) (form : Form) :
    outcome (require name) form =
      (.ok (), { form with required := form.required ++ [name] }) := rfl

theorem outcome_apply (target : Value) (a : Application) (form : Form) :
    outcome (apply target a) form =
      match target.needKey with
      | .ok _ => (.ok (), { form with rules := form.rules.alter target [] (· ++ [a]) })
      | .error e => (.error e, form) := by
  unfold apply
  cases target.needKey <;> rfl

/-- Noting that a rule makes its target mandatory and then applying it is one change. -/
theorem outcome_require_apply (hk : target.isKey = true) (a : Application) (form : Form) :
    outcome (do
      if a.type.same requiredRule then require target
      apply target a) form = (.ok (), form.declare target a) := by
  have hn : target.needKey = .ok () := Value.needKey_eq_ok.mpr hk
  by_cases hq : a.type.same requiredRule = true
  · rw [if_pos hq, outcome_bind_of_ok (outcome_require _ _), outcome_apply, hn]
    simp [declare, hq]
  · rw [if_neg hq, outcome_apply, hn]
    simp [declare, hq]

/-- Applying a rule and then noting that it makes its target mandatory is one change. -/
theorem outcome_apply_require {α : Type} (hk : target.isKey = true) (a : Application)
    (rest : Action α) (form : Form) :
    outcome (do
      apply target a
      if a.type.same requiredRule then
        require target
        rest
      else rest) form = outcome rest (form.declare target a) := by
  have hn : target.needKey = .ok () := Value.needKey_eq_ok.mpr hk
  rw [outcome_bind_of_ok (by rw [outcome_apply, hn])]
  by_cases hq : a.type.same requiredRule = true
  · rw [if_pos hq, outcome_bind_of_ok (outcome_require _ _)]
    simp [declare, hq]
  · rw [if_neg hq]
    simp [declare, hq]

theorem group_of_childRule {group rule : Value} (h : childRule group rule = .ok a) :
    a.group = group ∧ a.howmany = .null ∧ a.dependents = [] := by
  obtain ⟨items, _, h⟩ := bind_eq_ok.mp h
  match items, h with
  | _ :: _ :: _, h =>
    cases h
    exact ⟨rfl, rfl, rfl⟩
  | [_], h => cases h
  | [], h => cases h

theorem mem_members_of_child? {address : Value} {found : Value × Descriptor}
    (h : d.child? address = some found) : found ∈ d.members := by
  have hat : ∀ position : Int, d.childAt? position = some found → found ∈ d.members := by
    intro position hf
    unfold Descriptor.childAt? at hf
    split at hf
    · exact List.mem_of_getElem? hf
    · cases hf
  unfold Descriptor.child? at h
  split at h
  · exact hat _ h
  · exact hat _ h
  · exact List.mem_of_find?_eq_some h

/-- A child that is not there is reported as an element that is not, as far as the report can be
written. -/
theorem childName_cases (group : Value) (d : Descriptor) (address : Value) :
    (∃ name child, d.child? address = some (name, child) ∧
      childName group d address = .ok name) ∨
    d.child? address = none ∧ ((∃ name, childName group d address = .error (.unknownElement name)) ∨
      childName group d address = .error (.misuse .value)) := by
  unfold childName Descriptor.child
  cases hf : d.child? address with
  | some found => exact Or.inl ⟨found.1, found.2, rfl, rfl⟩
  | none =>
    refine Or.inr ⟨rfl, ?_⟩
    obtain hw | hw := (Error.noChild d.name address).worded_cases
    · simp only [Error.raise, hw, Value.spelled]
      cases group.isWritable with
      | false => exact Or.inr rfl
      | true =>
        cases address.isWritable with
        | false => exact Or.inr rfl
        | true => exact Or.inl ⟨_, rfl⟩
    · simp only [Error.raise, hw, or_true]

theorem childName_eq_ok {group address : Value} : childName group d address = .ok name ↔
    ∃ child, d.child? address = some (name, child) := by
  rcases childName_cases group d address with ⟨found, child, hf, hn⟩ | ⟨hf, ⟨_, hn⟩ | hn⟩
  · simp [hf, hn]
  all_goals simp [hf, hn]

theorem mem_members_of_childName {group address : Value}
    (h : childName group d address = .ok name) : ∃ child, (name, child) ∈ d.members := by
  obtain ⟨child, hf⟩ := childName_eq_ok.mp h
  exact ⟨child, mem_members_of_child? hf⟩

theorem addFormRule_cases (rule : Value) (form : Form) :
    (∃ e, outcome (addFormRule rule) form = (.error e, form)) ∨
    (rule.isCallable = true ∧ outcome (addFormRule rule) form =
      (.ok (), { form with formRules := form.formRules ++ [rule] })) := by
  unfold addFormRule
  cases rule.isCallable with
  | false => exact Or.inl ⟨.worded (.registration (.formRule rule)), rfl⟩
  | true => exact Or.inr ⟨rfl, rfl⟩

end FormGuard.Form
