import FormGuard.Form.Script
import FormGuard.Proofs.Form.Answer
import FormGuard.Proofs.Form.Pass
import FormGuard.Proofs.Registry.Binding

/-! Runs of declarations and other work on a form, failed calls included, and what every form that
they lead to has in common. -/
namespace FormGuard.Form
variable {host : Host} {form : Form} {target name : Value} {a : Application}

inductive Operation where
  | elementRule (element message type format mode reset : Value)
  | groupRule (group rules type format howmany mode reset : Value)
  | formRule (rule : Value)
  | registry (op : Registry.Operation)
  | validate (submitted : Value)
  | script (formId heading closing : String)

namespace Operation
variable (host : Host)

def perform : Operation → Action Unit
  | .elementRule element message type format mode reset =>
    addRule element message type format mode reset
  | .groupRule group rules type format howmany mode reset =>
    addGroupRule group rules type format howmany mode reset
  | .formRule rule => addFormRule rule
  | .registry op => onRegistry (op.perform host)
  | .validate submitted => discard (Form.validate host submitted)
  | .script formId heading closing => discard (Form.script host formId heading closing)

/-- The form after an operation, whether it succeeds or not. -/
def next (op : Operation) (form : Form) : Form := (outcome (op.perform host) form).2

end Operation

def run (host : Host) (ops : List Operation) (form : Form) : Form :=
  ops.foldl (fun form op => op.next host form) form

/-- The forms that runs lead to, from any elements on any registry that runs lead to. -/
def Reachable (host : Host) (form : Form) : Prop :=
  ∃ registry elements start ops, Registry.Reachable host registry ∧
    ofElements registry elements = .ok start ∧ run host ops start = form

/-! Every operation is a sequence of changes. -/

section
variable {elements : Table Descriptor}

theorem moves_looks {α : Type} {x : Registry.Action α} {K : RuleClass → Prop}
    (h : Moves (Registry.Looks host K) x) : Moves (Changes elements) (onRegistry x) :=
  moves_onRegistry fun r => Registry.keeps_of_looks (h r)

theorem moves_validate (host : Host) (submitted : Value) :
    Moves (Changes elements) (Form.validate host submitted) :=
  moves_bind moves_get fun form =>
    moves_looks (moves_pass host form submitted form.rules.entries form.formRules)

theorem moves_block? {K : RuleClass → Prop} (host : Host) (form : Form) (target : Value)
    (a : Application) : Moves (Registry.Looks host K) (block? host form target a) := by
  unfold block?
  split
  · exact moves_pure none
  refine moves_bind (Registry.moves_lift _) fun found => ?_
  split
  · exact moves_pure none
  refine moves_bind (Registry.moves_lift _) fun message => ?_
  intro r
  rw [outcome_map]
  exact Registry.moves_block host _ _ _ r

theorem moves_targetBlocks {K : RuleClass → Prop} (host : Host) (form : Form) (target : Value)
    (applications : List Application) :
    Moves (Registry.Looks host K) (targetBlocks host form target applications) := by
  induction applications with
  | nil => exact moves_pure []
  | cons a rest ih =>
    refine moves_bind (moves_block? host form target a) fun first => ?_
    exact moves_bind ih fun _ => moves_pure _

theorem moves_blocks {K : RuleClass → Prop} (host : Host) (form : Form)
    (entries : List (Value × List Application)) :
    Moves (Registry.Looks host K) (blocks host form entries) := by
  induction entries with
  | nil => exact moves_pure []
  | cons entry rest ih =>
    obtain ⟨target, applications⟩ := entry
    refine moves_bind (moves_targetBlocks host form target applications) fun first => ?_
    exact moves_bind ih fun _ => moves_pure _

theorem changes_next (op : Operation) (form : Form) :
    Changes form.elements form (op.next host form) := by
  cases op with
  | elementRule element message type format mode reset =>
    exact changes_addRule element message type format mode reset form
  | groupRule group rules type format howmany mode reset =>
    exact changes_addGroupRule group rules type format howmany mode reset form
  | formRule rule =>
    rw [Operation.next, Operation.perform]
    rcases addFormRule_cases rule form with ⟨e, ho⟩ | ⟨hc, ho⟩
    · rw [ho]
      exact refl form
    · rw [ho]
      exact (Change.formRule form hc).changes
  | registry op => exact moves_onRegistry (fun r => Registry.keeps_next host r op) form
  | validate submitted => exact moves_discard (moves_validate host submitted) form
  | script formId heading closing =>
    refine moves_discard (moves_bind moves_get fun shown => ?_) form
    exact moves_bind (moves_looks (K := fun _ => True)
      (moves_blocks host shown shown.rules.entries)) fun _ => moves_pure _

end

/-! What every change keeps. -/

/-- What all forms that runs lead to have in common: every target has applications, reports go to
keys, no number of several elements has to pass, and the required rule makes its targets
mandatory. -/
structure Sound (form : Form) : Prop where
  keyed : form.registry.Keyed
  applied : ∀ entry ∈ form.rules.entries, entry.2 ≠ [] ∧ entry.1.isKey = true
  groups : ∀ entry ∈ form.rules.entries, ∀ a ∈ entry.2, a.group.isKey = true
  together : ∀ entry ∈ form.rules.entries, ∀ a ∈ entry.2,
    a.dependents ≠ [] → a.howmany = .null
  mandatory : ∀ entry ∈ form.rules.entries, ∀ a ∈ entry.2,
    a.type.same requiredRule = true → form.isRequired entry.1 = true

theorem Declarable.keys {elements : Table Descriptor} (h : Declarable elements target a) :
    target.isKey = true ∧ a.group.isKey = true := by
  cases h with
  | element known group _ =>
    rw [group]
    exact ⟨(known target List.mem_cons_self).1, rfl⟩
  | whole isKey _ _ group _ _ =>
    rw [group]
    exact ⟨isKey, rfl⟩
  | child isKey groupKey _ _ _ _ _ => exact ⟨isKey, groupKey⟩

theorem Declarable.howmany_of_dependents {elements : Table Descriptor}
    (h : Declarable elements target a) (hd : a.dependents ≠ []) : a.howmany = .null := by
  cases h with
  | element _ _ howmany => exact howmany
  | whole _ _ _ _ _ alone => exact absurd alone hd
  | child _ _ _ _ _ howmany _ => exact howmany

theorem isRequired_declare (form : Form) (target : Value) (a : Application) (name : Value) :
    (form.declare target a).isRequired name =
      (form.isRequired name || (a.type.same requiredRule && target.same name)) := by
  unfold isRequired declare
  cases a.type.same requiredRule <;> simp

/-- What holds of every application under its target holds after one more is declared, if it holds
of that. -/
theorem forall_entries_declare (P : Value → Application → Prop)
    (hold : ∀ entry ∈ form.rules.entries, ∀ b ∈ entry.2, P entry.1 b)
    (hnew : ∀ name, name.same target = true → P name a) :
    ∀ entry ∈ (form.declare target a).rules.entries, ∀ b ∈ entry.2, P entry.1 b := by
  intro entry hm b hb
  rcases Table.mem_insert hm with hm | ⟨he, hat⟩
  · exact hold entry hm b hb
  rw [he, List.mem_append, List.mem_singleton] at hb
  rcases hat with ⟨hname, hf⟩ | ⟨hs, earlier, hf, hm⟩
  · rw [hf] at hb
    rcases hb with hb | rfl
    · cases hb
    · exact hnew entry.1 (hname ▸ Value.same_self target)
  · rw [hf] at hb
    rcases hb with hb | rfl
    · exact hold _ hm b hb
    · exact hnew entry.1 hs

theorem Sound.declare (h : form.Sound) {elements : Table Descriptor}
    (hd : Declarable elements target a) : (form.declare target a).Sound := by
  refine ⟨h.keyed, ?_, ?_, ?_, ?_⟩
  · intro entry hm
    rcases Table.mem_insert hm with hm | ⟨he, ⟨hname, _⟩ | ⟨hs, _⟩⟩
    · exact h.applied entry hm
    · rw [he, hname]
      exact ⟨by simp, hd.keys.1⟩
    · rw [he]
      exact ⟨by simp, (Value.isKey_congr hs).trans hd.keys.1⟩
  · exact forall_entries_declare (fun _ b => b.group.isKey = true) h.groups fun _ _ => hd.keys.2
  · exact forall_entries_declare (fun _ b => b.dependents ≠ [] → b.howmany = .null) h.together
      fun _ _ => hd.howmany_of_dependents
  · refine forall_entries_declare (fun name b => b.type.same requiredRule = true →
      (form.declare target a).isRequired name = true) ?_ fun name hs hq => ?_
    · intro entry hm b hb hq
      rw [isRequired_declare, h.mandatory entry hm b hb hq, Bool.true_or]
    · rw [isRequired_declare, hq, Value.same_comm, hs, Bool.true_and, Bool.or_true]

theorem Sound.change {next : Form} (h : form.Sound) (hc : Change form next) : next.Sound := by
  cases hc with
  | registry keeps => exact ⟨(keeps h.keyed).1, h.applied, h.groups, h.together, h.mandatory⟩
  | declare _ declarable => exact h.declare declarable
  | require name =>
    refine ⟨h.keyed, h.applied, h.groups, h.together, ?_⟩
    intro entry hm a ha hq
    have hr := h.mandatory entry hm a ha hq
    unfold isRequired at hr ⊢
    rw [List.any_append, hr, Bool.true_or]
  | formRule _ => exact ⟨h.keyed, h.applied, h.groups, h.together, h.mandatory⟩

theorem Sound.changes {later : Form} (h : form.Sound)
    (hc : Relation.ReflTransGen Change form later) : later.Sound := by
  induction hc with
  | refl => exact h
  | tail _ hc hs => exact hs.change hc

theorem sound_of_ofElements {registry : Registry} {elements : List Descriptor}
    (hr : registry.Keyed) (h : ofElements registry elements = .ok form) : form.Sound := by
  obtain ⟨_, _, h⟩ := bind_eq_ok.mp h
  cases h
  exact ⟨hr, by simp [Table.empty], by simp [Table.empty], by simp [Table.empty],
    by simp [Table.empty]⟩

/-- A run is a sequence of changes. -/
theorem changes_run (host : Host) (ops : List Operation) (form : Form) :
    Relation.ReflTransGen Change form (run host ops form) := by
  induction ops generalizing form with
  | nil => exact .refl
  | cons op ops ih =>
    obtain ⟨_, hsteps⟩ := changes_next op form rfl
    exact hsteps.trans (ih (op.next host form))

theorem Sound.run (h : form.Sound) (host : Host) (ops : List Operation) :
    (run host ops form).Sound :=
  h.changes (changes_run host ops form)

theorem Reachable.sound (h : form.Reachable host) : form.Sound := by
  obtain ⟨registry, elements, start, ops, hr, hs, rfl⟩ := h
  exact (sound_of_ofElements (Registry.keyed_of_reachable hr) hs).run host ops

/-- Every application of a form was once applied by a call that may do so. -/
def Declared (form : Form) : Prop :=
  ∀ entry ∈ form.rules.entries, ∀ a ∈ entry.2,
    ∃ name, entry.1.same name = true ∧ Declarable form.elements name a

theorem Declared.change {next : Form} (h : form.Declared) (hc : Change form next) :
    next.Declared := by
  cases hc with
  | declare _ declarable =>
    exact forall_entries_declare
      (fun key b => ∃ name, key.same name = true ∧ Declarable form.elements name b) h
      fun _ hs => ⟨_, hs, declarable⟩
  | _ => exact h

theorem Declared.changes {later : Form} (h : form.Declared)
    (hc : Relation.ReflTransGen Change form later) : later.Declared := by
  induction hc with
  | refl => exact h
  | tail _ hc hd => exact hd.change hc

theorem Reachable.declared (h : form.Reachable host) : form.Declared := by
  obtain ⟨registry, elements, start, ops, _, hs, rfl⟩ := h
  have hstart : start.Declared := by
    obtain ⟨_, _, hs⟩ := bind_eq_ok.mp hs
    cases hs
    intro entry hm
    cases hm
  exact hstart.changes (changes_run host ops start)

/-- The type of every application is registered. -/
def Registered (form : Form) : Prop :=
  ∀ entry ∈ form.rules.entries, ∀ a ∈ entry.2, form.registry.targets.contains a.type = true

theorem Registered.change {next : Form} (h : form.Registered) (hk : form.registry.Keyed)
    (hc : Change form next) : next.Registered := by
  cases hc with
  | registry keeps => exact fun entry hm a ha => (keeps hk).2 a.type (h entry hm a ha)
  | declare registered _ =>
    exact forall_entries_declare (fun _ b => form.registry.targets.contains b.type = true) h
      fun _ _ => registered
  | _ => exact h

theorem Reachable.registered (h : form.Reachable host) : form.Registered := by
  obtain ⟨registry, elements, start, ops, hr, hs, rfl⟩ := h
  have hsound := sound_of_ofElements (Registry.keyed_of_reachable hr) hs
  have hstart : start.Registered := by
    obtain ⟨_, _, hs⟩ := bind_eq_ok.mp hs
    cases hs
    intro entry hm
    cases hm
  have hsteps := changes_run host ops start
  generalize run host ops start = form at hsteps
  induction hsteps with
  | refl => exact hstart
  | tail hsteps hc ih => exact ih.change (hsound.changes hsteps).keyed hc

theorem mem_stored {form : Form} : (target, a) ∈ form.stored ↔
    ∃ applications, (target, applications) ∈ form.rules.entries ∧ a ∈ applications := by
  unfold stored
  constructor
  · intro h
    obtain ⟨⟨name, applications⟩, hm, h⟩ := List.mem_flatMap.mp h
    obtain ⟨b, hb, he⟩ := List.mem_map.mp h
    cases he
    exact ⟨applications, hm, hb⟩
  · rintro ⟨applications, hm, ha⟩
    exact List.mem_flatMap.mpr ⟨_, hm, List.mem_map.mpr ⟨a, ha, rfl⟩⟩

end FormGuard.Form
