import FormGuard.Proofs.Form.Acceptance
import FormGuard.Proofs.Form.Call
import FormGuard.Proofs.Form.Growth
import FormGuard.Proofs.Form.Submission
import Mathlib.Data.List.Perm.Basic

/-! The order of declarations: whether a submission is accepted depends on what was declared and not in
which order, and one more declaration never makes a form more lenient. -/
namespace FormGuard.Form
variable {host : Host} {form next other later : Form} {target name : Value} {a b : Application}
  {apps : List (Value × Application)} {extra : List Value} {calls reordered : List Operation}
  {entries : List (Value × Value)}

/-- Calls that all succeed, one after the other. -/
inductive Succeeds (host : Host) : List Operation → Form → Form → Prop where
  | nil (form : Form) : Succeeds host [] form form
  | cons {op : Operation} {ops : List Operation} {form middle next : Form}
      (here : outcome (op.perform host) form = (.ok (), middle))
      (behind : Succeeds host ops middle next) : Succeeds host (op :: ops) form next

/-- An application was declared under a name, or under one that counts as the same. -/
def Applied (form : Form) (name : Value) (a : Application) : Prop :=
  ∃ target, (target, a) ∈ form.stored ∧ target.same name = true

/-- Whether one of several applications is for a name. -/
def Brings (apps : List (Value × Application)) (name : Value) (a : Application) : Prop :=
  ∃ entry ∈ apps, entry.2 = a ∧ entry.1.same name = true

/-- Whether applications and mandatory names make a name mandatory. -/
def Requires (apps : List (Value × Application)) (extra : List Value) (name : Value) : Prop :=
  (∃ entry ∈ apps, entry.2.type.same requiredRule = true ∧ entry.1.same name = true) ∨
    ∃ required ∈ extra, required.same name = true

/-- The form after some calls, each of which applies something. -/
def extendAll (parts : List (List (Value × Application) × List Value)) (form : Form) : Form :=
  parts.foldl (fun form part => form.extend part.1 part.2) form

/-! What a declaration adds. -/

theorem mem_stored_declare (form : Form) (target : Value) (a : Application) :
    ∃ key, key.same target = true ∧ ∀ entry,
      entry ∈ (form.declare target a).stored ↔ entry ∈ form.stored ∨ entry = (key, a) := by
  have hs : (form.declare target a).stored =
      (form.rules.alter target [] (· ++ [a])).entries.flatMap fun entry =>
        entry.2.map fun a => (entry.1, a) := rfl
  rw [hs]
  unfold stored
  rcases form.rules.alter_cases target [] (· ++ [a]) with
    ⟨before, key, old, after, hold, hk, hnew⟩ | ⟨_, hnew⟩
  · refine ⟨key, hk, fun entry => ?_⟩
    rw [hold, hnew]
    simp only [List.flatMap_append, List.flatMap_cons, List.map_append, List.map_cons,
      List.map_nil, List.mem_append, List.mem_singleton]
    tauto
  · refine ⟨target, Value.same_self target, fun entry => ?_⟩
    rw [hnew]
    simp

theorem applied_declare : (form.declare target b).Applied name a ↔
    form.Applied name a ∨ b = a ∧ target.same name = true := by
  obtain ⟨key, hk, hmem⟩ := mem_stored_declare form target b
  constructor
  · rintro ⟨found, hm, hs⟩
    rcases (hmem _).mp hm with hm | he
    · exact Or.inl ⟨found, hm, hs⟩
    · cases he
      rw [Value.same_comm] at hk
      exact Or.inr ⟨rfl, Value.same_trans hk hs⟩
  · rintro (⟨found, hm, hs⟩ | ⟨rfl, hs⟩)
    · exact ⟨found, (hmem _).mpr (Or.inl hm), hs⟩
    · exact ⟨key, (hmem _).mpr (Or.inr rfl), Value.same_trans hk hs⟩

theorem applied_declareAll :
    (form.declareAll apps).Applied name a ↔ form.Applied name a ∨ Brings apps name a := by
  induction apps generalizing form with
  | nil => simp [declareAll, Brings]
  | cons entry rest ih =>
    have hstep : (form.declareAll (entry :: rest)).Applied name a ↔
        (form.declare entry.1 entry.2).Applied name a ∨ Brings rest name a :=
      @ih (form.declare entry.1 entry.2)
    rw [hstep, applied_declare, or_assoc]
    simp [Brings]

theorem isRequired_declareAll : (form.declareAll apps).isRequired name = true ↔
    form.isRequired name = true ∨
      ∃ entry ∈ apps, entry.2.type.same requiredRule = true ∧ entry.1.same name = true := by
  induction apps generalizing form with
  | nil => simp [declareAll]
  | cons entry rest ih =>
    have hstep : (form.declareAll (entry :: rest)).isRequired name = true ↔
        (form.declare entry.1 entry.2).isRequired name = true ∨
          ∃ entry ∈ rest, entry.2.type.same requiredRule = true ∧ entry.1.same name = true :=
      @ih (form.declare entry.1 entry.2)
    rw [hstep, isRequired_declare]
    simp [or_assoc]

theorem applied_extend :
    (form.extend apps extra).Applied name a ↔ form.Applied name a ∨ Brings apps name a :=
  applied_declareAll

theorem isRequired_extend : (form.extend apps extra).isRequired name = true ↔
    form.isRequired name = true ∨ Requires apps extra name := by
  have hsplit : (form.extend apps extra).isRequired name = true ↔
      (form.declareAll apps).isRequired name = true ∨
        ∃ required ∈ extra, required.same name = true := by
    simp [isRequired, extend]
  rw [hsplit, isRequired_declareAll, or_assoc, Requires]

/-! What calls add, one after the other. -/

section
variable {parts more : List (List (Value × Application) × List Value)}

theorem applied_extendAll : (form.extendAll parts).Applied name a ↔
    form.Applied name a ∨ ∃ part ∈ parts, Brings part.1 name a := by
  induction parts generalizing form with
  | nil => simp [extendAll]
  | cons part rest ih =>
    have hstep : (form.extendAll (part :: rest)).Applied name a ↔
        (form.extend part.1 part.2).Applied name a ∨ ∃ part ∈ rest, Brings part.1 name a :=
      @ih (form.extend part.1 part.2)
    rw [hstep, applied_extend, or_assoc]
    simp

theorem isRequired_extendAll : (form.extendAll parts).isRequired name = true ↔
    form.isRequired name = true ∨ ∃ part ∈ parts, Requires part.1 part.2 name := by
  induction parts generalizing form with
  | nil => simp [extendAll]
  | cons part rest ih =>
    have hstep : (form.extendAll (part :: rest)).isRequired name = true ↔
        (form.extend part.1 part.2).isRequired name = true ∨
          ∃ part ∈ rest, Requires part.1 part.2 name :=
      @ih (form.extend part.1 part.2)
    rw [hstep, isRequired_extend, or_assoc]
    simp

theorem elements_extend : (form.extend apps extra).elements = form.elements :=
  elements_declareAll apps form

theorem registry_extend : (form.extend apps extra).registry = form.registry :=
  registry_declareAll apps form

theorem formRules_declareAll (apps : List (Value × Application)) (form : Form) :
    (form.declareAll apps).formRules = form.formRules := by
  induction apps generalizing form with
  | nil => rfl
  | cons entry rest ih => exact ih (form.declare entry.1 entry.2)

theorem registry_extendAll : (form.extendAll parts).registry = form.registry := by
  induction parts generalizing form with
  | nil => rfl
  | cons part rest ih => exact ih.trans registry_extend

theorem formRules_extendAll : (form.extendAll parts).formRules = form.formRules := by
  induction parts generalizing form with
  | nil => rfl
  | cons part rest ih => exact ih.trans (formRules_declareAll part.1 form)

/-- Calls that all succeed do what each of them applies, whatever was called before it. -/
theorem succeeds_iff (hd : ∀ op ∈ calls, op.Declares) : Succeeds host calls form next ↔
    ∃ parts, List.Forall₂
      (fun op part => Operation.Applies form.elements form.registry op part.1 part.2) calls parts ∧
      next = form.extendAll parts := by
  induction calls generalizing form with
  | nil =>
    constructor
    · intro h
      cases h
      exact ⟨[], .nil, rfl⟩
    · rintro ⟨_, hparts, rfl⟩
      cases hparts
      exact .nil form
  | cons op rest ih =>
    obtain ⟨hop, hrest⟩ := List.forall_mem_cons.mp hd
    constructor
    · intro h
      cases h with | cons here behind =>
      obtain ⟨apps, extra, happ, rfl⟩ := (perform_eq_ok hop).mp here
      obtain ⟨parts, hparts, rfl⟩ := (ih hrest).mp behind
      rw [elements_extend, registry_extend] at hparts
      exact ⟨(apps, extra) :: parts, .cons happ hparts, rfl⟩
    · rintro ⟨_, h, rfl⟩
      cases h with
      | @cons _ part _ parts happ hparts =>
        refine .cons ((perform_eq_ok hop).mpr ⟨part.1, part.2, happ, rfl⟩) ?_
        refine (ih hrest).mpr ⟨parts, ?_, rfl⟩
        rw [elements_extend, registry_extend]
        exact hparts

end

/-! What the verdict depends on. -/

/-- One form demands at least what another does. -/
structure Demands (form other : Form) : Prop where
  registry : other.registry = form.registry
  applied : ∀ name a, form.Applied name a → other.Applied name a
  required : ∀ name, form.isRequired name = true → other.isRequired name = true
  formRules : ∀ rule ∈ form.formRules, rule ∈ other.formRules

theorem isRequired_congr (form : Form) (h : target.same name = true) :
    form.isRequired target = form.isRequired name := by
  unfold isRequired
  simp only [Value.same_congr h]

theorem applied_of_stored (h : (target, a) ∈ form.stored) : form.Applied target a :=
  ⟨target, h, Value.same_self target⟩

theorem Demands.satisfied (h : Demands form other) (hs : target.same name = true) {r : Registry}
    (ho : Satisfied host other (.map entries) target a r) :
    Satisfied host form (.map entries) name a r := by
  obtain ⟨value, hv, hp⟩ := ho
  refine ⟨value, (Submission.value_congr hs) ▸ hv, fun hn => hp ?_⟩
  rcases hn with hr | hv
  · exact Or.inl ((isRequired_congr other hs).trans (h.required name hr))
  · exact Or.inr hv

/-- What the more demanding of two forms accepts the other accepts, as long as its own rules keep
nothing between two questions. -/
theorem Demands.accepts (h : Demands form other) (hf : form.Sound) (ho : other.Sound)
    (hs : ∀ target a, (target, a) ∈ form.stored → Steady host form.registry a.type)
    (ha : Accepts host other (.map entries)) : Accepts host form (.map entries) := by
  obtain ⟨hclear, hrules⟩ := (accepts_iff_clear ho).mp ha
  refine (accepts_iff_clear hf).mpr ⟨(clear_iff_satisfied hf hs).mpr fun name a hm => ?_,
    fun rule hr => hrules rule (h.formRules rule hr)⟩
  obtain ⟨target, hfound, hsame⟩ := h.applied name a (applied_of_stored hm)
  obtain ⟨before, rest, he⟩ := List.append_of_mem hfound
  have hsteady : Steady host other.registry a.type := h.registry ▸ hs name a hm
  have hsat := (satisfied_afterAll ho hsteady before).mp (clear_iff.mp hclear before target a rest he)
  rw [h.registry] at hsat
  exact h.satisfied hsame hsat

theorem run_of_succeeds (h : Succeeds host calls form next) : run host calls form = next := by
  induction h with
  | nil => rfl
  | @cons op ops form middle next here behind ih =>
    have hn : op.next host form = middle := by rw [Operation.next, here]
    change run host ops (op.next host form) = next
    rw [hn, ih]

/-- What is applied in another order demands the same. -/
theorem demands_of_perm {parts more : List (List (Value × Application) × List Value)}
    (h : parts.Perm more) (form : Form) :
    Demands (form.extendAll parts) (form.extendAll more) := by
  refine ⟨registry_extendAll.trans registry_extendAll.symm, fun name a ha => ?_,
    fun name hr => ?_, fun rule hr => ?_⟩
  · refine applied_extendAll.mpr ((applied_extendAll.mp ha).imp_right ?_)
    rintro ⟨part, hm, hb⟩
    exact ⟨part, h.mem_iff.mp hm, hb⟩
  · refine isRequired_extendAll.mpr ((isRequired_extendAll.mp hr).imp_right ?_)
    rintro ⟨part, hm, hb⟩
    exact ⟨part, h.mem_iff.mp hm, hb⟩
  · rw [formRules_extendAll] at hr ⊢
    exact hr

theorem demands_extend (form : Form) (apps : List (Value × Application)) (extra : List Value) :
    Demands form (form.extend apps extra) := by
  refine ⟨registry_extend, fun name a ha => applied_extend.mpr (Or.inl ha),
    fun name hr => isRequired_extend.mpr (Or.inl hr), fun rule hr => ?_⟩
  have hrules : (form.extend apps extra).formRules = form.formRules := formRules_declareAll apps form
  rwa [hrules]

theorem demands_formRule (form : Form) (rule : Value) :
    Demands form { form with formRules := form.formRules ++ [rule] } :=
  ⟨rfl, fun _ _ ha => ha, fun _ hr => hr, fun _ hr => List.mem_append_left _ hr⟩

theorem demands_of_perform {op : Operation} (hop : op.Declares ∨ ∃ rule, op = .formRule rule)
    (h : outcome (op.perform host) form = (.ok (), later)) : Demands form later := by
  rcases hop with hop | ⟨rule, rfl⟩
  · obtain ⟨apps, extra, _, rfl⟩ := (perform_eq_ok hop).mp h
    exact demands_extend form apps extra
  · rw [Operation.perform] at h
    rcases addFormRule_cases rule form with ⟨e, ho⟩ | ⟨_, ho⟩
    · rw [ho] at h
      cases h
    · rw [ho] at h
      cases h
      exact demands_formRule form rule

/-- As long as the rules keep nothing between two questions, calls that succeed in one order succeed in
every order and then accept the same submissions, and a call more never makes a submission accepted
that was not. -/
theorem accepts_in_any_order (h : form.Reachable host) (hd : ∀ op ∈ calls, op.Declares)
    (hs : Succeeds host calls form next)
    (hsteady : ∀ target a, (target, a) ∈ next.stored → Steady host next.registry a.type)
    (entries : List (Value × Value)) :
    (∀ reordered, calls.Perm reordered → ∃ other, Succeeds host reordered form other ∧
      (Accepts host other (.map entries) ↔ Accepts host next (.map entries))) ∧
    ∀ (op : Operation) (later : Form), (op.Declares ∨ ∃ rule, op = .formRule rule) →
      outcome (op.perform host) next = (.ok (), later) →
      ¬ Accepts host next (.map entries) → ¬ Accepts host later (.map entries) := by
  have hsound : next.Sound := run_of_succeeds hs ▸ h.sound.run host calls
  constructor
  · intro reordered hp
    obtain ⟨parts, hparts, rfl⟩ := (succeeds_iff hd).mp hs
    obtain ⟨more, hmore, hperm⟩ := List.perm_comp_forall₂ hp.symm hparts
    have hother : Succeeds host reordered form (form.extendAll more) :=
      (succeeds_iff fun op hm => hd op (hp.mem_iff.mpr hm)).mpr ⟨more, hmore, rfl⟩
    have hosound : (form.extendAll more).Sound :=
      run_of_succeeds hother ▸ h.sound.run host reordered
    have hforth := demands_of_perm hperm form
    have hback := demands_of_perm hperm.symm form
    refine ⟨_, hother, fun ha => hback.accepts hsound hosound hsteady ha, fun ha => ?_⟩
    refine hforth.accepts hosound hsound (fun target a hm => ?_) ha
    obtain ⟨found, hf, _⟩ := hforth.applied target a (applied_of_stored hm)
    exact hforth.registry ▸ hsteady found a hf
  · intro op later hop ho hno ha
    have hlater : later.Sound := by
      have hn : run host [op] next = later := by
        change op.next host next = later
        rw [Operation.next, ho]
      exact hn ▸ hsound.run host [op]
    exact hno ((demands_of_perform hop ho).accepts hsound hlater hsteady ha)

def contactCalls : List Operation :=
  [.elementRule (.text "name") (.text "Needed") (.text "required") .null .null .null,
    .groupRule (.text "phone") (.text "Long") (.text "maxlength") (.int 3) (.int 1) .null .null]

/-- A form for which nothing is declared yet. -/
def openForm : Form :=
  ⟨plainRegistry, Table.ofList ([textField "name", phoneGroup].map fun d => (d.name, d)),
    Table.empty, [], []⟩

theorem accepts_in_any_order_contact :
    ∃ other, Succeeds Host.bare contactCalls.reverse openForm other ∧
      Accepts Host.bare other
        (.map [(.text "name", .text "Ann"), (.text "phone", .map [(.text "area", .text "020")])]) ∧
      ∀ later, outcome (addRule (.text "name") (.text "Long") (.text "maxlength") (.int 9) .null
          .null) (run Host.bare contactCalls openForm) = (.ok (), later) →
        ¬ Accepts Host.bare later (.map []) := by
  have hr : openForm.Reachable Host.bare :=
    ⟨plainRegistry, [textField "name", phoneGroup], _, [], ⟨_, rfl⟩, rfl, rfl⟩
  have hs : Succeeds Host.bare contactCalls openForm (run Host.bare contactCalls openForm) :=
    .cons rfl (.cons rfl (.nil _))
  have hd : ∀ op ∈ contactCalls, op.Declares := by
    intro op hm
    rcases List.mem_cons.mp hm with rfl | hm
    · trivial
    · obtain rfl := List.mem_singleton.mp hm
      trivial
  have hany := fun entries => accepts_in_any_order hr hd hs
    (fun _ a _ => steady_of_stateless bare_stateless _ a.type) entries
  obtain ⟨other, hother, hsame⟩ := (hany _).1 _ contactCalls.reverse_perm.symm
  refine ⟨other, hother, hsame.mpr (by unfold Accepts; rfl), fun later ho => ?_⟩
  refine (hany []).2 (.elementRule (.text "name") (.text "Long") (.text "maxlength") (.int 9) .null
    .null) later (Or.inl trivial) ho ?_
  unfold Accepts
  decide +kernel

/-- A rule that accepts every other time it is asked. -/
def toggle : ExternalClass := ⟨"Toggle", "checks", "<toggle>", true, true⟩

def togglingHost : Host :=
  { Host.bare with
    construct := fun _ _ => .ok (.bool false)
    validate := fun _ state _ _ _ => (.ok (.bool (!state.truthy)), .bool (!state.truthy)) }

/-- Two elements and a group of three, with nothing declared. -/
def toggleForm : Form :=
  ⟨Registry.run togglingHost
    [.register (.text "required") (.kind .ofClass) (.ruleClass .required) .null,
      .register (.text "toggle") (.kind .ofClass) (.ruleClass (.external toggle)) .null]
    Registry.empty,
    Table.ofList ([textField "first",
      ⟨.text "g", .group, .bool false, [textField "a", textField "b", textField "c"],
        [.text "g[a]", .text "g[b]", .text "g[c]"], .bool false⟩,
      textField "last"].map fun d => (d.name, d)), Table.empty, [], []⟩

def toggleGroup : Operation :=
  .groupRule (.text "g") (.text "Few") (.text "toggle") .null (.int 1) .null .null

def toggleRule (element message : String) : Operation :=
  .elementRule (.text element) (.text message) (.text "toggle") .null .null .null

def toggleSubmission : Value :=
  .map [(.text "first", .text "1"),
    (.text "g", .map [(.text "a", .text "1"), (.text "b", .text "1"), (.text "c", .text "1")]),
    (.text "last", .text "1")]

/-- With a rule that remembers what it was asked, one order of two calls is accepted and the other is
not, and a call more makes a submission accepted that was not. -/
theorem toggle_depends_on_order :
    toggleForm.Reachable togglingHost ∧
    (∃ next other,
      Succeeds togglingHost [toggleRule "last" "Odd", toggleGroup] toggleForm next ∧
      Succeeds togglingHost [toggleGroup, toggleRule "last" "Odd"] toggleForm other ∧
      (outcome (validate togglingHost toggleSubmission) next).1 = .ok Table.empty ∧
      (outcome (validate togglingHost toggleSubmission) other).1 =
        .ok ⟨[(.text "last", .text "Odd")]⟩) ∧
    ∃ next later,
      Succeeds togglingHost
        [.elementRule (.text "first") (.text "Needed") (.text "required") .null .null .null,
          toggleGroup, toggleRule "last" "Odd"] toggleForm next ∧
      outcome ((toggleRule "first" "Even").perform togglingHost) next = (.ok (), later) ∧
      (outcome (validate togglingHost toggleSubmission) next).1 =
        .ok ⟨[(.text "last", .text "Odd")]⟩ ∧
      (outcome (validate togglingHost toggleSubmission) later).1 = .ok Table.empty := by
  refine ⟨⟨_, [textField "first",
    ⟨.text "g", .group, .bool false, [textField "a", textField "b", textField "c"],
      [.text "g[a]", .text "g[b]", .text "g[c]"], .bool false⟩, textField "last"], _, [],
    ⟨_, rfl⟩, rfl, rfl⟩, ⟨_, _, .cons rfl (.cons rfl (.nil _)), .cons rfl (.cons rfl (.nil _)), ?_,
    ?_⟩, ⟨_, _, .cons rfl (.cons rfl (.cons rfl (.nil _))), rfl, ?_, ?_⟩⟩
  all_goals decide +kernel

end FormGuard.Form
