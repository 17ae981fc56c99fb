import FormGuard.Proofs.Form.Run
import FormGuard.Proofs.Script.Block
import Mathlib.Data.List.Forall2

/-! The blocks of a form: what the browser's block of an application reads, and what it reports. -/
namespace FormGuard.Form
variable {host : Host} {form : Form} {target : Value} {a : Application} {r t : Registry}
  {b : Script.Block}

/-- What the block of an application reads: the target with the dependents, or else a group and the
child of it. -/
inductive Reads (form : Form) (target : Value) (a : Application) : Descriptor → Prop where
  | group {d : Descriptor} (inGroup : a.group.truthy = true)
    (found : form.elements.find? a.group = some d) : Reads form target a d
  | child {d child : Descriptor} {name : Value} (inGroup : a.group.truthy = true)
    (found : form.elements.find? a.group = some d) (here : d.child? target = some (name, child)) :
    Reads form target a child
  | element {d : Descriptor} {name : Value} (alone : a.group.truthy = false)
    (named : name ∈ target :: a.dependents) (found : form.elements.find? name = some d) :
    Reads form target a d

/-- The same one after the other. -/
def reads (form : Form) (target : Value) (a : Application) : List Descriptor :=
  if a.group.truthy then
    match form.elements.find? a.group with
    | none => []
    | some d => d :: (d.child? target).toList.map (·.2)
  else (target :: a.dependents).filterMap form.elements.find?

/-- Whether an application is for the browser as well and reads nothing frozen. -/
def isShown (form : Form) (entry : Value × Application) : Bool :=
  entry.2.isClient && (form.reads entry.1 entry.2).all fun d => !d.isFrozen

theorem mem_reads {d : Descriptor} : d ∈ form.reads target a ↔ Reads form target a d := by
  unfold reads
  cases hg : a.group.truthy with
  | true =>
    rw [if_pos rfl]
    constructor
    · intro h
      cases hf : form.elements.find? a.group with
      | none =>
        rw [hf] at h
        cases h
      | some group =>
        rw [hf] at h
        rcases List.mem_cons.mp h with rfl | h
        · exact .group hg hf
        · obtain ⟨⟨name, child⟩, hc, rfl⟩ := List.mem_map.mp h
          exact .child hg hf (Option.mem_toList.mp hc)
    · rintro (⟨_, hf⟩ | ⟨_, hf, hc⟩ | ⟨hno, _, _⟩)
      · rw [hf]
        exact List.mem_cons_self
      · rw [hf]
        exact List.mem_cons_of_mem _ (List.mem_map.mpr ⟨_, Option.mem_toList.mpr hc, rfl⟩)
      · rw [hg] at hno
        cases hno
  | false =>
    rw [if_neg (by decide), List.mem_filterMap]
    constructor
    · rintro ⟨name, hn, hf⟩
      exact .element hg hn hf
    · rintro (⟨hin, _⟩ | ⟨hin, _, _⟩ | ⟨_, hn, hf⟩)
      · rw [hg] at hin
        cases hin
      · rw [hg] at hin
        cases hin
      · exact ⟨_, hn, hf⟩

theorem isShown_eq_true : form.isShown (target, a) = true ↔
    a.isClient = true ∧ ∀ d, Reads form target a d → d.isFrozen = false := by
  simp [isShown, mem_reads]

/-- Nothing frozen is read where no element is frozen, nor a child of one. -/
theorem unfrozen_of_elements (h : ∀ entry ∈ form.elements.entries, entry.2.isFrozen = false ∧
    ∀ child ∈ entry.2.children, child.isFrozen = false) {d : Descriptor}
    (hr : Reads form target a d) : d.isFrozen = false := by
  have hfind : ∀ {name : Value} {d : Descriptor}, form.elements.find? name = some d →
      d.isFrozen = false ∧ ∀ child ∈ d.children, child.isFrozen = false := by
    intro name d hf
    obtain ⟨entry, he, rfl⟩ := Option.map_eq_some_iff.mp hf
    exact h entry (List.mem_of_find?_eq_some he)
  cases hr with
  | group _ found => exact (hfind found).1
  | child _ found here =>
    exact (hfind found).2 _ (List.of_mem_zip (mem_members_of_child? here)).2
  | element _ _ found => exact (hfind found).1

theorem element_eq_ok {name : Value} {d : Descriptor} (h : form.element name = .ok d) :
    form.elements.find? name = some d := by
  obtain ⟨_, _, h⟩ := bind_eq_ok.mp h
  cases hf : form.elements.find? name with
  | none =>
    rw [hf] at h
    cases h
  | some found =>
    rw [hf] at h
    cases h
    rfl

theorem elements_of_mapM {names : List Value} {ds : List Descriptor}
    (h : names.mapM form.element = .ok ds) : names.filterMap form.elements.find? = ds := by
  induction names generalizing ds with
  | nil =>
    cases h
    rfl
  | cons name rest ih =>
    rw [List.mapM_cons] at h
    obtain ⟨d, hd, h⟩ := bind_eq_ok.mp h
    obtain ⟨others, hrest, h⟩ := bind_eq_ok.mp h
    cases h
    rw [List.filterMap_cons, element_eq_ok hd, ih hrest]

/-- Only a frozen element leaves an application without a block. -/
theorem isSome_of_source? {found : Option Script.Source} (h : form.source? target a = .ok found) :
    found.isSome = (form.reads target a).all fun d => !d.isFrozen := by
  unfold source? at h
  unfold reads
  cases hg : a.group.truthy with
  | true =>
    rw [hg, if_pos rfl] at h
    obtain ⟨d, hd, h⟩ := bind_eq_ok.mp h
    rw [if_pos rfl, element_eq_ok hd]
    cases hz : d.isFrozen with
    | true =>
      rw [hz] at h
      cases h
      simp [hz]
    | false =>
      rw [hz] at h
      cases hc : d.child? target with
      | none =>
        rw [Descriptor.child_of_none hc, Error.raise] at h
        obtain hw | hw := (Error.noChild d.name target).worded_cases
        all_goals
          rw [hw] at h
          cases h
      | some named =>
        rw [Descriptor.child_of_some hc] at h
        cases h
        cases hchild : named.2.isFrozen <;> simp [hz, hc, hchild]
  | false =>
    rw [hg, if_neg (by decide)] at h
    rw [if_neg (by decide)]
    cases hd : a.dependents with
    | nil =>
      rw [hd] at h
      obtain ⟨d, he, h⟩ := bind_eq_ok.mp h
      cases h
      cases hz : d.isFrozen <;> simp [element_eq_ok he, hz]
    | cons first rest =>
      rw [hd] at h
      obtain ⟨ds, he, h⟩ := bind_eq_ok.mp h
      cases h
      rw [elements_of_mapM he]
      cases hany : ds.any (·.isFrozen) <;> simp_all

/-- Without a group the target has to be an element. -/
theorem contains_of_source? {found : Option Script.Source} (hg : a.group.truthy = false)
    (h : form.source? target a = .ok found) : form.elements.contains target = true := by
  unfold source? at h
  rw [hg, if_neg (by decide)] at h
  obtain ⟨d, hd⟩ : ∃ d, form.element target = .ok d := by
    cases hdep : a.dependents with
    | nil =>
      rw [hdep] at h
      obtain ⟨d, he, _⟩ := bind_eq_ok.mp h
      exact ⟨d, he⟩
    | cons first rest =>
      rw [hdep] at h
      obtain ⟨ds, he, _⟩ := bind_eq_ok.mp h
      rw [List.mapM_cons] at he
      obtain ⟨d, he, _⟩ := bind_eq_ok.mp he
      exact ⟨d, he⟩
  rw [Table.contains, element_eq_ok hd]
  rfl

/-- A block is that of an application: it reports the message, ready for a literal, under the key. -/
structure Shows (form : Form) (target : Value) (a : Application) (b : Script.Block) : Prop where
  source : ∃ source, form.source? target a = .ok (some source)
  key : (a.reportKey target).spelled = .ok b.key
  message : escapedMessage a.message = .ok b.message

/-- What the block of an application is made from. -/
structure Making (host : Host) (form : Form) (r : Registry) (target : Value) (a : Application) where
  source : Script.Source
  extraction : Script.Extraction
  message : String
  rule : Rule
  check : Script.Check
  condition : Script.Condition
  key : String
  reads : form.source? target a = .ok (some source)
  extracted : source.extraction target a.reset.truthy = .ok extraction
  worded : escapedMessage a.message = .ok message
  served : r.ruleOf host a.type = .ok rule
  checked : rule.check host a.type a.format = .ok check
  conditioned : Script.Block.conditionOf a check = .ok condition
  keyed : (a.reportKey target).spelled = .ok key

namespace Making

def block (m : Making host form r target a) : Script.Block :=
  ⟨m.extraction, m.check.setup, m.condition, m.key, m.message⟩

theorem shows (m : Making host form r target a) : Shows form target a m.block :=
  ⟨⟨m.source, m.reads⟩, m.keyed, m.worded⟩

/-- One value is tested as it is, and several one by one against how many have to pass. -/
theorem condition_cases (m : Making host form r target a) :
    a.howmany.isNull = true ∧ m.condition = .fails (m.check.bind "value") ∨
    a.howmany.isNull = false ∧ ∃ needed, a.howmany.spelled = .ok needed ∧
      m.condition = .tooFew (m.check.bind "value[i]") needed := by
  have h := m.conditioned
  unfold Script.Block.conditionOf at h
  cases hn : a.howmany.isNull with
  | true =>
    rw [hn] at h
    exact Or.inl ⟨rfl, (Except.ok.inj h).symm⟩
  | false =>
    rw [hn] at h
    obtain ⟨needed, hs, h⟩ := bind_eq_ok.mp h
    exact Or.inr ⟨rfl, needed, hs, (Except.ok.inj h).symm⟩

theorem owned (m : Making host form r target a) : m.block.Owned (m.source.Controls target) :=
  (Script.own_extraction m.extracted).1

end Making

/-- The names that the block of an application quotes: the key, and those of the controls it reads. -/
inductive Names (form : Form) (target : Value) (a : Application) : String → Prop where
  | key {s : String} (keyed : (a.reportKey target).spelled = .ok s) : Names form target a s
  | control {source : Script.Source} {s : String}
    (reads : form.source? target a = .ok (some source)) (named : source.Controls target s) :
    Names form target a s

theorem Making.names_iff (m : Making host form r target a) {s : String} :
    Names form target a s ↔ s = m.key ∨ m.source.Controls target s := by
  constructor
  · intro h
    cases h with
    | key keyed => exact Or.inl (Except.ok.inj (keyed.symm.trans m.keyed))
    | control reads named =>
      cases m.reads.symm.trans reads
      exact Or.inr named
  · rintro (rfl | h)
    · exact .key m.keyed
    · exact .control m.reads h

/-- A block is made from the form on a registry that differs from another one by what was looked up. -/
def Made (host : Host) (form : Form) (r : Registry) (entry : Value × Application)
    (b : Script.Block) : Prop :=
  ∃ s, Registry.Looks host (fun _ => True) r s ∧
    ∃ m : Making host form s entry.1 entry.2, m.block = b

theorem Made.shows {entry : Value × Application} (h : Made host form r entry b) :
    Shows form entry.1 entry.2 b := by
  obtain ⟨_, _, m, rfl⟩ := h
  exact m.shows

theorem Made.of_looks {s : Registry} {entry : Value × Application}
    (hl : Registry.Looks host (fun _ => True) r s) (h : Made host form s entry b) :
    Made host form r entry b := by
  obtain ⟨u, hu, hm⟩ := h
  exact ⟨u, IsTrans.trans _ _ _ hl hu, hm⟩

/-- Looking up changes nothing about what serves a name. -/
theorem Made.making {entry : Value × Application} (hr : r.Keyed) (h : Made host form r entry b) :
    ∃ m : Making host form r entry.1 entry.2, m.block = b := by
  obtain ⟨s, hl, m, rfl⟩ := h
  have hrule : s.ruleOf host entry.2.type = r.ruleOf host entry.2.type :=
    Registry.ruleOf_congr (hl hr) fun _ _ => trivial
  exact ⟨{ m with served := hrule ▸ m.served }, rfl⟩

/-- Exactly what is enforced in the browser and reads nothing frozen has a block. -/
theorem made_of_block? {found : Option Script.Block}
    (h : outcome (block? host form target a) r = (.ok found, t)) :
    List.Forall₂ (Made host form r) ([(target, a)].filter form.isShown) found.toList := by
  unfold block? at h
  cases hc : a.isClient with
  | false =>
    rw [hc] at h
    cases h
    simp [isShown, hc]
  | true =>
    rw [hc] at h
    obtain ⟨source, s, hs, h⟩ := outcome_bind_eq_ok.mp h
    rw [Registry.outcome_lift, Prod.mk.injEq] at hs
    obtain ⟨hsource, rfl⟩ := hs
    have hshown : form.isShown (target, a) = source.isSome := by
      rw [isSome_of_source? hsource, isShown, hc, Bool.true_and]
    rw [List.filter_singleton, hshown]
    cases source with
    | none =>
      cases h
      exact .nil
    | some source =>
      obtain ⟨message, u, hm, h⟩ := outcome_bind_eq_ok.mp h
      rw [Registry.outcome_lift, Prod.mk.injEq] at hm
      obtain ⟨hmessage, rfl⟩ := hm
      rw [map_eq_pure_bind] at h
      obtain ⟨b, v, hb, h⟩ := outcome_bind_eq_ok.mp h
      obtain ⟨check, w, hcheck, hb⟩ := outcome_bind_eq_ok.mp hb
      obtain ⟨rule, x, hrule, hcheck⟩ := outcome_bind_eq_ok.mp hcheck
      rw [Registry.outcome_lift, Prod.mk.injEq] at hb hcheck
      obtain ⟨extraction, hextraction, hmake⟩ := bind_eq_ok.mp hb.1
      obtain ⟨condition, hcondition, hmake⟩ := bind_eq_ok.mp hmake
      obtain ⟨key, hkey, hmake⟩ := bind_eq_ok.mp hmake
      have hserved := Registry.outcome_getRule host a.type r
      rw [hrule] at hserved
      cases h
      cases hmake
      exact .cons ⟨r, refl r, ⟨source, extraction, message, rule, check, condition, key, hsource,
        hextraction, hmessage, hserved.symm, hcheck.1, hcondition, hkey⟩, rfl⟩ .nil

theorem made_of_targetBlocks {applications : List Application} {bs : List Script.Block}
    (h : outcome (targetBlocks host form target applications) r = (.ok bs, t)) :
    List.Forall₂ (Made host form r)
      ((applications.map fun a => (target, a)).filter form.isShown) bs := by
  induction applications generalizing bs r t with
  | nil =>
    cases h
    exact .nil
  | cons a rest ih =>
    obtain ⟨found, s, hf, h⟩ := outcome_bind_eq_ok.mp h
    obtain ⟨others, u, ho, h⟩ := outcome_bind_eq_ok.mp h
    cases h
    have hl := moves_block? (K := fun _ => True) host form target a r
    rw [hf] at hl
    rw [List.map_cons, ← List.singleton_append, List.filter_append]
    exact List.rel_append (made_of_block? hf) ((ih ho).imp fun _ _ => Made.of_looks hl)

theorem made_of_blocks {entries : List (Value × List Application)} {bs : List Script.Block}
    (h : outcome (blocks host form entries) r = (.ok bs, t)) :
    List.Forall₂ (Made host form r)
      ((entries.flatMap fun entry => entry.2.map fun a => (entry.1, a)).filter form.isShown) bs := by
  induction entries generalizing bs r t with
  | nil =>
    cases h
    exact .nil
  | cons entry rest ih =>
    obtain ⟨target, applications⟩ := entry
    obtain ⟨first, s, hf, h⟩ := outcome_bind_eq_ok.mp h
    obtain ⟨others, u, ho, h⟩ := outcome_bind_eq_ok.mp h
    cases h
    have hl := moves_targetBlocks (K := fun _ => True) host form target applications r
    rw [hf] at hl
    rw [List.flatMap_cons, List.filter_append]
    exact List.rel_append (made_of_targetBlocks hf) ((ih ho).imp fun _ _ => Made.of_looks hl)

/-- The blocks of a form are those of the applications that are shown, in order. -/
theorem shown_of_blocks {entries : List (Value × List Application)} {bs : List Script.Block}
    (h : outcome (blocks host form entries) r = (.ok bs, t)) :
    List.Forall₂ (fun entry b => Shows form entry.1 entry.2 b)
      ((entries.flatMap fun entry => entry.2.map fun a => (entry.1, a)).filter form.isShown) bs :=
  (made_of_blocks h).imp fun _ _ => Made.shows

/-- Where all of them are shown, the blocks of a form are those of its applications. -/
theorem shows_of_blocks {entries : List (Value × List Application)} {bs : List Script.Block}
    (hc : ∀ entry ∈ entries, ∀ a ∈ entry.2, a.isClient = true)
    (hu : ∀ entry ∈ entries, ∀ a ∈ entry.2, ∀ d, Reads form entry.1 a d → d.isFrozen = false)
    (h : outcome (blocks host form entries) r = (.ok bs, t)) :
    List.Forall₂ (fun entry b => Shows form entry.1 entry.2 b)
      (entries.flatMap fun entry => entry.2.map fun a => (entry.1, a)) bs := by
  have hall : ∀ shown ∈ entries.flatMap fun entry => entry.2.map fun a => (entry.1, a),
      form.isShown shown = true := by
    intro shown hm
    obtain ⟨entry, he, hm⟩ := List.mem_flatMap.mp hm
    obtain ⟨a, ha, rfl⟩ := List.mem_map.mp hm
    exact isShown_eq_true.mpr ⟨hc entry he a ha, hu entry he a ha⟩
  have hb := shown_of_blocks h
  rwa [List.filter_eq_self.mpr hall] at hb

theorem exists_shows {applications : List (Value × Application)} {bs : List Script.Block}
    (h : List.Forall₂ (fun entry b => Shows form entry.1 entry.2 b) applications bs)
    {entry : Value × Application} (hm : entry ∈ applications) :
    ∃ b, Shows form entry.1 entry.2 b := by
  induction h with
  | nil => cases hm
  | cons hb _ ih =>
    rcases List.mem_cons.mp hm with rfl | hm
    · exact ⟨_, hb⟩
    · exact ih hm

/-- The script is the function around the blocks. -/
theorem fst_outcome_script (host : Host) (form : Form) (formId heading closing : String) :
    (outcome (script host formId heading closing) form).1 =
      (outcome (blocks host form form.rules.entries) form.registry).1.map fun blocks =>
        Script.function formId (blocks.map (·.text)) heading closing := by
  unfold script
  rw [outcome_bind_of_ok (outcome_get form), fst_outcome_bind, outcome_onRegistry]
  rcases outcome (blocks host form form.rules.entries) form.registry with ⟨_ | _, _⟩ <;> rfl

/-- What holds of all blocks holds of all that they are made for, in other words. -/
theorem forall_mem_iff_of_forall₂ {α β : Type} {R : α → β → Prop} {P : α → Prop} {Q : β → Prop}
    {as : List α} {bs : List β} (h : List.Forall₂ R as bs) (hi : ∀ a b, R a b → (Q b ↔ P a)) :
    (∀ b ∈ bs, Q b) ↔ ∀ a ∈ as, P a := by
  induction h with
  | nil => simp
  | cons hab _ ih => rw [List.forall_mem_cons, List.forall_mem_cons, ih, hi _ _ hab]

theorem exists_mem_iff_of_forall₂ {α β : Type} {R : α → β → Prop} {P : α → Prop} {Q : β → Prop}
    {as : List α} {bs : List β} (h : List.Forall₂ R as bs) (hi : ∀ a b, R a b → (Q b ↔ P a)) :
    (∃ b ∈ bs, Q b) ↔ ∃ a ∈ as, P a := by
  have hnot := not_congr (forall_mem_iff_of_forall₂ h fun a b hab => not_congr (hi a b hab))
  simpa using hnot

theorem owned_of_makings {entries : List (Value × Application)} {bs : List Script.Block}
    (h : List.Forall₂ (fun entry b => ∃ m : Making host form r entry.1 entry.2, m.block = b)
      entries bs) : ∀ b ∈ bs, ∃ Named, b.Owned Named := by
  refine (forall_mem_iff_of_forall₂ (P := fun _ => True) h ?_).mpr fun _ _ => trivial
  rintro entry _ ⟨m, rfl⟩
  exact iff_of_true ⟨_, m.owned⟩ trivial

/-- A script is the function around a block for each application that is shown. -/
theorem blocks_of_script {formId heading closing text : String} (hk : form.registry.Keyed)
    (h : (outcome (script host formId heading closing) form).1 = .ok text) :
    ∃ bs : List Script.Block, text = Script.function formId (bs.map (·.text)) heading closing ∧
      List.Forall₂ (fun entry b => ∃ m : Making host form form.registry entry.1 entry.2, m.block = b)
        (form.stored.filter form.isShown) bs := by
  rw [fst_outcome_script] at h
  cases hb : (outcome (blocks host form form.rules.entries) form.registry).1 with
  | error e =>
    rw [hb] at h
    cases h
  | ok bs =>
    rw [hb] at h
    cases h
    exact ⟨bs, rfl, (made_of_blocks (Prod.ext hb rfl)).imp fun _ _ => Made.making hk⟩

/-- A script that is not empty is made of the pieces of its blocks, one for each application that is
shown. -/
theorem pieces_of_script {formId heading closing text : String} (hk : form.registry.Keyed)
    (h : (outcome (script host formId heading closing) form).1 = .ok text) (hne : text ≠ "") :
    ∃ bs, text = Script.Piece.join (Script.pieces formId bs heading closing) ∧
      List.Forall₂ (fun entry b => ∃ m : Making host form form.registry entry.1 entry.2, m.block = b)
        (form.stored.filter form.isShown) bs := by
  obtain ⟨bs, rfl, hmade⟩ := blocks_of_script hk h
  refine ⟨bs, Script.function_eq_join ?_, hmade⟩
  rintro rfl
  exact hne rfl

end FormGuard.Form
