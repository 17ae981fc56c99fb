import FormGuard.Proofs.Form.Blocks
import FormGuard.Proofs.Form.Report
import FormGuard.Proofs.Registry.Presence

/-! References: whatever a form has stored under a name is there. The type of an application is
registered, its elements are among those given, and what the pass reports it reports for one of
these. -/
namespace FormGuard

namespace Value

theorem truthy_of_asText? {v : Value} {s : String} (h : v.asText? = some s) :
    v.truthy = !s.isEmpty := by
  cases v with
  | text t =>
    cases h
    rfl
  | kind k =>
    cases h
    cases k <;> decide
  | mode m =>
    cases h
    cases m <;> decide
  | _ => cases h

end Value

namespace Descriptor
variable {d : Descriptor} {name target : Value}

/-- A descriptor whose fields fit together, with texts for names. -/
structure WellNamed (d : Descriptor) : Prop where
  fits : d.checked = .ok d
  name : d.name.asText?.isSome = true
  childNames : ∀ name ∈ d.childNames, name.asText?.isSome = true

theorem WellNamed.truthy (h : d.WellNamed) : d.name.truthy = true := (fits_of_checked h.fits).named

theorem WellNamed.exists_member (h : d.WellNamed) (hk : d.kind = .group)
    (hm : name ∈ d.childNames) : ∃ child, (name, child) ∈ d.members := by
  have hlength := ((fits_of_checked h.fits).group hk).2
  obtain ⟨i, hi, rfl⟩ := List.mem_iff_getElem.mp hm
  refine ⟨d.children[i], List.mem_iff_getElem.mpr ⟨i, ?_, List.getElem_zip⟩⟩
  rw [members, List.length_zip, ← hlength, min_self]
  exact hi

/-- A child of a group is found by what counts as its name there. -/
theorem WellNamed.exists_child? (h : d.WellNamed) (hk : d.kind = .group) (hm : name ∈ d.childNames)
    (hs : name.same target = true) : ∃ found, d.child? target = some found := by
  have htext : target.asText?.isSome = true := by
    rw [← Value.asText?_congr hs]
    exact h.childNames name hm
  -- only a number stands for a position
  have hnamed : d.child? target = d.childNamed? target := by
    cases target with
    | int i => cases htext
    | bool b => cases htext
    | _ => rfl
  obtain ⟨child, hmember⟩ := h.exists_member hk hm
  rw [hnamed]
  refine Option.isSome_iff_exists.mp (List.find?_isSome.mpr ⟨(name, child), hmember, ?_⟩)
  simp [hs]

end Descriptor

namespace Form
variable {host : Host} {form start : Form} {registry : Registry} {elements : List Descriptor}
  {target name : Value} {a : Application} {d : Descriptor} {submitted : Value}

/-- What an application refers to is there: its target and its dependents, or else its group, of which
the target is a child. -/
inductive Refers (form : Form) (target : Value) (a : Application) : Prop where
  | alone (group : a.group = .null)
    (known : ∀ name ∈ target :: a.dependents, form.elements.contains name = true)
  | child {d : Descriptor} {name : Value} (inGroup : a.group.truthy = true)
    (found : form.elements.find? a.group = some d) (kind : d.kind = .group)
    (member : name ∈ d.childNames) (same : name.same target = true)

theorem Refers.contains_reportKey (h : Refers form target a) :
    form.elements.contains (a.reportKey target) = true := by
  unfold Application.reportKey Value.orElse
  cases h with
  | alone group known =>
    rw [group]
    exact known target List.mem_cons_self
  | child inGroup found _ _ _ =>
    rw [if_pos inGroup, Table.contains, found]
    rfl

/-- What a form finds under a name is one of the elements given, with this name. -/
def Offers (form : Form) (elements : List Descriptor) : Prop :=
  ∀ name d, form.elements.find? name = some d → d ∈ elements ∧ d.name.same name = true

theorem offers_of_ofElements (h : ofElements registry elements = .ok form) :
    form.Offers elements := by
  obtain ⟨_, _, h⟩ := bind_eq_ok.mp h
  cases h
  intro name d hf
  obtain ⟨entry, he, rfl⟩ := Option.map_eq_some_iff.mp hf
  have hname : entry.1.same name = true := by simpa using List.find?_some he
  obtain ⟨first, hm, hs⟩ := Table.mem_ofList (List.mem_of_find?_eq_some he)
  obtain ⟨d, hd, hfirst⟩ := List.mem_map.mp hm
  cases hfirst
  rw [Value.same_comm] at hs
  exact ⟨hd, Value.same_trans hs hname⟩

theorem elements_run (host : Host) (ops : List Operation) (form : Form) :
    (run host ops form).elements = form.elements := by
  induction ops generalizing form with
  | nil => rfl
  | cons op ops ih => exact (ih (op.next host form)).trans (changes_next op form rfl).1

theorem Offers.truthy (h : form.Offers elements) (hn : ∀ d ∈ elements, d.WellNamed)
    (hf : form.elements.find? name = some d) : name.truthy = true := by
  obtain ⟨hm, hs⟩ := h name d hf
  obtain ⟨s, ht⟩ := Option.isSome_iff_exists.mp (hn d hm).name
  have htruthy := (hn d hm).truthy
  rw [Value.truthy_of_asText? ht] at htruthy
  rw [Value.asText?_congr hs] at ht
  rw [Value.truthy_of_asText? ht, htruthy]

theorem contains_of_find? (h : form.elements.find? name = some d) :
    form.elements.contains name = true := by
  rw [Table.contains, h]
  rfl

/-- What a call may apply refers to what is there. -/
theorem Offers.refers (h : form.Offers elements) (hn : ∀ d ∈ elements, d.WellNamed)
    (hs : target.same name = true) (hd : Declarable form.elements name a) :
    Refers form target a := by
  have hsame : form.elements.contains target = form.elements.contains name := by
    rw [Table.contains, Table.contains, form.elements.find?_congr hs]
  cases hd with
  | element known group _ =>
    obtain ⟨hname, hothers⟩ := List.forall_mem_cons.mp known
    exact .alone group
      (List.forall_mem_cons.mpr ⟨hsame.trans hname.2, fun other hm => (hothers other hm).2⟩)
  | whole _ found _ group _ alone =>
    refine .alone group ?_
    rw [alone]
    exact List.forall_mem_singleton.mpr (hsame.trans (contains_of_find? found))
  | child _ _ found kind member _ _ =>
    rw [Value.same_comm] at hs
    exact .child (h.truthy hn found) found kind (List.of_mem_zip member).1 hs

theorem exists_element (hk : name.isKey = true) (hc : form.elements.contains name = true) :
    ∃ d, form.element name = .ok d := by
  obtain ⟨d, hf⟩ := Option.isSome_iff_exists.mp hc
  refine ⟨d, bind_eq_ok.mpr ⟨(), Value.needKey_eq_ok.mpr hk, ?_⟩⟩
  rw [hf]
  rfl

theorem exists_elements {names : List Value}
    (h : ∀ name ∈ names, name.isKey = true ∧ form.elements.contains name = true) :
    ∃ ds, names.mapM form.element = .ok ds := by
  induction names with
  | nil => exact ⟨[], rfl⟩
  | cons name rest ih =>
    obtain ⟨hname, hrest⟩ := List.forall_mem_cons.mp h
    obtain ⟨d, hd⟩ := exists_element hname.1 hname.2
    obtain ⟨ds, hds⟩ := ih hrest
    exact ⟨d :: ds, by rw [List.mapM_cons, hd, hds]; rfl⟩

/-- The elements whose controls the browser reads for an application are found. -/
theorem Offers.exists_source (h : form.Offers elements) (hn : ∀ d ∈ elements, d.WellNamed)
    (hs : target.same name = true) (hd : Declarable form.elements name a) :
    ∃ source, form.source? target a = .ok source := by
  have hkeys : target.isKey = true ∧ ∀ other ∈ a.dependents, other.isKey = true := by
    refine ⟨(Value.isKey_congr hs).trans hd.keys.1, fun other hm => ?_⟩
    cases hd with
    | element known _ _ => exact (known other (List.mem_cons_of_mem _ hm)).1
    | whole _ _ _ _ _ alone => cases alone ▸ hm
    | child _ _ _ _ _ _ alone => cases alone ▸ hm
  unfold source?
  cases h.refers hn hs hd with
  | alone group known =>
    rw [group, if_neg (by decide)]
    obtain ⟨hc, hothers⟩ := List.forall_mem_cons.mp known
    cases hdep : a.dependents with
    | nil =>
      obtain ⟨d, hd⟩ := exists_element hkeys.1 hc
      rw [hd]
      exact ⟨_, rfl⟩
    | cons first rest =>
      have hall : ∀ other ∈ target :: a.dependents,
          other.isKey = true ∧ form.elements.contains other = true :=
        List.forall_mem_cons.mpr
          ⟨⟨hkeys.1, hc⟩, fun other hm => ⟨hkeys.2 other hm, hothers other hm⟩⟩
      obtain ⟨ds, hds⟩ := exists_elements hall
      rw [hdep] at hds
      rw [hds]
      exact ⟨_, rfl⟩
  | child inGroup found kind member same =>
    obtain ⟨group, hg⟩ := exists_element hd.keys.2 (contains_of_find? found)
    obtain rfl : group = _ := Option.some.inj ((element_eq_ok hg).symm.trans found)
    obtain ⟨⟨_, child⟩, hc⟩ := (hn _ (h _ _ found).1).exists_child? kind member same
    rw [if_pos inGroup, hg]
    change ∃ source, (if group.isFrozen = true then _ else _) = Except.ok source
    split
    · exact ⟨none, rfl⟩
    · rw [Descriptor.child_of_some hc]
      exact ⟨_, rfl⟩

/-- What the pass reports it reports under the name of an element. -/
theorem contains_of_checkTargets {report : Report} {r t : Registry}
    (h : ∀ target a, (target, a) ∈ form.stored → Refers form target a)
    (hc : outcome (checkTargets host form submitted form.rules.entries Table.empty) r =
      (.ok report, t)) : ∀ key ∈ report.keys, form.elements.contains key = true := by
  have hstart : (Table.empty : Report).entries = failures [] := rfl
  obtain ⟨log, hpass, hlog⟩ := pass_of_checkTargets hstart hc
  obtain ⟨more, hmore, hsub⟩ := hpass.sublist
  obtain rfl : log = more := hmore
  intro key hk
  obtain ⟨entry, he, rfl⟩ := List.mem_map.mp hk
  rw [hlog] at he
  obtain ⟨e, hm, rfl⟩ := List.mem_map.mp he
  have hstored : (e.target, e.application) ∈ form.stored :=
    hsub.subset (List.mem_map_of_mem (List.mem_filter.mp hm).1)
  exact (h _ _ hstored).contains_reportKey

/-! Validating never fails for want of a name. -/

section
open Registry (Safe safe_lift safe_lift_of_finds)

variable {names : Value → Prop}

theorem safe_evaluate (h : names a.type) (submitted value : Value) :
    Safe host names (evaluate host submitted value a) := by
  unfold evaluate
  split
  · exact Registry.safe_validate host h _ _ _
  · have hread := failsAs_mapM (Submission.finds_value submitted) a.dependents
    refine guarded_bind (safe_lift_of_finds hread) fun others => ?_
    exact Registry.safe_validate host h _ _ _

theorem finds_isSettled (report : Report) (target : Value) (a : Application) :
    Finds (isSettled report target a) := by
  unfold isSettled
  split
  · exact failsAs_ok true
  · split
    · exact failsAs_ok false
    · exact failsAs_bind (Value.finds_needKey a.group) fun _ => failsAs_ok _

theorem finds_falls (a : Application) (verdict : Registry.Verdict) : Finds (falls a verdict) := by
  unfold falls
  split
  · exact failsAs_ok true
  · split
    · exact failsAs_ok false
    · exact Value.finds_less _ _

theorem safe_checkApplications (host : Host) (form : Form) (submitted target value : Value)
    {applications : List Application} (h : ∀ a ∈ applications, names a.type) (report : Report) :
    Safe host names (checkApplications host form submitted target value applications report) := by
  induction applications generalizing report with
  | nil => exact guarded_pure report
  | cons a rest ih =>
    obtain ⟨ha, hrest⟩ := List.forall_mem_cons.mp h
    rw [checkApplications]
    refine guarded_bind (safe_lift_of_finds (finds_isSettled report target a)) fun settled => ?_
    cases settled with
    | true => exact guarded_pure report
    | false =>
      rw [if_neg (by decide)]
      split
      · exact guarded_pure report
      · refine guarded_bind (safe_evaluate ha submitted value) fun verdict => ?_
        refine guarded_bind (safe_lift_of_finds (finds_falls a verdict)) fun fell => ?_
        cases fell with
        | true =>
          refine guarded_bind (safe_lift_of_finds (Value.finds_needKey _)) fun _ => ?_
          exact ih hrest _
        | false => exact ih hrest report

theorem safe_checkTargets (host : Host) (form : Form) (submitted : Value)
    {entries : List (Value × List Application)} (h : ∀ entry ∈ entries, ∀ a ∈ entry.2, names a.type)
    (report : Report) : Safe host names (checkTargets host form submitted entries report) := by
  induction entries generalizing report with
  | nil => exact guarded_pure report
  | cons entry rest ih =>
    obtain ⟨hentry, hrest⟩ := List.forall_mem_cons.mp h
    obtain ⟨target, applications⟩ := entry
    rw [checkTargets]
    refine guarded_bind (safe_lift_of_finds (Submission.finds_value submitted target))
      fun value => ?_
    refine guarded_bind (safe_checkApplications host form submitted target value hentry report)
      fun next => ?_
    exact ih hrest next

theorem findsOwn_checkFormRules (host : Host) (submitted : Value) (rules : List Value)
    (report : Report) : FindsOwn host (checkFormRules host submitted rules report) := by
  induction rules generalizing report with
  | nil => exact failsAs_ok report
  | cons rule rest ih =>
    rw [checkFormRules]
    refine failsAs_bind (findsOwn_apply host rule [submitted]) fun answer => ?_
    split
    · exact ih report
    · exact ih _
    · exact findsOwn_of_finds host (finds_raise rfl)

theorem safe_noteFailure (host : Host) (report : Report) : Safe host names (noteFailure report) := by
  unfold noteFailure
  split
  · refine guarded_bind (safe_lift_of_finds (Value.finds_sorted report.keys)) fun sorted => ?_
    exact Registry.safe_of_looks (K := fun _ => True) (fun r => Registry.looks_note _)
      fun r _ => failsAs_ok ()
  · exact guarded_pure ()

/-- Validating fails for want of a name only where the using program does. -/
theorem findsOwn_validate (host : Host) (submitted : Value) (hk : form.registry.Keyed)
    (h : form.Registered) : FindsOwn host (outcome (validate host submitted) form).1 := by
  have hpass : Safe host (fun name => form.registry.targets.contains name = true)
      (checkTargets host form submitted form.rules.entries Table.empty) := by
    refine safe_checkTargets host form submitted ?_ _
    exact h
  have hsafe := guarded_bind hpass fun found =>
    guarded_bind (safe_lift (findsOwn_checkFormRules host submitted form.formRules found))
      fun report => guarded_bind (safe_noteFailure host report) fun _ => guarded_pure report
  unfold validate
  rw [outcome_bind_of_ok (outcome_get form), outcome_onRegistry]
  exact (hsafe form.registry ⟨hk, fun _ hn => hn⟩).1

end

/-- The rule of a registered name is found, also when more is registered. -/
theorem finds_getRule_run (host : Host) (hk : registry.Keyed)
    (h : registry.targets.contains name = true) (later : List Registry.Operation) :
    Finds (outcome (Registry.getRule host name) (Registry.run host later registry)).1 := by
  rw [Registry.contains_iff_classOf? host] at h
  obtain ⟨found, hfound⟩ := Option.isSome_iff_exists.mp h
  rw [Registry.outcome_getRule]
  refine Registry.finds_ruleOf host ?_
  rw [Registry.contains_iff_classOf? host, Registry.classOf?_run hk hfound later]
  rfl

/-- Whatever was called, and failed halfway perhaps, all that is stored is for registered types, and
for elements given or children of a group given. So the browser's controls are found, the rule of a
type is found, also when more is registered, and validating fails for want of a name only where the
using program does. What the pass reports it reports under the name of an element. -/
theorem references_found {ops : List Operation} (hr : registry.Reachable host)
    (hs : ofElements registry elements = .ok start) (hn : ∀ d ∈ elements, d.WellNamed)
    (hf : run host ops start = form) :
    form.Offers elements ∧
    (∀ target a, (target, a) ∈ form.stored →
      form.registry.targets.contains a.type = true ∧ Refers form target a ∧
      (∃ source, form.source? target a = .ok source) ∧
      ∀ later, Finds
        (outcome (Registry.getRule host a.type) (Registry.run host later form.registry)).1) ∧
    (∀ submitted, FindsOwn host (outcome (validate host submitted) form).1) ∧
    ∀ submitted r report t,
      outcome (checkTargets host form submitted form.rules.entries Table.empty) r =
        (.ok report, t) → ∀ key ∈ report.keys, form.elements.contains key = true := by
  have hreach : form.Reachable host := ⟨registry, elements, start, ops, hr, hs, hf⟩
  have hkeyed := hreach.sound.keyed
  have hoffers : form.Offers elements := by
    intro name d hd
    rw [← hf, elements_run] at hd
    exact offers_of_ofElements hs name d hd
  have hrefers : ∀ target a, (target, a) ∈ form.stored →
      Refers form target a ∧ ∃ source, form.source? target a = .ok source := by
    intro target a hm
    obtain ⟨applications, hentry, ha⟩ := mem_stored.mp hm
    obtain ⟨name, hname, hd⟩ := hreach.declared _ hentry a ha
    exact ⟨hoffers.refers hn hname hd, hoffers.exists_source hn hname hd⟩
  refine ⟨hoffers, fun target a hm => ?_, fun submitted => findsOwn_validate host submitted hkeyed
    hreach.registered, fun submitted r report t hc =>
    contains_of_checkTargets (fun target a hm => (hrefers target a hm).1) hc⟩
  obtain ⟨applications, hentry, ha⟩ := mem_stored.mp hm
  have hregistered := hreach.registered _ hentry a ha
  exact ⟨hregistered, (hrefers target a hm).1, (hrefers target a hm).2,
    finds_getRule_run host hkeyed hregistered⟩

/-- A call for a group that fails at its second child. -/
def halfwayCall : Operation :=
  .groupRule (.text "phone")
    (.map [(.text "area", .list [.list [.text "No area", .text "required"]]),
      (.text "zip", .list [.list [.text "No code", .text "required"]])])
    .null .null .null .null .null

def halfwayElements : List Descriptor := [textField "name", textField "again", phoneGroup]

def halfwayCalls : List Operation :=
  [.elementRule (.list [.text "name", .text "again"]) (.text "Differ") (.text "compare") .null
    (.mode .client) .null, halfwayCall,
    .registry (.register (.text "zip") (.kind .ofClass) (.ruleClass .range) .null)]

/-- A form where the first child of the group has its rule, though the call failed. -/
def halfwayForm : Form :=
  run Host.bare halfwayCalls
    ⟨plainRegistry, Table.ofList (halfwayElements.map fun d => (d.name, d)), Table.empty, [], []⟩

theorem references_found_halfway :
    (outcome (halfwayCall.perform Host.bare) halfwayForm).1 =
      .error (.unknownElement (.text "phone[zip]")) ∧
    halfwayForm.stored.length = 2 ∧
    (∀ target a, (target, a) ∈ halfwayForm.stored →
      Refers halfwayForm target a ∧ ∃ source, halfwayForm.source? target a = .ok source) ∧
    (∀ submitted, FindsOwn Host.bare (outcome (validate Host.bare submitted) halfwayForm).1) ∧
    ∃ report t,
      outcome (checkTargets Host.bare halfwayForm (.map []) halfwayForm.rules.entries Table.empty)
        halfwayForm.registry = (.ok report, t) ∧ report.keys = [.text "phone"] ∧
      halfwayForm.elements.contains (.text "phone") = true := by
  have hr : plainRegistry.Reachable Host.bare := ⟨_, rfl⟩
  have hs : ofElements plainRegistry halfwayElements = .ok ⟨plainRegistry,
      Table.ofList (halfwayElements.map fun d => (d.name, d)), Table.empty, [], []⟩ := rfl
  have hn : ∀ d ∈ halfwayElements, d.WellNamed := by
    intro d hd
    simp only [halfwayElements, List.mem_cons, List.not_mem_nil, or_false] at hd
    rcases hd with rfl | rfl | rfl
    all_goals exact ⟨rfl, rfl, by decide⟩
  have hf : run Host.bare halfwayCalls ⟨plainRegistry,
      Table.ofList (halfwayElements.map fun d => (d.name, d)), Table.empty, [], []⟩ =
      halfwayForm := rfl
  obtain ⟨_, hstored, hvalidate, hreported⟩ := references_found hr hs hn hf
  refine ⟨by decide +kernel, rfl,
    fun target a hm => ⟨(hstored target a hm).2.1, (hstored target a hm).2.2.1⟩, hvalidate, ?_⟩
  have hreport : (outcome (checkTargets Host.bare halfwayForm (.map [])
      halfwayForm.rules.entries Table.empty) halfwayForm.registry).1 =
      .ok ⟨[(.text "phone", .text "No area")]⟩ := by decide +kernel
  exact ⟨_, _, Prod.ext hreport rfl, rfl,
    hreported _ _ _ _ (Prod.ext hreport rfl) (.text "phone") List.mem_cons_self⟩

end Form

end FormGuard
