import FormGuard.Proofs.Form.Acceptance
import FormGuard.Proofs.Form.Submission
import Mathlib

/-! Rules for whole groups: which values are counted, and how that compares with the values of the
group's own children. -/
namespace FormGuard

theorem Rule.countAccepted_eq {host : Host} {rule : Rule} {name format : Value}
    {passes : Value → Bool} {values : List Value}
    (h : ∀ v ∈ values, rule.accepts host name format v = .ok (passes v)) :
    rule.countAccepted host name format values = .ok (values.countP passes) := by
  induction values with
  | nil => rfl
  | cons v rest ih =>
    obtain ⟨hv, hrest⟩ := List.forall_mem_cons.mp h
    rw [countAccepted, hv, ih hrest, List.countP_cons, Nat.add_comm]
    rfl

namespace Form
variable {host : Host} {form : Form} {submitted value name : Value} {a : Application} {n : Int}
  {r : Registry} {rule : Rule} {passes : Value → Bool} {verdict : Registry.Verdict}

/-- The values that the rule of a group is asked about: what was submitted under its name, one by one
where that is several. -/
def offered (value : Value) : List Value := (Registry.collected? value).getD [value]

/-- Values validated one by one give how many of them the rule accepts. -/
theorem number_of_offered (hr : r.Keyed) {type format : Value} (hrule : r.ruleOf host type = .ok rule)
    (hk : Rule.KeepsState host rule.cls)
    (hp : ∀ v ∈ offered value, rule.accepts host type format v = .ok (passes v)) :
    ∃ verdict, (outcome (Registry.validate host type value format false) r).1 = .ok verdict ∧
      verdict.number = (offered value).countP passes := by
  obtain ⟨_, cls, hc, hs⟩ := Registry.ruleOf_eq_ok.mp hrule
  have hcls : rule.cls = cls := Registry.cls_of_shared hr hs
  have hkeeps : ∀ c, r.classOf? host type = some (.ok c) → Rule.KeepsState host c := by
    intro c ho
    obtain rfl : cls = c := by simpa [hc] using ho
    exact hcls ▸ hk
  rw [Registry.outcome_validate hr fun _ _ => hkeeps, Registry.verdictOf, hrule]
  unfold offered at hp ⊢
  cases hi : Registry.collected? value with
  | some items =>
    rw [hi] at hp
    refine ⟨.several (items.countP passes), ?_, rfl⟩
    change (rule.countAccepted host type format items >>= fun k =>
      pure (Registry.Verdict.several k)) = _
    have hcount : rule.countAccepted host type format items = .ok (items.countP passes) :=
      Rule.countAccepted_eq hp
    rw [hcount]
    rfl
  | none =>
    rw [hi] at hp
    refine ⟨.single (passes value), ?_, ?_⟩
    · change (rule.accepts host type format value >>= fun b => pure (Registry.Verdict.single b)) = _
      rw [hp value List.mem_cons_self]
      rfl
    · cases h : passes value <;> simp [Registry.Verdict.number, h]

/-- A positive number that has to pass decides alone. -/
theorem falls_of_int (hn : a.howmany = .int n) (hpos : 1 ≤ n) (verdict : Registry.Verdict) :
    falls a verdict = .ok (decide ((verdict.number : Int) < n)) := by
  have ht : a.howmany.truthy = true := by
    rw [hn]
    simp only [Value.truthy, bne_iff_ne]
    omega
  unfold falls Registry.Verdict.holds
  rw [ht, hn]
  by_cases hz : verdict.number = 0
  · have hlt : (0 : Int) < n := by omega
    simp [hz, hlt]
  · simp [hz, Value.less, Value.lessPlain, Value.asInt?]

theorem entries_of_stored (h : form.Sound) (hs : form.stored = [(name, a)]) :
    form.rules.entries = [(name, [a])] := by
  have happlied := h.applied
  unfold stored at hs
  cases he : form.rules.entries with
  | nil => simp [he] at hs
  | cons first rest =>
    obtain ⟨target, applications⟩ := first
    rw [he] at hs happlied
    obtain ⟨b, more, rfl⟩ :=
      List.exists_cons_of_ne_nil (happlied (target, applications) List.mem_cons_self).1
    obtain ⟨⟨rfl, rfl⟩, hmore, hrest⟩ : (target = name ∧ b = a) ∧ more = [] ∧
        rest.flatMap (fun entry => entry.2.map fun a => (entry.1, a)) = [] := by
      simpa using hs
    subst hmore
    cases rest with
    | nil => rfl
    | cons second others =>
      have hsecond := (happlied second (by simp)).1
      simp [hsecond] at hrest

/-- The report on a group of whose offered values at least `n` have to pass. -/
def countReport (form : Form) (name value message : Value) (passes : Value → Bool) (n : Int) :
    Report :=
  if Needed form name value ∧ ((offered value).countP passes : Int) < n then
    Table.empty.insert name message
  else Table.empty

section
variable (form submitted) (hr : r.Keyed) (hname : name.isKey = true) (hg : a.group = .null)
  (hd : a.dependents = []) (hn : a.howmany = .int n) (hpos : 1 ≤ n)
  (hrule : r.ruleOf host a.type = .ok rule) (hk : Rule.KeepsState host rule.cls)
  (hp : ∀ v ∈ offered value, rule.accepts host a.type a.format v = .ok (passes v))
include hr hname hg hd hn hpos hrule hk hp

/-- A rule for a whole group is reported where it is looked at and too few values pass. -/
theorem checkApplications_of_group_rule :
    (outcome (checkApplications host form submitted name value [a] Table.empty) r).1 =
      .ok (countReport form name value a.message passes n) := by
  have hkey : a.group.isKey = true := by
    rw [hg]
    rfl
  rw [checkApplications, outcome_bind_of_ok (by rw [Registry.outcome_lift, isSettled_empty hkey])]
  by_cases hneeded : Needed form name value
  swap
  · have hskip := skipped_iff.mpr hneeded
    simp [countReport, hneeded, hskip]
  have hplain : Asked submitted value a value false := .plain hd (Or.inr (by simp [hn]))
  obtain ⟨verdict, hverdict, hnumber⟩ := number_of_offered hr hrule hk hp
  rw [← evaluate_of_asked hplain] at hverdict
  rw [if_neg (by decide), not_skipped hneeded, if_neg (by decide), fst_outcome_bind, hverdict]
  change (outcome (Registry.lift (falls a verdict) >>= _) _).1 = _
  rw [falls_of_int hn hpos, hnumber, outcome_bind_of_ok (Registry.outcome_lift _ _)]
  by_cases hlt : ((offered value).countP passes : Int) < n
  · have hneed : (a.reportKey name).needKey = .ok () :=
      Value.needKey_eq_ok.mpr (isKey_reportKey hkey hname)
    have hreport : a.reportKey name = name := by
      rw [Application.reportKey, hg]
      rfl
    rw [decide_eq_true hlt, if_pos rfl, outcome_bind_of_ok (by rw [Registry.outcome_lift, hneed]),
      hreport, countReport, if_pos ⟨hneeded, hlt⟩]
    rfl
  · rw [decide_eq_false hlt, if_neg (by decide), countReport, if_neg fun h => hlt h.2]
    rfl

end

/-- The answer of a form whose only rule is one for a whole group. -/
theorem validate_of_group_rule (h : form.Sound) (hs : form.stored = [(name, a)])
    (hf : form.formRules = []) (hg : a.group = .null) (hd : a.dependents = [])
    (hn : a.howmany = .int n) (hpos : 1 ≤ n) (hrule : form.registry.ruleOf host a.type = .ok rule)
    (hk : Rule.KeepsState host rule.cls) (hv : Submission.value submitted name = .ok value)
    (hp : ∀ v ∈ offered value, rule.accepts host a.type a.format v = .ok (passes v)) :
    (outcome (validate host submitted) form).1 =
      .ok (countReport form name value a.message passes n) := by
  have hentries := entries_of_stored h hs
  have hname : name.isKey = true := (h.applied (name, [a]) (by simp [hentries])).2
  have happ := checkApplications_of_group_rule form submitted h.keyed hname hg hd hn hpos hrule hk hp
  rcases ho : outcome (checkApplications host form submitted name value [a] Table.empty)
    form.registry with ⟨result, s⟩
  rw [ho] at happ
  obtain rfl : result = _ := happ
  have htargets : outcome (checkTargets host form submitted form.rules.entries Table.empty)
      form.registry = (.ok (countReport form name value a.message passes n), s) := by
    rw [hentries, checkTargets, outcome_bind_of_ok (by rw [Registry.outcome_lift, hv]),
      outcome_bind_of_ok ho]
    rfl
  unfold validate
  rw [outcome_bind_of_ok (outcome_get form), outcome_onRegistry, outcome_bind_of_ok htargets, hf]
  unfold countReport
  split <;> rfl

/-- The values submitted for the children of a group under these names; null is none. -/
def ownValues (submitted : Value) (names : List Value) : Except Error (List Value) := do
  return (← names.mapM (Submission.value submitted)).filter fun v => !v.isNull

theorem ownValues_eq {α : Type} {name : α → Value} {found : α → Option Value} {children : List α}
    (hv : ∀ child ∈ children,
      Submission.value submitted (name child) = .ok ((found child).getD .null))
    (hs : ∀ child v, found child = some v → v.isNull = false) :
    ownValues submitted (children.map name) = .ok (children.filterMap found) := by
  have hall : (children.map name).mapM (Submission.value submitted) =
      .ok (children.map fun child => (found child).getD .null) := by
    induction children with
    | nil => rfl
    | cons child rest ih =>
      obtain ⟨hchild, hrest⟩ := List.forall_mem_cons.mp hv
      rw [List.map_cons, List.mapM_cons, hchild, ih hrest]
      rfl
  rw [ownValues, hall]
  change Except.ok _ = _
  congr 1
  clear hall hv
  induction children with
  | nil => rfl
  | cons child rest ih =>
    cases hf : found child with
    | none => simp [hf, ih]
    | some v => simp [hf, ih, hs child v hf]

theorem get?_map_text (given : List (String × Value)) (name : String) :
    (Value.map (given.map fun entry => (.text entry.1, entry.2))).get? name = given.lookup name := by
  change (⟨given.map fun entry => (.text entry.1, entry.2)⟩ : Table Value).find? (.text name) = _
  unfold Table.find?
  induction given with
  | nil => rfl
  | cons entry rest ih =>
    obtain ⟨key, v⟩ := entry
    by_cases hk : key = name
    · simp [hk]
    · have hb : (name == key) = false := beq_false_of_ne (Ne.symm hk)
      simpa [List.lookup_cons, hb, Value.same_text, hk] using ih

/-- A submission gives values for children of a group under the group's name, and only for them. -/
structure GivenTogether (entries : List (Value × Value)) (base : String) (names : List String)
    (given : List (String × Value)) : Prop where
  under : (Value.map entries).get? base =
    some (.map (given.map fun entry => (.text entry.1, entry.2)))
  distinct : (given.map (·.1)).Nodup
  own : ∀ entry ∈ given, entry.1 ∈ names
  single : ∀ entry ∈ given, entry.2.isNull = false ∧ Submission.flattened entry.2 = entry.2
  apart : ∀ child ∈ names, (Value.map entries).get? (base ++ "[" ++ child ++ "]") = none

/-- The values given under distinct keys are those found under names among which the keys are. -/
theorem filterMap_lookup_perm {names : List String} {given : List (String × Value)}
    (hn : names.Nodup) (hg : (given.map (·.1)).Nodup) (hown : ∀ entry ∈ given, entry.1 ∈ names) :
    (names.filterMap fun name => given.lookup name).Perm (given.map (·.2)) := by
  induction given generalizing names with
  | nil => simp
  | cons entry rest ih =>
    obtain ⟨key, v⟩ := entry
    obtain ⟨hkey, hrest⟩ := List.forall_mem_cons.mp hown
    obtain ⟨hnew, hdistinct⟩ := List.nodup_cons.mp hg
    have hothers : ∀ entry ∈ rest, entry.1 ∈ names.erase key := by
      intro entry hm
      refine hn.mem_erase_iff.mpr ⟨?_, hrest entry hm⟩
      intro he
      exact hnew (List.mem_map.mpr ⟨entry, hm, he⟩)
    have hsame : (names.erase key).filterMap (fun name => ((key, v) :: rest).lookup name) =
        (names.erase key).filterMap fun name => rest.lookup name := by
      refine List.filterMap_congr fun name hm => ?_
      have hne := (hn.mem_erase_iff.mp hm).1
      rw [List.lookup_cons, beq_false_of_ne hne]
    refine ((List.perm_cons_erase hkey).filterMap _).trans ?_
    rw [List.filterMap_cons, List.lookup_cons_self, hsame]
    exact (ih (hn.erase key) hdistinct hothers).cons v

theorem mapM_qualify {base : String} {names : List String} {append : Value}
    {children : List Descriptor} (ha : append.truthy = true)
    (hnames : children.map (·.name) = names.map .text) :
    children.mapM (Descriptor.qualify (.text base) append) =
      .ok (names.map fun child => .text (base ++ "[" ++ child ++ "]")) := by
  induction names generalizing children with
  | nil =>
    obtain rfl := List.map_eq_nil_iff.mp hnames
    rfl
  | cons child rest ih =>
    obtain ⟨d, ds, rfl, hd, hds⟩ := List.map_eq_cons_iff.mp hnames
    have hq : Descriptor.qualify (.text base) append d =
        .ok (.text (base ++ "[" ++ child ++ "]")) := by
      rw [Descriptor.qualify, if_pos ha, hd, Value.spelled_text, Value.spelled_text]
      rfl
    exact mapM_cons_eq_ok.mpr ⟨_, _, hq, ih hds, rfl⟩

/-- Where values are given for children under the group's name, and for nothing else there, those
offered are the children's own. -/
theorem offered_perm_own {entries : List (Value × Value)} {base : String} {names : List String}
    {given : List (String × Value)} {append : Value} {children : List Descriptor}
    (hb : '[' ∉ base.toList) (hc : ∀ child ∈ names, ']' ∉ child.toList) (hn : names.Nodup)
    (h : GivenTogether entries base names given) (ha : append.truthy = true)
    (hnames : children.map (·.name) = names.map .text) :
    ∃ value qualified own, Submission.value (.map entries) (.text base) = .ok value ∧
      children.mapM (Descriptor.qualify (.text base) append) = .ok qualified ∧
      ownValues (.map entries) qualified = .ok own ∧ (offered value).Perm own := by
  have hsingle : ∀ child v, given.lookup child = some v →
      v.isNull = false ∧ Submission.flattened v = v := by
    intro child v hl
    obtain ⟨before, after, he, _⟩ := List.lookup_eq_some_iff.mp hl
    exact h.single (child, v) (by simp [he])
  have hvalue : ∀ child ∈ names,
      Submission.value (.map entries) (.text (base ++ "[" ++ child ++ "]")) =
        .ok ((given.lookup child).getD .null) := by
    intro child hm
    rw [Submission.value_of_child hb (hc child hm) (h.apart child hm) h.under, get?_map_text]
    cases hl : given.lookup child with
    | none => rfl
    | some v => rw [Option.map_some, (hsingle child v hl).2]
  have hown := ownValues_eq hvalue fun child v hl => (hsingle child v hl).1
  refine ⟨_, _, _, Submission.value_of_key h.under, mapM_qualify ha hnames, hown, ?_⟩
  simpa [offered, Registry.collected?, Submission.flattened, Function.comp_def] using
    (filterMap_lookup_perm hn h.distinct h.own).symm

/-- A group is reported exactly when its rule is looked at and fewer of the values offered under its
name pass than have to. The group's own children decide the same exactly when that agrees with how
many of theirs pass, and so they do where what is offered is theirs. -/
theorem group_reported_iff (h : form.Reachable host) (hs : form.stored = [(name, a)])
    (hf : form.formRules = []) (hg : a.group = .null) (hd : a.dependents = [])
    (hn : a.howmany = .int n) (hpos : 1 ≤ n) (hrule : form.registry.ruleOf host a.type = .ok rule)
    (hk : Rule.KeepsState host rule.cls) (hv : Submission.value submitted name = .ok value)
    (hp : ∀ v ∈ offered value, rule.accepts host a.type a.format v = .ok (passes v)) :
    ∃ report, (outcome (validate host submitted) form).1 = .ok report ∧
      (report.contains name = true ↔
        Needed form name value ∧ ((offered value).countP passes : Int) < n) ∧
      ∀ (children : List Descriptor) (append : Value) (qualified own : List Value),
        children.mapM (Descriptor.qualify name append) = .ok qualified →
        ownValues submitted qualified = .ok own →
        (∀ v ∈ own, rule.accepts host a.type a.format v = .ok (passes v)) →
        ((report.contains name = true ↔ (own.countP passes : Int) < n) ↔
          (Needed form name value ∧ ((offered value).countP passes : Int) < n ↔
            (own.countP passes : Int) < n)) ∧
        ((offered value).Perm own → (∃ v ∈ own, v ≠ .text "") →
          (report.contains name = true ↔ (own.countP passes : Int) < n)) := by
  have hreport : (countReport form name value a.message passes n).contains name = true ↔
      Needed form name value ∧ ((offered value).countP passes : Int) < n := by
    unfold countReport
    split
    · rename_i hc
      simp [hc]
    · rename_i hc
      simp [hc]
  refine ⟨_, validate_of_group_rule h.sound hs hf hg hd hn hpos hrule hk hv hp, hreport, ?_⟩
  intro children append qualified own _ hown _
  refine ⟨by rw [hreport], fun hperm ⟨v, hmem, hsome⟩ => ?_⟩
  have hneeded : Needed form name value := by
    right
    rintro (rfl | rfl)
    · obtain rfl : own = [.null] := (List.singleton_perm.mp hperm).symm
      obtain ⟨values, _, hfilter⟩ := bind_eq_ok.mp hown
      have hmem : Value.null ∈ values.filter fun v => !v.isNull := by
        rw [Except.ok.inj hfilter]
        exact List.mem_singleton_self _
      simp at hmem
    · obtain rfl : own = [.text ""] := (List.singleton_perm.mp hperm).symm
      exact hsome (List.mem_singleton.mp hmem)
  rw [hreport, hperm.countP_eq]
  simp [hneeded]

/-- A form with a group of which two values have to be short. -/
def phoneForm : Form :=
  run Host.bare
    [.groupRule (.text "phone") (.text "Too long") (.text "maxlength") (.int 3) (.int 2) .null .null]
    ⟨plainRegistry, Table.ofList [(.text "phone", phoneGroup)], Table.empty, [], []⟩

theorem phoneForm_reachable : phoneForm.Reachable Host.bare :=
  ⟨plainRegistry, [phoneGroup], _, _, ⟨_, rfl⟩, rfl, rfl⟩

theorem maxlength_keepsState : Rule.KeepsState Host.bare Rule.length.cls :=
  Rule.keepsState_of_ne_external fun _ h => by cases h

/-- What a browser sends for both children, one of which is too long. -/
def phoneEntries : List (Value × Value) :=
  [(.text "phone", .map [(.text "number", .text "5550"), (.text "area", .text "020")])]

theorem phoneEntries_givenTogether :
    GivenTogether phoneEntries "phone" ["area", "number"]
      [("number", .text "5550"), ("area", .text "020")] := by
  refine ⟨rfl, by decide, by decide, ?_, by decide⟩
  simp [Value.isNull, Submission.flattened]

theorem group_reported_iff_phone :
    ∃ report, (outcome (validate Host.bare (.map phoneEntries)) phoneForm).1 = .ok report ∧
      report.contains (.text "phone") = true := by
  obtain ⟨value, _, own, hv, hqualified, hown, hperm⟩ := offered_perm_own (by decide) (by decide) (by decide)
    phoneEntries_givenTogether (rfl : (Value.bool true).truthy = true)
    (rfl : [textField "area", textField "number"].map (·.name) = _)
  have hread : Submission.value (.map phoneEntries) (.text "phone") =
      .ok (.list [.text "5550", .text "020"]) := rfl
  obtain rfl : Value.list [.text "5550", .text "020"] = value :=
    Except.ok.inj (hread.symm.trans hv)
  have hp : ∀ v ∈ offered (.list [.text "5550", .text "020"]),
      Rule.length.accepts Host.bare (.text "maxlength") (.int 3) v =
        .ok (v.same (.text "020")) := by
    intro v hm
    rcases List.mem_cons.mp hm with rfl | hm
    · rfl
    · rw [List.mem_singleton.mp hm]
      rfl
  have hs : phoneForm.stored = [(.text "phone", ⟨.text "maxlength", .text "Too long", .int 3, .null,
      .null, .int 2, .server, []⟩)] := rfl
  have hrule : phoneForm.registry.ruleOf Host.bare (.text "maxlength") = .ok .length := rfl
  obtain ⟨report, ho, _, hreport⟩ := group_reported_iff phoneForm_reachable hs rfl rfl rfl rfl
    (by decide) hrule maxlength_keepsState hv hp
  have hsome : ∃ v ∈ own, v ≠ .text "" :=
    ⟨.text "020", hperm.mem_iff.mp (by decide), by decide⟩
  have hall : ∀ v ∈ own, Rule.length.accepts Host.bare (.text "maxlength") (.int 3) v =
      .ok (v.same (.text "020")) := fun v hm => hp v (hperm.mem_iff.mpr hm)
  refine ⟨report, ho, ((hreport _ _ _ own hqualified hown hall).2 hperm hsome).mpr ?_⟩
  rw [← hperm.countP_eq]
  decide

/-- One child is given, and a key that belongs to no child. One of the group's own values passes and
two have to, but nothing is reported. -/
theorem stray_key_counted :
    ∃ submitted,
      Descriptor.group (.text "phone") [textField "area", textField "number"] (.bool true)
        (.bool false) = .ok phoneGroup ∧
      phoneForm.Reachable Host.bare ∧
      ownValues submitted phoneGroup.childNames = .ok [.text "020"] ∧
      (outcome (Registry.validate Host.bare (.text "maxlength") (.text "020") (.int 3) true)
        phoneForm.registry).1 = .ok (.single true) ∧
      (outcome (validate Host.bare submitted) phoneForm).1 = .ok Table.empty :=
  ⟨.map [(.text "phone", .map [(.text "area", .text "020"), (.text "other", .text "1")])],
    by cbv, phoneForm_reachable, by cbv, rfl, rfl⟩

end Form

end FormGuard
