import FormGuard.Proofs.Form.Report

/-! Skipping. The pass leaves all that stands behind a settled application of a target; the law skips
one application at a time. They ask the same exactly where nothing is left out for the error of a group
that is not its own. -/
namespace FormGuard.Form
variable {host : Host} {form : Form} {submitted value target : Value} {a b : Application}
  {applications : List Application} {given : List (Value × Application)}
  {entries : List (Value × List Application)} {log out next : List Evaluation}
  {report : Report} {r s t u : Registry}

/-- The law: every application in its turn, skipped where its target or its group is reported or where
it is not needed, else asked. -/
inductive Singly (host : Host) (form : Form) (submitted : Value) :
    List (Value × Application) → List Evaluation → Registry → List Evaluation → Registry →
      Prop where
  | done (log : List Evaluation) (r : Registry) : Singly host form submitted [] log r log r
  | skipped {target value : Value} {a : Application} {rest : List (Value × Application)}
      {log out : List Evaluation} {r t : Registry}
      (read : Submission.value submitted target = .ok value)
      (idle : Settled log target a ∨ ¬ Needed form target value)
      (behind : Singly host form submitted rest log r out t) :
      Singly host form submitted ((target, a) :: rest) log r out t
  | asked {target value : Value} {a : Application} {rest : List (Value × Application)}
      {log out : List Evaluation} {r s t : Registry} {verdict : Registry.Verdict}
      (read : Submission.value submitted target = .ok value)
      (unknown : ¬ Settled log target a) (needed : Needed form target value)
      (answered : outcome (evaluate host submitted value a) r = (.ok verdict, s))
      (behind : Singly host form submitted rest (log ++ [⟨target, a, verdict⟩]) s out t) :
      Singly host form submitted ((target, a) :: rest) log r out t

/-- Where the group of an application has an error, one behind it that is not settled is left out. -/
inductive Hidden (host : Host) (submitted target value : Value) :
    List Application → List Evaluation → Registry → Prop where
  | here {a b : Application} {rest : List Application} {log : List Evaluation} (r : Registry)
      (group : a.group.truthy = true) (reported : Reported log a.group) (member : b ∈ rest)
      (unknown : ¬ Settled log target b) : Hidden host submitted target value (a :: rest) log r
  | later {a : Application} {rest : List Application} {log : List Evaluation} {r s : Registry}
      {verdict : Registry.Verdict} (unknown : ¬ Settled log target a)
      (answered : outcome (evaluate host submitted value a) r = (.ok verdict, s))
      (behind : Hidden host submitted target value rest (log ++ [⟨target, a, verdict⟩]) s) :
      Hidden host submitted target value (a :: rest) log r

/-- On the way through the targets a needed application is left out for the error of a group that is
not its own. -/
inductive Hides (host : Host) (form : Form) (submitted : Value) :
    List (Value × List Application) → List Evaluation → Registry → Prop where
  | here {target value : Value} {applications : List Application}
      {rest : List (Value × List Application)} {log : List Evaluation} {r : Registry}
      (read : Submission.value submitted target = .ok value) (needed : Needed form target value)
      (hidden : Hidden host submitted target value applications log r) :
      Hides host form submitted ((target, applications) :: rest) log r
  | later {target value : Value} {applications : List Application}
      {rest : List (Value × List Application)} {log next : List Evaluation} {r s : Registry}
      (read : Submission.value submitted target = .ok value)
      (passed : Evaluates host form submitted target value applications log r next s)
      (behind : Hides host form submitted rest next s) :
      Hides host form submitted ((target, applications) :: rest) log r

/-- No child of a group has the name of an element or of a child of another group. -/
def ChildrenApart (elements : Table Descriptor) : Prop :=
  ∀ group d name child, elements.find? group = some d → d.kind = .group → (name, child) ∈ d.members →
    elements.contains name = false ∧
    ∀ other e fellow twin, elements.find? other = some e → e.kind = .group →
      (fellow, twin) ∈ e.members → fellow.same name = true → other.same group = true

theorem Reported.congr {key other : Value} (h : Reported log key) (hs : key.same other = true) :
    Reported log other := by
  obtain ⟨e, hm, hf, hk⟩ := h
  exact ⟨e, hm, hf, Value.same_trans hk hs⟩

/-! The law as a relation. -/

theorem Singly.unique (h : Singly host form submitted given log r out t)
    (k : Singly host form submitted given log r next u) : out = next ∧ t = u := by
  induction h with
  | done =>
    cases k
    exact ⟨rfl, rfl⟩
  | skipped read idle _ ih =>
    cases k with
    | skipped _ _ behind => exact ih behind
    | asked other unknown needed _ _ =>
      obtain rfl := Except.ok.inj (read.symm.trans other)
      exact absurd idle (not_or.mpr ⟨unknown, not_not_intro needed⟩)
  | asked read unknown needed answered _ ih =>
    cases k with
    | skipped other idle _ =>
      obtain rfl := Except.ok.inj (read.symm.trans other)
      exact absurd idle (not_or.mpr ⟨unknown, not_not_intro needed⟩)
    | asked other _ _ again behind =>
      obtain rfl := Except.ok.inj (read.symm.trans other)
      obtain ⟨⟨⟩, rfl⟩ := Prod.ext_iff.mp (answered.symm.trans again)
      exact ih behind

theorem Evaluates.unique (h : Evaluates host form submitted target value applications log r out t)
    (k : Evaluates host form submitted target value applications log r next u) :
    out = next ∧ t = u := by
  induction h with
  | done =>
    cases k
    exact ⟨rfl, rfl⟩
  | settled _ _ known =>
    cases k with
    | asked unknown _ _ _ => exact absurd known unknown
    | _ => exact ⟨rfl, rfl⟩
  | idle _ _ _ unneeded =>
    cases k with
    | asked _ needed _ _ => exact absurd needed unneeded
    | _ => exact ⟨rfl, rfl⟩
  | asked unknown needed answered _ ih =>
    cases k with
    | settled _ _ known => exact absurd known unknown
    | idle _ _ _ unneeded => exact absurd needed unneeded
    | asked _ _ again behind =>
      obtain ⟨⟨⟩, rfl⟩ := Prod.ext_iff.mp (answered.symm.trans again)
      exact ih behind

theorem Singly.append {more : List (Value × Application)}
    (h : Singly host form submitted given log r next s)
    (k : Singly host form submitted more next s out t) :
    Singly host form submitted (given ++ more) log r out t := by
  induction h with
  | done => exact k
  | skipped read idle _ ih => exact .skipped read idle (ih k)
  | asked read unknown needed answered _ ih => exact .asked read unknown needed answered (ih k)

theorem Singly.of_append {more : List (Value × Application)}
    (h : Singly host form submitted (given ++ more) log r out t) :
    ∃ next s, Singly host form submitted given log r next s ∧
      Singly host form submitted more next s out t := by
  induction given generalizing log r with
  | nil => exact ⟨log, r, .done log r, h⟩
  | cons entry rest ih =>
    cases h with
    | skipped read idle behind =>
      obtain ⟨next, s, hrest, hmore⟩ := ih behind
      exact ⟨next, s, .skipped read idle hrest, hmore⟩
    | asked read unknown needed answered behind =>
      obtain ⟨next, s, hrest, hmore⟩ := ih behind
      exact ⟨next, s, .asked read unknown needed answered hrest, hmore⟩

theorem Singly.log_prefix (h : Singly host form submitted given log r out t) : log <+: out := by
  induction h with
  | done => exact List.prefix_refl _
  | skipped _ _ _ ih => exact ih
  | asked _ _ _ _ _ ih => exact (List.prefix_append _ _).trans ih

/-! The applications of one target. -/

section
variable (read : Submission.value submitted target = .ok value)
include read

/-- Where nothing more is needed or all is settled, the law asks nothing. -/
theorem singly_idle (h : ∀ a ∈ applications, Settled log target a ∨ ¬ Needed form target value)
    (r : Registry) :
    Singly host form submitted (applications.map fun a => (target, a)) log r log r := by
  induction applications with
  | nil => exact .done log r
  | cons a rest ih =>
    obtain ⟨ha, hrest⟩ := List.forall_mem_cons.mp h
    exact .skipped read ha (ih hrest)

/-- Unless something is left out, the pass asks what the law asks. -/
theorem Evaluates.singly (h : Evaluates host form submitted target value applications log r out t)
    (hn : Needed form target value → ¬ Hidden host submitted target value applications log r) :
    Singly host form submitted (applications.map fun a => (target, a)) log r out t := by
  induction h with
  | done log r => exact .done log r
  | @settled a rest log r known =>
    refine singly_idle read (fun b hb => ?_) r
    rw [or_iff_not_imp_right, not_not]
    intro hneeded
    by_contra hb'
    rcases List.mem_cons.mp hb with rfl | hmem
    · exact hb' known
    · rcases known with ht | ⟨hg, hr⟩
      · exact hb' (Or.inl ht)
      · exact hn hneeded (.here r hg hr hmem hb')
  | idle rest r _ unneeded => exact singly_idle read (fun _ _ => Or.inr unneeded) r
  | asked unknown needed answered _ ih =>
    exact .asked read unknown needed answered
      (ih fun hneeded hh => hn hneeded (.later unknown answered hh))

/-- The law asks an application that it comes to unsettled, unless it asks something before. -/
theorem Singly.asks (h : Singly host form submitted (applications.map fun a => (target, a)) log r
    out t) (hm : b ∈ applications) (unknown : ¬ Settled log target b)
    (needed : Needed form target value) :
    ∃ e more, out = log ++ e :: more ∧ e.target = target := by
  induction applications generalizing b with
  | nil => cases hm
  | cons a rest ih =>
    cases h with
    | skipped other idle behind =>
      obtain rfl := Except.ok.inj (read.symm.trans other)
      have hsettled := idle.resolve_right (not_not_intro needed)
      rcases List.mem_cons.mp hm with rfl | hm
      · exact absurd hsettled unknown
      · exact ih behind hm unknown
    | @asked _ _ _ _ _ _ _ s _ verdict other _ _ _ behind =>
      obtain ⟨more, rfl⟩ := behind.log_prefix
      exact ⟨⟨target, a, verdict⟩, more, by simp, rfl⟩

/-- Where something is left out, the law asks for the target what the pass asks, and then more. -/
theorem Hidden.asks (h : Hidden host submitted target value applications log r)
    (needed : Needed form target value)
    (passed : Evaluates host form submitted target value applications log r next s)
    (law : Singly host form submitted (applications.map fun a => (target, a)) log r out t) :
    ∃ e more, out = next ++ e :: more ∧ e.target = target := by
  induction h with
  | here r group reported member unknown =>
    cases passed with
    | asked open_ _ _ _ => exact absurd (Or.inr ⟨group, reported⟩) open_
    | _ => exact law.asks read (List.mem_cons_of_mem _ member) unknown needed
  | later unknown answered _ ih =>
    cases passed with
    | settled _ _ known => exact absurd known unknown
    | idle _ _ _ unneeded => exact absurd needed unneeded
    | asked _ _ again behind =>
      obtain ⟨⟨⟩, rfl⟩ := Prod.ext_iff.mp (answered.symm.trans again)
      cases law with
      | skipped other idle _ =>
        obtain rfl := Except.ok.inj (read.symm.trans other)
        exact absurd idle (not_or.mpr ⟨unknown, not_not_intro needed⟩)
      | asked other _ _ third rest =>
        obtain rfl := Except.ok.inj (read.symm.trans other)
        obtain ⟨⟨⟩, rfl⟩ := Prod.ext_iff.mp (answered.symm.trans third)
        exact ih behind rest

end

/-! All targets. -/

/-- Unless something is left out, the pass over the targets asks what the law asks. -/
theorem Pass.singly (h : Pass host form submitted entries log r out t)
    (hn : ¬ Hides host form submitted entries log r) :
    Singly host form submitted (entries.flatMap fun entry => entry.2.map fun a => (entry.1, a)) log r
      out t := by
  induction h with
  | done log r => exact .done log r
  | target read here _ ih =>
    rw [List.flatMap_cons]
    refine Singly.append (here.singly read fun needed hh => hn (.here read needed hh)) (ih ?_)
    exact fun hh => hn (.later read here hh)

/-- The log that the law ends with is not that of the pass where something is left out: behind what
the pass asks for the target the law asks once more for it, and the pass never comes back to it. -/
theorem Hides.log_ne (h : Hides host form submitted entries log r)
    (hd : entries.Pairwise fun one other => one.1.same other.1 = false)
    (passed : Pass host form submitted entries log r out t)
    (law : Singly host form submitted (entries.flatMap fun entry => entry.2.map fun a => (entry.1, a))
      log r next u) : next ≠ out := by
  induction passed generalizing next u with
  | done => cases h
  | @target target value applications rest log middle out r s t read here behind ih =>
    obtain ⟨hfirst, hrest⟩ := List.pairwise_cons.mp hd
    rw [List.flatMap_cons] at law
    obtain ⟨mid, v, hlaw, hmore⟩ := law.of_append
    by_cases hh : Needed form target value ∧ Hidden host submitted target value applications log r
    · obtain ⟨needed, hidden⟩ := hh
      obtain ⟨e, more, rfl, he⟩ := hidden.asks read needed here hlaw
      obtain ⟨later, rfl⟩ := hmore.log_prefix
      obtain ⟨asked, rfl, hsub⟩ := behind.sublist
      rintro heq
      have hasked : asked = e :: (more ++ later) := by simpa using heq.symm
      have hm : (e.target, e.application) ∈
          rest.flatMap fun entry => entry.2.map fun a => (entry.1, a) :=
        hsub.subset (by simp [hasked])
      obtain ⟨entry, hentry, hm⟩ := List.mem_flatMap.mp hm
      obtain ⟨a, _, ha⟩ := List.mem_map.mp hm
      have hsame := hfirst entry hentry
      rw [show entry.1 = target from (Prod.ext_iff.mp ha).1.trans he, Value.same_self] at hsame
      cases hsame
    · have hsame := here.singly read fun needed hidden => hh ⟨needed, hidden⟩
      obtain ⟨rfl, rfl⟩ := hsame.unique hlaw
      cases h with
      | here other needed hidden =>
        obtain rfl := Except.ok.inj (read.symm.trans other)
        exact absurd ⟨needed, hidden⟩ hh
      | later other passed left =>
        obtain rfl := Except.ok.inj (read.symm.trans other)
        obtain ⟨rfl, rfl⟩ := here.unique passed
        exact ih left hrest hmore

/-! Which applications can meet under one target. -/

theorem Hidden.meets (h : Hidden host submitted target value applications log r) :
    ∃ a ∈ applications, ∃ b ∈ applications, ∃ known, a.group.truthy = true ∧
      Reported known a.group ∧ ¬ Settled known target b := by
  induction h with
  | @here a b _ log _ group reported member unknown =>
    exact ⟨a, List.mem_cons_self, b, List.mem_cons_of_mem _ member, log, group, reported, unknown⟩
  | later _ _ _ ih =>
    obtain ⟨a, ha, b, hb, h⟩ := ih
    exact ⟨a, List.mem_cons_of_mem _ ha, b, List.mem_cons_of_mem _ hb, h⟩

theorem Hides.meets (h : Hides host form submitted entries log r) :
    ∃ entry ∈ entries, ∃ a ∈ entry.2, ∃ b ∈ entry.2, ∃ known, a.group.truthy = true ∧
      Reported known a.group ∧ ¬ Settled known entry.1 b := by
  induction h with
  | here _ _ hidden => exact ⟨_, List.mem_cons_self, hidden.meets⟩
  | later _ _ _ ih =>
    obtain ⟨entry, hm, h⟩ := ih
    exact ⟨entry, List.mem_cons_of_mem _ hm, h⟩

/-- Where the children are apart, all applications of a child are for its group. -/
theorem Declared.group_same (h : form.Declared) (ha : ChildrenApart form.elements)
    {entry : Value × List Application} (he : entry ∈ form.rules.entries) (hm : a ∈ entry.2)
    (hg : a.group.truthy = true) (hn : b ∈ entry.2) : b.group.same a.group = true := by
  obtain ⟨name, hname, hfirst⟩ := h entry he a hm
  obtain ⟨other, hother, hsecond⟩ := h entry he b hn
  have hsame : other.same name = true :=
    Value.same_trans (Value.same_comm _ _ ▸ hother) hname
  cases hfirst with
  | element _ group _ => rw [group] at hg; cases hg
  | whole _ _ _ group _ _ => rw [group] at hg; cases hg
  | child _ _ found kind member _ _ =>
    obtain ⟨hno, honly⟩ := ha _ _ _ _ found kind member
    rw [Table.contains, ← Table.find?_congr _ hsame, ← Table.contains] at hno
    cases hsecond with
    | element known _ _ =>
      have hyes := (known other List.mem_cons_self).2
      rw [hno] at hyes
      cases hyes
    | whole _ found _ _ _ _ =>
      rw [Table.contains, found] at hno
      cases hno
    | child _ _ found kind member _ _ => exact honly _ _ _ _ found kind member hsame

theorem Declared.not_hides (h : form.Declared) (ha : ChildrenApart form.elements) :
    ¬ Hides host form submitted form.rules.entries log r := by
  intro hh
  obtain ⟨entry, he, a, hm, b, hn, known, hg, hr, unknown⟩ := hh.meets
  have hsame := h.group_same ha he hm hg hn
  refine unknown (Or.inr ⟨(Value.truthy_congr hsame).trans hg, ?_⟩)
  exact hr.congr (Value.same_comm _ _ ▸ hsame)

/-- What the pass reports is what failed among what it asked, and it asked what the law asks exactly
where no needed application was left out for the error of a group that is not its own. Where the
children of groups have names of their own, none ever is. -/
theorem skips_singly_iff (h : form.Reachable host)
    (hc : outcome (checkTargets host form submitted form.rules.entries Table.empty) form.registry =
      (.ok report, t)) :
    ∃ log, report.entries = failures log ∧
      (Singly host form submitted form.stored [] form.registry log t ↔
        ¬ Hides host form submitted form.rules.entries [] form.registry) ∧
      (∀ next u, Singly host form submitted form.stored [] form.registry next u →
        (next = log ↔ ¬ Hides host form submitted form.rules.entries [] form.registry)) ∧
      (ChildrenApart form.elements →
        ¬ Hides host form submitted form.rules.entries [] form.registry) := by
  have hstart : (Table.empty : Report).entries = failures [] := rfl
  obtain ⟨log, hpass, hlog⟩ := pass_of_checkTargets hstart hc
  have hlaw : ∀ next u, Singly host form submitted form.stored [] form.registry next u →
      (next = log ↔ ¬ Hides host form submitted form.rules.entries [] form.registry) := by
    intro next u hnext
    constructor
    · exact fun heq hh => hh.log_ne h.distinct hpass hnext heq
    · exact fun hn => ((hpass.singly hn).unique hnext).1.symm
  refine ⟨log, hlog, ⟨fun hs => (hlaw log t hs).mp rfl, hpass.singly⟩, hlaw, ?_⟩
  exact fun ha => h.declared.not_hides ha

/-- A group whose children keep their own names. -/
def plainGroup : Descriptor :=
  ⟨.text "g", .group, .bool false, [textField "a", textField "x"], [.text "a", .text "x"],
    .bool false⟩

/-- A form with a child of a group and an element of one name, and rules for both. -/
def sharedForm : Form :=
  run Host.bare
    [.groupRule (.text "g")
      (.map [(.text "a", .list [.list [.text "No a", .text "required"]]),
        (.text "x", .list [.list [.text "Long", .text "maxlength", .int 3]])])
      .null .null .null .null .null,
      .elementRule (.text "x") (.text "Too long") (.text "maxlength") (.int 2) .null .null]
    ⟨plainRegistry, Table.ofList ([plainGroup, textField "x"].map fun d => (d.name, d)), Table.empty,
      [], []⟩

def threeLetters : Value := .map [(.text "x", .text "abc")]

theorem sharedForm_reachable : sharedForm.Reachable Host.bare :=
  ⟨plainRegistry, [plainGroup, textField "x"], _, _, ⟨_, rfl⟩, rfl, rfl⟩

theorem sharedForm_hides :
    Hides Host.bare sharedForm threeLetters sharedForm.rules.entries [] sharedForm.registry := by
  have hnull : Submission.value threeLetters (.text "a") = .ok .null := rfl
  have habc : Submission.value threeLetters (.text "x") = .ok (.text "abc") := rfl
  refine .later hnull (.asked (by decide) (Or.inl rfl) (Prod.ext rfl rfl) (.done _ _)) ?_
  exact .here habc (Or.inr (by decide)) (.here _ rfl (by decide +kernel) List.mem_cons_self (by decide +kernel))

theorem skips_singly_iff_shared :
    sharedForm.Reachable Host.bare ∧ ∃ report t log,
      outcome (checkTargets Host.bare sharedForm threeLetters sharedForm.rules.entries Table.empty)
        sharedForm.registry = (.ok report, t) ∧
      report.entries = failures log ∧
      ¬ Singly Host.bare sharedForm threeLetters sharedForm.stored [] sharedForm.registry log t := by
  have hc : outcome (checkTargets Host.bare sharedForm threeLetters sharedForm.rules.entries
      Table.empty) sharedForm.registry = (.ok ⟨[(.text "g", .text "No a")]⟩, _) := Prod.ext rfl rfl
  obtain ⟨log, hlog, hiff, _⟩ := skips_singly_iff sharedForm_reachable hc
  exact ⟨sharedForm_reachable, _, _, log, hc, hlog, fun hs => hiff.mp hs sharedForm_hides⟩

/-- The law reports the element as well, the pass only the group. -/
theorem error_left_out :
    ∃ (form : Form) (submitted : Value) (report : Report) (t u : Registry) (log : List Evaluation),
      form.Reachable Host.bare ∧
      outcome (checkTargets Host.bare form submitted form.rules.entries Table.empty) form.registry =
        (.ok report, t) ∧
      Singly Host.bare form submitted form.stored [] form.registry log u ∧
      report.entries = [(.text "g", .text "No a")] ∧
      failures log = [(.text "g", .text "No a"), (.text "x", .text "Too long")] := by
  have hnull : Submission.value threeLetters (.text "a") = .ok .null := rfl
  have habc : Submission.value threeLetters (.text "x") = .ok (.text "abc") := rfl
  refine ⟨sharedForm, threeLetters, _, _, _, _, sharedForm_reachable, Prod.ext rfl rfl,
    .asked hnull (by decide) (Or.inl rfl) (Prod.ext rfl rfl)
      (.skipped habc (Or.inl ?_)
        (.asked habc ?_ (Or.inr (by decide)) (Prod.ext rfl rfl) (.done _ _))), rfl, rfl⟩
  · decide +kernel
  · decide +kernel

end FormGuard.Form
