import FormGuard.Proofs.Form.Skipping

/-! Empty values of optional targets: the pass leaves out what was not submitted and the empty text. An
empty collection, which the required rule takes for nothing as well, is looked at like any other
value. -/
namespace FormGuard.Form
variable {host : Host} {form : Form} {submitted value target : Value} {a b : Application}
  {applications rest : List Application} {entries before behind : List (Value × List Application)}
  {log out : List Evaluation} {report found : Report} {r s t u : Registry}

/-- Going through the applications of a target, the pass asks the rule of one of them, whatever the
rule answers. -/
inductive Asks (host : Host) (form : Form) (submitted target value : Value) :
    List Application → Report → Registry → Application → Prop where
  | here {a : Application} (rest : List Application) {report : Report} (r : Registry)
      (unsettled : isSettled report target a = .ok false) (needed : Needed form target value) :
      Asks host form submitted target value (a :: rest) report r a
  | later {a b : Application} {rest : List Application} {report : Report} {r s : Registry}
      {verdict : Registry.Verdict} {fell : Bool} (unsettled : isSettled report target a = .ok false)
      (needed : Needed form target value)
      (answered : outcome (evaluate host submitted value a) r = (.ok verdict, s))
      (weighed : falls a verdict = .ok fell)
      (behind : Asks host form submitted target value rest
        (if fell then report.insert (a.reportKey target) a.message else report) s b) :
      Asks host form submitted target value (a :: rest) report r b

/-- Going through the targets, the pass asks the rule of an application of one of them. -/
inductive Consults (host : Host) (form : Form) (submitted : Value) :
    List (Value × List Application) → Report → Registry → Value → Application → Prop where
  | here {target value : Value} {applications : List Application}
      (rest : List (Value × List Application)) {report : Report} {r : Registry} {a : Application}
      (read : Submission.value submitted target = .ok value)
      (asks : Asks host form submitted target value applications report r a) :
      Consults host form submitted ((target, applications) :: rest) report r target a
  | later {target value other : Value} {applications : List Application}
      {rest : List (Value × List Application)} {report next : Report} {r s : Registry}
      {a : Application} (read : Submission.value submitted target = .ok value)
      (passed : outcome (checkApplications host form submitted target value applications report) r =
        (.ok next, s))
      (behind : Consults host form submitted rest next s other a) :
      Consults host form submitted ((target, applications) :: rest) report r other a

/-- The pass over a form gets past its first targets, with what is reported by then. -/
def Arrives (host : Host) (form : Form) (submitted : Value)
    (before : List (Value × List Application)) (report : Report) (r : Registry) : Prop :=
  outcome (checkTargets host form submitted before Table.empty) form.registry = (.ok report, r)

/-- The pass over a form asks no rule about a target. -/
def LeavesOut (host : Host) (form : Form) (submitted target : Value) : Prop :=
  ∀ b, ¬ Consults host form submitted form.rules.entries Table.empty form.registry target b

/-! The applications of one target. -/

theorem exists_isSettled (hg : a.group.isKey = true) (report : Report) (target : Value) :
    ∃ settled, isSettled report target a = .ok settled := ⟨_, isSettled_of_isKey hg report target⟩

/-- One of the applications is asked exactly where the first one is. -/
theorem exists_asks_iff : (∃ b, Asks host form submitted target value (a :: rest) report r b) ↔
    isSettled report target a = .ok false ∧ Needed form target value := by
  constructor
  · rintro ⟨b, h⟩
    cases h with
    | here _ _ unsettled needed => exact ⟨unsettled, needed⟩
    | later unsettled needed _ _ _ => exact ⟨unsettled, needed⟩
  · rintro ⟨unsettled, needed⟩
    exact ⟨a, .here rest r unsettled needed⟩

/-- Where none is asked, nothing is reported and the registry stays what it was. -/
theorem checkApplications_of_not_asks (hg : a.group.isKey = true)
    (h : ¬ ∃ b, Asks host form submitted target value (a :: rest) report r b) :
    outcome (checkApplications host form submitted target value (a :: rest) report) r =
      (.ok report, r) := by
  obtain ⟨settled, hs⟩ := exists_isSettled hg report target
  rw [checkApplications, outcome_bind_of_ok (by rw [Registry.outcome_lift, hs])]
  cases settled with
  | true => rfl
  | false =>
    have hn : ¬ Needed form target value := fun hn => h (exists_asks_iff.mpr ⟨hs, hn⟩)
    rw [skipped_iff.mpr hn]
    rfl

/-- Where none is asked the log does not grow. -/
theorem none_asked
    (h : ¬ ∃ b, Asks host form submitted target value applications report r b) :
    ∃ more, log = log ++ more ∧ (∀ e ∈ more, e.target = target) ∧ ∀ b,
      Asks host form submitted target value applications report r b ↔
        ∃ e ∈ more, e.application = b := by
  refine ⟨[], by simp, by simp, fun b => ?_⟩
  simpa using not_exists.mp h b

/-- What is asked about a target is what the log grows by. -/
theorem Evaluates.asks_iff
    (h : Evaluates host form submitted target value applications log r out t)
    (hl : report.entries = failures log)
    (hc : outcome (checkApplications host form submitted target value applications report) r =
      (.ok found, u)) :
    ∃ more, out = log ++ more ∧ (∀ e ∈ more, e.target = target) ∧ ∀ b,
      Asks host form submitted target value applications report r b ↔
        ∃ e ∈ more, e.application = b := by
  induction h generalizing report found u with
  | done =>
    refine none_asked fun hb => ?_
    obtain ⟨b, hb⟩ := hb
    cases hb
  | settled _ _ known =>
    refine none_asked fun hb => ?_
    cases (isSettled_eq_ok hl (exists_asks_iff.mp hb).1).mpr known
  | idle _ _ _ unneeded => exact none_asked fun hb => unneeded (exists_asks_iff.mp hb).2
  | @asked a rest log out r s t verdict unknown needed answered _ ih =>
    rcases checkApplications_cases hc with
      ⟨hs, _⟩ | ⟨hs, ⟨hn, _⟩ | ⟨_, again, v, fell, hv, hf, hrest⟩⟩
    · exact absurd ((isSettled_eq_ok hl hs).mp rfl) unknown
    · exact absurd needed hn
    -- the rule answers once, so the run and the log tell of the same verdict
    obtain ⟨⟨⟩, rfl⟩ := Prod.ext_iff.mp (answered.symm.trans hv)
    obtain ⟨more, hout, htarget, hmore⟩ := ih (entries_after_asked hl hs hf) hrest
    refine ⟨⟨target, a, verdict⟩ :: more, by simp [hout], by simpa using htarget, fun b => ?_⟩
    rw [List.exists_mem_cons_iff, ← hmore b]
    constructor
    · intro hb
      cases hb with
      | here _ _ _ _ => exact Or.inl rfl
      | later _ _ also weighed behind =>
        obtain ⟨⟨⟩, rfl⟩ := Prod.ext_iff.mp (answered.symm.trans also)
        obtain rfl := Except.ok.inj (hf.symm.trans weighed)
        exact Or.inr behind
    · rintro (rfl | hb)
      · exact .here rest _ hs needed
      · exact .later hs needed answered hf hb

/-! All targets. -/

theorem Asks.mem (h : Asks host form submitted target value applications report r b) :
    b ∈ applications := by
  induction h with
  | here => exact List.mem_cons_self
  | later _ _ _ _ _ ih => exact List.mem_cons_of_mem _ ih

theorem Consults.mem (h : Consults host form submitted entries report r target b) :
    ∃ entry ∈ entries, entry.1 = target ∧ b ∈ entry.2 := by
  induction h with
  | here _ _ asks => exact ⟨_, List.mem_cons_self, rfl, asks.mem⟩
  | later _ _ _ ih =>
    obtain ⟨entry, hm, h⟩ := ih
    exact ⟨entry, List.mem_cons_of_mem _ hm, h⟩

/-- What the pass asks about the first target is what it asks there, as it does not come back. -/
theorem consults_first (hd : ∀ entry ∈ behind, target.same entry.1 = false)
    (hv : Submission.value submitted target = .ok value) :
    Consults host form submitted ((target, applications) :: behind) report r target b ↔
      Asks host form submitted target value applications report r b := by
  constructor
  · intro h
    cases h with
    | here _ read asks =>
      obtain rfl := Except.ok.inj (hv.symm.trans read)
      exact asks
    | later _ _ later =>
      obtain ⟨entry, hm, he, _⟩ := later.mem
      have hno := hd entry hm
      rw [he, Value.same_self] at hno
      cases hno
  · exact fun h => .here behind hv h

/-- What the pass asks about a later target is what it asks once it is past the first. -/
theorem consults_later {other : Value} (hd : other.same target = false) :
    Consults host form submitted ((other, applications) :: behind) report r target b ↔
      ∃ value next s, Submission.value submitted other = .ok value ∧
        outcome (checkApplications host form submitted other value applications report) r =
          (.ok next, s) ∧
        Consults host form submitted behind next s target b := by
  constructor
  · intro h
    cases h with
    | here _ _ _ =>
      rw [Value.same_self] at hd
      cases hd
    | later read passed later => exact ⟨_, _, _, read, passed, later⟩
  · rintro ⟨value, next, s, read, passed, later⟩
    exact .later read passed later

/-- What the pass asks about a target is what it asks when it gets there. -/
theorem consults_iff
    (hd : (before ++ (target, applications) :: behind).Pairwise fun one other =>
      one.1.same other.1 = false)
    (hv : Submission.value submitted target = .ok value) :
    Consults host form submitted (before ++ (target, applications) :: behind) report r target b ↔
      ∃ next s, outcome (checkTargets host form submitted before report) r = (.ok next, s) ∧
        Asks host form submitted target value applications next s b := by
  induction before generalizing report r with
  | nil =>
    rw [List.nil_append, consults_first (List.pairwise_cons.mp hd).1 hv]
    constructor
    · exact fun h => ⟨report, r, rfl, h⟩
    · rintro ⟨_, _, ⟨⟩, h⟩
      exact h
  | cons entry before ih =>
    obtain ⟨other, others⟩ := entry
    obtain ⟨hfirst, hrest⟩ := List.pairwise_cons.mp hd
    rw [List.cons_append, consults_later (hfirst (target, applications) (by simp))]
    simp only [checkTargets_cons, ih hrest]
    constructor
    · rintro ⟨found, middle, s, read, passed, next, t, hn, h⟩
      exact ⟨next, t, ⟨found, middle, s, read, passed, hn⟩, h⟩
    · rintro ⟨next, t, ⟨found, middle, s, read, passed, hn⟩, h⟩
      exact ⟨found, middle, s, read, passed, next, t, hn, h⟩

/-- Where the pass comes to an end, what was asked is what the log tells. -/
theorem Pass.consults_iff (h : Pass host form submitted entries log r out t)
    (hl : report.entries = failures log)
    (hc : outcome (checkTargets host form submitted entries report) r = (.ok found, u)) :
    ∃ more, out = log ++ more ∧ ∀ target b,
      Consults host form submitted entries report r target b ↔
        ∃ e ∈ more, e.target = target ∧ e.application = b := by
  induction h generalizing report found u with
  | done =>
    refine ⟨[], by simp, fun target b => ⟨fun hb => ?_, fun ⟨_, hm, _⟩ => ?_⟩⟩
    · cases hb
    · cases hm
  | @target first value applications rest log next out r s t read here _ ih =>
    obtain ⟨other, middle, v, hv, hm, hrest⟩ := checkTargets_cons.mp hc
    obtain rfl := Except.ok.inj (read.symm.trans hv)
    obtain ⟨told, hpassed, hmiddle⟩ := evaluates_of_checkApplications hl hm
    obtain ⟨rfl, rfl⟩ := here.unique hpassed
    obtain ⟨asked, rfl, htarget, hasked⟩ := here.asks_iff hl hm
    obtain ⟨more, rfl, hmore⟩ := ih hmiddle hrest
    refine ⟨asked ++ more, by simp, fun target b => ?_⟩
    constructor
    · intro hb
      cases hb with
      | here _ also asks =>
        obtain rfl := Except.ok.inj (read.symm.trans also)
        obtain ⟨e, he, hb⟩ := (hasked b).mp asks
        exact ⟨e, List.mem_append_left _ he, htarget e he, hb⟩
      | later also passed later =>
        obtain rfl := Except.ok.inj (read.symm.trans also)
        obtain ⟨⟨⟩, rfl⟩ := Prod.ext_iff.mp (hm.symm.trans passed)
        obtain ⟨e, he, h⟩ := (hmore target b).mp later
        exact ⟨e, List.mem_append_right _ he, h⟩
    · rintro ⟨e, he, ht, hb⟩
      rcases List.mem_append.mp he with he | he
      · obtain rfl := (htarget e he).symm.trans ht
        exact .here rest read ((hasked b).mpr ⟨e, he, hb⟩)
      · exact .later read hm ((hmore target b).mpr ⟨e, he, ht, hb⟩)

/-- A pass over a form gets to a target whose first application is not settled, and needed. -/
theorem exists_consults_iff (h : form.Reachable host)
    (hs : form.rules.entries = before ++ (target, a :: rest) :: behind)
    (hv : Submission.value submitted target = .ok value) :
    (∃ b, Consults host form submitted form.rules.entries Table.empty form.registry target b) ↔
      Needed form target value ∧ ∃ report r, Arrives host form submitted before report r ∧
        isSettled report target a = .ok false := by
  have hd := h.distinct
  unfold Distinct at hd
  rw [hs] at hd ⊢
  simp only [consults_iff hd hv]
  constructor
  · rintro ⟨b, report, r, hr, hb⟩
    obtain ⟨unsettled, needed⟩ := exists_asks_iff.mp ⟨b, hb⟩
    exact ⟨needed, report, r, hr, unsettled⟩
  · rintro ⟨needed, report, r, hr, unsettled⟩
    exact ⟨a, report, r, hr, .here rest r unsettled needed⟩

/-- What the required rule takes for empty is left out at an optional target exactly where it is
nothing or the empty text, or where the first application of the target is settled when the pass gets
there. Nothing is reported then. What a finished pass asked, its log tells. -/
theorem empty_left_out_iff (h : form.Reachable host)
    (hs : form.rules.entries = before ++ (target, a :: rest) :: behind)
    (ho : form.isRequired target = false) (hv : Submission.value submitted target = .ok value) :
    ((Rule.isPresent value = .ok false → LeavesOut host form submitted target) ↔
      Rule.isPresent value ≠ .ok false ∨ (value = .null ∨ value = .text "") ∨
        ∀ report r, Arrives host form submitted before report r →
          isSettled report target a = .ok true) ∧
    (LeavesOut host form submitted target → ∀ report r, Arrives host form submitted before report r →
      outcome (checkApplications host form submitted target value (a :: rest) report) r =
        (.ok report, r)) ∧
    ∀ report t, Arrives host form submitted form.rules.entries report t →
      ∃ log, Pass host form submitted form.rules.entries [] form.registry log t ∧
        report.entries = failures log ∧
        ∀ b, Consults host form submitted form.rules.entries Table.empty form.registry target b ↔
          ∃ e ∈ log, e.target = target ∧ e.application = b := by
  have hg : a.group.isKey = true := h.sound.groups (target, a :: rest) (by simp [hs]) a (by simp)
  have hsome := exists_consults_iff h hs hv
  have hneeded : Needed form target value ↔ ¬ (value = .null ∨ value = .text "") := by
    simp [Needed, ho]
  refine ⟨?_, fun hno report r hr => ?_, fun report t hc => ?_⟩
  · unfold LeavesOut
    rw [← not_exists, hsome, hneeded]
    constructor
    · intro hlaw
      by_cases hp : Rule.isPresent value ≠ .ok false
      · exact Or.inl hp
      refine Or.inr (or_iff_not_imp_left.mpr fun hb report r hr => ?_)
      obtain ⟨settled, hset⟩ := exists_isSettled hg report target
      cases settled with
      | true => exact hset
      | false => exact absurd ⟨hb, report, r, hr, hset⟩ (hlaw (not_not.mp hp))
    · rintro (hp | hb | hset) he ⟨hn, report, r, hr, unsettled⟩
      · exact hp he
      · exact hn hb
      · rw [hset report r hr] at unsettled
        cases unsettled
  · refine checkApplications_of_not_asks hg fun hb => not_exists.mpr hno (hsome.mpr ?_)
    obtain ⟨unsettled, needed⟩ := exists_asks_iff.mp hb
    exact ⟨needed, report, r, hr, unsettled⟩
  · have hstart : (Table.empty : Report).entries = failures [] := rfl
    obtain ⟨log, hpass, hlog⟩ := pass_of_checkTargets hstart hc
    obtain ⟨more, hmore, hall⟩ := hpass.consults_iff hstart hc
    obtain rfl : log = more := hmore
    exact ⟨log, hpass, hlog, hall target⟩

/-- Nothing chosen in the group of the contact form. -/
def unchosen : Value :=
  .map [(.text "name", .text "Ann"), (.text "again", .text "Ann"), (.text "phone", .map [])]

theorem contactForm_reachable : contactForm.Reachable Host.bare :=
  ⟨plainRegistry, [textField "name", textField "again", phoneGroup], _, _, ⟨_, rfl⟩, rfl, rfl⟩

theorem empty_left_out_iff_phone :
    ∃ before a rest behind, contactForm.Reachable Host.bare ∧
      contactForm.rules.entries = before ++ (.text "phone", a :: rest) :: behind ∧
      contactForm.isRequired (.text "phone") = false ∧
      Submission.value unchosen (.text "phone") = .ok (.list []) ∧
      ¬ LeavesOut Host.bare contactForm unchosen (.text "phone") := by
  have hs : contactForm.rules.entries = contactForm.rules.entries.take 1 ++
      (.text "phone", _ :: _) :: [] := rfl
  have ho : contactForm.isRequired (.text "phone") = false := by decide +kernel
  have hv : Submission.value unchosen (.text "phone") = .ok (.list []) := rfl
  refine ⟨_, _, _, _, contactForm_reachable, hs, ho, hv, fun hno => ?_⟩
  rcases (empty_left_out_iff contactForm_reachable hs ho hv).1.mp fun _ => hno with hp | hb | hset
  · exact hp rfl
  · rcases hb with hb | hb <;> cases hb
  · have hset := hset Table.empty _ (Prod.ext rfl rfl)
    cases hset

/-- The empty group is reported, though nothing in it is mandatory. -/
theorem empty_group_reported :
    ∃ (form : Form) (submitted value : Value), form.Reachable Host.bare ∧
      form.isRequired (.text "phone") = false ∧
      Submission.value submitted (.text "phone") = .ok value ∧ Rule.isPresent value = .ok false ∧
      ¬ LeavesOut Host.bare form submitted (.text "phone") ∧
      (outcome (validate Host.bare submitted) form).1 =
        .ok ⟨[(.text "phone", .text "Long")]⟩ := by
  have hname : Submission.value unchosen (.text "name") = .ok (.text "Ann") := rfl
  have hphone : Submission.value unchosen (.text "phone") = .ok (.list []) := rfl
  refine ⟨contactForm, unchosen, .list [], contactForm_reachable, by decide +kernel, hphone, rfl, ?_,
    by decide +kernel⟩
  intro hno
  exact hno _ (.later hname (Prod.ext rfl rfl) (.here _ hphone (.here _ _ rfl (Or.inr (by decide)))))

end FormGuard.Form
