import FormGuard.Proofs.Form.Run

/-! The pass application by application: where the applications of a target report together, leaving
a target early is the same as looking at each application by itself. -/
namespace FormGuard.Form
variable {host : Host} {form : Form} {submitted value target : Value} {a : Application}
  {report out : Report} {r t : Registry} {verdict : Registry.Verdict}

/-- An application fails: its target is mandatory or has a value, its rule answers what it is asked,
and the answer is no or too little. -/
def Fails (host : Host) (form : Form) (submitted target : Value) (a : Application)
    (r : Registry) : Prop :=
  ∃ value asked whole verdict, Submission.value submitted target = .ok value ∧
    Needed form target value ∧ Asked submitted value a asked whole ∧
    (outcome (Registry.validate host a.type asked a.format whole) r).1 = .ok verdict ∧
    (verdict.holds = false ∨
      a.howmany.truthy = true ∧ Value.less (.int verdict.number) a.howmany = .ok true)

theorem falls_eq_ok_true : falls a verdict = .ok true ↔ verdict.holds = false ∨
    a.howmany.truthy = true ∧ Value.less (.int verdict.number) a.howmany = .ok true := by
  unfold falls
  cases verdict.holds with
  | false => simp
  | true =>
    cases a.howmany.truthy with
    | false => simp
    | true => simp

theorem fails_iff (hv : Submission.value submitted target = .ok value) :
    Fails host form submitted target a r ↔ Needed form target value ∧
      ∃ verdict, (outcome (evaluate host submitted value a) r).1 = .ok verdict ∧
        falls a verdict = .ok true := by
  constructor
  · rintro ⟨other, asked, whole, verdict, ho, hn, ha, hr, hf⟩
    obtain rfl : value = other := by simpa [hv] using ho
    exact ⟨hn, verdict, (evaluate_of_asked ha host r) ▸ hr, falls_eq_ok_true.mpr hf⟩
  · rintro ⟨hn, verdict, hr, hf⟩
    obtain ⟨asked, whole, ha⟩ := asked_of_evaluate hr
    exact ⟨value, asked, whole, verdict, hv, hn, ha, (evaluate_of_asked ha host r) ▸ hr,
      falls_eq_ok_true.mp hf⟩

instance : Decidable (Fails host form submitted target a r) :=
  match hv : Submission.value submitted target with
  | .error _ => isFalse fun ⟨_, _, _, _, ho, _⟩ => by simp [hv] at ho
  | .ok value =>
    match he : (outcome (evaluate host submitted value a) r).1 with
    | .error _ => isFalse fun hf => by
      obtain ⟨_, _, ho, _⟩ := (fails_iff hv).mp hf
      simp [he] at ho
    | .ok verdict =>
      decidable_of_iff (Needed form target value ∧ falls a verdict = .ok true) (by
        rw [fails_iff hv, he]
        simp)

section
variable (host form submitted)

/-- Looks at one application of a target. -/
def checkOne (target : Value) (a : Application) (report : Report) : Registry.Action Report := do
  let value ← Registry.lift (Submission.value submitted target)
  checkApplications host form submitted target value [a] report

/-- Looks at applications one after the other. -/
def checkEach : List (Value × Application) → Report → Registry.Action Report
  | [], report => pure report
  | (target, a) :: rest, report => do checkEach rest (← checkOne host form submitted target a report)

/-- The registry on which the pass comes to an application, by what is stored before it. -/
def reached (before : List (Value × Application)) : Registry :=
  (outcome (checkEach host form submitted before Table.empty) form.registry).2

end

theorem outcome_checkOne (hv : Submission.value submitted target = .ok value) (a : Application)
    (report : Report) (r : Registry) :
    outcome (checkOne host form submitted target a report) r =
      outcome (checkApplications host form submitted target value [a] report) r := by
  unfold checkOne
  rw [outcome_bind_of_ok (by rw [Registry.outcome_lift, hv])]

theorem isSettled_congr {b : Application} (h : b.group = a.group) (report : Report)
    (target : Value) : isSettled report target b = isSettled report target a := by
  unfold isSettled
  rw [h]

/-- Once one of them is settled, so are all that report together with it. -/
theorem checkApplications_of_settled {applications : List Application}
    (hs : isSettled report target a = .ok true) (hg : ∀ b ∈ applications, b.group = a.group)
    (r : Registry) :
    outcome (checkApplications host form submitted target value applications report) r =
      (.ok report, r) := by
  cases applications with
  | nil => rfl
  | cons b rest =>
    have hb := (isSettled_congr (hg b List.mem_cons_self) report target).trans hs
    rw [checkApplications, outcome_bind_of_ok (by rw [Registry.outcome_lift, hb])]
    rfl

/-- A target without need of a value has nothing to report. -/
theorem checkApplications_of_not_needed {applications : List Application} {settled : Bool}
    (hn : ¬ Needed form target value) (hs : isSettled report target a = .ok settled)
    (hg : ∀ b ∈ applications, b.group = a.group) (r : Registry) :
    outcome (checkApplications host form submitted target value applications report) r =
      (.ok report, r) := by
  cases applications with
  | nil => rfl
  | cons b rest =>
    have hb := (isSettled_congr (hg b List.mem_cons_self) report target).trans hs
    rw [checkApplications, outcome_bind_of_ok (by rw [Registry.outcome_lift, hb]),
      skipped_iff.mpr hn]
    cases settled <;> rfl

/-- What is not settled and needed is asked, and what follows depends on the answer. -/
theorem checkApplications_of_needed (hs : isSettled report target a = .ok false)
    (hn : Needed form target value) (rest : List Application) (r : Registry) :
    outcome (checkApplications host form submitted target value (a :: rest) report) r =
      outcome (do
        let verdict ← evaluate host submitted value a
        if ← Registry.lift (falls a verdict) then
          Registry.lift (a.reportKey target).needKey
          checkApplications host form submitted target value rest
            (report.insert (a.reportKey target) a.message)
        else checkApplications host form submitted target value rest report) r := by
  rw [checkApplications, outcome_bind_of_ok (by rw [Registry.outcome_lift, hs]), not_skipped hn]
  rfl

/-- The applications of a target that report together are looked at one by one. -/
theorem checkApplications_cons {rest : List Application} (hg : ∀ b ∈ rest, b.group = a.group)
    (report : Report) (r : Registry) :
    outcome (checkApplications host form submitted target value (a :: rest) report) r =
      outcome (do
        let found ← checkApplications host form submitted target value [a] report
        checkApplications host form submitted target value rest found) r := by
  -- where the pass leaves the target at `a`, it would leave it at each of the rest as well
  have hone : ∀ b ∈ [a], b.group = a.group := by simp
  have hall : ∀ b ∈ a :: rest, b.group = a.group := List.forall_mem_cons.mpr ⟨rfl, hg⟩
  cases hs : isSettled report target a with
  | error e =>
    have hstop : outcome (Registry.lift (isSettled report target a)) r = (.error e, r) := by
      rw [Registry.outcome_lift, hs]
    have hsingle : outcome (checkApplications host form submitted target value [a] report) r =
        (.error e, r) := by
      rw [checkApplications, outcome_bind_of_error hstop]
    rw [checkApplications, outcome_bind_of_error hstop, outcome_bind_of_error hsingle]
  | ok settled =>
    by_cases hn : Needed form target value
    swap
    · rw [outcome_bind_of_ok (checkApplications_of_not_needed hn hs hone r),
        checkApplications_of_not_needed hn hs hall, checkApplications_of_not_needed hn hs hg]
    cases settled with
    | true =>
      rw [outcome_bind_of_ok (checkApplications_of_settled hs hone r),
        checkApplications_of_settled hs hall, checkApplications_of_settled hs hg]
    | false =>
      rw [FormGuard.outcome_bind (checkApplications host form submitted target value [a] report),
        checkApplications_of_needed hs hn, checkApplications_of_needed hs hn]
      rcases ho : outcome (evaluate host submitted value a) r with ⟨e | verdict, s⟩
      · rw [outcome_bind_of_error ho, outcome_bind_of_error ho]
      rw [outcome_bind_of_ok ho, outcome_bind_of_ok ho]
      cases falls a verdict with
      | error e => rfl
      | ok fell =>
        rw [outcome_bind_of_ok (Registry.outcome_lift _ _),
          outcome_bind_of_ok (Registry.outcome_lift _ _)]
        cases fell with
        | false => rfl
        | true => cases (a.reportKey target).needKey <;> rfl

theorem outcome_checkEach_cons
    (h : outcome (checkOne host form submitted target a report) r = (.ok out, t))
    (rest : List (Value × Application)) :
    outcome (checkEach host form submitted ((target, a) :: rest) report) r =
      outcome (checkEach host form submitted rest out) t := by
  rw [checkEach, outcome_bind_of_ok h]

theorem checkEach_append (before applications : List (Value × Application)) (report : Report)
    (r : Registry) :
    outcome (checkEach host form submitted (before ++ applications) report) r =
      outcome (do
        let found ← checkEach host form submitted before report
        checkEach host form submitted applications found) r := by
  induction before generalizing report r with
  | nil => rfl
  | cons entry before ih =>
    obtain ⟨target, a⟩ := entry
    rw [List.cons_append, checkEach, checkEach, bind_assoc]
    rcases ho : outcome (checkOne host form submitted target a report) r with ⟨e | found, s⟩
    · rw [outcome_bind_of_error ho, outcome_bind_of_error ho]
    · rw [outcome_bind_of_ok ho, outcome_bind_of_ok ho, ih]

/-- The applications of a target whose value can be read are looked at one by one, as long as they
all report together. -/
theorem checkApplications_eq_checkEach {applications : List Application}
    (hv : Submission.value submitted target = .ok value)
    (hg : ∀ a ∈ applications, ∀ b ∈ applications, b.group = a.group) (report : Report)
    (r : Registry) :
    outcome (checkApplications host form submitted target value applications report) r =
      outcome (checkEach host form submitted (applications.map fun a => (target, a)) report) r := by
  induction applications generalizing report r with
  | nil => rfl
  | cons a rest ih =>
    have hrest := fun found s => ih (fun b hb c hc =>
      hg b (List.mem_cons_of_mem _ hb) c (List.mem_cons_of_mem _ hc)) found s
    have hsame := fun b hb => hg a List.mem_cons_self b (List.mem_cons_of_mem _ hb)
    rw [checkApplications_cons hsame, List.map_cons, checkEach, FormGuard.outcome_bind,
      FormGuard.outcome_bind, outcome_checkOne hv]
    rcases outcome (checkApplications host form submitted target value [a] report) r with
      ⟨e | found, s⟩
    · rfl
    · exact hrest found s

/-- The pass over targets that all have applications, each of them reporting together, looks at the
applications one by one. -/
theorem checkTargets_eq_checkEach {entries : List (Value × List Application)}
    (hn : ∀ entry ∈ entries, entry.2 ≠ [])
    (hg : ∀ entry ∈ entries, ∀ a ∈ entry.2, ∀ b ∈ entry.2, b.group = a.group) (report : Report)
    (r : Registry) :
    outcome (checkTargets host form submitted entries report) r =
      outcome (checkEach host form submitted
        (entries.flatMap fun entry => entry.2.map fun a => (entry.1, a)) report) r := by
  induction entries generalizing report r with
  | nil => rfl
  | cons entry rest ih =>
    obtain ⟨target, applications⟩ := entry
    have hrest := fun found s => ih (fun e he => hn e (List.mem_cons_of_mem _ he))
      (fun e he => hg e (List.mem_cons_of_mem _ he)) found s
    have hsame := hg _ List.mem_cons_self
    have hsome := hn _ List.mem_cons_self
    rw [checkTargets, List.flatMap_cons, checkEach_append]
    cases hv : Submission.value submitted target with
    | error e =>
      obtain ⟨a, more, rfl⟩ := List.exists_cons_of_ne_nil hsome
      have hstop : outcome (checkOne host form submitted target a report) r = (.error e, r) := by
        unfold checkOne
        rw [outcome_bind_of_error (by rw [Registry.outcome_lift, hv])]
      have hfirst : outcome (checkEach host form submitted
          ((a :: more).map fun a => (target, a)) report) r = (.error e, r) := by
        rw [List.map_cons, checkEach, outcome_bind_of_error hstop]
      rw [outcome_bind_of_error (Registry.outcome_lift _ _), outcome_bind_of_error hfirst]
    | ok value =>
      rw [outcome_bind_of_ok (Registry.outcome_lift _ _), FormGuard.outcome_bind,
        FormGuard.outcome_bind, checkApplications_eq_checkEach hv hsame]
      rcases outcome (checkEach host form submitted (applications.map fun a => (target, a)) report) r
        with ⟨e | found, s⟩
      · rfl
      · exact hrest found s

/-- One application either finds its key reported, or does not fail, or reports under its key. -/
theorem checkOne_cases
    (hs : isSettled report target a = .ok (report.contains (a.reportKey target)))
    (h : outcome (checkOne host form submitted target a report) r = (.ok out, t)) :
    report.contains (a.reportKey target) = true ∧ out = report ∨
    report.contains (a.reportKey target) = false ∧
      (¬ Fails host form submitted target a r ∧ out = report ∨
        Fails host form submitted target a r ∧
          out = report.insert (a.reportKey target) a.message) := by
  obtain ⟨value, s, hv, h⟩ := outcome_bind_eq_ok.mp h
  rw [Registry.outcome_lift, Prod.mk.injEq] at hv
  obtain ⟨hv, rfl⟩ := hv
  rcases checkApplications_cases h with
    ⟨hk, rfl, _⟩ | ⟨hk, ⟨hn, rfl, _⟩ | ⟨hn, verdict, u, fell, he, hf, hrest⟩⟩
  · exact Or.inl ⟨Except.ok.inj (hs.symm.trans hk), rfl⟩
  · have hno : ¬ Fails host form submitted target a r := fun hf => hn ((fails_iff hv).mp hf).1
    exact Or.inr ⟨Except.ok.inj (hs.symm.trans hk), Or.inl ⟨hno, rfl⟩⟩
  · refine Or.inr ⟨Except.ok.inj (hs.symm.trans hk), ?_⟩
    rw [fails_iff hv]
    cases hrest
    cases fell with
    | true => exact Or.inr ⟨⟨hn, verdict, congrArg Prod.fst he, hf⟩, rfl⟩
    | false =>
      refine Or.inl ⟨?_, rfl⟩
      rintro ⟨_, other, ho, hfall⟩
      obtain rfl : verdict = other := by simpa [he] using ho
      rw [hf] at hfall
      cases hfall

/-- An application that fails or is satisfied, and whose group can be a key, is got past. -/
theorem exists_checkOne (hs : isSettled report target a = .ok (report.contains (a.reportKey target)))
    (hk : (a.reportKey target).isKey = true)
    (hd : Fails host form submitted target a r ∨ Satisfied host form submitted target a r) :
    ∃ out t, outcome (checkOne host form submitted target a report) r = (.ok out, t) := by
  obtain ⟨value, hv⟩ : ∃ value, Submission.value submitted target = .ok value := by
    rcases hd with ⟨value, _, _, _, hv, _⟩ | ⟨value, hv, _⟩ <;> exact ⟨value, hv⟩
  rw [outcome_checkOne hv]
  by_cases hn : Needed form target value
  swap
  · exact ⟨report, r, checkApplications_of_not_needed hn hs (by simp) r⟩
  cases hc : report.contains (a.reportKey target) with
  | true =>
    rw [hc] at hs
    exact ⟨report, r, checkApplications_of_settled hs (by simp) r⟩
  | false =>
    rw [hc] at hs
    rw [checkApplications_of_needed hs hn]
    obtain ⟨verdict, fell, he, hf⟩ : ∃ verdict fell,
        (outcome (evaluate host submitted value a) r).1 = .ok verdict ∧
          falls a verdict = .ok fell := by
      rw [fails_iff hv, satisfied_iff hv hn, passes_iff] at hd
      rcases hd with ⟨_, verdict, he, hf⟩ | ⟨verdict, he, hf⟩ <;> exact ⟨verdict, _, he, hf⟩
    rw [outcome_bind_of_ok (Prod.ext he rfl), hf, outcome_bind_of_ok (Registry.outcome_lift _ _)]
    cases fell with
    | false => exact ⟨report, _, rfl⟩
    | true =>
      have hneed : (a.reportKey target).needKey = .ok () := Value.needKey_eq_ok.mpr hk
      rw [if_pos rfl, outcome_bind_of_ok (by rw [Registry.outcome_lift, hneed])]
      exact ⟨_, _, rfl⟩

theorem moves_checkEach (host : Host) (form : Form) (submitted : Value)
    (applications : List (Value × Application)) (report : Report) :
    Moves (Registry.Looks host (Rule.KeepsState host))
      (checkEach host form submitted applications report) := by
  induction applications generalizing report with
  | nil => exact moves_pure report
  | cons entry rest ih =>
    obtain ⟨target, a⟩ := entry
    refine moves_bind (moves_bind (Registry.moves_lift _) fun value => ?_) fun found => ih found
    exact moves_checkApplications host form submitted target value [a] report

theorem fails_congr (hs : host.Stateless) {s : Registry} (hr : r.Keyed)
    (h : Registry.Agree host (Rule.KeepsState host) r s) :
    Fails host form submitted target a s ↔ Fails host form submitted target a r := by
  simp only [Fails, validate_congr (steady_of_stateless hs r a.type) hr h]

end FormGuard.Form
