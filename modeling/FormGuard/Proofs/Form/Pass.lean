import FormGuard.Form.Validation
import FormGuard.Proofs.Form.Declaration

/-! The pass over the applications of a form, and when it reports nothing. -/
namespace FormGuard.Form
variable {host : Host} {form : Form} {submitted value target : Value} {a : Application}
  {report out : Report} {r t : Registry} {verdict : Registry.Verdict}

/-- What the rule of an application is asked about, and whether as one unit: the value together with
those of the dependents, a list where no number of items has to pass, or the value as it is. -/
inductive Asked (submitted value : Value) (a : Application) : Value → Bool → Prop where
  | together {others : List Value} (dependents : a.dependents ≠ [])
      (read : a.dependents.mapM (Submission.value submitted) = .ok others) :
      Asked submitted value a (.list (value :: others)) true
  | list {items : List Value} (alone : a.dependents = []) (list : value = .list items)
      (free : a.howmany = .null) : Asked submitted value a value true
  | plain (alone : a.dependents = []) (other : (∀ items, value ≠ .list items) ∨ a.howmany ≠ .null) :
      Asked submitted value a value false

/-- A verdict is enough for an application: it holds, and reaches the number that has to pass. -/
structure Meets (a : Application) (verdict : Registry.Verdict) : Prop where
  holds : verdict.holds = true
  enough : a.howmany.truthy = true → Value.less (.int verdict.number) a.howmany = .ok false

/-- An application passes on a value: its rule answers what it is asked, and the answer is enough. -/
def Passes (host : Host) (submitted value : Value) (a : Application) (r : Registry) : Prop :=
  ∃ asked whole verdict, Asked submitted value a asked whole ∧
    (outcome (Registry.validate host a.type asked a.format whole) r).1 = .ok verdict ∧
    Meets a verdict

theorem isBlank_iff (value : Value) : isBlank value = true ↔ value = .null ∨ value = .text "" := by
  cases value with
  | kind k => cases k <;> decide
  | mode m => cases m <;> decide
  | text s => simp [isBlank, Value.isNull, Value.same_text]
  | float d =>
    unfold isBlank Value.same Value.key
    cases d.integral? <;> simp [Value.isNull, BEq.beq, Value.beq]
  | _ => simp [isBlank, Value.isNull, Value.same, Value.key, BEq.beq, Value.beq]

theorem falls_eq_ok_false : falls a verdict = .ok false ↔ Meets a verdict := by
  unfold falls
  cases hv : verdict.holds with
  | false => exact ⟨fun h => (by cases h), fun h => absurd h.holds (by simp [hv])⟩
  | true =>
    cases hm : a.howmany.truthy with
    | false => exact ⟨fun _ => ⟨hv, fun h => (by simp [hm] at h)⟩, fun _ => rfl⟩
    | true => exact ⟨fun h => ⟨hv, fun _ => h⟩, fun h => h.enough hm⟩

theorem evaluate_of_asked {asked : Value} {whole : Bool} (h : Asked submitted value a asked whole)
    (host : Host) (r : Registry) :
    outcome (evaluate host submitted value a) r =
      outcome (Registry.validate host a.type asked a.format whole) r := by
  unfold evaluate
  cases h with
  | together hd ho =>
    cases hl : a.dependents with
    | nil => exact absurd hl hd
    | cons first rest =>
      rw [hl] at ho
      exact outcome_bind_of_ok (by rw [Registry.outcome_lift, ho]) _
  | list hd hv hn =>
    subst hv
    simp [hd, hn]
  | plain hd ho =>
    rw [hd]
    cases value with
    | list items =>
      have hn : a.howmany.isNull = false := by
        rw [Bool.eq_false_iff, ne_eq, Value.isNull_iff]
        exact ho.resolve_left fun h => h items rfl
      simp [hn]
    | _ => rfl

/-- Only dependents that cannot be read leave nothing to ask. -/
theorem asked_of_evaluate (h : (outcome (evaluate host submitted value a) r).1 = .ok verdict) :
    ∃ asked whole, Asked submitted value a asked whole := by
  cases hd : a.dependents with
  | nil =>
    cases value with
    | list items =>
      by_cases hn : a.howmany = .null
      · exact ⟨_, _, .list hd rfl hn⟩
      · exact ⟨_, _, .plain hd (Or.inr hn)⟩
    | _ => exact ⟨_, _, .plain hd (Or.inl (by simp))⟩
  | cons first rest =>
    cases ho : a.dependents.mapM (Submission.value submitted) with
    | ok others => exact ⟨_, _, .together (by simp [hd]) ho⟩
    | error e =>
      unfold evaluate at h
      rw [hd] at h ho
      dsimp only at h
      rw [outcome_bind_of_error (by rw [Registry.outcome_lift, ho])] at h
      cases h

theorem passes_iff : Passes host submitted value a r ↔
    ∃ verdict, (outcome (evaluate host submitted value a) r).1 = .ok verdict ∧
      falls a verdict = .ok false := by
  constructor
  · rintro ⟨asked, whole, verdict, ha, hv, hm⟩
    exact ⟨verdict, (evaluate_of_asked ha host r) ▸ hv, falls_eq_ok_false.mpr hm⟩
  · rintro ⟨verdict, hv, hf⟩
    obtain ⟨asked, whole, ha⟩ := asked_of_evaluate hv
    exact ⟨asked, whole, verdict, ha, (evaluate_of_asked ha host r) ▸ hv, falls_eq_ok_false.mp hf⟩

/-- Whether an application is looked at: its target is mandatory or has a value. -/
def Needed (form : Form) (target value : Value) : Prop :=
  form.isRequired target = true ∨ ¬ (value = .null ∨ value = .text "")

instance : Decidable (Needed form target value) := inferInstanceAs (Decidable (_ ∨ _))

theorem skipped_iff : (!form.isRequired target && isBlank value) = true ↔
    ¬ Needed form target value := by
  unfold Needed
  rw [← isBlank_iff]
  simp

/-- An application is satisfied: its target can be read, and it passes where it is looked at. -/
def Satisfied (host : Host) (form : Form) (submitted target : Value) (a : Application)
    (r : Registry) : Prop :=
  ∃ value, Submission.value submitted target = .ok value ∧
    (Needed form target value → Passes host submitted value a r)

section
variable (host form submitted)

/-- The registry after one application was looked at. -/
def after (target : Value) (a : Application) (r : Registry) : Registry :=
  match Submission.value submitted target with
  | .ok value =>
    if !form.isRequired target && isBlank value then r
    else (outcome (evaluate host submitted value a) r).2
  | .error _ => r

/-- The registry after some applications were looked at, one after the other. -/
def afterAll (applications : List (Value × Application)) (r : Registry) : Registry :=
  applications.foldl (fun r entry => after host form submitted entry.1 entry.2 r) r

/-- All of some applications are satisfied, each from where those before it left the registry. -/
def Clear : List (Value × Application) → Registry → Prop
  | [], _ => True
  | (target, a) :: rest, r =>
    Satisfied host form submitted target a r ∧ Clear rest (after host form submitted target a r)

end

theorem satisfied_iff (hv : Submission.value submitted target = .ok value)
    (hn : Needed form target value) :
    Satisfied host form submitted target a r ↔ Passes host submitted value a r := by
  constructor
  · rintro ⟨other, ho, hp⟩
    obtain rfl : value = other := by simpa [hv] using ho
    exact hp hn
  · exact fun hp => ⟨value, hv, fun _ => hp⟩

theorem not_skipped (hn : Needed form target value) :
    (!form.isRequired target && isBlank value) = false := by
  rw [Bool.eq_false_iff, ne_eq, skipped_iff]
  exact not_not_intro hn

theorem after_of_needed (host : Host) (hv : Submission.value submitted target = .ok value)
    (hn : Needed form target value) (a : Application) (r : Registry) :
    after host form submitted target a r = (outcome (evaluate host submitted value a) r).2 := by
  simp [after, hv, not_skipped hn]

/-- Whether something is reported under a target or under the group of an application. -/
def reportedFor (report : Report) (target : Value) (a : Application) : Bool :=
  report.contains target || a.group.truthy && report.contains a.group

theorem isSettled_of_isKey (hg : a.group.isKey = true) (report : Report) (target : Value) :
    isSettled report target a = .ok (reportedFor report target a) := by
  have hk : a.group.needKey = .ok () := Value.needKey_eq_ok.mpr hg
  unfold isSettled reportedFor
  rw [hk]
  cases report.contains target <;> cases a.group.truthy <;> rfl

/-- Where it can be told whether a target is settled, it is told by the report. -/
theorem reportedFor_of_isSettled {settled : Bool} (h : isSettled report target a = .ok settled) :
    reportedFor report target a = settled := by
  unfold isSettled at h
  unfold reportedFor
  cases ht : report.contains target with
  | true =>
    rw [ht] at h
    exact Except.ok.inj h
  | false =>
    rw [ht, if_neg (by decide)] at h
    cases hg : a.group.truthy with
    | false =>
      rw [hg] at h
      exact Except.ok.inj h
    | true =>
      rw [hg] at h
      obtain ⟨_, _, h⟩ := bind_eq_ok.mp h
      exact Except.ok.inj h

theorem isSettled_empty (hg : a.group.isKey = true) (target : Value) :
    isSettled Table.empty target a = .ok false := by
  rw [isSettled_of_isKey hg]
  simp [reportedFor]

/-- What is not settled is not reported yet. -/
theorem not_contains_of_isSettled (h : isSettled report target a = .ok false) :
    report.contains target = false ∧ report.contains (a.reportKey target) = false := by
  obtain ⟨ht, hg⟩ := Bool.or_eq_false_iff.mp (reportedFor_of_isSettled h)
  refine ⟨ht, ?_⟩
  unfold Application.reportKey Value.orElse
  cases htruthy : a.group.truthy with
  | false => simpa using ht
  | true => simpa [htruthy] using hg

theorem isKey_reportKey (hg : a.group.isKey = true) (ht : target.isKey = true) :
    (a.reportKey target).isKey = true := by
  unfold Application.reportKey Value.orElse
  split
  · exact hg
  · exact ht

theorem clear_iff {applications : List (Value × Application)} :
    Clear host form submitted applications r ↔ ∀ before target a rest,
      applications = before ++ (target, a) :: rest →
        Satisfied host form submitted target a (afterAll host form submitted before r) := by
  induction applications generalizing r with
  | nil => simp [Clear]
  | cons entry more ih =>
    obtain ⟨first, b⟩ := entry
    rw [Clear, ih]
    constructor
    · rintro ⟨hb, hall⟩ before target a rest heq
      cases before with
      | nil =>
        cases heq
        exact hb
      | cons other before =>
        cases heq
        exact hall before target a rest rfl
    · intro h
      refine ⟨h [] first b more rfl, ?_⟩
      rintro before target a rest rfl
      exact h ((first, b) :: before) target a rest rfl

theorem clear_append {before applications : List (Value × Application)} :
    Clear host form submitted (before ++ applications) r ↔
      Clear host form submitted before r ∧
        Clear host form submitted applications (afterAll host form submitted before r) := by
  induction before generalizing r with
  | nil => simp [Clear, afterAll]
  | cons entry before ih =>
    obtain ⟨target, a⟩ := entry
    simp only [List.cons_append, Clear, ih, and_assoc]
    rfl

theorem afterAll_cons (entry : Value × Application) (rest : List (Value × Application))
    (r : Registry) : afterAll host form submitted (entry :: rest) r =
      afterAll host form submitted rest (after host form submitted entry.1 entry.2 r) := rfl

theorem afterAll_append (before applications : List (Value × Application)) (r : Registry) :
    afterAll host form submitted (before ++ applications) r =
      afterAll host form submitted applications (afterAll host form submitted before r) :=
  List.foldl_append

/-- A pass that comes to an end over an application left it where it was settled or not needed, or it
asked for a verdict and reported the application where that was too little. -/
theorem checkApplications_cases {rest : List Application}
    (h : outcome (checkApplications host form submitted target value (a :: rest) report) r =
      (.ok out, t)) :
    (isSettled report target a = .ok true ∧ out = report ∧ t = r) ∨
    isSettled report target a = .ok false ∧
      ((¬ Needed form target value ∧ out = report ∧ t = r) ∨
      Needed form target value ∧ ∃ verdict s fell,
        outcome (evaluate host submitted value a) r = (.ok verdict, s) ∧
        falls a verdict = .ok fell ∧
        outcome (checkApplications host form submitted target value rest
          (if fell then report.insert (a.reportKey target) a.message else report)) s =
            (.ok out, t)) := by
  rw [checkApplications] at h
  obtain ⟨settled, u, hs, h⟩ := outcome_bind_eq_ok.mp h
  rw [Registry.outcome_lift, Prod.mk.injEq] at hs
  obtain ⟨hs, rfl⟩ := hs
  cases settled with
  | true =>
    cases h
    exact Or.inl ⟨hs, rfl, rfl⟩
  | false =>
    refine Or.inr ⟨hs, ?_⟩
    by_cases hn : Needed form target value
    swap
    · rw [skipped_iff.mpr hn] at h
      cases h
      exact Or.inl ⟨hn, rfl, rfl⟩
    rw [not_skipped hn] at h
    obtain ⟨verdict, s, hv, h⟩ := outcome_bind_eq_ok.mp h
    obtain ⟨fell, v, hf, h⟩ := outcome_bind_eq_ok.mp h
    rw [Registry.outcome_lift, Prod.mk.injEq] at hf
    obtain ⟨hf, rfl⟩ := hf
    refine Or.inr ⟨hn, verdict, s, fell, hv, hf, ?_⟩
    cases fell with
    | false => exact h
    | true =>
      obtain ⟨_, w, hk, h⟩ := outcome_bind_eq_ok.mp h
      rw [Registry.outcome_lift, Prod.mk.injEq] at hk
      obtain ⟨_, rfl⟩ := hk
      exact h

/-- What is reported stays reported. -/
theorem contains_of_checkApplications {applications : List Application} {key : Value}
    (h : outcome (checkApplications host form submitted target value applications report) r =
      (.ok out, t)) (hk : report.contains key = true) : out.contains key = true := by
  induction applications generalizing report r with
  | nil =>
    cases h
    exact hk
  | cons a rest ih =>
    rcases checkApplications_cases h with
      ⟨_, rfl, _⟩ | ⟨_, ⟨_, rfl, _⟩ | ⟨_, verdict, s, fell, _, _, hrest⟩⟩
    · exact hk
    · exact hk
    · refine ih hrest ?_
      cases fell with
      | false => exact hk
      | true => rw [if_pos rfl, Table.contains_insert, hk, Bool.or_true]

/-- Nothing is reported only where nothing was. -/
theorem eq_empty_of_checkApplications {applications : List Application}
    (h : outcome (checkApplications host form submitted target value applications report) r =
      (.ok Table.empty, t)) : report = Table.empty :=
  Table.eq_empty_of_contains rfl fun _ => contains_of_checkApplications h

theorem clear_of_not_needed (host : Host) (hv : Submission.value submitted target = .ok value)
    (hn : ¬ Needed form target value) (applications : List Application) (r : Registry) :
    Clear host form submitted (applications.map fun a => (target, a)) r ∧
      afterAll host form submitted (applications.map fun a => (target, a)) r = r := by
  induction applications with
  | nil => exact ⟨trivial, rfl⟩
  | cons a rest ih =>
    have ha : after host form submitted target a r = r := by
      simp only [after, hv, skipped_iff.mpr hn, if_true]
    rw [List.map_cons, Clear, afterAll_cons, ha]
    exact ⟨⟨⟨value, hv, fun h => absurd h hn⟩, ih.1⟩, ih.2⟩

/-- The applications of a target report nothing exactly when nothing was reported and all are
satisfied. -/
theorem checkApplications_eq_empty {applications : List Application}
    (hv : Submission.value submitted target = .ok value) (ht : target.isKey = true)
    (hg : ∀ a ∈ applications, a.group.isKey = true) :
    outcome (checkApplications host form submitted target value applications report) r =
        (.ok Table.empty, t) ↔
      report = Table.empty ∧ Clear host form submitted (applications.map fun a => (target, a)) r ∧
        t = afterAll host form submitted (applications.map fun a => (target, a)) r := by
  by_cases hr : report = Table.empty
  swap
  · constructor
    · exact fun h => absurd (eq_empty_of_checkApplications h) hr
    · exact fun h => absurd h.1 hr
  subst hr
  simp only [true_and]
  induction applications generalizing r with
  | nil => simp [checkApplications, Clear, afterAll, eq_comm]
  | cons a rest ih =>
    have hk := hg a List.mem_cons_self
    rw [checkApplications,
      outcome_bind_of_ok (by rw [Registry.outcome_lift, isSettled_empty hk]), if_neg (by decide)]
    by_cases hn : Needed form target value
    swap
    · obtain ⟨hc, he⟩ := clear_of_not_needed host hv hn (a :: rest) r
      rw [if_pos (skipped_iff.mpr hn), he]
      constructor
      · rintro ⟨⟩
        exact ⟨hc, rfl⟩
      · rintro ⟨_, rfl⟩
        rfl
    rw [not_skipped hn, if_neg (by decide), List.map_cons, Clear, satisfied_iff hv hn, passes_iff,
      afterAll_cons, after_of_needed host hv hn]
    rcases ho : outcome (evaluate host submitted value a) r with ⟨e | verdict, s⟩
    · rw [outcome_bind_of_error ho]
      simp
    rw [outcome_bind_of_ok ho]
    cases hf : falls a verdict with
    | error e =>
      rw [outcome_bind_of_error (Registry.outcome_lift _ _)]
      simp [hf]
    | ok fell =>
      rw [outcome_bind_of_ok (Registry.outcome_lift _ _)]
      cases fell with
      | false => simpa [hf] using ih fun b hb => hg b (List.mem_cons_of_mem _ hb)
      | true =>
        have hneed : (a.reportKey target).needKey = .ok () :=
          Value.needKey_eq_ok.mpr (isKey_reportKey hk ht)
        rw [if_pos rfl, outcome_bind_of_ok (by rw [Registry.outcome_lift, hneed])]
        constructor
        · intro h
          exact absurd (eq_empty_of_checkApplications h) (Table.insert_ne_empty _ _ _)
        · rintro ⟨⟨⟨other, hother, hp⟩, _⟩, _⟩
          obtain rfl : verdict = other := by simpa using hother
          rw [hf] at hp
          cases hp

/-- The pass over targets that all have applications reports nothing exactly when all applications
are satisfied. -/
theorem checkTargets_eq_empty {entries : List (Value × List Application)}
    (hn : ∀ entry ∈ entries, entry.2 ≠ [] ∧ entry.1.isKey = true)
    (hg : ∀ entry ∈ entries, ∀ a ∈ entry.2, a.group.isKey = true) :
    outcome (checkTargets host form submitted entries report) r = (.ok Table.empty, t) ↔
      report = Table.empty ∧
        Clear host form submitted
          (entries.flatMap fun entry => entry.2.map fun a => (entry.1, a)) r ∧
        t = afterAll host form submitted
          (entries.flatMap fun entry => entry.2.map fun a => (entry.1, a)) r := by
  induction entries generalizing report r with
  | nil => simp [checkTargets, Clear, afterAll, eq_comm]
  | cons entry rest ih =>
    obtain ⟨target, applications⟩ := entry
    obtain ⟨hsome, hkey⟩ := hn _ List.mem_cons_self
    have hgroup := hg _ List.mem_cons_self
    have hrest := fun found s => @ih found s (fun e he => hn e (List.mem_cons_of_mem _ he))
      fun e he => hg e (List.mem_cons_of_mem _ he)
    rw [checkTargets, List.flatMap_cons, clear_append, afterAll_append]
    cases hv : Submission.value submitted target with
    | error e =>
      rw [outcome_bind_of_error (Registry.outcome_lift _ _)]
      constructor
      · rintro ⟨⟩
      · rintro ⟨_, ⟨hc, _⟩, _⟩
        obtain ⟨a, more, rfl⟩ := List.exists_cons_of_ne_nil hsome
        obtain ⟨value, hvalue, _⟩ := hc.1
        simp [hv] at hvalue
    | ok value =>
      rw [outcome_bind_of_ok (Registry.outcome_lift _ _)]
      constructor
      · intro h
        obtain ⟨found, s, hs, h⟩ := outcome_bind_eq_ok.mp h
        obtain ⟨rfl, hc, ht⟩ := (hrest found s).mp h
        obtain ⟨hr, hclear, rfl⟩ := (checkApplications_eq_empty hv hkey hgroup).mp hs
        exact ⟨hr, ⟨hclear, hc⟩, ht⟩
      · rintro ⟨hr, ⟨hclear, hc⟩, ht⟩
        have hs := (checkApplications_eq_empty hv hkey hgroup).mpr ⟨hr, hclear, rfl⟩
        exact outcome_bind_eq_ok.mpr ⟨_, _, hs, (hrest _ _).mpr ⟨rfl, hc, ht⟩⟩

theorem contains_complete (messages : List (Value × Value)) {key : Value}
    (h : report.contains key = true) : (complete report messages).contains key = true := by
  induction messages generalizing report with
  | nil => exact h
  | cons entry rest ih =>
    obtain ⟨name, message⟩ := entry
    refine ih ?_
    dsimp only
    split
    · exact h
    · rw [Table.contains_insert, h, Bool.or_true]

theorem complete_eq_empty {messages : List (Value × Value)} :
    complete report messages = Table.empty ↔ report = Table.empty ∧ messages = [] := by
  constructor
  · intro h
    obtain rfl : report = Table.empty :=
      Table.eq_empty_of_contains h fun _ => contains_complete messages
    refine ⟨rfl, ?_⟩
    cases messages with
    | nil => rfl
    | cons entry rest =>
      obtain ⟨name, message⟩ := entry
      have hc : (Table.empty.insert name message).contains name = true :=
        Table.contains_insert_self _ _ _
      have hk := contains_complete rest hc
      simpa [complete] using (Table.eq_empty_iff.mp h name).symm.trans hk
  · rintro ⟨rfl, rfl⟩
    rfl

/-- The form rules add nothing exactly when each answers true or with no message. -/
theorem checkFormRules_eq_empty {rules : List Value} :
    checkFormRules host submitted rules report = .ok Table.empty ↔
      report = Table.empty ∧ ∀ rule ∈ rules,
        host.apply rule [submitted] = .ok (.bool true) ∨
          host.apply rule [submitted] = .ok (.map []) := by
  induction rules generalizing report with
  | nil => simp [checkFormRules]
  | cons rule rest ih =>
    rw [checkFormRules, List.forall_mem_cons]
    cases hf : host.apply rule [submitted] with
    | error e =>
      constructor
      · rintro ⟨⟩
      · rintro ⟨_, h | h, _⟩ <;> cases h
    | ok answer =>
      simp only [bind, Except.bind]
      split
      · simp [ih]
      · simp [ih, complete_eq_empty, and_assoc]
      · rename_i hb hm
        constructor
        · rintro ⟨⟩
        · rintro ⟨_, h | h, _⟩
          · cases h
            exact absurd rfl hb
          · cases h
            exact absurd rfl (hm [])

/-! What the pass leaves of the registry. -/

section
variable (host form submitted)

theorem moves_evaluate (value : Value) (a : Application) :
    Moves (Registry.Looks host (Rule.KeepsState host)) (evaluate host submitted value a) := by
  unfold evaluate
  split
  · exact Registry.moves_validate host _ _ _ _
  · exact moves_bind (Registry.moves_lift _) fun others => Registry.moves_validate host _ _ _ _

theorem moves_checkApplications (target value : Value) (applications : List Application)
    (report : Report) : Moves (Registry.Looks host (Rule.KeepsState host))
      (checkApplications host form submitted target value applications report) := by
  induction applications generalizing report with
  | nil => exact moves_pure report
  | cons a rest ih =>
    rw [checkApplications]
    refine moves_bind (Registry.moves_lift _) fun settled => ?_
    split
    · exact moves_pure report
    split
    · exact moves_pure report
    refine moves_bind (moves_evaluate host submitted value a) fun verdict => ?_
    refine moves_bind (Registry.moves_lift _) fun fell => ?_
    split
    · exact moves_bind (Registry.moves_lift _) fun _ => ih _
    · exact ih report

theorem moves_checkTargets (entries : List (Value × List Application)) (report : Report) :
    Moves (Registry.Looks host (Rule.KeepsState host))
      (checkTargets host form submitted entries report) := by
  induction entries generalizing report with
  | nil => exact moves_pure report
  | cons entry rest ih =>
    obtain ⟨target, applications⟩ := entry
    rw [checkTargets]
    refine moves_bind (Registry.moves_lift _) fun value => ?_
    exact moves_bind (moves_checkApplications host form submitted target value applications report)
      fun found => ih found

theorem moves_noteFailure (report : Report) :
    Moves (Registry.Looks host (Rule.KeepsState host)) (noteFailure report) := by
  unfold noteFailure
  split
  · exact moves_bind (Registry.moves_lift _) fun names => fun r => Registry.looks_note _
  · exact moves_pure _

/-- A pass only looks rules up and asks them. -/
theorem moves_pass (entries : List (Value × List Application)) (rules : List Value) :
    Moves (Registry.Looks host (Rule.KeepsState host)) (do
      let report ← checkTargets host form submitted entries Table.empty
      let report ← Registry.lift (checkFormRules host submitted rules report)
      noteFailure report
      return report) := by
  refine moves_bind (moves_checkTargets host form submitted entries Table.empty) fun found => ?_
  refine moves_bind (Registry.moves_lift _) fun report => ?_
  exact moves_bind (moves_noteFailure host report) fun _ => moves_pure report

theorem looks_afterAll (applications : List (Value × Application)) (r : Registry) :
    Registry.Looks host (Rule.KeepsState host) r
      (afterAll host form submitted applications r) := by
  induction applications generalizing r with
  | nil => exact refl r
  | cons entry rest ih =>
    obtain ⟨target, a⟩ := entry
    refine IsTrans.trans _ _ _ ?_ (ih (after host form submitted target a r))
    unfold after
    split
    · split
      · exact refl r
      · exact moves_evaluate host submitted _ a r
    · exact refl r

end

/-- The rule under a name keeps nothing between two questions. -/
def Steady (host : Host) (r : Registry) (type : Value) : Prop :=
  ∀ cls, r.classOf? host type = some (.ok cls) → Rule.KeepsState host cls

theorem steady_of_stateless (hs : host.Stateless) (r : Registry) (type : Value) :
    Steady host r type :=
  fun cls _ => hs.keepsState cls

/-- A rule that keeps nothing between two questions answers the same whatever was looked up or asked
before. -/
theorem validate_congr {type : Value} (hs : Steady host r type) {s : Registry}
    (hr : r.Keyed) (h : Registry.Agree host (Rule.KeepsState host) r s) (asked format : Value)
    (whole : Bool) : (outcome (Registry.validate host type asked format whole) s).1 =
      (outcome (Registry.validate host type asked format whole) r).1 := by
  rw [Registry.outcome_validate hr fun _ _ => hs,
    Registry.outcome_validate h.keyed fun _ _ cls hc => hs cls (h.classOf type ▸ hc)]
  exact Registry.verdictOf_congr h hs asked format whole

theorem passes_congr (hs : Steady host r a.type) {s : Registry} (hr : r.Keyed)
    (h : Registry.Agree host (Rule.KeepsState host) r s) :
    Passes host submitted value a s ↔ Passes host submitted value a r := by
  simp only [Passes, validate_congr hs hr h]

end FormGuard.Form
