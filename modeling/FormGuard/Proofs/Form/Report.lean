import FormGuard.Proofs.Form.Acceptance
import FormGuard.Proofs.Form.Growth

/-! The report of a submission, told from what was asked on the way: the first message under each key,
in the order in which the keys came. -/
namespace FormGuard.Form
variable {host : Host} {form : Form} {submitted value target : Value} {a : Application}
  {report found : Report} {r s t : Registry} {verdict : Registry.Verdict}

/-- An application that was asked about a target, and the answer. -/
structure Evaluation where
  target : Value
  application : Application
  verdict : Registry.Verdict

namespace Evaluation

def key (e : Evaluation) : Value := e.application.reportKey e.target

def failed (e : Evaluation) : Bool :=
  match falls e.application e.verdict with
  | .ok fell => fell
  | .error _ => false

end Evaluation

/-- What failed, as it is reported. -/
def failures (log : List Evaluation) : List (Value × Value) :=
  (log.filter (·.failed)).map fun e => (e.key, e.application.message)

/-- Some application failed under a key. -/
def Reported (log : List Evaluation) (key : Value) : Prop :=
  ∃ e ∈ log, e.failed = true ∧ e.key.same key = true

/-- Nothing more is asked for an application once its target or its group is reported. -/
def Settled (log : List Evaluation) (target : Value) (a : Application) : Prop :=
  Reported log target ∨ a.group.truthy = true ∧ Reported log a.group

instance (log : List Evaluation) (key : Value) : Decidable (Reported log key) :=
  inferInstanceAs (Decidable (∃ e ∈ log, e.failed = true ∧ e.key.same key = true))

instance (log : List Evaluation) (target : Value) (a : Application) :
    Decidable (Settled log target a) :=
  inferInstanceAs (Decidable (_ ∨ _ ∧ _))

/-- How the applications of a target are asked one after the other, until one is settled or not
needed: the log grows by what was asked. -/
inductive Evaluates (host : Host) (form : Form) (submitted target value : Value) :
    List Application → List Evaluation → Registry → List Evaluation → Registry → Prop where
  | done (log : List Evaluation) (r : Registry) :
      Evaluates host form submitted target value [] log r log r
  | settled {a : Application} (rest : List Application) {log : List Evaluation} (r : Registry)
      (known : Settled log target a) :
      Evaluates host form submitted target value (a :: rest) log r log r
  | idle {a : Application} (rest : List Application) {log : List Evaluation} (r : Registry)
      (unknown : ¬ Settled log target a) (unneeded : ¬ Needed form target value) :
      Evaluates host form submitted target value (a :: rest) log r log r
  | asked {a : Application} {rest : List Application} {log out : List Evaluation}
      {r s t : Registry} {verdict : Registry.Verdict}
      (unknown : ¬ Settled log target a) (needed : Needed form target value)
      (answered : outcome (evaluate host submitted value a) r = (.ok verdict, s))
      (behind : Evaluates host form submitted target value rest (log ++ [⟨target, a, verdict⟩]) s
        out t) :
      Evaluates host form submitted target value (a :: rest) log r out t

/-- How the targets are gone through. -/
inductive Pass (host : Host) (form : Form) (submitted : Value) :
    List (Value × List Application) → List Evaluation → Registry → List Evaluation → Registry →
      Prop where
  | done (log : List Evaluation) (r : Registry) : Pass host form submitted [] log r log r
  | target {target value : Value} {applications : List Application}
      {rest : List (Value × List Application)} {log next out : List Evaluation}
      {r s t : Registry} (read : Submission.value submitted target = .ok value)
      (here : Evaluates host form submitted target value applications log r next s)
      (behind : Pass host form submitted rest next s out t) :
      Pass host form submitted ((target, applications) :: rest) log r out t

/-- A form rule answers true or with messages. -/
inductive Answers (host : Host) (submitted rule : Value) : List (Value × Value) → Prop where
  | satisfied (answer : host.apply rule [submitted] = .ok (.bool true)) :
      Answers host submitted rule []
  | messages {messages : List (Value × Value)}
      (answer : host.apply rule [submitted] = .ok (.map messages)) :
      Answers host submitted rule messages

theorem failures_append (log more : List Evaluation) :
    failures (log ++ more) = failures log ++ failures more := by
  simp [failures]

theorem failures_mono {log more : List Evaluation} (h : log <+: more) :
    failures log <+: failures more := by
  obtain ⟨behind, rfl⟩ := h
  rw [failures_append]
  exact List.prefix_append _ _

/-- A report tells what failed so far. -/
theorem contains_iff_reported {log : List Evaluation} (h : report.entries = failures log)
    (key : Value) : report.contains key = true ↔ Reported log key := by
  rw [Table.contains_iff, h]
  simp [failures, Reported, and_assoc]

theorem isSettled_eq_ok {log : List Evaluation} (h : report.entries = failures log)
    {settled : Bool} (hs : isSettled report target a = .ok settled) :
    settled = true ↔ Settled log target a := by
  rw [← reportedFor_of_isSettled hs, Settled, ← contains_iff_reported h, ← contains_iff_reported h,
    reportedFor, Bool.or_eq_true, Bool.and_eq_true]

/-- Where a report tells what failed, it still does so after an application that was asked. -/
theorem entries_after_asked {log : List Evaluation} {fell : Bool} (hl : report.entries = failures log)
    (hs : isSettled report target a = .ok false) (hf : falls a verdict = .ok fell) :
    (if fell then report.insert (a.reportKey target) a.message else report).entries =
      failures (log ++ [⟨target, a, verdict⟩]) := by
  rw [failures_append]
  cases fell with
  | true =>
    rw [if_pos rfl, Table.entries_insert_of_not_contains (not_contains_of_isSettled hs).2, hl]
    simp [failures, Evaluation.failed, Evaluation.key, hf]
  | false =>
    rw [if_neg (by decide), hl]
    simp [failures, Evaluation.failed, hf]

/-- Where a report tells what failed, it still does so after the applications of a target. -/
theorem evaluates_of_checkApplications {applications : List Application} {log : List Evaluation}
    (hl : report.entries = failures log)
    (h : outcome (checkApplications host form submitted target value applications report) r =
      (.ok found, t)) :
    ∃ out, Evaluates host form submitted target value applications log r out t ∧
      found.entries = failures out := by
  induction applications generalizing report log r with
  | nil =>
    cases h
    exact ⟨log, .done log _, hl⟩
  | cons a rest ih =>
    rcases checkApplications_cases h with
      ⟨hs, rfl, rfl⟩ | ⟨hs, ⟨hn, rfl, rfl⟩ | ⟨hn, verdict, s, fell, hv, hf, hrest⟩⟩
    · exact ⟨log, .settled rest _ ((isSettled_eq_ok hl hs).mp rfl), hl⟩
    · have hunknown : ¬ Settled log target a := fun hk => by cases (isSettled_eq_ok hl hs).mpr hk
      exact ⟨log, .idle rest _ hunknown hn, hl⟩
    · have hunknown : ¬ Settled log target a := fun hk => by cases (isSettled_eq_ok hl hs).mpr hk
      obtain ⟨out, hout, hfound⟩ := ih (entries_after_asked hl hs hf) hrest
      exact ⟨out, .asked hunknown hn hv hout, hfound⟩

theorem checkTargets_cons {applications : List Application}
    {rest : List (Value × List Application)} :
    outcome (checkTargets host form submitted ((target, applications) :: rest) report) r =
        (.ok found, t) ↔
      ∃ value next s, Submission.value submitted target = .ok value ∧
        outcome (checkApplications host form submitted target value applications report) r =
          (.ok next, s) ∧
        outcome (checkTargets host form submitted rest next) s = (.ok found, t) := by
  rw [checkTargets, outcome_bind_eq_ok]
  simp only [Registry.outcome_lift, outcome_bind_eq_ok, Prod.mk.injEq]
  constructor
  · rintro ⟨value, _, ⟨hv, rfl⟩, next, s, hn, h⟩
    exact ⟨value, next, s, hv, hn, h⟩
  · rintro ⟨value, next, s, hv, hn, h⟩
    exact ⟨value, r, ⟨hv, rfl⟩, next, s, hn, h⟩

theorem pass_of_checkTargets {entries : List (Value × List Application)} {log : List Evaluation}
    (hl : report.entries = failures log)
    (h : outcome (checkTargets host form submitted entries report) r = (.ok found, t)) :
    ∃ out, Pass host form submitted entries log r out t ∧ found.entries = failures out := by
  induction entries generalizing report log r with
  | nil =>
    cases h
    exact ⟨log, .done log _, hl⟩
  | cons entry rest ih =>
    obtain ⟨target, applications⟩ := entry
    obtain ⟨value, next, s, hv, hn, h⟩ := checkTargets_cons.mp h
    obtain ⟨middle, hhere, hm⟩ := evaluates_of_checkApplications hl hn
    obtain ⟨out, hbehind, hfound⟩ := ih hm h
    exact ⟨out, .target hv hhere hbehind, hfound⟩

/-! What is asked, and what it leaves reported. -/

/-- Entries of which no two have one key. -/
def Apart (entries : List (Value × Value)) : Prop :=
  entries.Pairwise fun one other => one.1.same other.1 = false

theorem Evaluates.apart {applications : List Application} {log out : List Evaluation}
    (h : Evaluates host form submitted target value applications log r out t)
    (hl : Apart (failures log)) : Apart (failures out) := by
  induction h with
  | done => exact hl
  | settled => exact hl
  | idle => exact hl
  | @asked a _ log _ _ _ _ verdict unknown _ _ _ ih =>
    refine ih ?_
    rw [failures_append]
    refine List.pairwise_append.mpr ⟨hl, ?_, fun one ho other hn => ?_⟩
    · unfold failures
      cases hf : (⟨target, a, verdict⟩ : Evaluation).failed <;> simp [hf]
    · obtain ⟨e, he, rfl⟩ := List.mem_map.mp hn
      obtain rfl : e = ⟨target, a, verdict⟩ := by simpa using (List.mem_filter.mp he).1
      obtain ⟨earlier, hm, rfl⟩ := List.mem_map.mp ho
      obtain ⟨hm, hf⟩ := List.mem_filter.mp hm
      rw [Bool.eq_false_iff]
      intro hs
      refine unknown ?_
      change earlier.key.same (a.group.orElse target) = true at hs
      unfold Value.orElse at hs
      split at hs
      · rename_i hg
        exact Or.inr ⟨hg, earlier, hm, hf, hs⟩
      · exact Or.inl ⟨earlier, hm, hf, hs⟩

theorem Pass.apart {entries : List (Value × List Application)} {log out : List Evaluation}
    (h : Pass host form submitted entries log r out t) (hl : Apart (failures log)) :
    Apart (failures out) := by
  induction h with
  | done => exact hl
  | target _ here _ ih => exact ih (here.apart hl)

/-- The applications of a target are asked in their order, some perhaps not at all. -/
theorem Evaluates.sublist {applications : List Application} {log out : List Evaluation}
    (h : Evaluates host form submitted target value applications log r out t) :
    ∃ more, out = log ++ more ∧ (more.map fun e => (e.target, e.application)).Sublist
      (applications.map fun a => (target, a)) := by
  induction h with
  | done => exact ⟨[], by simp, .slnil⟩
  | settled => exact ⟨[], by simp, List.nil_sublist _⟩
  | idle => exact ⟨[], by simp, List.nil_sublist _⟩
  | @asked a _ log _ _ _ _ verdict _ _ _ _ ih =>
    obtain ⟨more, rfl, hm⟩ := ih
    exact ⟨⟨target, a, verdict⟩ :: more, by simp, hm.cons_cons (target, a)⟩

theorem Pass.sublist {entries : List (Value × List Application)} {log out : List Evaluation}
    (h : Pass host form submitted entries log r out t) :
    ∃ more, out = log ++ more ∧ (more.map fun e => (e.target, e.application)).Sublist
      (entries.flatMap fun entry => entry.2.map fun a => (entry.1, a)) := by
  induction h with
  | done => exact ⟨[], by simp, .slnil⟩
  | target _ here _ ih =>
    obtain ⟨first, rfl, hf⟩ := here.sublist
    obtain ⟨rest, rfl, hr⟩ := ih
    refine ⟨first ++ rest, by simp, ?_⟩
    rw [List.map_append, List.flatMap_cons]
    exact hf.append hr

/-! What the form rules add. -/

theorem complete_append (report : Report) (messages more : List (Value × Value)) :
    complete report (messages ++ more) = complete (complete report messages) more :=
  List.foldl_append

theorem answers_of_checkFormRules {rules : List Value}
    (h : checkFormRules host submitted rules report = .ok found) :
    ∃ answers, List.Forall₂ (Answers host submitted) rules answers ∧
      found = complete report answers.flatten := by
  induction rules generalizing report with
  | nil =>
    cases h
    exact ⟨[], .nil, rfl⟩
  | cons rule rest ih =>
    rw [checkFormRules] at h
    obtain ⟨answer, ha, h⟩ := bind_eq_ok.mp h
    split at h
    · obtain ⟨answers, hall, rfl⟩ := ih h
      exact ⟨[] :: answers, .cons (.satisfied ha) hall, rfl⟩
    · rename_i messages
      obtain ⟨answers, hall, rfl⟩ := ih h
      refine ⟨messages :: answers, .cons (.messages ha) hall, ?_⟩
      rw [List.flatten_cons, complete_append]
    · cases h

theorem prefix_complete (messages : List (Value × Value)) (report : Report) :
    report.entries <+: (complete report messages).entries := by
  induction messages generalizing report with
  | nil => exact List.prefix_refl _
  | cons entry rest ih =>
    obtain ⟨name, message⟩ := entry
    refine List.IsPrefix.trans ?_ (ih (if report.contains name then report else
      report.insert name message))
    cases hc : report.contains name with
    | true => exact List.prefix_refl _
    | false =>
      rw [if_neg (by decide), Table.entries_insert_of_not_contains hc]
      exact List.prefix_append _ _

/-- Completing a report keeps, behind what is there, the first message for each new key. -/
theorem loop_eq_complete (messages : List (Value × Value)) (report : Report) :
    List.eraseDupsBy.loop (fun one other => one.1.same other.1) messages report.entries.reverse =
      (complete report messages).entries := by
  induction messages generalizing report with
  | nil => simp [List.eraseDupsBy.loop, complete]
  | cons entry rest ih =>
    obtain ⟨name, message⟩ := entry
    have hany : (report.entries.reverse.any fun other => name.same other.1) =
        report.contains name := by
      rw [List.any_reverse, Bool.eq_iff_iff, Table.contains_iff, List.any_eq_true]
      simp only [Value.same_comm name]
    rw [List.eraseDupsBy.loop, hany]
    cases hc : report.contains name with
    | true =>
      rw [ih report]
      simp [complete, hc]
    | false =>
      have hi := Table.entries_insert_of_not_contains hc message
      have hnext : (name, message) :: report.entries.reverse =
          (report.insert name message).entries.reverse := by simp [hi]
      change List.eraseDupsBy.loop _ rest ((name, message) :: report.entries.reverse) = _
      rw [hnext, ih]
      simp [complete, hc]

theorem loop_append {entries seen : List (Value × Value)} (h : Apart entries)
    (hs : ∀ one ∈ entries, ∀ other ∈ seen, one.1.same other.1 = false)
    (messages : List (Value × Value)) :
    List.eraseDupsBy.loop (fun one other => one.1.same other.1) (entries ++ messages) seen =
      List.eraseDupsBy.loop (fun one other => one.1.same other.1) messages
        (entries.reverse ++ seen) := by
  induction entries generalizing seen with
  | nil => rfl
  | cons entry rest ih =>
    obtain ⟨hentry, hrest⟩ := List.pairwise_cons.mp h
    have hany : (seen.any fun other => entry.1.same other.1) = false := by
      rw [List.any_eq_false]
      intro other hm
      rw [hs entry List.mem_cons_self other hm]
      decide
    rw [List.cons_append, List.eraseDupsBy.loop, hany]
    refine (ih hrest fun one ho other hm => ?_).trans (by simp)
    rcases List.mem_cons.mp hm with rfl | hm
    · rw [Value.same_comm]
      exact hentry one ho
    · exact hs one (List.mem_cons_of_mem _ ho) other hm

theorem entries_complete (h : Apart report.entries) (messages : List (Value × Value)) :
    (complete report messages).entries =
      (report.entries ++ messages).eraseDupsBy fun one other => one.1.same other.1 := by
  rw [List.eraseDupsBy, loop_append h (by simp), List.append_nil, loop_eq_complete]

theorem find?_complete (messages : List (Value × Value)) (report : Report) (name : Value) :
    (complete report messages).find? name =
      (⟨report.entries ++ messages⟩ : Table Value).find? name := by
  induction messages generalizing report with
  | nil => simp [complete]
  | cons entry rest ih =>
    obtain ⟨key, message⟩ := entry
    have hstep : complete report ((key, message) :: rest) =
        complete (if report.contains key then report else report.insert key message) rest := rfl
    rw [hstep, ih]
    cases hc : report.contains key with
    | false => simp [Table.entries_insert_of_not_contains hc]
    | true =>
      simp only [if_true, Table.find?, List.find?_append, List.find?_cons]
      cases hk : key.same name with
      | false => rfl
      | true =>
        -- what is reported under the key comes first
        rw [Table.contains, report.find?_congr hk, Table.find?, Option.isSome_map] at hc
        obtain ⟨first, hf⟩ := Option.isSome_iff_exists.mp hc
        rw [hf]
        rfl

/-- The report is what failed, in the order of the log, and behind it what the form rules found under
other keys: under each key the first message, which nothing later replaces. -/
theorem report_tells_log (h : form.Reachable host)
    (hv : (outcome (validate host submitted) form).1 = .ok report) :
    ∃ log t answers,
      Pass host form submitted form.rules.entries [] form.registry log t ∧
      List.Forall₂ (Answers host submitted) form.formRules answers ∧
      report.entries = (failures log ++ answers.flatten).eraseDupsBy
        (fun one other => one.1.same other.1) ∧
      (∀ name, report.find? name =
        (⟨failures log ++ answers.flatten⟩ : Table Value).find? name) ∧
      Apart (failures log) ∧ (∀ earlier, earlier <+: log → failures earlier <+: report.entries) ∧
      (log.map fun e => (e.target, e.application)).Sublist form.stored ∧
      form.Distinct ∧ ∀ ops, Continues form (run host ops form) := by
  unfold validate at hv
  rw [outcome_bind_of_ok (outcome_get form), outcome_onRegistry] at hv
  obtain ⟨found, t, hf, hv⟩ := outcome_bind_eq_ok.mp (Prod.ext hv rfl)
  obtain ⟨out, u, ho, hv⟩ := outcome_bind_eq_ok.mp hv
  obtain ⟨_, _, _, hv⟩ := outcome_bind_eq_ok.mp hv
  rw [Registry.outcome_lift, Prod.mk.injEq] at ho
  obtain rfl : out = report := by
    cases hv
    rfl
  have hstart : (Table.empty : Report).entries = failures [] := rfl
  obtain ⟨log, hpass, hlog⟩ := pass_of_checkTargets hstart hf
  obtain ⟨answers, hall, hout⟩ := answers_of_checkFormRules ho.1
  have hapart : Apart (failures log) := hpass.apart .nil
  have hentries : out.entries = (failures log ++ answers.flatten).eraseDupsBy
      (fun one other => one.1.same other.1) := by
    rw [hout, entries_complete (hlog ▸ hapart), hlog]
  have hfirst : failures log <+: out.entries := by
    rw [hout, ← hlog]
    exact prefix_complete _ _
  obtain ⟨more, hmore, hsub⟩ := hpass.sublist
  obtain rfl : log = more := hmore
  exact ⟨log, t, answers, hpass, hall, hentries, fun name => by rw [hout, find?_complete, hlog],
    hapart, fun earlier he => (failures_mono he).trans hfirst, hsub, h.distinct,
    fun ops => continues_run host ops form⟩

/-- A function that finds fault with two elements whatever is submitted. -/
def objector : Value :=
  .external ⟨"objector", "<function objector>", some "objector", "function", true⟩

def objectingHost : Host :=
  { Host.bare with
    call := fun _ _ => .ok (.map [(.text "name", .text "Taken"), (.text "again", .text "Taken")]) }

def requiredRegistry (host : Host) : Registry :=
  Registry.run host [.register (.text "required") (.kind .ofClass) (.ruleClass .required) .null]
    Registry.empty

/-- A form with two rules for a mandatory element, and a form rule. -/
def objectionForm : Form :=
  run objectingHost
    [.elementRule (.text "name") (.text "Needed") (.text "required") .null .null .null,
      .elementRule (.text "name") (.text "Short") (.text "required") .null .null .null,
      .formRule objector]
    ⟨requiredRegistry objectingHost,
      Table.ofList ([textField "name", textField "again"].map fun d => (d.name, d)), Table.empty,
      [], []⟩

theorem report_tells_log_objection :
    objectionForm.Reachable objectingHost ∧ ∃ log answers,
      List.Forall₂ (Answers objectingHost (.map [])) objectionForm.formRules answers ∧
      (failures log ++ answers.flatten).eraseDupsBy (fun one other => one.1.same other.1) =
        [(.text "name", .text "Needed"), (.text "again", .text "Taken")] := by
  have hr : objectionForm.Reachable objectingHost :=
    ⟨_, [textField "name", textField "again"], _, _, ⟨_, rfl⟩, rfl, rfl⟩
  have hv : (outcome (validate objectingHost (.map [])) objectionForm).1 =
      .ok ⟨[(.text "name", .text "Needed"), (.text "again", .text "Taken")]⟩ := by
    decide +kernel
  obtain ⟨log, _, answers, _, hall, hentries, _⟩ := report_tells_log hr hv
  exact ⟨hr, log, answers, hall, hentries.symm⟩

end FormGuard.Form
