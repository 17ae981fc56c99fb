import FormGuard.Proofs.Form.Acceptance
import FormGuard.Proofs.Form.Blocks
import FormGuard.Proofs.Form.Call
import FormGuard.Proofs.Form.Growth

/-! The script of a form: which applications have a block, in which order, and what leaves it as it
was. -/
namespace FormGuard

/-- How a block looks at the flag of a key and sets it. -/
def Script.guard (key : String) : String :=
  " && !errFlag['" ++ key ++ "']) \x7b\n" ++ "    errFlag['" ++ key ++ "'] = true;\n"

theorem Script.join_guardLines (key : String) :
    Piece.join (Block.guardLines key) = Script.guard key := by
  unfold Script.guard
  rw [← String.toList_inj]
  simp [Block.guardLines, Piece.text]

theorem Script.Block.text_eq_guard (b : Script.Block) :
    ∃ before after, b.text = before ++ Script.guard b.key ++ after := by
  obtain ⟨before, after, hcut⟩ : ∃ before after, b.pieces = before ++ guardLines b.key ++ after := by
    refine ⟨List.flatten [b.extraction.reading, ["\n", .given b.setup], b.condition.counting,
      ["  if ("], b.condition.operand], List.flatten [["    _qfMsg = _qfMsg + ",
      .literal ("\\n - " ++ b.message), ";\n"], b.extraction.restoring, ["  \x7d\n"]], ?_⟩
    simp [pieces]
  rw [text, hcut, Piece.join_append, Piece.join_append, join_guardLines]
  exact ⟨_, _, rfl⟩

theorem Script.function_eq_empty {formId heading closing : String} {blocks : List String} :
    Script.function formId blocks heading closing = "" ↔ blocks = [] := by
  unfold Script.function
  cases blocks with
  | nil => simp
  | cons first rest =>
    have hopen : Piece.join (opening formId) ≠ "" := by
      simp [opening, lines, Piece.text, String.append_eq_empty_iff]
    simp [String.append_eq_empty_iff, hopen]

namespace Form
variable {host : Host} {form other : Form} {submitted value target : Value} {a : Application}
  {report out : Report} {r t : Registry} {b : Script.Block}

/-- The block of an application guards itself by the key under which validating reports the
application. -/
structure Emits (host : Host) (form : Form) (target : Value) (a : Application) (b : Script.Block) :
    Prop where
  shows : Shows form target a b
  guard : ∃ before after, b.text = before ++ Script.guard (a.reportKey target).plain ++ after
  reports : ∀ submitted value report out r t,
    outcome (checkApplications host form submitted target value [a] report) r = (.ok out, t) →
      out = report ∨
        report.contains (a.reportKey target) = false ∧
          out = report.insert (a.reportKey target) a.message

/-- An application reports under its own key or not at all. -/
theorem report_of_checkApplications
    (h : outcome (checkApplications host form submitted target value [a] report) r = (.ok out, t)) :
    out = report ∨ report.contains (a.reportKey target) = false ∧
      out = report.insert (a.reportKey target) a.message := by
  rcases checkApplications_cases h with
    ⟨_, rfl, _⟩ | ⟨hs, ⟨_, rfl, _⟩ | ⟨_, verdict, s, fell, _, _, hrest⟩⟩
  · exact Or.inl rfl
  · exact Or.inl rfl
  · cases hrest
    cases fell with
    | false => exact Or.inl rfl
    | true => exact Or.inr ⟨(not_contains_of_isSettled hs).2, rfl⟩

theorem emits_of_shows (host : Host) (h : Shows form target a b) : Emits host form target a b :=
  ⟨h, (Value.spelled_eq_ok.mp h.key).2 ▸ b.text_eq_guard, fun _ _ _ _ _ _ => report_of_checkApplications⟩

/-! What is enforced on the server alone has no part in the script. -/

theorem element_congr (h : other.elements = form.elements) : other.element = form.element := by
  funext name
  simp only [element, h]

theorem source?_congr (h : other.elements = form.elements) : other.source? = form.source? := by
  funext target a
  simp only [source?, element_congr h]

theorem targetBlocks_congr (h : other.elements = form.elements) (host : Host) (target : Value)
    (applications : List Application) :
    targetBlocks host other target applications = targetBlocks host form target applications := by
  induction applications with
  | nil => rfl
  | cons a rest ih =>
    simp only [targetBlocks, block?, source?_congr h, ih]

/-- Blocks are made from the elements and the applications alone. -/
theorem blocks_congr (h : other.elements = form.elements) (host : Host)
    (entries : List (Value × List Application)) :
    blocks host other entries = blocks host form entries := by
  induction entries with
  | nil => rfl
  | cons entry rest ih =>
    obtain ⟨target, applications⟩ := entry
    simp only [blocks, targetBlocks_congr h, ih]

theorem targetBlocks_append (hs : a.isClient = false) (host : Host) (form : Form) (target : Value)
    (applications : List Application) :
    targetBlocks host form target (applications ++ [a]) =
      targetBlocks host form target applications := by
  induction applications with
  | nil => simp [targetBlocks, block?, hs]
  | cons b rest ih =>
    simp only [List.cons_append, targetBlocks, ih]

theorem blocks_append (host : Host) (form : Form) {target : Value}
    {applications more : List Application}
    (h : targetBlocks host form target more = targetBlocks host form target applications)
    (before after : List (Value × List Application)) :
    blocks host form (before ++ (target, more) :: after) =
      blocks host form (before ++ (target, applications) :: after) := by
  induction before with
  | nil => simp only [List.nil_append, blocks, h]
  | cons entry rest ih =>
    obtain ⟨name, others⟩ := entry
    simp only [List.cons_append, blocks, ih]

theorem blocks_declare (hs : a.isClient = false) (ht : form.rules.contains target = true)
    (host : Host) : blocks host (form.declare target a) (form.declare target a).rules.entries =
      blocks host form form.rules.entries := by
  have he : (form.declare target a).elements = form.elements := rfl
  rw [blocks_congr he]
  rcases form.rules.alter_cases target [] (· ++ [a]) with
    ⟨before, key, old, after, hold, _, hnew⟩ | ⟨hn, _⟩
  · change blocks host form (form.rules.alter target [] (· ++ [a])).entries = _
    rw [hold, hnew]
    exact blocks_append host form (targetBlocks_append hs host form key old) before after
  · rw [ht] at hn
    cases hn

theorem contains_declare (ht : form.rules.contains target = true) (name : Value)
    (a : Application) : (form.declare name a).rules.contains target = true := by
  change (form.rules.insert name _).contains target = true
  rw [Table.contains_insert, ht, Bool.or_true]

theorem blocks_declareAll {apps : List (Value × Application)}
    (h : ∀ entry ∈ apps, entry.2.isClient = false ∧ form.rules.contains entry.1 = true)
    (host : Host) : blocks host (form.declareAll apps) (form.declareAll apps).rules.entries =
      blocks host form form.rules.entries := by
  induction apps generalizing form with
  | nil => rfl
  | cons entry rest ih =>
    obtain ⟨⟨hs, ht⟩, hrest⟩ := List.forall_mem_cons.mp h
    refine Eq.trans (ih fun e he => ?_) (blocks_declare hs ht host)
    exact ⟨(hrest e he).1, contains_declare (hrest e he).2 entry.1 entry.2⟩

theorem script_extend {apps : List (Value × Application)}
    (h : ∀ entry ∈ apps, entry.2.isClient = false ∧ form.rules.contains entry.1 = true)
    (extra : List Value) (host : Host) (formId heading closing : String) :
    (outcome (script host formId heading closing) (form.extend apps extra)).1 =
      (outcome (script host formId heading closing) form).1 := by
  have he : (form.extend apps extra).elements = (form.declareAll apps).elements := rfl
  rw [fst_outcome_script, fst_outcome_script, blocks_congr he]
  change ((outcome (blocks host (form.declareAll apps) (form.declareAll apps).rules.entries)
    (form.declareAll apps).registry).1.map _) = _
  rw [blocks_declareAll h, registry_declareAll]

/-- A script is the function around one block for each application that is for the browser and reads
nothing frozen, in the order in which the targets were first declared, and then the applications of
each. Without any it is empty, and what is added for the server alone leaves it as it was. -/
theorem script_emits (h : form.Reachable host) :
    (∀ formId heading closing text,
      (outcome (script host formId heading closing) form).1 = .ok text →
        (∃ blocks, text = Script.function formId (blocks.map (·.text)) heading closing ∧
          List.Forall₂ (fun entry b => Emits host form entry.1 entry.2 b)
            (form.stored.filter form.isShown) blocks) ∧
        (text = "" ↔ ∀ entry ∈ form.stored, form.isShown entry = false)) ∧
    (form.Distinct ∧ ∀ ops, Continues form (run host ops form)) ∧
    ∀ op apps extra, Operation.Applies form.elements form.registry op apps extra →
      (∀ entry ∈ apps, entry.2.isClient = false ∧ form.rules.contains entry.1 = true) →
      outcome (op.perform host) form = (.ok (), op.next host form) ∧
      ∀ formId heading closing,
        (outcome (script host formId heading closing) (op.next host form)).1 =
          (outcome (script host formId heading closing) form).1 := by
  refine ⟨fun formId heading closing text ht => ?_,
    ⟨h.distinct, fun ops => continues_run host ops form⟩, fun op apps extra happ hs => ?_⟩
  · rw [fst_outcome_script] at ht
    cases hb : (outcome (blocks host form form.rules.entries) form.registry).1 with
    | error e =>
      rw [hb] at ht
      cases ht
    | ok found =>
      rw [hb] at ht
      cases ht
      have hall := shown_of_blocks (Prod.ext hb rfl)
      refine ⟨⟨found, rfl, hall.imp fun entry b => emits_of_shows host⟩, ?_⟩
      rw [Script.function_eq_empty, List.map_eq_nil_iff, ← List.length_eq_zero_iff,
        ← hall.length_eq, List.length_eq_zero_iff, List.filter_eq_nil_iff]
      simp [stored]
  · have hperform : outcome (op.perform host) form = (.ok (), form.extend apps extra) :=
      (perform_eq_ok happ.declares).mpr ⟨apps, extra, happ, rfl⟩
    have hnext : op.next host form = form.extend apps extra := by rw [Operation.next, hperform]
    rw [hnext]
    exact ⟨hperform, fun formId heading closing => script_extend hs extra host formId heading closing⟩

/-- A form with a mandatory element that has a rule for the server as well, one that has to agree with
a frozen element, and a mandatory child of a group. -/
def reviewForm : Form :=
  run Host.bare
    [.elementRule (.text "name") (.text "Needed") (.text "required") .null (.mode .client) .null,
      .elementRule (.text "name") (.text "Long") (.text "maxlength") (.int 9) .null .null,
      .elementRule (.list [.text "name", .text "code"]) (.text "Differ") (.text "compare") .null
        (.mode .client) .null,
      .groupRule (.text "phone")
        (.map [(.text "area", .list [.list [.text "No area", .text "required", .null,
          .mode .client]])]) .null .null .null .null .null]
    ⟨plainRegistry, Table.ofList ([textField "name", { textField "code" with frozen := .bool true },
      phoneGroup].map fun d => (d.name, d)), Table.empty, [], []⟩

theorem script_emits_review :
    reviewForm.Reachable Host.bare ∧ reviewForm.stored.length = 4 ∧
    (∃ (text : String) (blocks : List Script.Block),
      (outcome (script Host.bare "f" "" "") reviewForm).1 = .ok text ∧ text ≠ "" ∧
      text = Script.function "f" (blocks.map (·.text)) "" "" ∧ blocks.length = 2) ∧
    ∀ formId heading closing,
      (outcome (script Host.bare formId heading closing)
        ((Operation.elementRule (.text "name") (.text "Short") (.text "maxlength") (.int 20) .null
          .null).next Host.bare reviewForm)).1 =
        (outcome (script Host.bare formId heading closing) reviewForm).1 := by
  have hr : reviewForm.Reachable Host.bare :=
    ⟨plainRegistry, [textField "name", { textField "code" with frozen := .bool true }, phoneGroup],
      _, _, ⟨_, rfl⟩, rfl, rfl⟩
  obtain ⟨hshown, _, hserver⟩ := script_emits hr
  refine ⟨hr, rfl, ?_, (hserver _ _ _ (.element rfl (by decide +kernel) ⟨rfl, rfl⟩)
    (by decide +kernel)).2⟩
  have hok : (outcome (script Host.bare "f" "" "") reviewForm).1.isOk = true := by decide +kernel
  cases ht : (outcome (script Host.bare "f" "" "") reviewForm).1 with
  | error e =>
    rw [ht] at hok
    cases hok
  | ok text =>
    obtain ⟨⟨blocks, htext, hall⟩, hempty⟩ := hshown "f" "" "" text ht
    have hlen : (reviewForm.stored.filter reviewForm.isShown).length = 2 := by decide +kernel
    refine ⟨text, blocks, rfl, fun hno => ?_, htext, hall.length_eq ▸ hlen⟩
    have hnone : reviewForm.stored.filter reviewForm.isShown = [] :=
      List.filter_eq_nil_iff.mpr fun entry he => by simp [hempty.mp hno entry he]
    rw [hnone] at hlen
    cases hlen

end Form

end FormGuard
