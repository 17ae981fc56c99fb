import FormGuard.Proofs.Form.Script
import FormGuard.Proofs.Form.Texts
import FormGuard.Proofs.Text.Replacement

/-! Rules without a browser side: which have an empty test, and what becomes of it in a script. -/
namespace FormGuard
variable {host : Host} {name format : Value} {rule : Rule}

namespace Script
variable {check : Check} {x : String}

/-- A test that is bound to a variable of the script is empty only if it was empty before. -/
theorem Check.bind_eq_empty_iff (hx : x = "value" ∨ x = "value[i]") :
    check.bind x = "" ↔ check.test = "" := by
  have hword : placeholder.toList = '\x7b' :: ['j', 's', 'V', 'a', 'r', '\x7d'] := rfl
  have hne : x.toList ≠ [] := by
    obtain rfl | rfl := hx <;> simp
  rw [Check.bind, String.ofList_eq_empty_iff, hword, Text.replaceAll_eq_nil_iff hne,
    String.toList_eq_nil_iff]

/-- The code of a block in front of the test: the values are read and the test prepared. -/
def Block.before (b : Block) : String :=
  Piece.join (b.extraction.reading ++ [.code "\n", .given b.setup])

/-- The code of a block behind its condition. -/
def Block.report (b : Block) : List Piece :=
  [.code "    _qfMsg = _qfMsg + ", .literal ("\\n - " ++ b.message), .code ";\n"] ++
    b.extraction.restoring ++ [.code "  \x7d\n"]

namespace Condition

/-- What a test follows: the beginning of the condition, or of the loop that counts. -/
def lead : Condition → String
  | .fails _ => "  if ("
  | .tooFew _ _ => "  var res = 0;\n  for (var i = 0; i < value.length; i++) \x7b\n    if (!("

/-- What follows a test: the guard of the key, or the rest of the loop. -/
def trail (key : String) : Condition → String
  | .fails _ => guard key
  | .tooFew _ _ => ")) \x7b\n      res++;\n    \x7d\n  \x7d\n"

end Condition

/-- Where the test of a block stands in its text. -/
theorem Block.text_eq_test (b : Block) : ∃ after,
    b.text = b.before ++ b.condition.lead ++ b.condition.test ++ b.condition.trail b.key ++ after := by
  cases hc : b.condition with
  | fails test =>
    refine ⟨Piece.join b.report, ?_⟩
    rw [Condition.trail, ← join_guardLines, ← String.toList_inj]
    simp [text, pieces, before, report, hc, Condition.counting, Condition.operand, Condition.lead,
      Condition.test, Piece.text]
  | tooFew test needed =>
    refine ⟨Piece.join (.code "  if (" :: .code "res < " :: .given needed ::
      (guardLines b.key ++ b.report)), ?_⟩
    rw [← String.toList_inj]
    simp [text, pieces, before, report, hc, Condition.counting, Condition.operand, Condition.lead,
      Condition.trail, Condition.test, lines, Piece.text]

end Script

namespace Rule

/-- A rule offers the browser nothing to test. -/
def Testless (host : Host) (rule : Rule) (name format : Value) : Prop :=
  ∃ check, rule.check host name format = .ok check ∧ check.test = ""

/-- Of the library's own rules only the one that accepts everything has an empty test. -/
theorem testless_iff : rule.Testless host name format ↔ rule = .base ∨
    ∃ cls state check, rule = .external cls state ∧
      host.check cls state name format = .ok check ∧ check.test = "" := by
  constructor
  · rintro ⟨check, hcheck, htest⟩
    cases rule with
    | base => exact Or.inl rfl
    | external cls state => exact Or.inr ⟨cls, state, check, rfl, hcheck, htest⟩
    | required =>
      cases hcheck
      simp [String.append_eq_empty_iff] at htest
    | regex patterns =>
      obtain ⟨p, _, hcheck⟩ := bind_eq_ok.mp hcheck
      cases hcheck
      simp [patternCheck, String.append_eq_empty_iff] at htest
    | email =>
      cases hcheck
      simp [patternCheck, String.append_eq_empty_iff] at htest
    | callback callbacks =>
      obtain ⟨f, parameters, rfl⟩ : ∃ f parameters, check = Callbacks.browserTest f parameters := by
        obtain ⟨_, _, hcheck⟩ := bind_eq_ok.mp hcheck
        split at hcheck
        · obtain ⟨parameters, _, hcheck⟩ := bind_eq_ok.mp hcheck
          cases hcheck
          exact ⟨_, _, rfl⟩
        · split at hcheck
          · cases hcheck
          · obtain ⟨target, _, hcheck⟩ := bind_eq_ok.mp hcheck
            cases hcheck
            exact ⟨_, _, rfl⟩
      simp [Callbacks.browserTest, String.append_eq_empty_iff] at htest
    | length =>
      obtain ⟨bounds, _, hcheck⟩ := bind_eq_ok.mp hcheck
      obtain ⟨_, rfl⟩ := Length.Bounds.check_eq_ok.mp hcheck
      simp [String.append_eq_empty_iff] at htest
    | compare =>
      obtain ⟨op, _, hcheck⟩ := bind_eq_ok.mp hcheck
      cases hcheck
      simp [String.append_eq_empty_iff] at htest
  · rintro (rfl | ⟨cls, state, check, rfl, hcheck, htest⟩)
    · exact ⟨_, rfl, rfl⟩
    · exact ⟨check, hcheck, htest⟩

end Rule

namespace Form
variable {form : Form} {target : Value} {a : Application} {r : Registry} {b : Script.Block}

/-- The rule of an application has no browser side. -/
def Testless (host : Host) (form : Form) (a : Application) : Prop :=
  ∃ rule, form.registry.ruleOf host a.type = .ok rule ∧ rule.Testless host a.type a.format

/-- A block tests what the rule of an application gives it to test, in front of the guard of its key,
or in the loop that counts. -/
structure Tests (host : Host) (form : Form) (target : Value) (a : Application) (b : Script.Block) :
    Prop where
  shows : Shows form target a b
  check : ∃ rule check, form.registry.ruleOf host a.type = .ok rule ∧
    rule.check host a.type a.format = .ok check ∧
      (a.howmany.isNull = true ∧ b.condition = .fails (check.bind "value") ∨
        a.howmany.isNull = false ∧ ∃ needed, a.howmany.spelled = .ok needed ∧
          b.condition = .tooFew (check.bind "value[i]") needed)
  text : ∃ after, b.text =
    b.before ++ b.condition.lead ++ b.condition.test ++ b.condition.trail b.key ++ after

theorem Making.tests (m : Making host form form.registry target a) : Tests host form target a m.block :=
  ⟨m.shows, ⟨m.rule, m.check, m.served, m.checked, m.condition_cases⟩, m.block.text_eq_test⟩

theorem Making.test_eq_empty_iff (m : Making host form form.registry target a) :
    m.block.condition.test = "" ↔ Testless host form a := by
  have htest : m.block.condition.test = "" ↔ m.check.test = "" := by
    change m.condition.test = "" ↔ _
    obtain ⟨_, hc⟩ | ⟨_, needed, _, hc⟩ := m.condition_cases
    · rw [hc]
      exact Script.Check.bind_eq_empty_iff (Or.inl rfl)
    · rw [hc]
      exact Script.Check.bind_eq_empty_iff (Or.inr rfl)
  rw [htest]
  constructor
  · intro h
    exact ⟨m.rule, m.served, m.check, m.checked, h⟩
  · rintro ⟨rule, hrule, check, hcheck, h⟩
    cases m.served.symm.trans hrule
    cases m.checked.symm.trans hcheck
    exact h

theorem empty_test_of_blocks {entries : List (Value × Application)} {bs : List Script.Block}
    (h : List.Forall₂ (fun entry b => ∃ m : Making host form form.registry entry.1 entry.2,
      m.block = b) (entries.filter form.isShown) bs) :
    (∃ b ∈ bs, b.condition.test = "") ↔
      ∃ entry ∈ entries, form.isShown entry = true ∧ Testless host form entry.2 := by
  rw [exists_mem_iff_of_forall₂ (P := fun entry => Testless host form entry.2) h]
  · simp [and_assoc]
  · rintro entry _ ⟨m, rfl⟩
    exact m.test_eq_empty_iff

/-- Each block of a script tests what the rule of its application gives, be it empty: a test in a script
is empty exactly when an application is shown whose rule has no browser side. -/
theorem empty_test_iff (h : form.Reachable host) {formId heading closing text : String}
    (ht : (outcome (script host formId heading closing) form).1 = .ok text) :
    ∃ bs : List Script.Block, text = Script.function formId (bs.map (·.text)) heading closing ∧
      List.Forall₂ (fun entry b => Tests host form entry.1 entry.2 b)
        (form.stored.filter form.isShown) bs ∧
      ((∃ b ∈ bs, b.condition.test = "") ↔
        ∃ entry ∈ form.stored, form.isShown entry = true ∧ Testless host form entry.2) := by
  obtain ⟨bs, htext, hmade⟩ := blocks_of_script h.sound.keyed ht
  refine ⟨bs, htext, hmade.imp ?_, empty_test_of_blocks hmade⟩
  rintro entry _ ⟨m, rfl⟩
  exact m.tests

theorem empty_test_sole : ∃ text, (soleForm "name" "Needed").Reachable Host.bare ∧
    (outcome (script Host.bare "f" "" "") (soleForm "name" "Needed")).1 = .ok text ∧
    ∃ bs : List Script.Block, text = Script.function "f" (bs.map (·.text)) "" "" ∧
      bs.length = 1 ∧ ∀ b ∈ bs, b.condition.test ≠ "" := by
  have hr := reachable_soleForm "name" "Needed"
  obtain ⟨text, ht, _⟩ := exists_script_soleForm "Needed" "f" "" ""
  obtain ⟨bs, htext, htests, hempty⟩ := empty_test_iff hr ht
  refine ⟨text, hr, ht, bs, htext, htests.length_eq.symm, fun b hb htest => ?_⟩
  obtain ⟨entry, he, _, rule, hrule, hless⟩ := hempty.mp ⟨b, hb, htest⟩
  rw [stored_soleForm, List.mem_singleton] at he
  subst he
  cases hrule
  obtain hbase | ⟨_, _, _, hext, _⟩ := Rule.testless_iff.mp hless
  · cases hbase
  · cases hext

/-- A form with an element that anything is valid for, in the browser as well. -/
def anyForm : Form :=
  run Host.bare
    [.elementRule (.text "name") (.text "M") (.text "any") .null (.mode .client) .null]
    ⟨Registry.run Host.bare [.register (.text "any") .null (.ruleClass .base) .null] Registry.empty,
      Table.ofList [(.text "name", textField "name")], Table.empty, [], []⟩

def anyApplication : Application :=
  ⟨.text "any", .text "M", .null, .null, .null, .null, .client, []⟩

/-- The condition of its block is the guard alone. -/
theorem guard_alone_any : anyForm.Reachable Host.bare ∧ Testless Host.bare anyForm anyApplication ∧
    ∃ text before after, (outcome (script Host.bare "f" "" "") anyForm).1 = .ok text ∧
      text = before ++ "  if (" ++ Script.guard "name" ++ after := by
  have hr : anyForm.Reachable Host.bare := ⟨_, [textField "name"], _, _, ⟨_, rfl⟩, rfl, rfl⟩
  have hless : Testless Host.bare anyForm anyApplication := ⟨.base, rfl, _, rfl, rfl⟩
  obtain ⟨text, ht, _⟩ : ∃ text,
      (outcome (script Host.bare "f" "" "") anyForm).1 = .ok text ∧ text ≠ "" :=
    exists_script (List.cons_ne_nil _ []) rfl "f" "" ""
  obtain ⟨bs, htext, hmade⟩ := blocks_of_script hr.sound.keyed ht
  have hshown : anyForm.stored.filter anyForm.isShown = [(.text "name", anyApplication)] := rfl
  rw [hshown] at hmade
  obtain ⟨b, none, ⟨m, rfl⟩, hnone, rfl⟩ := List.forall₂_cons_left_iff.mp hmade
  obtain rfl := List.forall₂_nil_left_iff.mp hnone
  obtain ⟨after, hafter⟩ := m.block.text_eq_test
  have htest : m.block.condition.test = "" := m.test_eq_empty_iff.mpr hless
  have hfails : m.block.condition = .fails m.block.condition.test := by
    obtain ⟨_, hc⟩ | ⟨hn, _⟩ := m.condition_cases
    · rw [show m.block.condition = _ from hc]
      rfl
    · cases hn
  have hkey : m.block.key = "name" := by
    have hkeyed := m.shows.key
    rw [show anyApplication.reportKey (.text "name") = .text "name" from rfl, Value.spelled_text] at hkeyed
    exact (Except.ok.inj hkeyed).symm
  rw [hfails, htest, hkey] at hafter
  refine ⟨hr, hless, text, Script.Piece.join (Script.opening "f") ++ m.block.before,
    after ++ Script.Piece.join (Script.ending "" ""), ht, ?_⟩
  have hone : text = Script.Piece.join (Script.opening "f") ++ m.block.text ++
      Script.Piece.join (Script.ending "" "") := htext
  rw [hone, hafter]
  simp only [Script.Condition.lead, Script.Condition.test, Script.Condition.trail,
    String.append_empty, String.append_assoc]

end Form

end FormGuard
