import FormGuard.Proofs.Form.Texts
import FormGuard.Proofs.Script.Brought

/-! The closing tag of a script: it ends the script, and it is in there once exactly when none of the
texts that the using program supplies has it. -/
namespace FormGuard.Form
variable {host : Host} {form : Form} {target : Value} {a : Application} {r : Registry}

/-- The texts that an application supplies to the script: its message, the names in its block, how many
values have to pass, and what the browser check of its rule takes over. -/
inductive Supplies (host : Host) (form : Form) (target : Value) (a : Application) : String → Prop where
  | message {s : String} (isText : a.message.asText? = some s) : Supplies host form target a s
  | items {s : String} (noText : a.message.asText? = none) (joined : escapedMessage a.message = .ok s) :
    Supplies host form target a s
  | name {s : String} (named : Names form target a s) : Supplies host form target a s
  | needed {s : String} (several : a.howmany.isNull = false) (written : a.howmany.spelled = .ok s) :
    Supplies host form target a s
  | rule {rule : Rule} {check : Script.Check} {s : String}
    (served : form.registry.ruleOf host a.type = .ok rule)
    (checked : rule.check host a.type a.format = .ok check)
    (here : s ∈ rule.words a.type a.format check) : Supplies host form target a s

/-- The texts that are supplied to a script: the id of the form, the heading, the closing text, and
those of the applications that are shown. -/
inductive Supplied (host : Host) (form : Form) (formId heading closing : String) : String → Prop where
  | formId : Supplied host form formId heading closing formId
  | heading : Supplied host form formId heading closing heading
  | closing : Supplied host form formId heading closing closing
  | application {entry : Value × Application} {s : String} (stored : entry ∈ form.stored)
    (shown : form.isShown entry = true) (supplies : Supplies host form entry.1 entry.2 s) :
    Supplied host form formId heading closing s

namespace Making
open Script (closings)

theorem closings_message (m : Making host form form.registry target a) :
    closings ("\\n - " ++ m.block.message).toList = 0 ↔
      ∀ s, a.message.asText? = some s ∨ a.message.asText? = none ∧ escapedMessage a.message = .ok s →
        closings s.toList = 0 := by
  have hmessage : m.block.message = m.message := rfl
  have hlead : Script.isQuiet "\\n - ".toList = true := by decide +kernel
  have hworded := m.worded
  rw [hmessage, Script.closings_behind hlead]
  cases ht : a.message.asText? with
  | none => simp [hworded]
  | some s =>
    unfold escapedMessage at hworded
    rw [ht] at hworded
    rw [← Except.ok.inj hworded, Script.closings_escape]
    simp

/-- What prepares the test and the test itself hold the tag as often as the words of the rule. -/
theorem closings_check (m : Making host form form.registry target a) :
    closings m.block.setup.toList + closings m.block.condition.test.toList =
      Script.closingsOf (m.rule.words a.type a.format m.check) := by
  have htest : closings m.block.condition.test.toList = closings m.check.test.toList := by
    change closings m.condition.test.toList = _
    obtain ⟨_, hc⟩ | ⟨_, needed, _, hc⟩ := m.condition_cases
    · rw [hc]
      exact Script.closings_bind m.check (Or.inl rfl)
    · rw [hc]
      exact Script.closings_bind m.check (Or.inr rfl)
  rw [htest]
  exact Rule.closings_check m.checked

/-- What is brought into the code for the elements are the names of the controls. -/
theorem brought_iff (m : Making host form form.registry target a) {s : String} :
    (∃ p ∈ m.block.extraction.reading ++ m.block.extraction.restoring, p.brought? = some s) ↔
      m.source.Controls target s := by
  obtain ⟨hown, hnames⟩ := Script.own_extraction m.extracted
  constructor
  · rintro ⟨p, hp, hs⟩
    cases hown p hp with
    | code _ => cases hs
    | place _ => cases hs
    | name named =>
      cases hs
      exact named
  · intro hs
    exact ⟨.name s, List.mem_append_left _ (hnames s hs), rfl⟩

/-- The block of an application is free of the tag exactly when the texts are that the application
supplies. -/
theorem free_iff (m : Making host form form.registry target a) :
    (∀ s ∈ m.block.pieces.filterMap Script.Piece.brought?, closings s.toList = 0) ↔
      ∀ s, Supplies host form target a s → closings s.toList = 0 := by
  have hcheck := m.closings_check
  constructor
  · intro h s hs
    cases hs with
    | message isText =>
      exact m.closings_message.mp (h _ (Script.Block.mem_brought.mpr (by simp))) s (Or.inl isText)
    | items noText joined =>
      exact m.closings_message.mp (h _ (Script.Block.mem_brought.mpr (by simp))) s
        (Or.inr ⟨noText, joined⟩)
    | name named =>
      rcases m.names_iff.mp named with rfl | hv
      · exact h _ (Script.Block.mem_brought.mpr (by simp [block]))
      · exact h _ (Script.Block.mem_brought.mpr
          (Or.inr (Or.inr (Or.inr (Or.inr (Or.inr (m.brought_iff.mpr hv)))))))
    | needed several written =>
      obtain ⟨hnull, _⟩ | ⟨_, needed, hneeded, hc⟩ := m.condition_cases
      · rw [several] at hnull
        cases hnull
      · cases written.symm.trans hneeded
        exact h _ (Script.Block.mem_brought.mpr (Or.inr (Or.inr (Or.inl ⟨_, _, hc, rfl⟩))))
    | @rule rule check s served checked here =>
      cases m.served.symm.trans served
      cases m.checked.symm.trans checked
      have hsetup := h _ (Script.Block.mem_brought.mpr (Or.inl rfl))
      have htest := h _ (Script.Block.mem_brought.mpr (Or.inr (Or.inl rfl)))
      rw [hsetup, htest] at hcheck
      exact Script.closingsOf_eq_zero.mp hcheck.symm s here
  · intro h s hs
    have hwords : Script.closingsOf (m.rule.words a.type a.format m.check) = 0 :=
      Script.closingsOf_eq_zero.mpr fun s here => h s (.rule m.served m.checked here)
    rw [hwords, Nat.add_eq_zero_iff] at hcheck
    rcases Script.Block.mem_brought.mp hs with rfl | rfl | ⟨test, needed, hc, rfl⟩ | rfl | rfl | hp
    · exact hcheck.1
    · exact hcheck.2
    · obtain ⟨_, hfails⟩ | ⟨hnull, other, hneeded, htoo⟩ := m.condition_cases
      · cases hc.symm.trans hfails
      · cases hc.symm.trans htoo
        exact h _ (.needed hnull hneeded)
    · exact h _ (.name (.key m.keyed))
    · refine m.closings_message.mpr fun s hs => ?_
      rcases hs with isText | ⟨noText, joined⟩
      · exact h s (.message isText)
      · exact h s (.items noText joined)
    · exact h _ (.name (.control m.reads (m.brought_iff.mp hp)))

end Making

/-- Behind the front of a script stands its own closing tag; the front holds the tag as often as some
texts do, which are free of it exactly when what is supplied is. -/
theorem closings_of_script {formId heading closing text : String} (hk : form.registry.Keyed)
    (ht : (outcome (script host formId heading closing) form).1 = .ok text) (hne : text ≠ "") :
    ∃ front texts, text = front ++ "</script>" ∧
      Script.closings text.toList = 1 + Script.closingsOf texts ∧
      ((∀ s ∈ texts, Script.closings s.toList = 0) ↔
        ∀ s, Supplied host form formId heading closing s → Script.closings s.toList = 0) := by
  obtain ⟨bs, rfl, hmade⟩ := pieces_of_script hk ht hne
  refine ⟨Script.Piece.join (Script.opening formId ++ (Script.body bs ++
    Script.report heading closing)), _, ?_, Script.closings_pieces (owned_of_makings hmade), ?_⟩
  · rw [Script.pieces_eq_append, Script.Piece.join_append]
    simp [Script.Piece.text]
  have hclosing : Script.closings ("\\n" ++ Script.escape closing).toList =
      Script.closings closing.toList :=
    (Script.closings_behind (by decide +kernel) _).trans (Script.closings_escape closing)
  have hopen : (Script.opening formId).filterMap Script.Piece.brought? = [formId] := rfl
  have hreport : (Script.report heading closing).filterMap Script.Piece.brought? =
      [Script.escape heading, "\\n" ++ Script.escape closing] := rfl
  have hblocks : (∀ b ∈ bs, ∀ s ∈ b.pieces.filterMap Script.Piece.brought?,
      Script.closings s.toList = 0) ↔ ∀ entry ∈ form.stored.filter form.isShown,
        ∀ s, Supplies host form entry.1 entry.2 s → Script.closings s.toList = 0 := by
    refine forall_mem_iff_of_forall₂ hmade ?_
    rintro entry _ ⟨m, rfl⟩
    exact m.free_iff
  simp only [List.filterMap_append, hopen, hreport, List.mem_append, List.mem_cons,
    List.not_mem_nil, or_false, Script.mem_brought_body]
  constructor
  · intro h s hs
    cases hs with
    | formId => exact h _ (Or.inl rfl)
    | heading => exact Script.closings_escape heading ▸ h _ (Or.inr (Or.inr (Or.inl rfl)))
    | closing => exact hclosing ▸ h _ (Or.inr (Or.inr (Or.inr rfl)))
    | application stored shown supplies =>
      refine hblocks.mp (fun b hb s hs => h s (Or.inr (Or.inl ⟨b, hb, hs⟩))) _ ?_ s supplies
      exact List.mem_filter.mpr ⟨stored, shown⟩
  · rintro h s (rfl | ⟨b, hb, hs⟩ | rfl | rfl)
    · exact h s .formId
    · refine hblocks.mpr (fun entry he s hs => ?_) b hb s hs
      obtain ⟨stored, shown⟩ := List.mem_filter.mp he
      exact h s (.application stored shown hs)
    · exact (Script.closings_escape heading).trans (h _ .heading)
    · exact hclosing.trans (h _ .closing)

/-- A script ends in the closing tag. It holds the tag in no other place, whatever the case of the
letters, exactly when none of the texts holds it that are supplied to the script. -/
theorem closes_once_iff (h : form.Reachable host) {formId heading closing text : String}
    (ht : (outcome (script host formId heading closing) form).1 = .ok text) (hne : text ≠ "") :
    (∃ front, text = front ++ "</script>") ∧ 1 ≤ Script.closings text.toList ∧
    (Script.closings text.toList = 1 ↔
      ∀ s, Supplied host form formId heading closing s → Script.closings s.toList = 0) := by
  obtain ⟨front, texts, hends, hcount, hfree⟩ := closings_of_script h.sound.keyed ht hne
  refine ⟨⟨front, hends⟩, by omega, ?_⟩
  rw [← hfree, hcount, Nat.add_eq_left, Script.closingsOf_eq_zero]

/-- A message with the tag in it ends the script early. -/
theorem closes_early_sole : ∃ text,
    (outcome (script Host.bare "f" "" "") (soleForm "name" "no </script> here")).1 = .ok text ∧
      2 ≤ Script.closings text.toList := by
  obtain ⟨text, ht, hne⟩ := exists_script_soleForm "no </script> here" "f" "" ""
  have hk := (reachable_soleForm "name" "no </script> here").sound.keyed
  obtain ⟨front, texts, _, hcount, hfree⟩ := closings_of_script hk ht hne
  have hsupplied : Supplied Host.bare (soleForm "name" "no </script> here") "f" "" ""
      "no </script> here" :=
    .application (stored_soleForm _ ▸ List.mem_singleton_self _) rfl (.message rfl)
  have htag : Script.closings "no </script> here".toList = 1 := by decide +kernel
  have hsome : Script.closingsOf texts ≠ 0 := by
    rw [Ne, Script.closingsOf_eq_zero, hfree]
    intro hall
    rw [hall _ hsupplied] at htag
    cases htag
  exact ⟨text, ht, by omega⟩

/-- Without it the script ends where it should. -/
theorem closes_once_sole : ∃ text, (soleForm "name" "Needed").Reachable Host.bare ∧
    (outcome (script Host.bare "f" "" "") (soleForm "name" "Needed")).1 = .ok text ∧ text ≠ "" ∧
      Script.closings text.toList = 1 := by
  have hr := reachable_soleForm "name" "Needed"
  obtain ⟨text, ht, hne⟩ := exists_script_soleForm "Needed" "f" "" ""
  refine ⟨text, hr, ht, hne, (closes_once_iff hr ht hne).2.2.mpr ?_⟩
  intro s hs
  cases hs with
  | formId | heading | closing => decide +kernel
  | application stored shown supplies =>
    rw [stored_soleForm, List.mem_singleton] at stored
    subst stored
    cases supplies with
    | message isText =>
      cases isText
      decide +kernel
    | items noText _ => cases noText
    | name named =>
      rw [eq_of_names_sole named]
      decide +kernel
    | needed several => cases several
    | rule served checked here =>
      cases served
      cases here

end FormGuard.Form
