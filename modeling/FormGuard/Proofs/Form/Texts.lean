import FormGuard.Proofs.Form.Script

/-! The texts of a script: every message, the heading and the closing text stand in a literal of their
own, escaped once, and the browser reads them as they were given. -/
namespace FormGuard.Form
variable {host : Host} {form : Form} {target : Value} {a : Application} {r : Registry}

/-- The literal of a message: a line break and a dash are in front of it. -/
theorem Making.message_eq (m : Making host form r target a) {s : String}
    (hs : a.message.asText? = some s) :
    "\\n - " ++ m.block.message = Script.escape ("\n - " ++ s) := by
  have hm : m.message = Script.escape s := by
    have hw := m.worded
    unfold escapedMessage at hw
    rw [hs] at hw
    exact (Except.ok.inj hw).symm
  have hlead : Script.escape "\n - " = "\\n - " := by decide +kernel
  rw [Script.escape_append, hlead, ← hm]
  rfl

/-- Related lists stay related to what the second one is read from. -/
theorem forall₂_of_map_eq {α β γ δ : Type} {R : α → β → Prop} {S : α → γ → Prop} {f : β → δ}
    {g : γ → δ} {as : List α} {bs : List β} {cs : List γ} (h : List.Forall₂ R as bs)
    (heq : cs.map g = bs.map f) (hi : ∀ a b c, R a b → g c = f b → S a c) :
    List.Forall₂ S as cs := by
  induction h generalizing cs with
  | nil =>
    rw [List.map_nil, List.map_eq_nil_iff] at heq
    exact heq ▸ .nil
  | cons hab _ ih =>
    obtain ⟨c, rest, rfl, hc, hrest⟩ := List.map_eq_cons_iff.mp heq
    exact .cons (hi _ _ c hab hc) (ih hrest)

/-- An escaped text is read back as it was, and nothing behind its closing quote is touched. So in a
script the literals are the messages of the applications that are shown, each on a line of its own
behind a dash, the heading, and the closing text on a new line: each is read as it was given. -/
theorem texts_read_back (h : form.Reachable host) :
    (∀ (text : String) (rest : List Char),
      Script.readLiteral ((Script.escape text).toList ++ '\'' :: rest) = some (text.toList, rest)) ∧
    ∀ formId heading closing text,
      (outcome (script host formId heading closing) form).1 = .ok text → text ≠ "" →
      ∃ bs, text = Script.Piece.join (Script.pieces formId bs heading closing) ∧
        List.Forall₂ (fun entry b => Shows form entry.1 entry.2 b)
          (form.stored.filter form.isShown) bs ∧
        ∃ told first last, Script.quotes Script.Piece.literal?
            (Script.pieces formId bs heading closing) = told ++ [first, last] ∧
          List.Forall₂ (fun entry quote => ∀ s, entry.2.message.asText? = some s →
            quote.Reads ("\n - " ++ s)) (form.stored.filter form.isShown) told ∧
          first.Reads heading ∧ last.Reads ("\n" ++ closing) := by
  refine ⟨Script.readLiteral_escape, fun formId heading closing text ht hne => ?_⟩
  obtain ⟨bs, htext, hmade⟩ := pieces_of_script h.sound.keyed ht hne
  have hinsides := Script.map_inside_quotes Script.Piece.literal?
    (Script.pieces formId bs heading closing)
  rw [Script.insides_literal_pieces (owned_of_makings hmade)] at hinsides
  obtain ⟨told, ends, hquotes, htold, hends⟩ := List.map_eq_append_iff.mp hinsides
  obtain ⟨first, rest, rfl, hfirst, hrest⟩ := List.map_eq_cons_iff.mp hends
  obtain ⟨last, none, rfl, hlast, hnone⟩ := List.map_eq_cons_iff.mp hrest
  obtain rfl := List.map_eq_nil_iff.mp hnone
  have hlead : Script.escape "\n" = "\\n" := by decide +kernel
  refine ⟨bs, htext, hmade.imp fun entry b ⟨m, hm⟩ => hm ▸ m.shows, told, first, last, hquotes,
    forall₂_of_map_eq hmade htold fun entry b quote ⟨m, hm⟩ hq s hs => ?_,
    Script.Quote.reads_of_escape hfirst, Script.Quote.reads_of_escape ?_⟩
  · subst hm
    exact Script.Quote.reads_of_escape (hq.trans (m.message_eq hs))
  · rw [hlast, Script.escape_append, hlead]

/-- Where there are blocks, there is a script. -/
theorem exists_script {bs : List Script.Block} (hne : bs ≠ [])
    (hb : (outcome (blocks host form form.rules.entries) form.registry).1 = .ok bs)
    (formId heading closing : String) : ∃ text,
      (outcome (script host formId heading closing) form).1 = .ok text ∧ text ≠ "" := by
  rw [fst_outcome_script, hb]
  refine ⟨_, rfl, fun hno => hne ?_⟩
  exact List.map_eq_nil_iff.mp (Script.function_eq_empty.mp hno)

/-- A form of one mandatory element, with a message for the browser. -/
def soleForm (name message : String) : Form :=
  run Host.bare
    [.elementRule (.text name) (.text message) (.text "required") .null (.mode .client) .null]
    ⟨plainRegistry, Table.ofList [(.text name, textField name)], Table.empty, [], []⟩

def soleApplication (message : String) : Application :=
  ⟨.text "required", .text message, .null, .null, .null, .null, .client, []⟩

theorem reachable_soleForm (name message : String) : (soleForm name message).Reachable Host.bare :=
  ⟨plainRegistry, [textField name], _, _, ⟨_, rfl⟩, rfl, rfl⟩

theorem stored_soleForm (message : String) :
    (soleForm "name" message).stored = [(.text "name", soleApplication message)] := rfl

theorem eq_of_names_sole {message s : String}
    (h : Names (soleForm "name" message) (.text "name") (soleApplication message) s) :
    s = "name" := by
  cases h with
  | key keyed =>
    cases keyed
    rfl
  | control reads named =>
    cases reads
    cases named with
    | one control =>
      cases control with
      | own named =>
        cases named
        rfl
      | member isGroup _ _ => cases isGroup

theorem exists_script_soleForm (message formId heading closing : String) : ∃ text,
    (outcome (script Host.bare formId heading closing) (soleForm "name" message)).1 = .ok text ∧
      text ≠ "" :=
  exists_script (List.cons_ne_nil _ []) rfl formId heading closing

theorem texts_read_back_sole : ∃ text,
    (soleForm "name" "It's\n\"needed\" \\").Reachable Host.bare ∧
    (outcome (script Host.bare "f" "O'Hara" "\r\n") (soleForm "name" "It's\n\"needed\" \\")).1 =
      .ok text ∧ text ≠ "" ∧
    ∃ ps, text = Script.Piece.join ps ∧
      ∃ message first last, Script.quotes Script.Piece.literal? ps = [message, first, last] ∧
        message.Reads ("\n - " ++ "It's\n\"needed\" \\") ∧ first.Reads "O'Hara" ∧
        last.Reads ("\n" ++ "\r\n") := by
  have hr := reachable_soleForm "name" "It's\n\"needed\" \\"
  obtain ⟨text, ht, hne⟩ := exists_script_soleForm "It's\n\"needed\" \\" "f" "O'Hara" "\r\n"
  obtain ⟨bs, htext, _, told, first, last, hquotes, htold, hfirst, hlast⟩ :=
    (texts_read_back hr).2 "f" "O'Hara" "\r\n" text ht hne
  rw [stored_soleForm] at htold
  obtain ⟨message, none, hread, hnone, rfl⟩ := List.forall₂_cons_left_iff.mp htold
  obtain rfl := List.forall₂_nil_left_iff.mp hnone
  exact ⟨text, hr, ht, hne, _, htext, message, first, last, hquotes, hread _ rfl, hfirst, hlast⟩

end FormGuard.Form
