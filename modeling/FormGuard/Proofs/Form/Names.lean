import FormGuard.Proofs.Form.Texts
import FormGuard.Proofs.Script.Identifier

/-! The names in a script: they stand between quotes as they are, so exactly those are read back that
hold nothing a reader would take for something else. -/
namespace FormGuard.Form
variable {host : Host} {form : Form} {target : Value} {a : Application} {r : Registry}

/-- The block of an application quotes its names, and no others. -/
theorem Making.mem_names (m : Making host form r target a) {s : String} :
    s ∈ Script.insides Script.Piece.name? m.block.pieces ↔ Names form target a s := by
  obtain ⟨hown, hnames⟩ := Script.own_extraction m.extracted
  rw [Script.Block.mem_insides_name]
  constructor
  · rintro (rfl | hs)
    · exact .key m.keyed
    · cases hown _ hs with
      | name named => exact .control m.reads named
  · intro hs
    rcases m.names_iff.mp hs with rfl | hs
    · exact Or.inl rfl
    · exact Or.inr (List.mem_append_left _ (hnames s hs))

/-- A script quotes the names of the applications that are shown, and no others. -/
theorem names_of_script {formId heading closing text : String} (hk : form.registry.Keyed)
    (ht : (outcome (script host formId heading closing) form).1 = .ok text) (hne : text ≠ "") :
    ∃ bs, text = Script.Piece.join (Script.pieces formId bs heading closing) ∧
      List.Forall₂ (fun entry b => Shows form entry.1 entry.2 b)
        (form.stored.filter form.isShown) bs ∧
      ∀ s, s ∈ Script.insides Script.Piece.name? (Script.pieces formId bs heading closing) ↔
        ∃ entry ∈ form.stored.filter form.isShown, Names form entry.1 entry.2 s := by
  obtain ⟨bs, htext, hmade⟩ := pieces_of_script hk ht hne
  refine ⟨bs, htext, hmade.imp fun entry b ⟨m, hm⟩ => hm ▸ m.shows, fun s => ?_⟩
  rw [Script.mem_insides_name_pieces]
  refine exists_mem_iff_of_forall₂ hmade ?_
  rintro entry _ ⟨m, rfl⟩
  exact m.mem_names

theorem function_of_pieces (formId heading closing : String) (bs : List Script.Block) :
    ∃ before after, Script.Piece.join (Script.pieces formId bs heading closing) =
      before ++ "function " ++ ("validate_" ++ formId) ++ ("(frm)" ++ after) := by
  obtain ⟨front, back, hcut⟩ : ∃ front back, Script.opening formId =
      front ++ [.code "function validate_", .given formId, .code "(frm) \x7b"] ++ back := by
    refine ⟨Script.lines [[], ["<script type=\"text/javascript\">"], ["//<![CDATA["]],
      .code "\n" :: Script.lines [["  var value = '';"], ["  var errFlag = new Array();"],
        ["  var _qfGroups = \x7b\x7d;"], ["  _qfMsg = '';"], []], ?_⟩
    simp [Script.opening, Script.lines]
  refine ⟨Script.Piece.join front, " \x7b" ++ Script.Piece.join
    (back ++ (Script.body bs ++ Script.ending heading closing)), ?_⟩
  have hfunction : "function validate_" = "function " ++ "validate_" := by decide +kernel
  have hframe : "(frm) \x7b" = "(frm)" ++ " \x7b" := by decide +kernel
  rw [Script.pieces, hcut]
  simp only [Script.Piece.join_append, Script.Piece.join_cons, Script.Piece.join_nil,
    Script.Piece.text, String.append_assoc, String.append_empty]
  rw [hfunction, hframe]
  simp only [String.append_assoc]

/-- Names go into a script as they are. So between quotes stand the names of the applications that are
shown and no others, and each is read back as itself exactly when it holds no quote, no backslash and
no end of a line. The name of the function is one identifier exactly when each character of the form's
id may stand in one. -/
theorem names_confined_iff (h : form.Reachable host) (k : Script.IdentifierClass)
    {formId heading closing text : String}
    (ht : (outcome (script host formId heading closing) form).1 = .ok text) (hne : text ≠ "") :
    (∃ bs, text = Script.Piece.join (Script.pieces formId bs heading closing) ∧
      List.Forall₂ (fun entry b => Shows form entry.1 entry.2 b)
        (form.stored.filter form.isShown) bs ∧
      let quoted := Script.quotes Script.Piece.name? (Script.pieces formId bs heading closing)
      (∀ s, s ∈ quoted.map (·.inside) ↔ ∃ entry ∈ form.stored.filter form.isShown,
        Names form entry.1 entry.2 s) ∧
      (∀ q ∈ quoted, q.Reads q.inside ↔ ∀ c ∈ q.inside.toList, Script.isVerbatim c = true) ∧
      ((∀ q ∈ quoted, q.Reads q.inside) ↔ ∀ entry ∈ form.stored.filter form.isShown,
        ∀ s, Names form entry.1 entry.2 s → ∀ c ∈ s.toList, Script.isVerbatim c = true)) ∧
    ∃ before after, text = before ++ "function " ++ ("validate_" ++ formId) ++ ("(frm)" ++ after) ∧
      (k.read (("validate_" ++ formId).toList ++ ("(frm)" ++ after).toList) =
          some (("validate_" ++ formId).toList, ("(frm)" ++ after).toList) ↔
        ∀ c ∈ formId.toList, k.part c = true) := by
  obtain ⟨bs, rfl, hshown, hnames⟩ := names_of_script h.sound.keyed ht hne
  have hinsides := Script.map_inside_quotes Script.Piece.name?
    (Script.pieces formId bs heading closing)
  refine ⟨⟨bs, rfl, hshown, fun s => ?_, fun q _ => q.reads_inside_iff, ?_⟩, ?_⟩
  · rw [hinsides]
    exact hnames s
  · have hquoted : (∀ q ∈ Script.quotes Script.Piece.name? (Script.pieces formId bs heading closing),
        q.Reads q.inside) ↔ ∀ s ∈ Script.insides Script.Piece.name?
          (Script.pieces formId bs heading closing), ∀ c ∈ s.toList, Script.isVerbatim c = true := by
      rw [← hinsides, List.forall_mem_map]
      exact forall₂_congr fun q _ => q.reads_inside_iff
    rw [hquoted]
    constructor
    · intro hall entry hentry s hs
      exact hall s ((hnames s).mpr ⟨entry, hentry, hs⟩)
    · intro hall s hs
      obtain ⟨entry, hentry, hs⟩ := (hnames s).mp hs
      exact hall entry hentry s hs
  · obtain ⟨before, after, hcut⟩ := function_of_pieces formId heading closing bs
    refine ⟨before, after, hcut, ?_⟩
    have hlead : ∀ c ∈ "validate_".toList, k.part c = true := by
      have hascii : ∀ c ∈ "validate_".toList,
          c.val < 128 ∧ (c.isAlphanum || c == '_' || c == '$') = true := by simp
      intro c hc
      rw [k.ascii c (hascii c hc).1, (hascii c hc).2]
    have hstop : k.part '(' = false := k.ascii '(' (by decide)
    have hopen : ("(frm)" ++ after).toList = '(' :: ("frm)" ++ after).toList := by
      simp
    rw [hopen, Script.IdentifierClass.read_append_iff hstop (by decide), String.toList_append,
      List.forall_mem_append]
    exact and_iff_right hlead

/-- A name with a quote in it is not read back, and an id with a dash in it makes no identifier. -/
theorem name_escapes_sole : ∃ text ps,
    (outcome (script Host.bare "sign-up" "" "") (soleForm "it's" "Needed")).1 = .ok text ∧
    text = Script.Piece.join ps ∧
    (∃ q ∈ Script.quotes Script.Piece.name? ps, q.inside = "it's" ∧ ¬ q.Reads "it's") ∧
    ∃ before after, text = before ++ "function " ++ ("validate_" ++ "sign-up") ++ ("(frm)" ++ after) ∧
      ∀ k : Script.IdentifierClass,
        k.read (("validate_" ++ "sign-up").toList ++ ("(frm)" ++ after).toList) ≠
          some (("validate_" ++ "sign-up").toList, ("(frm)" ++ after).toList) := by
  have hk := (reachable_soleForm "it's" "Needed").sound.keyed
  obtain ⟨text, ht, hne⟩ : ∃ text,
      (outcome (script Host.bare "sign-up" "" "") (soleForm "it's" "Needed")).1 = .ok text ∧
        text ≠ "" := exists_script (List.cons_ne_nil _ []) rfl "sign-up" "" ""
  obtain ⟨bs, rfl, _, hnames⟩ := names_of_script hk ht hne
  have hstored : (Value.text "it's", soleApplication "Needed") ∈
      (soleForm "it's" "Needed").stored.filter (soleForm "it's" "Needed").isShown :=
    List.mem_singleton_self _
  have hname := (hnames "it's").mpr ⟨_, hstored, .key rfl⟩
  rw [← Script.map_inside_quotes] at hname
  obtain ⟨q, hq, hinside⟩ := List.mem_map.mp hname
  obtain ⟨before, after, hcut⟩ := function_of_pieces "sign-up" "" "" bs
  refine ⟨_, _, ht, rfl, ⟨q, hq, hinside, fun hr => ?_⟩, before, after, hcut, fun k hr => ?_⟩
  · rw [← hinside, q.reads_inside_iff, hinside] at hr
    exact absurd (hr '\'' (by decide +kernel)) (by decide)
  · have hstop : k.part '(' = false := k.ascii '(' (by decide)
    have hdash : k.part '-' = false := k.ascii '-' (by decide)
    have hopen : ("(frm)" ++ after).toList = '(' :: ("frm)" ++ after).toList := by
      simp
    rw [hopen, Script.IdentifierClass.read_append_iff hstop (by decide)] at hr
    rw [hr '-' (by decide +kernel)] at hdash
    cases hdash

/-- Plain names are read back, and a plain id makes an identifier. -/
theorem names_confined_sole : ∃ text ps,
    (soleForm "name" "Needed").Reachable Host.bare ∧
    (outcome (script Host.bare "signup" "" "") (soleForm "name" "Needed")).1 = .ok text ∧ text ≠ "" ∧
    text = Script.Piece.join ps ∧ (∀ q ∈ Script.quotes Script.Piece.name? ps, q.Reads q.inside) ∧
    ∃ before after, text = before ++ "function " ++ ("validate_" ++ "signup") ++ ("(frm)" ++ after) ∧
      Script.IdentifierClass.plain.read
          (("validate_" ++ "signup").toList ++ ("(frm)" ++ after).toList) =
        some (("validate_" ++ "signup").toList, ("(frm)" ++ after).toList) := by
  have hr := reachable_soleForm "name" "Needed"
  obtain ⟨text, ht, hne⟩ := exists_script_soleForm "Needed" "signup" "" ""
  obtain ⟨⟨bs, htext, _, _, _, hnames⟩, before, after, hcut, hid⟩ :=
    names_confined_iff hr Script.IdentifierClass.plain ht hne
  refine ⟨text, _, hr, ht, hne, htext, hnames.mpr fun entry hentry s hs => ?_, before, after, hcut,
    hid.mpr (List.all_eq_true.mp (by decide +kernel))⟩
  obtain rfl : entry = (.text "name", soleApplication "Needed") := by
    rw [← List.mem_singleton, ← stored_soleForm]
    exact (List.mem_filter.mp hentry).1
  rw [eq_of_names_sole hs]
  exact List.all_eq_true.mp (by decide +kernel)

end FormGuard.Form
