import FormGuard.Proofs.Rule.Words
import FormGuard.Proofs.Script.Block

/-! What is brought into a script from outside: pieces keep apart, so a script holds the closing tag
once for itself, and besides only where a text that was brought in holds it. -/
namespace FormGuard.Script
variable {bs : List Block} {b : Block} {Named : String → Prop} {ps qs : List Piece} {p : Piece}
  {formId heading closing : String}

/-- What a piece takes over as it was given. -/
def Piece.brought? : Piece → Option String
  | .name inside | .literal inside => some inside
  | .given s => some s
  | _ => none

/-- Pieces that keep apart: the library's own code is quiet, and begins apart where it follows code of
somebody else. -/
inductive Parted : List Piece → Prop where
  | nil : Parted []
  | own {p : Piece} {ps : List Piece} (here : Own (fun _ => True) p) (rest : Parted ps) :
    Parted (p :: ps)
  | literal {inside : String} {ps : List Piece} (rest : Parted ps) : Parted (.literal inside :: ps)
  | given {code : String} {c : Char} {text : List Char} {ps : List Piece}
    (apart : isNeutral c = true) (rest : Parted (.code (String.ofList (c :: text)) :: ps)) :
    Parted (.given code :: .code (String.ofList (c :: text)) :: ps)

theorem isShut_concat {c : Char} (h : isNeutral c = true) (a : List Char) :
    isShut (a ++ [c]) = true := by
  simp [isShut, h]

/-- Quotes keep what stands between them apart. -/
theorem closings_quoted (s : String) (rest : List Char) :
    closings (("'" ++ s ++ "'").toList ++ rest) = closings s.toList + closings rest := by
  have hquote : ("'" : String).toList = ['\''] := rfl
  rw [String.toList_append, String.toList_append, hquote, List.append_assoc, List.append_assoc,
    List.singleton_append, List.singleton_append, closings_cons_of_ne (by decide),
    closings_append_cons (by decide)]

theorem closings_place (i : Int) (rest : List Char) :
    closings (("[" ++ toString i ++ "]").toList ++ rest) = closings rest := by
  have hslash : '/' ∉ "[".toList ++ i.repr.toList ++ "]".toList := by
    simp [Length.not_mem_repr]
  have hcut : ("[" ++ toString i ++ "]").toList =
      "[".toList ++ i.repr.toList ++ "]".toList := by
    rw [String.toList_append, String.toList_append]
    rfl
  have hend : ("]" : String).toList = [']'] := rfl
  rw [hcut, closings_append_of_shut (hend ▸ isShut_concat (by decide) _), closings_eq_zero hslash,
    Nat.zero_add]

theorem closings_own (h : Own (fun _ => True) p) (rest : List Char) :
    closings (p.text.toList ++ rest) = closingsOf p.brought?.toList + closings rest := by
  cases h with
  | code quiet =>
    rw [Piece.text, String.toList_ofList, closings_append_of_quiet quiet]
    simp [Piece.brought?, closingsOf]
  | place position =>
    rcases position with rfl | ⟨i, rfl⟩
    · simp [Piece.text, Piece.brought?, closingsOf]
    · rw [Piece.text, closings_place]
      simp [Piece.brought?, closingsOf]
  | name _ =>
    rw [Piece.text, closings_quoted]
    simp [Piece.brought?, closingsOf]

theorem brought_cons (p : Piece) (ps : List Piece) :
    closingsOf ((p :: ps).filterMap Piece.brought?) =
      closingsOf p.brought?.toList + closingsOf (ps.filterMap Piece.brought?) := by
  rw [List.filterMap_cons]
  cases p.brought? <;> simp [closingsOf]

/-- Pieces that keep apart hold the closing tag as often as what was brought into them. -/
theorem closings_join_append (h : Parted ps) (rest : List Char) :
    closings ((Piece.join ps).toList ++ rest) =
      closingsOf (ps.filterMap Piece.brought?) + closings rest := by
  induction h with
  | nil => exact (Nat.zero_add _).symm
  | own here _ ih =>
    rw [Piece.join_cons, String.toList_append, List.append_assoc, closings_own here, ih,
      brought_cons, Nat.add_assoc]
  | @literal inside ps _ ih =>
    have hinside : closingsOf (Piece.literal inside).brought?.toList = closings inside.toList := by
      simp [closingsOf, Piece.brought?]
    rw [Piece.join_cons, String.toList_append, List.append_assoc, Piece.text, closings_quoted, ih,
      brought_cons, hinside, Nat.add_assoc]
  | @given code c text ps apart _ ih =>
    have hnext : isApart ((Piece.join (.code (String.ofList (c :: text)) :: ps)).toList ++ rest) =
        true := by
      simp [Piece.text, isApart, apart]
    have hcode : closingsOf (Piece.given code).brought?.toList = closings code.toList := by
      simp [closingsOf, Piece.brought?]
    rw [Piece.join_cons, String.toList_append, List.append_assoc, closings_append_of_apart _ hnext,
      ih, brought_cons (.given code), hcode, Nat.add_assoc]
    rfl

theorem Parted.append_of_own (h : ∀ p ∈ ps, Own Named p) (hq : Parted qs) : Parted (ps ++ qs) := by
  induction ps with
  | nil => exact hq
  | cons p ps ih =>
    obtain ⟨hp, hrest⟩ := List.forall_mem_cons.mp h
    exact .own (hp.imp fun _ _ => trivial) (ih hrest)

/-! The pieces of a script keep apart. -/

theorem parted_opening (h : Parted ps) : Parted (opening formId ++ ps) := by
  simp only [opening, lines, List.flatMap_cons, List.flatMap_nil, List.cons_append, List.nil_append,
    List.append_nil]
  repeat' first
    | exact h
    | refine .own (.code rfl) ?_
    | refine .given rfl ?_

theorem Block.parted (hb : b.Owned Named) (h : Parted ps) : Parted (b.pieces ++ ps) := by
  obtain ⟨hreading, hrestoring⟩ := List.forall_mem_append.mp hb
  have hend : Parted (b.extraction.restoring ++ .code "  \x7d\n" :: ps) :=
    .append_of_own hrestoring (.own (.code rfl) h)
  have hkey : Own (fun _ => True) (.name b.key) := .name trivial
  simp only [pieces, List.flatten_cons, List.flatten_nil, List.append_assoc]
  refine .append_of_own hreading ?_
  cases b.condition with
  | fails test =>
    simp only [Condition.counting, Condition.operand, guardLines, List.cons_append, List.nil_append]
    repeat' first
      | exact hend
      | refine .own (.code rfl) ?_
      | refine .own hkey ?_
      | refine .literal ?_
      | refine .given rfl ?_
  | tooFew test needed =>
    simp only [Condition.counting, Condition.operand, guardLines, lines, List.flatMap_cons,
      List.flatMap_nil, List.cons_append, List.nil_append]
    repeat' first
      | exact hend
      | refine .own (.code rfl) ?_
      | refine .own hkey ?_
      | refine .literal ?_
      | refine .given rfl ?_

theorem parted_body (hb : ∀ b ∈ bs, ∃ Named, b.Owned Named) (h : Parted ps) :
    Parted (body bs ++ ps) := by
  induction bs with
  | nil => exact h
  | cons b rest ih =>
    obtain ⟨⟨Named, howned⟩, hrest⟩ := List.forall_mem_cons.mp hb
    cases rest with
    | nil =>
      rw [body_singleton]
      exact b.parted howned h
    | cons c rest =>
      rw [body_cons_cons, List.append_assoc, List.cons_append]
      exact b.parted howned (.own (.code rfl) (ih hrest))

/-- The code behind the blocks, without the closing tag. -/
def report (heading closing : String) : List Piece :=
  lines [
    [],
    ["  if (_qfMsg != '') \x7b"],
    ["    _qfMsg = ", .literal (escape heading), " + _qfMsg;"],
    ["    _qfMsg = _qfMsg + ", .literal ("\\n" ++ escape closing), ";"],
    ["    alert(_qfMsg);"],
    ["    return false;"],
    ["  \x7d"],
    ["  return true;"],
    ["\x7d"],
    ["//]]>"]]

theorem parted_report : Parted (report heading closing) := by
  simp only [report, lines, List.flatMap_cons, List.flatMap_nil, List.cons_append, List.nil_append,
    List.append_nil]
  repeat' first
    | exact .nil
    | refine .own (.code rfl) ?_
    | refine .literal ?_

theorem pieces_eq_append : pieces formId bs heading closing =
    opening formId ++ (body bs ++ report heading closing) ++ [.code "</script>"] := by
  simp [pieces, ending, report]

/-- A script ends in the closing tag, and holds it besides as often as what was brought into it. -/
theorem closings_pieces (hb : ∀ b ∈ bs, ∃ Named, b.Owned Named) :
    closings (Piece.join (pieces formId bs heading closing)).toList =
      1 + closingsOf ((opening formId ++ (body bs ++ report heading closing)).filterMap
        Piece.brought?) := by
  have htag : closings (Piece.join [.code "</script>"]).toList = 1 := by decide +kernel
  have hparted : Parted (opening formId ++ (body bs ++ report heading closing)) :=
    parted_opening (parted_body hb parted_report)
  rw [pieces_eq_append, Piece.join_append, String.toList_append, closings_join_append hparted, htag,
    Nat.add_comm]

theorem closingsOf_eq_zero {texts : List String} :
    closingsOf texts = 0 ↔ ∀ s ∈ texts, closings s.toList = 0 := by
  induction texts with
  | nil => simp [closingsOf]
  | cons s rest ih =>
    rw [List.forall_mem_cons, ← ih]
    simp [closingsOf]

/-- What is brought into a block: the preparation and the test, how many items have to pass, the key,
the message, and what is in the code for the elements. -/
theorem Block.mem_brought {s : String} : s ∈ b.pieces.filterMap Piece.brought? ↔
    s = b.setup ∨ s = b.condition.test ∨ (∃ test needed, b.condition = .tooFew test needed ∧
      s = needed) ∨ s = b.key ∨ s = "\\n - " ++ b.message ∨
      ∃ p ∈ b.extraction.reading ++ b.extraction.restoring, p.brought? = some s := by
  simp only [pieces, List.flatten_cons, List.flatten_nil, List.filterMap_append, List.mem_append,
    List.mem_filterMap]
  cases b.condition <;>
    simp [Condition.counting, Condition.operand, Condition.test, guardLines, lines, Piece.brought?]
  all_goals grind

theorem mem_brought_body {s : String} : s ∈ (body bs).filterMap Piece.brought? ↔
    ∃ b ∈ bs, s ∈ b.pieces.filterMap Piece.brought? := by
  induction bs with
  | nil => simp [body]
  | cons b rest ih =>
    cases rest with
    | nil => simp [body_singleton]
    | cons c rest =>
      rw [body_cons_cons, List.filterMap_append, List.mem_append, List.filterMap_cons_none rfl, ih]
      simp only [List.exists_mem_cons_iff]

end FormGuard.Script
