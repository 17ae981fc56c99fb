import FormGuard.Proofs.Script.Extraction
import FormGuard.Proofs.Script.Quote

/-! A script as one list of pieces, and what it has between quotes: a message for each block, the
heading and the closing text, and the names. -/
namespace FormGuard.Script
variable {bs : List Block} {b : Block} {Named : String → Prop} {formId heading closing : String}

/-- The pieces of the blocks, with a line between them. -/
def body (bs : List Block) : List Piece :=
  List.intercalate [.code "\n"] (bs.map Block.pieces)

def pieces (formId : String) (bs : List Block) (heading closing : String) : List Piece :=
  opening formId ++ body bs ++ ending heading closing

theorem body_singleton (b : Block) : body [b] = b.pieces := by
  simp [body]

theorem body_cons_cons (b c : Block) (rest : List Block) :
    body (b :: c :: rest) = b.pieces ++ .code "\n" :: body (c :: rest) := by
  simp [body, List.intercalate_cons_cons]

theorem join_body (bs : List Block) :
    Piece.join (body bs) = String.intercalate "\n" (bs.map Block.text) := by
  induction bs with
  | nil => rfl
  | cons b rest ih =>
    cases rest with
    | nil => simp [body_singleton, Block.text]
    | cons c rest =>
      rw [body_cons_cons, Piece.join_append, Piece.join_cons, ih]
      simp [Block.text, Piece.text, String.intercalate_cons_cons, String.append_assoc]

theorem function_eq_join (h : bs ≠ []) :
    function formId (bs.map Block.text) heading closing =
      Piece.join (pieces formId bs heading closing) := by
  have hne : (bs.map Block.text).isEmpty = false := by simpa using h
  rw [function, hne, pieces, Piece.join_append, Piece.join_append, join_body]
  rfl

/-- A block whose code for the elements is the library's own, but for names of a kind. -/
def Block.Owned (Named : String → Prop) (b : Block) : Prop :=
  ∀ p ∈ b.extraction.reading ++ b.extraction.restoring, Own Named p

section
variable {select : (p : Piece) → Option p.Quoted}

/-- Between quotes stand what the code for the elements has there, the key, and the message. -/
theorem Block.insides_pieces (hcode : ∀ s, select (.code s) = none)
    (hgiven : ∀ s, select (.given s) = none) (b : Block) :
    insides select b.pieces = insides select b.extraction.reading ++
      (insides select [.name b.key, .name b.key] ++
        (insides select [.literal ("\\n - " ++ b.message)] ++
          insides select b.extraction.restoring)) := by
  have hcondition : insides select b.condition.counting = [] ∧
      insides select b.condition.operand = [] := by
    cases b.condition <;>
      simp [Condition.counting, Condition.operand, insides, lines, hcode, hgiven]
  simp only [pieces, List.flatten_cons, List.flatten_nil, insides_append, hcondition.1, hcondition.2]
  simp [guardLines, insides_cons, hcode, hgiven]

theorem insides_body (hcode : ∀ s, select (.code s) = none) (bs : List Block) :
    insides select (body bs) = bs.flatMap fun b => insides select b.pieces := by
  induction bs with
  | nil => rfl
  | cons b rest ih =>
    cases rest with
    | nil => simp [body_singleton]
    | cons c rest =>
      rw [body_cons_cons, insides_append, List.flatMap_cons, ← ih]
      simp [insides, hcode]

end

/-! The literals. -/

theorem insides_literal_of_own {ps : List Piece} (h : ∀ p ∈ ps, Own Named p) :
    insides Piece.literal? ps = [] := by
  refine List.filterMap_eq_nil_iff.mpr fun p hp => ?_
  cases h p hp <;> rfl

theorem Block.insides_literal (h : b.Owned Named) :
    insides Piece.literal? b.pieces = ["\\n - " ++ b.message] := by
  obtain ⟨hreading, hrestoring⟩ := List.forall_mem_append.mp h
  rw [insides_pieces (fun _ => rfl) fun _ => rfl, insides_literal_of_own hreading,
    insides_literal_of_own hrestoring]
  rfl

/-- The literals of a script: the message of each block, the heading, and the closing text. -/
theorem insides_literal_pieces (h : ∀ b ∈ bs, ∃ Named, b.Owned Named) :
    insides Piece.literal? (pieces formId bs heading closing) =
      bs.map (fun b => "\\n - " ++ b.message) ++ [escape heading, "\\n" ++ escape closing] := by
  have hblocks : (bs.flatMap fun b => insides Piece.literal? b.pieces) =
      bs.map fun b => "\\n - " ++ b.message := by
    rw [← List.flatMap_pure_eq_map]
    refine List.flatMap_congr fun b hb => ?_
    obtain ⟨Named, howned⟩ := h b hb
    exact Block.insides_literal howned
  rw [pieces, insides_append, insides_append, insides_body (fun _ => rfl), hblocks]
  rfl

/-! The names. -/

theorem mem_insides_name {ps : List Piece} {s : String} :
    s ∈ insides Piece.name? ps ↔ .name s ∈ ps := by
  rw [insides, List.mem_filterMap]
  constructor
  · rintro ⟨p, hp, hs⟩
    cases p <;> cases hs
    exact hp
  · exact fun hs => ⟨_, hs, rfl⟩

/-- The names of a block: its key, and those in the code for the elements. -/
theorem Block.mem_insides_name {s : String} :
    s ∈ insides Piece.name? b.pieces ↔
      s = b.key ∨ .name s ∈ b.extraction.reading ++ b.extraction.restoring := by
  have hkeys : insides Piece.name? [.name b.key, .name b.key] = [b.key, b.key] := rfl
  have hmessage : insides Piece.name? [.literal ("\\n - " ++ b.message)] = [] := rfl
  rw [insides_pieces (fun _ => rfl) fun _ => rfl, hkeys, hmessage]
  simp only [List.mem_append, List.mem_cons, List.not_mem_nil, Script.mem_insides_name]
  grind

theorem mem_insides_name_pieces {s : String} :
    s ∈ insides Piece.name? (pieces formId bs heading closing) ↔
      ∃ b ∈ bs, s ∈ insides Piece.name? b.pieces := by
  have hopen : insides Piece.name? (opening formId) = [] := rfl
  have hend : insides Piece.name? (ending heading closing) = [] := rfl
  rw [pieces, insides_append, insides_append, insides_body (fun _ => rfl), hopen, hend,
    List.nil_append, List.append_nil, List.mem_flatMap]

end FormGuard.Script
