import FormGuard.Proofs.Script.Literal
import FormGuard.Script.Block
import Mathlib.Data.List.Basic

/-! Quotes: the places where pieces of code have something between single quotes, and what is read
there. -/
namespace FormGuard.Script

/-- A place in a text with something between single quotes. -/
structure Quote (text : String) where
  before : String
  inside : String
  after : String
  cut : text = before ++ "'" ++ inside ++ "'" ++ after

namespace Quote
variable {text : String}

/-- A reader that starts behind the opening quote finds this text, and stops right behind the closing
quote. -/
def Reads (q : Quote text) (s : String) : Prop :=
  readLiteral (q.inside.toList ++ '\'' :: q.after.toList) = some (s.toList, q.after.toList)

theorem reads_of_escape {q : Quote text} {s : String} (h : q.inside = escape s) : q.Reads s := by
  rw [Reads, h]
  exact readLiteral_escape s q.after.toList

theorem reads_inside_iff (q : Quote text) :
    q.Reads q.inside ↔ ∀ c ∈ q.inside.toList, isVerbatim c = true :=
  readLiteral_verbatim_iff

end Quote

namespace Piece

/-- What a piece has between quotes. -/
abbrev Quoted (p : Piece) := { s : String // p.text = "'" ++ s ++ "'" }

def name? : (p : Piece) → Option p.Quoted
  | .name inside => some ⟨inside, rfl⟩
  | _ => none

def literal? : (p : Piece) → Option p.Quoted
  | .literal inside => some ⟨inside, rfl⟩
  | _ => none

end Piece

variable (select : (p : Piece) → Option p.Quoted)

/-- What the selected pieces have between quotes, in order. -/
def insides (ps : List Piece) : List String := ps.filterMap fun p => (select p).map (·.1)

@[simp] theorem insides_nil : insides select [] = [] := rfl

theorem insides_cons (p : Piece) (ps : List Piece) :
    insides select (p :: ps) = ((select p).map (·.1)).toList ++ insides select ps := by
  rw [insides, List.filterMap_cons]
  cases select p <;> rfl

theorem insides_append (ps qs : List Piece) :
    insides select (ps ++ qs) = insides select ps ++ insides select qs := List.filterMap_append

/-- The quotes of the selected pieces, from a position in the text on. -/
def quotesFrom {text : String} (before : String) :
    (ps : List Piece) → text = before ++ Piece.join ps → List (Quote text)
  | [], _ => []
  | p :: rest, h =>
    have hrest : text = before ++ p.text ++ Piece.join rest := by
      rw [h, Piece.join_cons, String.append_assoc]
    match select p with
    | some ⟨s, hs⟩ =>
      ⟨before, s, Piece.join rest, by rw [hrest, hs]; simp only [String.append_assoc]⟩ ::
        quotesFrom (before ++ p.text) rest hrest
    | none => quotesFrom (before ++ p.text) rest hrest

/-- The quotes of the selected pieces, in order. -/
def quotes (ps : List Piece) : List (Quote (Piece.join ps)) :=
  quotesFrom select "" ps (by rw [String.empty_append])

theorem map_inside_quotesFrom {text before : String} (ps : List Piece)
    (h : text = before ++ Piece.join ps) :
    (quotesFrom select before ps h).map (·.inside) = insides select ps := by
  induction ps generalizing before with
  | nil => rfl
  | cons p rest ih =>
    rw [quotesFrom, insides_cons]
    cases select p with
    | none => exact ih _
    | some s => exact congrArg (s.1 :: ·) (ih _)

theorem map_inside_quotes (ps : List Piece) :
    (quotes select ps).map (·.inside) = insides select ps :=
  map_inside_quotesFrom select ps _

end FormGuard.Script
