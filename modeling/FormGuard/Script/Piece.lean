/-! Browser code in pieces: what the library writes itself, and what stands in the gaps between. -/
namespace FormGuard.Script

inductive Piece where
  /-- Code of the library's own. -/
  | code (text : String)
  /-- Where a value goes in the array of several values; a value by itself has no place. -/
  | place (brackets : String)
  /-- A name, between quotes. -/
  | name (inside : String)
  /-- What stands inside a string literal, between quotes. -/
  | literal (inside : String)
  /-- Code that somebody else wrote. -/
  | given (code : String)
  deriving DecidableEq

instance : Coe String Piece := ⟨.code⟩

namespace Piece

def text : Piece → String
  | .code s => s
  | .place brackets => brackets
  | .name inside => "'" ++ inside ++ "'"
  | .literal inside => "'" ++ inside ++ "'"
  | .given s => s

/-- The code that pieces make up, one after the other. -/
def join (pieces : List Piece) : String := String.join (pieces.map text)

@[simp] theorem join_nil : join [] = "" := rfl

@[simp] theorem join_cons (p : Piece) (ps : List Piece) : join (p :: ps) = p.text ++ join ps := by
  simp [join]

@[simp] theorem join_append (ps qs : List Piece) : join (ps ++ qs) = join ps ++ join qs := by
  simp [join]

end Piece

/-- Lines of code, each ended. -/
def lines (ls : List (List Piece)) : List Piece := ls.flatMap (· ++ [.code "\n"])

end FormGuard.Script
