import FormGuard.Regex.Syntax

/-! Backtracking search: alternatives in order, leftmost start first. -/
namespace FormGuard.Regex

/-- A place in a text, with what the groups last took in. -/
structure Cursor where
  /-- What is behind, nearest first. -/
  before : List Char
  rest : List Char
  /-- How much is ahead. -/
  left : Nat
  captures : List (Nat × List Char)

namespace Cursor

def start (text : List Char) : Cursor := ⟨[], text, text.length, []⟩

def captured? (cur : Cursor) (index : Nat) : Option (List Char) := cur.captures.lookup index

/-- Records what lies between `since` and `cur` as the text of a group. -/
def capture (cur : Cursor) (index : Nat) (since : Cursor) : Cursor :=
  { cur with captures := (index, since.rest.take (since.left - cur.left)) :: cur.captures }

/-- One step forward. -/
def next? (cur : Cursor) : Option (Char × Cursor) :=
  match cur.rest with
  | [] => none
  | c :: rest => some (c, { cur with before := c :: cur.before, rest, left := cur.left - 1 })

/-- So many steps back, when there are as many. -/
def back? (cur : Cursor) : Nat → Option Cursor
  | 0 => some cur
  | width + 1 =>
    match cur.before with
    | [] => none
    | c :: before => back? { cur with before, rest := c :: cur.rest, left := cur.left + 1 } width

/-- Steps over a text that is met again. -/
def follow? (folding : Folding) : List Char → Cursor → Option Cursor
  | [], cur => some cur
  | c :: text, cur =>
    match cur.next? with
    | some (d, cur') =>
      if folding.lower c.toNat == folding.lower d.toNat then follow? folding text cur' else none
    | none => none

end Cursor

def wordAt (script : Script) : List Char → Bool
  | [] => false
  | c :: _ => Category.word.holds script c

namespace Place

def holds (cur : Cursor) : Place → Bool
  | .textStart => cur.before.isEmpty
  | .lineStart => cur.before.isEmpty || cur.before.head? == some '\n'
  | .textEnd => cur.rest.isEmpty
  | .lineEnd => cur.rest.isEmpty || cur.rest.head? == some '\n'
  | .lastLineEnd => cur.rest.isEmpty || cur.rest == ['\n']
  | .wordEdge script negated =>
    !(cur.before.isEmpty && cur.rest.isEmpty) &&
      ((wordAt script cur.before != wordAt script cur.rest) != negated)

end Place

/-- What is left to match, as a function of where it starts. -/
abbrev Rest := Cursor → Option Cursor

/-- A piece to match before the rest. -/
abbrev Piece := Cursor → Rest → Option Cursor

/-- The first way to match a piece, and no other. -/
def Piece.committed (piece : Piece) : Piece := fun cur rest =>
  match piece cur some with
  | some cur' => rest cur'
  | none => none

def Piece.times (piece : Piece) : Nat → Piece
  | 0, cur, rest => rest cur
  | count + 1, cur, rest => piece cur fun cur' => times piece count cur' rest

/-- As many rounds as possible, at most `bound`; a round that takes nothing is the last one. -/
def Piece.greedy (piece : Piece) : Nat → Piece
  | 0, cur, rest => rest cur
  | bound + 1, cur, rest =>
    (piece cur fun cur' =>
      if cur'.left == cur.left then rest cur' else greedy piece bound cur' rest).orElse
        fun _ => rest cur

/-- As few rounds as possible, at most `bound`; a round that takes nothing is the last one. -/
def Piece.lazy (piece : Piece) : Nat → Piece
  | 0, cur, rest => rest cur
  | bound + 1, cur, rest =>
    (rest cur).orElse fun _ => piece cur fun cur' =>
      if cur'.left == cur.left then rest cur' else lazy piece bound cur' rest

/-- Rounds beyond the least number: without an upper bound no more are needed than there are
characters left, and one that takes nothing. -/
def spareRounds (least : Nat) (most : Option Nat) (cur : Cursor) : Nat :=
  match most with
  | some most => most - least
  | none => cur.left + 1

def Piece.rounds (piece : Piece) (least : Nat) (most : Option Nat) : Greed → Piece
  | .greedy, cur, rest =>
    piece.times least cur fun cur' => piece.greedy (spareRounds least most cur') cur' rest
  | .lazy, cur, rest =>
    piece.times least cur fun cur' => piece.lazy (spareRounds least most cur') cur' rest
  | .possessive, cur, rest =>
    Piece.committed (fun cur rest => piece.committed.times least cur fun cur' =>
      piece.committed.greedy (spareRounds least most cur') cur' rest) cur rest

namespace Expr

/-- Tries the ways to match an expression in order until the rest accepts one. -/
def run : Expr → Piece
  | .empty, cur, rest => rest cur
  | .single cls, cur, rest =>
    match cur.next? with
    | some (c, cur') => if cls.holds c then rest cur' else none
    | none => none
  | .any lineFeed, cur, rest =>
    match cur.next? with
    | some (c, cur') => if lineFeed || c != '\n' then rest cur' else none
    | none => none
  | .place p, cur, rest => if p.holds cur then rest cur else none
  | .seq first second, cur, rest => first.run cur fun cur' => second.run cur' rest
  | .alt left right, cur, rest => (left.run cur rest).orElse fun _ => right.run cur rest
  | .group index body, cur, rest => body.run cur fun cur' => rest (cur'.capture index cur)
  | .rounds least most greed body, cur, rest => Piece.rounds body.run least most greed cur rest
  | .reference index folding, cur, rest =>
    match cur.captured? index with
    | some text =>
      match cur.follow? folding text with
      | some cur' => rest cur'
      | none => none
    | none => none
  | .choice index present absent, cur, rest =>
    match cur.captured? index with
    | some _ => present.run cur rest
    | none => absent.run cur rest
  | .ahead negated body, cur, rest =>
    match body.run cur some, negated with
    | some found, false => rest { cur with captures := found.captures }
    | none, true => rest cur
    | _, _ => none
  | .behind negated width body, cur, rest =>
    match (cur.back? width).bind fun cur' => body.run cur' some, negated with
    | some found, false => rest { cur with captures := found.captures }
    | none, true => rest cur
    | _, _ => none
  | .atomic body, cur, rest => Piece.committed body.run cur rest

/-- The first match that starts at the cursor or later. -/
def searchFrom (e : Expr) : List Char → Cursor → Option Cursor
  | [], cur => e.run cur some
  | _ :: later, cur =>
    (e.run cur some).orElse fun _ =>
      match cur.next? with
      | some (_, cur') => searchFrom e later cur'
      | none => none

/-- Whether the expression matches somewhere in a text. -/
def search (e : Expr) (text : List Char) : Bool := (e.searchFrom text (.start text)).isSome

end Expr

end FormGuard.Regex
