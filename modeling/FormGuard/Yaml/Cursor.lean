/-! A place in the text of a YAML document. -/
namespace FormGuard.Yaml

/-- The text from here on and the column it begins in. -/
structure Cursor where
  rest : List Char
  column : Nat

/-- The line breaks, and what each stands for inside a scalar. -/
def lineBreak? (c : Char) : Option Char :=
  if c == '\n' || c == '\r' || c == '\x85' then some '\n'
  else if c == '\u2028' || c == '\u2029' then some c
  else none

def isBreak (c : Char) : Bool := (lineBreak? c).isSome

/-- White space or a line break. -/
def isBlank (c : Char) : Bool := c == ' ' || c == '\t' || isBreak c

/-- Whether a text has ended or goes on with white space. -/
def startsBlank (text : List Char) : Bool :=
  match text with
  | [] => true
  | c :: _ => isBlank c

/-- The characters a document may hold. -/
def isPrintable (c : Char) : Bool :=
  let n := c.toNat
  n == 9 || n == 10 || n == 13 || (32 ≤ n && n ≤ 126) || n == 133 || (160 ≤ n && n ≤ 0xD7FF)
    || (0xE000 ≤ n && n ≤ 0xFFFD) || 0x10000 ≤ n

namespace Cursor

/-- A cursor behind the characters of a line. -/
def forward (place : Cursor) (n : Nat) : Cursor := ⟨place.rest.drop n, place.column + n⟩

/-- Goes over spaces, comments and line breaks; tells whether a line break was among them. -/
def skipFrom (comment crossed : Bool) (column : Nat) : List Char → Cursor × Bool
  | [] => (⟨[], column⟩, crossed)
  | c :: rest =>
    if isBreak c then skipFrom false true 0 rest
    else if comment then skipFrom true crossed (column + 1) rest
    else if c == ' ' then skipFrom false crossed (column + 1) rest
    else if c == '#' then skipFrom true crossed (column + 1) rest
    else (⟨c :: rest, column⟩, crossed)

def skip (place : Cursor) : Cursor × Bool := skipFrom false false place.column place.rest

/-- Whether a marker of three characters stands at the beginning of a line. -/
def hasMarker (place : Cursor) : Bool :=
  place.column == 0 &&
    match place.rest with
    | a :: b :: c :: rest => a == b && b == c && (a == '-' || a == '.') && startsBlank rest
    | _ => false

/-- Whether the document ends here. -/
def atEnd (place : Cursor) : Bool := place.rest.isEmpty || place.hasMarker

/-- Whether a sequence entry begins here. -/
def atEntry (place : Cursor) : Bool :=
  match place.rest with
  | '-' :: rest => startsBlank rest
  | _ => false

end Cursor

end FormGuard.Yaml
