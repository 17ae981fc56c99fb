import FormGuard.Unicode.Ranges

/-! White space. -/
namespace FormGuard.Unicode

/-- Where white space begins and ends. -/
def spaceChanges : List Nat := [
  9, 14, 28, 33, 133, 134, 160, 161, 5760, 5761, 8192, 8203, 8232, 8234, 8239, 8240, 8287, 8288,
  12288, 12289]

/-- White space of any script, with the four information separators. -/
def isSpace (c : Char) : Bool := within false spaceChanges c.toNat

/-- The six blanks of the ASCII range. -/
def isAsciiSpace (c : Char) : Bool :=
  c == ' ' || c == '\t' || c == '\n' || c == '\r' || c == '\x0b' || c == '\x0c'

/-- The white space allowed around a number: an information separator is no part of it. -/
def isNumberSpace (c : Char) : Bool :=
  if c.toNat < 128 then isAsciiSpace c else isSpace c

end FormGuard.Unicode
