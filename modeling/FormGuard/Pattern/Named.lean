import FormGuard.Pattern

/-! The patterns that come with the library. -/
namespace FormGuard.Pattern

def lettersOnly : Pattern := ⟨"^[a-zA-Z]+$", ""⟩

def alphanumeric : Pattern := ⟨"^[a-zA-Z0-9]+$", ""⟩

def numeric : Pattern := ⟨"(^-?\\d\\d*\\.\\d*$)|(^-?\\d\\d*$)|(^-?\\.\\d\\d*$)", ""⟩

def noPunctuation : Pattern := ⟨"^[^().\\/\\*\\^\\?#!@$%+=,\\\"\\'><~\\[\\]\x7b\x7d]+$", ""⟩

def nonzero : Pattern := ⟨"^-?[1-9][0-9]*", ""⟩

/-- The named patterns, in the order they are registered. -/
def named : List (String × Pattern) :=
  [("lettersonly", lettersOnly), ("alphanumeric", alphanumeric), ("numeric", numeric),
    ("nopunctuation", noPunctuation), ("nonzero", nonzero)]

/-- A quoted or dotted local part at a bracketed address, a bare address or a host name. -/
def email : Pattern :=
  ⟨"^((\\\"[^\\\"\\f\\n\\r\\t\\v\\b]+\\\")|([\\w!#$%&'*+\\-~\\/^`|\x7b\x7d]+"
    ++ "(\\.[\\w!#$%&'*+\\-~\\/^`|\x7b\x7d]+)*))"
    ++ "@((\\[(((25[0-5])|(2[0-4][0-9])|([0-1]?[0-9]?[0-9]))\\.)\x7b3\x7d"
    ++ "((25[0-5])|(2[0-4][0-9])|([0-1]?[0-9]?[0-9]))\\])"
    ++ "|((((25[0-5])|(2[0-4][0-9])|([0-1]?[0-9]?[0-9]))\\.)\x7b3\x7d"
    ++ "((25[0-5])|(2[0-4][0-9])|([0-1]?[0-9]?[0-9])))"
    ++ "|((([A-Za-z0-9\\-])+\\.)+[A-Za-z\\-]+))$", ""⟩

end FormGuard.Pattern
