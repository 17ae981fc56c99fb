/-! Text inside the string literals of browser code. -/
namespace FormGuard.Script

/-- What stands for a character between the quotes. -/
def escapeChar (c : Char) : List Char :=
  match c with
  | '\r' => ['\\', 'r']
  | '\n' => ['\\', 'n']
  | '\t' => ['\\', 't']
  | '\'' => ['\\', '\'']
  | '"' => ['\\', '"']
  | '\\' => ['\\', '\\']
  | c => [c]

def escape (s : String) : String := String.ofList (s.toList.flatMap escapeChar)

end FormGuard.Script
