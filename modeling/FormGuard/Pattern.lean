import FormGuard.Regex.Matcher
import FormGuard.Regex.Parser

/-! Patterns: a regular expression with flag letters, shared by the server and the browser. -/
namespace FormGuard

/-- An expression's text and its flag letters. -/
structure Pattern where
  source : String
  flags : String
  deriving DecidableEq

namespace Pattern

/-- The letters that may follow a delimited expression. -/
def isFlag (c : Char) : Bool := ['i', 'm', 's', 'u', 'x'].contains c

/-- The letters a browser understands. -/
def isBrowserFlag (c : Char) : Bool := ['i', 'm', 's', 'u'].contains c

/-- The parts of a text `/source/flags`, where a line feed may follow. -/
def delimited? (text : List Char) : Option (List Char × List Char) :=
  match text with
  | '/' :: rest =>
    let back := rest.reverse
    let back := if back.head? == some '\n' then back.tail else back
    match back.dropWhile isFlag with
    | '/' :: source => some (source.reverse, (back.takeWhile isFlag).reverse)
    | _ => none
  | _ => none

/-- A delimited expression with its flags, or the whole text as a bare one. -/
def parse (text : String) : Pattern :=
  match delimited? text.toList with
  | some (source, flags) => ⟨String.ofList source, String.ofList flags⟩
  | none => ⟨text, ""⟩

/-- A backslash before each slash that has none; `escaped` says that one came just before. -/
def escapeSlashes (escaped : Bool) : List Char → List Char
  | [] => []
  | c :: rest =>
    if c == '/' && !escaped then '\\' :: '/' :: escapeSlashes false rest
    else c :: escapeSlashes (c == '\\' && !escaped) rest

/-- The literal that browser code holds. -/
def literal (p : Pattern) : String :=
  "/" ++ String.ofList (escapeSlashes false p.source.toList) ++ "/"
    ++ String.ofList (p.flags.toList.filter isBrowserFlag)

/-- Shorthands are limited to ASCII unless the letter `u` is there; letters other than `i`, `m`,
`s` and `x` switch nothing. -/
def switches (letters : List Char) : Regex.Flags :=
  (letters.filter fun c => ['i', 'm', 's', 'x'].contains c).foldl (fun f c => f.set true c)
    { Regex.Flags.none with ascii := !letters.contains 'u' }

/-- The expression of a pattern, however deep its groups are nested. A compiler that recurses on a bounded
stack gives up at some depth (some five hundred groups), which depends on the stack and is left out. -/
def compile (p : Pattern) : Except Regex.Fault Regex.Program :=
  Regex.parse (switches p.flags.toList) p.source.toList

/-- Whether the pattern matches anywhere in a text. -/
def search (p : Pattern) (text : String) : Except Regex.Fault Bool := do
  return (← p.compile).expr.search text.toList

end Pattern

end FormGuard
