import FormGuard.Journal
import FormGuard.Pattern.Named
import FormGuard.Script.Check
import FormGuard.Value.Access

/-! The rules that test a value by a pattern. -/
namespace FormGuard

namespace Rule

/-- The pattern that a value gives: a pattern, a compiled expression, or a text to read. -/
def patternOf? : Value → Option Pattern
  | .pattern p => some p
  | .compiled e => some ⟨e.source, e.letters⟩
  | v => v.asText?.map Pattern.parse

def liftFault {α : Type} : Except Regex.Fault α → Except Error α
  | .ok a => .ok a
  | .error fault => .error (.expression fault)

/-- Whether a pattern matches anywhere in a value, written as text. -/
def search (p : Pattern) (value : Value) : Except Error Bool := do
  let text ← value.written
  liftFault (p.search text)

theorem search_text (p : Pattern) (s : String) : search p (.text s) = liftFault (p.search s) := rfl

def matchesPattern (p : Pattern) (value : Value) : Except Error Value := .bool <$> search p value

def patternCheck (p : Pattern) : Script.Check :=
  ⟨"  var regex = " ++ p.literal ++ ";\n",
    Script.placeholder ++ " != '' && !regex.test(" ++ Script.placeholder ++ ")"⟩

end Rule

/-- One pattern for each rule name. -/
abbrev Patterns := Table Pattern

namespace Patterns

def initial : Patterns := Table.ofList (Pattern.named.map fun (name, p) => (.text name, p))

/-- The pattern given as data, once it compiles. -/
def readable (name data : Value) : Except Error Pattern :=
  match Rule.patternOf? data with
  | none => Error.raise (.registration (.notAPattern name data))
  | some p =>
    match p.compile with
    | .ok _ => .ok p
    | .error .malformed => Error.raise (.registration (.badPattern name))
    | .error fault => .error (.expression fault)

def replacing (name : Value) : List Note :=
  Note.about .warning .rules "Replacing pattern for rule '" name "'"

/-- Stores a pattern under a name; replacing another one is noted. -/
def add (patterns : Patterns) (name data : Value) : Except Error (Patterns × List Note) := do
  let p ← readable name data
  name.needKey
  let notes :=
    match patterns.find? name with
    | some old => if old = p then [] else replacing name
    | none => []
  return (patterns.insert name p, notes)

/-- The pattern of a name: the stored one, or the one the format gives. -/
def patternFor (patterns : Patterns) (name format : Value) : Except Error Pattern := do
  name.needKey
  match patterns.find? name with
  | some p => return p
  | none =>
    if format.isNull then throw (.worded (.data (.noPattern name)))
    match Rule.patternOf? format with
    | some p => return p
    | none => throw (.worded (.data (.notAPattern name format)))

def validate (patterns : Patterns) (name value format : Value) : Except Error Value := do
  Rule.matchesPattern (← patterns.patternFor name format) value

def check (patterns : Patterns) (name format : Value) : Except Error Script.Check := do
  return Rule.patternCheck (← patterns.patternFor name format)

end Patterns

end FormGuard
