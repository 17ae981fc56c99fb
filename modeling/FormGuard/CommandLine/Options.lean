import FormGuard.Text.Occurrence

/-! Options and arguments of a command. -/
namespace FormGuard.CommandLine

/-- An option with two dashes, perhaps a letter for one dash, and perhaps a value. -/
structure OptionForm where
  name : String
  letter : Option Char
  takesValue : Bool

/-- Why a command line is refused. -/
inductive Refusal where
  /-- The command line does not fit, and the usage is shown. -/
  | usage
  | missingValue (name : String)
  | needlessValue (name : String)
  deriving DecidableEq

/-- What a command line gives: options in order, then arguments. -/
structure Given where
  options : List (String × String)
  arguments : List String

namespace Given

def empty : Given := ⟨[], []⟩

def option (g : Given) (name value : String) : Given :=
  { g with options := g.options ++ [(name, value)] }

def argument (g : Given) (s : String) : Given := { g with arguments := g.arguments ++ [s] }

def has (g : Given) (name : String) : Bool := g.options.any (·.1 == name)

/-- The value of an option; the last one counts. -/
def last? (g : Given) (name : String) : Option String :=
  ((g.options.filter (·.1 == name)).getLast?).map (·.2)

end Given

/-- The flags that the letters behind one dash stand for. -/
def letterFlags (forms : List OptionForm) : List Char → Except Refusal (List String)
  | [] => .ok []
  | c :: rest =>
    match forms.find? fun form => form.letter == some c with
    | some form => do return form.name :: (← letterFlags forms rest)
    | none => .error .usage

/-- The name of an option and the value attached to it. -/
def attached (word : String) : String × Option String :=
  match Text.cut? '=' word.toList with
  | some (name, value) => (String.ofList name, some (String.ofList value))
  | none => (word, none)

/-- Reads a command line. Two dashes end the options; unless `mixed` holds, so does the first
argument. -/
def scan (forms : List OptionForm) (mixed : Bool) : Given → List String → Except Refusal Given
  | g, [] => .ok g
  | g, word :: rest =>
    if word == "--" then .ok { g with arguments := g.arguments ++ rest }
    else if word.toList.head? == some '-' && word.length > 1 then
      let (name, value?) := attached word
      match forms.find? fun form => form.name == name with
      | some form =>
        if form.takesValue then
          match value?, rest with
          | some value, rest => scan forms mixed (g.option name value) rest
          | none, value :: rest => scan forms mixed (g.option name value) rest
          | none, [] => .error (.missingValue name)
        else if value?.isSome then .error (.needlessValue name)
        else scan forms mixed (g.option name "") rest
      | none =>
        if word.toList.take 2 == ['-', '-'] then .error .usage
        else
          match letterFlags forms (word.toList.drop 1) with
          | .ok names => scan forms mixed (names.foldl (fun g name => g.option name "") g) rest
          | .error refusal => .error refusal
    else if mixed then scan forms mixed (g.argument word) rest
    else .ok { g with arguments := g.arguments ++ word :: rest }
  termination_by _ words => words.length

end FormGuard.CommandLine
