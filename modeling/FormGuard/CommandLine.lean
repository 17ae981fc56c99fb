import FormGuard.CommandLine.Options
import FormGuard.Config.File
import FormGuard.Form.File
import FormGuard.Form.Script

/-! The commands: listing rules, checking values, and printing the function for a form. -/
namespace FormGuard.CommandLine

/-- What a command leaves behind. -/
structure Outcome where
  exit : Nat
  output : String
  errors : String
  /-- An error that no command reports. -/
  uncaught : Option Error
  deriving DecidableEq

namespace Outcome

def done (output : String) : Outcome := ⟨0, output, "", none⟩

def usage : Outcome := ⟨2, "", "usage", none⟩

def refused : Refusal → Outcome
  | .usage => usage
  | .missingValue name => ⟨2, "", "Error: Option '" ++ name ++ "' requires an argument.\n", none⟩
  | .needlessValue name =>
    ⟨2, "", "Error: Option '" ++ name ++ "' does not take a value.\n", none⟩

/-- Reports an error of the library; others stay uncaught. -/
def failed (exit : Nat) (output : String) (e : Error) : Outcome :=
  if e.isOwn then ⟨exit, output, "Error: " ++ e.message ++ "\n", none⟩
  else ⟨1, output, "", some e⟩

/-- Puts what was noted before the messages. The usage stands alone. -/
def withNotes (o : Outcome) (notes : String) : Outcome :=
  if o = usage then o else { o with errors := notes ++ o.errors }

end Outcome

/-- The least level that is shown, by name. -/
def thresholds : List (String × Nat) :=
  [("CRITICAL", 50), ("FATAL", 50), ("ERROR", 40), ("WARN", 30), ("WARNING", 30), ("INFO", 20),
    ("DEBUG", 10), ("NOTSET", 0)]

def threshold? (word : String) : Option Nat :=
  thresholds.lookup (String.ofList (word.toList.map Char.toUpper))

def weight : Level → Nat
  | .debug => 10
  | .warning => 30

/-- The lines for what was noted, from a level on. -/
def noteLines (threshold : Nat) (notes : List Note) : String :=
  String.join ((notes.filter fun n => decide (threshold ≤ weight n.level)).map fun n =>
    n.level.word ++ " " ++ n.topic.name ++ ": " ++ n.message ++ "\n")

/-- The setting that holds the least level shown. -/
def levelSetting : String := "FORMRULE_LOG_LEVEL"

def helpForm : OptionForm := ⟨"--help", none, false⟩

def mainForms : List OptionForm :=
  [⟨"--config", none, true⟩, ⟨"--verbose", some 'v', false⟩, helpForm]

def checkForms : List OptionForm :=
  [⟨"--format", none, true⟩, ⟨"--multiple", none, false⟩, helpForm]

def scriptForms : List OptionForm := [⟨"--form-id", none, true⟩, helpForm]

/-- Whether there is a file; a path with a slash at its end names none. -/
def isFile (files : Files) (path : String) : Bool :=
  let last := (Text.parts (· == '/') path.toList).getLast?.getD []
  !last.isEmpty && last != ['.'] && (files.read? (normalPath path)).isSome

/-- Fills a text with blanks up to a width. -/
def padded (width : Nat) (s : String) : String :=
  s ++ String.ofList (List.replicate (width - s.length) ' ')

/-- The lines for the rules, and whether all of them could be made. -/
def ruleLines (host : Host) : List Value → String → Bool →
    Registry.Action (Except (String × Error) (String × Bool))
  | [], output, sound => return .ok (output, sound)
  | name :: rest, output, sound => do
    let kind ← Registry.kind name
    let (result, registry) := (Registry.getRule host name).run.run (← get)
    set registry
    let shown ← Registry.lift name.spelled
    let line (implementation : String) : String :=
      "  " ++ padded 16 shown ++ " " ++ padded 9 kind.word ++ " " ++ implementation ++ "\n"
    match result with
    | .ok rule => ruleLines host rest (output ++ line rule.cls.name) sound
    | .error e =>
      if e.isOwn then ruleLines host rest (output ++ line e.message) false
      else return .error (output, e)

/-- Lists the rules and what implements them. -/
def listRules (host : Host) (registry : Registry) : Outcome × Registry :=
  let work : Registry.Action Outcome := do
    let names ← Registry.names
    match ← ruleLines host names "" true with
    | .ok (output, sound) =>
      let output := output ++ "\n" ++ toString names.length ++ " rule(s) registered.\n"
      return ⟨if sound then 0 else 1, output, "", none⟩
    | .error (output, e) => return Outcome.failed 1 output e
  match work.run.run registry with
  | (.ok outcome, registry) => (outcome, registry)
  | (.error e, registry) => (⟨1, "", "", some e⟩, registry)

/-- Validates values: one by itself, several one by one, or all as a unit. -/
def checkValues (host : Host) (registry : Registry) (name : String) (values : List String)
    (format : Option String) (whole : Bool) : Outcome × Registry :=
  let target : Value :=
    match values, whole with
    | [value], false => .text value
    | values, _ => .list (values.map .text)
  let format := (format.map Value.text).getD .null
  let (result, registry) := (Registry.validate host (.text name) target format whole).run.run registry
  let outcome : Outcome :=
    match result with
    | .error e => Outcome.failed 2 "" e
    | .ok verdict =>
      let label :=
        match verdict with
        | .single passed => if passed then "valid" else "invalid"
        | .several passed =>
          toString passed ++ " of " ++ toString values.length ++ " value(s) valid"
      ⟨if verdict.holds then 0 else 1, label ++ "\n", "", none⟩
  (outcome, registry)

/-- Prints the browser function of the form in a file. -/
def printScript (host : Host) (files : Files) (registry : Registry) (path : String)
    (formId : Option String) : Outcome × List Note :=
  match Form.ofFile host registry files path with
  | (.error e, notes) => (Outcome.failed 1 "" e.worded, notes)
  | (.ok (ownId, form), _) =>
    let formId := match formId with
      | some given => if given.isEmpty then ownId else given
      | none => ownId
    let (result, form) :=
      (Form.script host formId Script.defaultHeading Script.defaultClosing).run.run form
    let outcome : Outcome :=
      match result with
      | .error e => Outcome.failed 1 "" e.worded
      | .ok script =>
        if script.isEmpty then ⟨0, "", "No client-side rules defined.\n", none⟩
        else Outcome.done (script ++ "\n")
    (outcome, form.registry.notes)

/-- The commands below `rules`. -/
def runRules (host : Host) (registry : Registry) (words : List String) : Outcome × List Note :=
  let stay (o : Outcome) : Outcome × List Note := (o, registry.notes)
  if words.isEmpty then stay .usage
  else
    match scan [helpForm] false .empty words with
    | .error refusal => stay (.refused refusal)
    | .ok g =>
      if g.has "--help" then stay (.done "")
      else
        match g.arguments with
        | "list" :: rest =>
          match scan [helpForm] true .empty rest with
          | .error refusal => stay (.refused refusal)
          | .ok g =>
            if g.has "--help" then stay (.done "")
            else if !g.arguments.isEmpty then stay .usage
            else
              let (outcome, registry) := listRules host registry
              (outcome, registry.notes)
        | "check" :: rest =>
          match scan checkForms true .empty rest with
          | .error refusal => stay (.refused refusal)
          | .ok g =>
            if g.has "--help" then stay (.done "")
            else
              match g.arguments with
              | name :: value :: values =>
                let (outcome, registry) := checkValues host registry name (value :: values)
                  (g.last? "--format") (g.has "--multiple")
                (outcome, registry.notes)
              | _ => stay .usage
        | _ => stay .usage

def runScript (host : Host) (files : Files) (registry : Registry) (words : List String) :
    Outcome × List Note :=
  let stay (o : Outcome) : Outcome × List Note := (o, registry.notes)
  match scan scriptForms true .empty words with
  | .error refusal => stay (.refused refusal)
  | .ok g =>
    if g.has "--help" then stay (.done "")
    else
      match g.arguments with
      | [path] =>
        if isFile files path then printScript host files registry path (g.last? "--form-id")
        else stay .usage
      | _ => stay .usage

/-- The registry that all commands work on, with what was noted while it was made. -/
def startRegistry (host : Host) (env : Environment) (path : Option String) :
    Except Error Registry × List Note :=
  let config := match path with
    | some path => Config.ofFile host env.files path true
    | none => Config.ofEnvironment host env
  match config with
  | .ok config => Registry.ofConfig host config
  | .error e => (.error e, [])

/-- Only faults of the configuration are reported at the start. -/
def startFailure (e : Error) : Outcome :=
  match e with
  | .config _ | .registration _ => Outcome.failed 1 "" e
  | e => ⟨1, "", "", some e⟩

/-- Runs a command line. -/
def run (host : Host) (env : Environment) (words : List String) : Outcome :=
  if words.isEmpty then .usage
  else
    match scan mainForms false .empty words with
    | .error refusal => .refused refusal
    | .ok g =>
      let path := g.last? "--config"
      if g.has "--help" then .done ""
      else if path.any fun path => !isFile env.files path then .usage
      else
        match g.arguments with
        | [] => .usage
        | command :: rest =>
          if command != "rules" && command != "script" then .usage
          else
            let level := if g.has "--verbose" then "DEBUG"
              else (env.setting? levelSetting).getD "WARNING"
            match threshold? level with
            | none => ⟨1, "", "", some (.misuse .value)⟩
            | some threshold =>
              match startRegistry host env path with
              | (.error e, notes) => (startFailure e).withNotes (noteLines threshold notes)
              | (.ok registry, _) =>
                let (outcome, notes) :=
                  if command == "rules" then runRules host registry rest
                  else runScript host env.files registry rest
                outcome.withNotes (noteLines threshold notes)

end FormGuard.CommandLine
