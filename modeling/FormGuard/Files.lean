import FormGuard.Text.Occurrence
import FormGuard.Yaml
import FormGuard.Error
import FormGuard.Value.Access

/-! Files by path, and the YAML documents in them. -/
namespace FormGuard

/-- A path in its shortest form: no doubled slashes, none at the end, no steps to where it is. -/
def normalPath (path : String) : String :=
  let steps := (Text.parts (· == '/') path.toList).filter fun step => !step.isEmpty && step != ['.']
  let root :=
    match path.toList with
    | '/' :: '/' :: '/' :: _ => "/"
    | '/' :: '/' :: _ => "//"
    | '/' :: _ => "/"
    | _ => ""
  let joined := root ++ String.intercalate "/" (steps.map String.ofList)
  if joined.isEmpty then "." else joined

/-- The last step of a path without its extension. -/
def pathStem (path : String) : String :=
  let name := ((Text.parts (· == '/') (normalPath path).toList).getLast?).getD []
  match Text.cutLast? '.' name with
  | some (stem, extension) =>
    String.ofList (if stem.isEmpty || extension.isEmpty then name else stem)
  | none => String.ofList name

/-- One line feed for each line end. -/
def unifyLines : List Char → List Char
  | [] => []
  | '\r' :: '\n' :: rest => '\n' :: unifyLines rest
  | '\r' :: rest => '\n' :: unifyLines rest
  | c :: rest => c :: unifyLines rest

/-- The text of the file at a path in normal form, if there is a file. -/
structure Files where
  read? : String → Option String

namespace Files

/-- The mapping in a file. A document that counts as false is the empty mapping. -/
def mapping (files : Files) (document : Document) (path : String) : Except Error Value :=
  let path := normalPath path
  match files.read? path with
  | none => .error (.config (.unreadable document path))
  | some text =>
    match Yaml.load (String.ofList (unifyLines text.toList)) with
    | .error .malformed => .error (.config (.notYaml document path))
    | .error .oversized => Value.misuse .value
    | .ok v =>
      match v.orElse (.map []) with
      | .map entries => .ok (.map entries)
      | _ => .error (.config (.notAMapping document path))

end Files

end FormGuard
