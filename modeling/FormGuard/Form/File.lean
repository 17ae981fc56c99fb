import FormGuard.Files
import FormGuard.Form.Reader

/-! Forms in files. -/
namespace FormGuard.Form

/-- A form and the identifier its file gives it, else the stem of the file's name. -/
def ofFile (host : Host) (registry : Registry) (files : Files) (path : String) :
    Except Error (String × Form) × List Note :=
  match files.mapping .formDefinition path with
  | .error e => (.error e, registry.notes)
  | .ok definition =>
    match ((definition.get? "id").getD (.text (pathStem path))).spelled with
    | .error e => (.error e, registry.notes)
    | .ok formId =>
      let (form, notes) := ofValue host registry definition
      (form.map fun form => (formId, form), notes)

end FormGuard.Form
