import FormGuard.Element.Reader
import FormGuard.Form

/-! Reading forms from definitions. -/
namespace FormGuard.Form

/-- The descriptors of the elements; what does not fit together is a fault of the definition. -/
def readElements (definition : Value) : Except Error (List Descriptor) := do
  match Descriptor.ofItems (← definition.fieldOr "elements" (.list [])) with
  | .error (.descriptor fault) => throw (.config (.element fault))
  | result => result

/-- One rule of a child as a sequence: message, type, format, mode and reset. -/
def childEntry (rule : Value) : Except Error Value := do
  let message ← rule.fieldOr "message" (.text "")
  let type ← rule.field "type"
  let format ← rule.fieldOr "format" .null
  let mode ← rule.fieldOr "validation" (.text Mode.server.word)
  let reset ← rule.fieldOr "reset" (.bool false)
  return .tuple [message, type, format, mode, reset]

/-- The rules of each child, addressed by position or name. -/
def childEntries : List (Value × Value) → Except Error (List (Value × Value))
  | [] => .ok []
  | (address, rules) :: rest => do
    let entries ← (← rules.items).mapM childEntry
    return (address, .list entries) :: (← childEntries rest)

/-- Declares rules for the children of a group. -/
def readChildRules (rule : Value) : Action Unit := do
  let group ← lift (rule.field "group")
  let rules ← lift (do childEntries (← (← rule.field "rules").entries))
  addGroupRule group (.map rules) .null .null (.int 0) (.text Mode.server.word) (.bool false)

/-- Declares a rule for a group as a whole. -/
def readGroupRule (rule : Value) : Action Unit := do
  let group ← lift (rule.field "group")
  let message ← lift (rule.fieldOr "message" (.text ""))
  let type ← lift (rule.field "type")
  let format ← lift (rule.fieldOr "format" .null)
  let howmany ← lift (rule.fieldOr "howmany" (.int 0))
  let mode ← lift (rule.fieldOr "validation" (.text Mode.server.word))
  let reset ← lift (rule.fieldOr "reset" (.bool false))
  addGroupRule group message type format howmany mode reset

/-- Declares a rule for an element. -/
def readElementRule (rule : Value) : Action Unit := do
  let element ← lift (rule.field "element")
  let message ← lift (rule.fieldOr "message" (.text ""))
  let type ← lift (rule.field "type")
  let format ← lift (rule.fieldOr "format" .null)
  let mode ← lift (rule.fieldOr "validation" (.text Mode.server.word))
  let reset ← lift (rule.fieldOr "reset" (.bool false))
  addRule element message type format mode reset

/-- Declares what an entry of the rules says. -/
def readRule (rule : Value) : Action Unit := do
  if ← lift (rule.mentions "group") then
    if ← lift (rule.mentions "rules") then readChildRules rule else readGroupRule rule
  else if ← lift (rule.mentions "element") then readElementRule rule
  else throw (.worded (.config (.target rule)))

/-- Adds the function at an import path. -/
def readFormRule (host : Host) (path : Value) : Action Unit := do
  match ImportPath.resolve host path with
  | .error (.notFound fault) => throw (.worded (.config (.formRuleImport path fault)))
  | .error e => throw e
  | .ok rule =>
    if rule.isCallable then addFormRule rule
    else throw (.worded (.config (.formRule path (.formRule rule))))

/-- Declares the rules of a definition. -/
def readRules (host : Host) (definition : Value) : Action Unit := do
  (← lift (do (← definition.fieldOr "rules" (.list [])).items)).forM readRule
  (← lift (do (← definition.fieldOr "form_rules" (.list [])).items)).forM (readFormRule host)

/-- The form of parsed data. -/
def ofValue (host : Host) (registry : Registry) (definition : Value) :
    Except Error Form × List Note :=
  match readElements definition >>= ofElements registry with
  | .error e => (.error e, registry.notes)
  | .ok form =>
    match (readRules host definition).run.run form with
    | (.ok _, form) => (.ok form, form.registry.notes)
    | (.error e, form) => (.error e, form.registry.notes)

end FormGuard.Form
