import FormGuard.Form

/-! The browser's validation function for a form. -/
namespace FormGuard.Form

/-- The pieces of a message that become text inside a literal: its characters, or its items. -/
def messagePieces (message : Value) : Except Error (List String) := do
  (← message.items).mapM fun piece =>
    match piece.isKey, piece.asText? with
    | true, some s => .ok (if s.length == 1 then Script.escape s else s)
    | _, _ => Value.misuse .type

/-- A message ready to stand inside a literal. -/
def escapedMessage (message : Value) : Except Error String :=
  match message.asText? with
  | some s => .ok (Script.escape s)
  | none => String.join <$> messagePieces message

/-- The element with a name, which has to be there. -/
def element (form : Form) (name : Value) : Except Error Descriptor := do
  name.needKey
  match form.elements.find? name with
  | some d => return d
  | none => Value.misuse .key

/-- What the block of an application reads; nothing if any of it is frozen. -/
def source? (form : Form) (target : Value) (a : Application) :
    Except Error (Option Script.Source) := do
  if a.group.truthy then
    let group ← form.element a.group
    if group.isFrozen then return none
    match group.child target with
    | .ok (_, child) => return if child.isFrozen then none else some (.one child)
    | .error (.noChild _ _) => throw (.unknownElement target)
    | .error e => throw e
  else if a.dependents.isEmpty then
    let d ← form.element target
    return if d.isFrozen then none else some (.one d)
  else
    let ds ← (target :: a.dependents).mapM form.element
    return if ds.any (·.isFrozen) then none else some (.several ds)

/-- The block of one application, if it has a browser side to show. -/
def block? (host : Host) (form : Form) (target : Value) (a : Application) :
    Registry.Action (Option Script.Block) := do
  if !a.isClient then return none
  match ← Registry.lift (form.source? target a) with
  | none => return none
  | some source =>
    let message ← Registry.lift (escapedMessage a.message)
    some <$> Registry.block host source target { a with message := .text message }

/-- The blocks of a target's applications. -/
def targetBlocks (host : Host) (form : Form) (target : Value) :
    List Application → Registry.Action (List Script.Block)
  | [] => pure []
  | a :: rest => do
    let first ← block? host form target a
    return first.toList ++ (← targetBlocks host form target rest)

def blocks (host : Host) (form : Form) :
    List (Value × List Application) → Registry.Action (List Script.Block)
  | [] => pure []
  | (target, applications) :: rest => do
    let first ← targetBlocks host form target applications
    return first ++ (← blocks host form rest)

/-- The function that checks the form in the browser, or nothing when no rule asks for it. -/
def script (host : Host) (formId heading closing : String) : Action String := do
  let form ← get
  let blocks ← onRegistry (blocks host form form.rules.entries)
  return Script.function formId (blocks.map (·.text)) heading closing

end FormGuard.Form
