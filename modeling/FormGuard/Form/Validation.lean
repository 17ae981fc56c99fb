import FormGuard.Form
import FormGuard.Form.Submission

/-! Validating a submission: the element rules target by target, then the form rules. -/
namespace FormGuard.Form

/-- The messages found so far, by the key they are reported under. -/
abbrev Report := Table Value

/-- Whether nothing more is reported for an application: its target or its group has an error. -/
def isSettled (report : Report) (target : Value) (a : Application) : Except Error Bool := do
  if report.contains target then return true
  if !a.group.truthy then return false
  a.group.needKey
  return report.contains a.group

/-- Whether nothing was submitted. -/
def isBlank (value : Value) : Bool := value.isNull || value.same (.text "")

/-- The outcome of one application on the value of its target: with dependents, all values as one
unit; a list as one unit unless a number of items has to pass. -/
def evaluate (host : Host) (submitted value : Value) (a : Application) :
    Registry.Action Registry.Verdict := do
  match a.dependents with
  | [] =>
    let whole := match value with
      | .list _ => a.howmany.isNull
      | _ => false
    Registry.validate host a.type value a.format whole
  | dependents =>
    let others ← Registry.lift (dependents.mapM (Submission.value submitted))
    Registry.validate host a.type (.list (value :: others)) a.format true

/-- Whether an outcome is too little for an application. -/
def falls (a : Application) (verdict : Registry.Verdict) : Except Error Bool :=
  if !verdict.holds then .ok true
  else if !a.howmany.truthy then .ok false
  else Value.less (.int verdict.number) a.howmany

/-- Goes through the applications of a target until one is settled or not needed. -/
def checkApplications (host : Host) (form : Form) (submitted target value : Value) :
    List Application → Report → Registry.Action Report
  | [], report => pure report
  | a :: rest, report => do
    if ← Registry.lift (isSettled report target a) then return report
    if !form.isRequired target && isBlank value then return report
    let verdict ← evaluate host submitted value a
    if ← Registry.lift (falls a verdict) then
      let key := a.reportKey target
      Registry.lift key.needKey
      checkApplications host form submitted target value rest (report.insert key a.message)
    else checkApplications host form submitted target value rest report

/-- Goes through the targets in the order of their first declaration. -/
def checkTargets (host : Host) (form : Form) (submitted : Value) :
    List (Value × List Application) → Report → Registry.Action Report
  | [], report => pure report
  | (target, applications) :: rest, report => do
    let value ← Registry.lift (Submission.value submitted target)
    let report ← checkApplications host form submitted target value applications report
    checkTargets host form submitted rest report

/-- Adds messages for what is not reported yet. -/
def complete (report : Report) (messages : List (Value × Value)) : Report :=
  messages.foldl (fun report (name, message) =>
    if report.contains name then report else report.insert name message) report

/-- Adds what the form rules find. A form rule answers true or with messages. -/
def checkFormRules (host : Host) (submitted : Value) :
    List Value → Report → Except Error Report
  | [], report => .ok report
  | rule :: rest, report => do
    match ← host.apply rule [submitted] with
    | .bool true => checkFormRules host submitted rest report
    | .map messages => checkFormRules host submitted rest (complete report messages)
    | answer => Error.raise (.formRuleResult rule answer)

/-- Notes a failed submission. -/
def noteFailure (report : Report) : Registry.Action Unit := do
  if !report.entries.isEmpty then
    let names ← Registry.lift (Value.sorted report.keys)
    Registry.note (Note.about .debug .forms
      ("Submission failed " ++ toString report.entries.length ++ " rule(s): ") (.list names) "")

/-- The messages for a submission; a valid one has none. -/
def validate (host : Host) (submitted : Value) : Action Report := do
  let form ← get
  onRegistry do
    let report ← checkTargets host form submitted form.rules.entries Table.empty
    let report ← Registry.lift (checkFormRules host submitted form.formRules report)
    noteFailure report
    return report

end FormGuard.Form
