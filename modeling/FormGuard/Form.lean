import FormGuard.Element
import FormGuard.Registry

/-! Forms: elements, the rules declared for them, and the rules for whole submissions. -/
namespace FormGuard

structure Form where
  registry : Registry
  elements : Table Descriptor
  /-- The applications of each target, in the order of declaration. -/
  rules : Table (List Application)
  required : List Value
  formRules : List Value

namespace Form

/-- Work on a form. What was done before a failure stays done. -/
abbrev Action (α : Type) := ExceptT Error (StateM Form) α

def lift {α : Type} : Except Error α → Action α
  | .ok a => pure a
  | .error e => throw e

/-- Work on the registry of a form. -/
def onRegistry {α : Type} (action : Registry.Action α) : Action α := do
  let form ← get
  let (result, registry) := action.run.run form.registry
  set { form with registry := registry }
  lift result

/-- A form with these elements and no rules. -/
def ofElements (registry : Registry) (elements : List Descriptor) : Except Error Form := do
  elements.forM fun d => d.name.needKey
  return ⟨registry, Table.ofList (elements.map fun d => (d.name, d)), Table.empty, [], []⟩

/-- The rule that makes an element mandatory. -/
def requiredRule : Value := .text "required"

def isRequired (form : Form) (name : Value) : Bool := form.required.any fun r => r.same name

def require (name : Value) : Action Unit :=
  modify fun form => { form with required := form.required ++ [name] }

/-- Appends an application to those of a target. -/
def apply (target : Value) (a : Application) : Action Unit := do
  lift target.needKey
  modify fun form => { form with rules := form.rules.alter target [] (· ++ [a]) }

def checkRule (type : Value) : Action Unit := do
  if !(← onRegistry (Registry.isRegistered type)) then throw (.worded (.unknownRule type))

def checkElement (name : Value) : Action Unit := do
  lift name.needKey
  if !(← get).elements.contains name then throw (.unknownElement name)

/-- The elements a declaration names: one, or several of which the first is the target. -/
def targets (element : Value) : Except Error (List Value) :=
  match element.asText? with
  | some _ => .ok [element]
  | none => element.items

/-- Applies a rule to an element, or to several read together. -/
def addRule (element message type format mode reset : Value) : Action Unit := do
  match ← lift (targets element) with
  | [] => throw .noElement
  | target :: dependents =>
    (target :: dependents).forM checkElement
    checkRule type
    if type.same requiredRule then require target
    apply target ⟨type, message, format, .null, reset, .null, Mode.reading mode, dependents⟩

/-- How many values of a group have to pass when none is given: one of several radio buttons, else
every child's. -/
def defaultCount (d : Descriptor) (type : Value) : Int :=
  if type.same requiredRule && d.groupKind? == some .radio then 1 else d.children.length

/-- Applies a rule to the values of a group as a whole. -/
def addWholeRule (group : Value) (d : Descriptor) (message type format howmany mode reset : Value) :
    Action Unit := do
  if type.isNull then throw .noRuleType
  checkRule type
  let howmany := howmany.orElse (.int (defaultCount d type))
  apply group ⟨type, message, format, .null, reset, howmany, Mode.reading mode, []⟩
  if type.same requiredRule then require group

/-- The parts of a child's rule: message, type, then format, mode and reset where given. -/
def childRule (group rule : Value) : Except Error Application := do
  match ← rule.items with
  | message :: type :: rest =>
    let part (position : Nat) : Value := rest[position]?.getD .null
    return ⟨type, message, part 0, group, .bool (part 2).truthy, .null, Mode.reading (part 1), []⟩
  | _ => Value.misuse .value

/-- Applies a child's rules; the answer is how many of them make it mandatory. -/
def addChildRules (group child : Value) : List Value → Action Nat
  | [] => pure 0
  | rule :: rest => do
    let a ← lift (childRule group rule)
    checkRule a.type
    apply child a
    let mandatory := a.type.same requiredRule
    if mandatory then require child
    return (if mandatory then 1 else 0) + (← addChildRules group child rest)

/-- The name in the form of a group's child. -/
def childName (group : Value) (d : Descriptor) (address : Value) : Except Error Value :=
  match d.child address with
  | .ok (name, _) => .ok name
  | .error (.noChild _ _) => do
    throw (.unknownElement (.text ((← group.spelled) ++ "[" ++ (← address.spelled) ++ "]")))
  | .error e => .error e

/-- Applies rules to children of a group, addressed by position or name. -/
def addEachRules (group : Value) (d : Descriptor) : List (Value × Value) → Action Nat
  | [] => pure 0
  | (address, rules) :: rest => do
    let child ← lift (childName group d address)
    let here ← addChildRules group child (← lift rules.items)
    return here + (← addEachRules group d rest)

/-- Applies rules to a group: one to the whole, whose message `rules` is, or some to each child. A
group with as many mandatory rules as children is mandatory itself. -/
def addGroupRule (group rules type format howmany mode reset : Value) : Action Unit := do
  lift group.needKey
  match (← get).elements.find? group with
  | none => throw (.unknownElement group)
  | some d =>
    if d.kind != .group then throw (.worded (.descriptor (.notAGroup group)))
    if rules.asText?.isSome then addWholeRule group d rules type format howmany mode reset
    else
      let mandatory ← addEachRules group d (← lift rules.entries)
      if mandatory != 0 && mandatory == d.children.length then require group

/-- Adds a function that checks a submission as a whole. -/
def addFormRule (rule : Value) : Action Unit := do
  if !rule.isCallable then throw (.worded (.registration (.formRule rule)))
  modify fun form => { form with formRules := form.formRules ++ [rule] }

end Form

end FormGuard
