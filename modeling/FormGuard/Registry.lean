import FormGuard.Config
import FormGuard.Rule
import FormGuard.Script.Block
import FormGuard.Value.Order

/-! The registry: rule names, the implementations that serve them, and their shared instances. -/
namespace FormGuard

/-- What a name is bound to: a class, or the import path of one not looked for yet. -/
inductive Target where
  | ofClass (cls : RuleClass)
  | path (text : String)
  deriving DecidableEq

namespace Target

def shown : Target → String
  | .ofClass cls => cls.name
  | .path text => text

end Target

structure Registry where
  targets : Table Target
  kinds : Table RuleKind
  /-- One instance for each class, made on first use. -/
  instances : List (RuleClass × Rule)
  notes : List Note

namespace Registry

/-- Work on a registry. What was done before a failure stays done. -/
abbrev Action (α : Type) := ExceptT Error (StateM Registry) α

def empty : Registry := ⟨Table.empty, Table.empty, [], []⟩

def note (notes : List Note) : Action Unit := modify fun r => { r with notes := r.notes ++ notes }

def fault {α : Type} (f : RegistrationFault) : Action α := throw (.worded (.registration f))

def lift {α : Type} (result : Except Error α) : Action α := liftExcept result
where
  liftExcept : Except Error α → Action α
    | .ok a => pure a
    | .error e => throw e

def instance? (r : Registry) (cls : RuleClass) : Option Rule := r.instances.lookup cls

/-- Puts an instance in the place of the one of its class. -/
def putInstance (rule : Rule) : Action Unit :=
  modify fun r =>
    { r with instances := (rule.cls, rule) :: r.instances.filter fun entry => entry.1 != rule.cls }

/-- Refuses to bind a name to something else than before. -/
def checkRebind (name : Value) (target : Target) : Action Unit := do
  lift name.needKey
  match (← get).targets.find? name with
  | none => pure ()
  | some current =>
    if current ≠ target then fault (.bound name current.shown target.shown)

def bind (name : Value) (target : Target) (kind : RuleKind) : Action Unit := do
  checkRebind name target
  modify fun r =>
    { r with targets := r.targets.insert name target, kinds := r.kinds.insert name kind }

/-- The class at an import path; every name bound to the path is then bound to the class. -/
def resolvePath (host : Host) (path : String) : Action RuleClass := do
  match ImportPath.resolveText host path with
  | .error (.notFound f) => fault (.unimportable path f)
  | .error e => throw e
  | .ok (.ruleClass cls) =>
    if cls.isRule then
      modify fun r =>
        { r with targets := r.targets.map fun _ target =>
            if target = .path path then .ofClass cls else target }
      pure cls
    else fault (.notARuleClass path)
  | .ok _ => fault (.notARuleClass path)

def resolve (host : Host) : Target → Action RuleClass
  | .ofClass cls => pure cls
  | .path path => resolvePath host path

/-- The shared instance of a class, made on first use. -/
def classInstance (host : Host) (cls : RuleClass) : Action Rule := do
  match (← get).instance? cls with
  | some rule => pure rule
  | none =>
    match Rule.make host cls [] with
    | .error e => fault (.construction cls.name e.message)
    | .ok rule =>
      putInstance rule
      note [⟨.debug, .registry, "Instantiated rule class " ++ cls.name⟩]
      pure rule

/-- The kind as a word in lower case; without one the empty word. -/
def kindWord (kind : Value) : Except Error String :=
  match kind with
  | .kind k => .ok k.word
  | kind => Unicode.lowerText <$> (kind.orElse (.text "")).spelled

/-- Binds a name to the shared instance of a class and stores data for it there. -/
def registerData (host : Host) (name : Value) (cls : RuleClass) (kind : RuleKind)
    (data owner : Value) : Action Unit := do
  checkRebind name (.ofClass cls)
  let rule ← classInstance host cls
  let (rule, notes) ← lift (rule.add host name data owner)
  putInstance rule
  note notes
  bind name (.ofClass cls) kind

/-- Binds a name to a class, a path or an instance, which takes the place of the one of its class. -/
def registerTarget (name data : Value) : Action Unit := do
  match data, data.asText? with
  | .ruleClass cls, _ =>
    if cls.isRule then bind name (.ofClass cls) .ofClass else fault (.notARule cls.name)
  | _, some path => bind name (.path path) .ofClass
  | .ruleObject cls held, _ =>
    if cls.isRule then
      bind name (.ofClass cls) .custom
      putInstance (Rule.ofHeld cls held)
    else fault (.unusable name data)
  | _, _ => fault (.unusable name data)

/-- Registers a rule: a pattern, a function, or else a rule class, its import path or an
instance. -/
def register (host : Host) (name kind data owner : Value) : Action Unit := do
  let word ← lift (kindWord kind)
  match RuleKind.ofWord? word with
  | some .regex => registerData host name .regex .regex data owner
  | some .callback => registerData host name .callback .callback data owner
  | some .function => registerData host name .callback .function data owner
  | _ => registerTarget name data
  note (Note.about .debug .registry "Registered rule '" name
    ("' (" ++ (if word.isEmpty then "class" else word) ++ ")"))

/-- Registers the bindings of a configuration. -/
def registerAll (host : Host) (bindings : List (Value × Binding)) : Action Unit :=
  bindings.forM fun (name, b) => register host name b.kind b.target b.owner

/-- A registry of a configuration, with what was noted on the way. -/
def ofConfig (host : Host) (config : Config) : Except Error Registry × List Note :=
  match (registerAll host config.entries).run.run empty with
  | (.ok _, r) => (.ok r, r.notes)
  | (.error e, r) => (.error e, r.notes)

/-- The shared instance that serves a name. -/
def getRule (host : Host) (name : Value) : Action Rule := do
  lift name.needKey
  match (← get).targets.find? name with
  | none => throw (.worded (.unknownRule name))
  | some target => classInstance host (← resolve host target)

def isRegistered (name : Value) : Action Bool := do
  lift name.needKey
  return (← get).targets.contains name

/-- The registered names in order. -/
def names : Action (List Value) := do lift (Value.sorted (← get).targets.keys)

def kind (name : Value) : Action RuleKind := do
  lift name.needKey
  match (← get).kinds.find? name with
  | some kind => pure kind
  | none => throw (.worded (.unknownRule name))

/-- Asks an instance, and keeps what answering made of it. -/
def ask (host : Host) (rule : Rule) (name value format : Value) : Action Value := do
  let (answer, rule) := rule.validate host name value format
  putInstance rule
  lift answer

/-- Whether the shared instance of a class accepts a value under a name. -/
def passes (host : Host) (cls : RuleClass) (name value format : Value) : Action Bool := do
  let rule ← classInstance host cls
  return (← ask host rule name value format).truthy

/-- How many of several values pass. -/
def count (host : Host) (cls : RuleClass) (name format : Value) : List Value → Action Nat
  | [] => pure 0
  | value :: rest => do
    let first ← passes host cls name value format
    return (if first then 1 else 0) + (← count host cls name format rest)

/-- The outcome of validating one value or several. -/
inductive Verdict where
  | single (passed : Bool)
  | several (passed : Nat)
  deriving DecidableEq

namespace Verdict

/-- The outcome as a number: a single value that passes counts as one. -/
def number : Verdict → Nat
  | .single passed => if passed then 1 else 0
  | .several passed => passed

def holds (v : Verdict) : Bool := v.number != 0

end Verdict

/-- The values a collection offers one by one. -/
def collected? : Value → Option (List Value)
  | .map entries => some (entries.map (·.2))
  | .list items | .tuple items | .set items => some items
  | _ => none

/-- Validates a value, or the values of a collection one by one unless `whole` holds. -/
def validate (host : Host) (name value format : Value) (whole : Bool) : Action Verdict := do
  let rule ← getRule host name
  match if whole then none else collected? value with
  | some items => return .several (← count host rule.cls name format items)
  | none => return .single (← passes host rule.cls name value format)

def check (host : Host) (name format : Value) : Action Script.Check := do
  lift ((← getRule host name).check host name format)

/-- The browser block of one application. -/
def block (host : Host) (source : Script.Source) (name : Value) (a : Application) :
    Action Script.Block := do
  let check ← check host a.type a.format
  lift (Script.Block.make source name a check)

end Registry

end FormGuard
