import FormGuard.ImportPath
import FormGuard.Pattern.Named
import FormGuard.Unicode.Lower

/-! Configurations: which implementation serves which rule name. -/
namespace FormGuard

/-- How one rule name is implemented. -/
structure Binding where
  kind : Value
  /-- A pattern, a function, a rule class or its import path, or an instance. -/
  target : Value
  /-- The object that has the method, for a function given by a method name. -/
  owner : Value
  deriving DecidableEq

abbrev Config := Table Binding

namespace Config

def ofClass (cls : RuleClass) : Binding := ⟨.kind .ofClass, .ruleClass cls, .null⟩

/-- The rules that come with the library. -/
def default : Config :=
  Table.ofList
    ([("required", ofClass .required), ("maxlength", ofClass .range),
      ("minlength", ofClass .range), ("rangelength", ofClass .range), ("email", ofClass .email),
      ("regex", ofClass .regex), ("callback", ofClass .callback), ("compare", ofClass .compare)].map
        (fun (name, binding) => (.text name, binding))
      ++ Pattern.named.map fun (name, p) => (.text name, ⟨.kind .regex, .pattern p, .null⟩))

def fault {α : Type} (f : ConfigFault) : Except Error α := Error.raise (.config f)

/-- The value under a key of a definition, or what its absence means. -/
def required (definition : Value) (name : String) (missing : ConfigFault) : Except Error Value :=
  match definition.get? name with
  | some v => .ok v
  | none => fault missing

/-- The function at an import path. -/
def function (host : Host) (name path : Value) : Except Error Value :=
  match ImportPath.resolve host path with
  | .error (.notFound f) => fault (.unloadable name f)
  | found => found

/-- The binding that a definition gives a name. A rule class is looked for on first use. -/
def binding (host : Host) (name definition : Value) : Except Error Binding := do
  let type ← required definition "type" (.noType name)
  match RuleKind.ofWord? (Unicode.lowerText (← type.spelled)) with
  | none => fault (.unknownType name type)
  | some .regex =>
    return ⟨.kind .regex, ← required definition "pattern" (.noPattern name), .null⟩
  | some .callback =>
    let path ← required definition "callback" (.noCallback name)
    return ⟨.kind .callback, ← function host name path, .null⟩
  | some .function =>
    let path ← required definition "callback" (.noCallback name)
    return ⟨.kind .function, ← function host name path, .null⟩
  | some .ofClass =>
    return ⟨.kind .ofClass, ← required definition "class" (.noClass name), .null⟩
  | some .custom => fault (.custom name)

def bindings (host : Host) : List (Value × Value) → Except Error (List (Value × Binding))
  | [] => .ok []
  | (name, definition) :: rest => do
    return (name, ← binding host name definition) :: (← bindings host rest)

/-- The configuration of parsed data, with or without the rules of the library. -/
def ofValue (host : Host) (data : Value) (defaults : Bool) : Except Error Config := do
  let rules := (← data.fieldOr "rules" .null).orElse (.map [])
  match rules with
  | .map entries =>
    let added ← bindings host entries
    let start := if defaults then default else Table.empty
    return added.foldl (fun config (name, binding) => config.insert name binding) start
  | _ => fault .rules

end Config

end FormGuard
