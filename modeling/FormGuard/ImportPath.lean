import FormGuard.Host
import FormGuard.Text.Occurrence

/-! Import paths: a module and the members to follow from there. -/
namespace FormGuard

namespace Module

def ofClasses (classes : List RuleClass) : Module :=
  ⟨false, classes.map fun cls => (cls.name, .ruleClass cls)⟩

/-- The classes of the library. -/
def ruleClasses : List RuleClass :=
  [.base, .callback, .compare, .email, .range, .regex, .required]

/-- The modules under which the classes of the library are known. -/
def library : List (String × Module) :=
  [("formrule", ⟨true, []⟩),
    ("formrule.rules", { ofClasses ruleClasses with package := true }),
    ("formrule.rules.builtin", ofClasses ruleClasses)]

end Module

namespace ImportPath

/-- The module and the members of a path: up to the first colon or else the last point. -/
def split (path : String) : Option (String × String) :=
  let ends :=
    if path.toList.contains ':' then Text.cut? ':' path.toList else Text.cutLast? '.' path.toList
  match ends with
  | some (c :: home, d :: members) =>
    some (String.ofList (c :: home), String.ofList (d :: members))
  | _ => none

/-- The names of a module and of those around it, outermost first. -/
def chain (name : String) : List String :=
  let parts := (Text.parts (· == '.') name.toList).map String.ofList
  (List.range parts.length).map fun n => String.intercalate "." (parts.take (n + 1))

def modules (host : Host) : List (String × Module) := Module.library ++ host.modules

/-- Loads the modules of a chain one inside the other, beginning below `outer`. -/
def load (host : Host) (outer : Option (String × Module)) :
    List String → Except ImportFault (Option Module)
  | [] => .ok (outer.map (·.2))
  | name :: rest =>
    match (modules host).lookup name with
    | some module => load host (some (name, module)) rest
    | none =>
      match outer with
      | some (parent, module) =>
        if module.package then .error (.noModule name) else .error (.notAPackage name parent)
      | none => .error (.noModule name)

/-- Follows members from a value. -/
def follow (host : Host) : Value → List String → Option Value
  | v, [] => some v
  | v, name :: rest =>
    match host.member? v name with
    | some w => follow host w rest
    | none => none

/-- Follows members from a module. -/
def followModule (host : Host) (module : Module) : List String → Option Value
  | [] => none
  | name :: rest =>
    match module.members.lookup name with
    | some v => follow host v rest
    | none => none

/-- What a path written as text leads to. A module name is never relative. -/
def resolveText (host : Host) (path : String) : Except Error Value :=
  match split path with
  | none => .error (.notFound (.notAPath path))
  | some (home, members) =>
    if home.toList.head? == some '.' then Value.misuse .type
    else
      match load host none (chain home) with
      | .error fault => .error (.notFound fault)
      | .ok module =>
        let names := (Text.parts (· == '.') members.toList).map String.ofList
        match module.bind fun module => followModule host module names with
        | some v => .ok v
        | none => .error (.notFound (.noAttribute home members))

/-- What a path leads to; only a text is a path. -/
def resolve (host : Host) (path : Value) : Except Error Value :=
  match path.asText? with
  | some path => resolveText host path
  | none =>
    match path with
    | .list _ | .tuple _ | .set _ | .map _ => Value.misuse .attribute
    | _ => Value.misuse .type

end ImportPath

end FormGuard
