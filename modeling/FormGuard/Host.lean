import FormGuard.Pattern.Named
import FormGuard.Script.Check
import FormGuard.Value.Access

/-! The using program: the modules, functions and classes that definitions name. -/
namespace FormGuard

/-- A module with its members; only a package has modules inside. -/
structure Module where
  package : Bool
  members : List (String × Value)

/-- What a new instance of a class of the library holds: the patterns that come with it, and no
callbacks. -/
def RuleClass.contents : RuleClass → Value
  | .regex => .map (Pattern.named.map fun (name, p) => (.text name, .pattern p))
  | .callback => .map []
  | _ => .null

/-- What the using program offers. An instance of one of its classes is a value, and answering may
change it. -/
structure Host where
  modules : List (String × Module)
  member? : Value → String → Option Value
  /-- What a callable answers depends on its arguments alone. -/
  call : Value → List Value → Except Error Value
  construct : ExternalClass → List Value → Except Error Value
  validate : ExternalClass → Value → (name value format : Value) → Except Error Value × Value
  check : ExternalClass → Value → (name format : Value) → Except Error Script.Check

namespace Host

/-- Calls a value. A class of the library is made from nothing. -/
def apply (host : Host) (f : Value) (arguments : List Value) : Except Error Value :=
  match f with
  | .external ref => if ref.callable then host.call f arguments else Value.misuse .type
  | .ruleClass (.external _) => host.call f arguments
  | .ruleClass cls =>
    if arguments.isEmpty then .ok (.ruleObject cls cls.contents) else Value.misuse .type
  | _ => Value.misuse .type

end Host

end FormGuard
