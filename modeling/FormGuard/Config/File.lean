import FormGuard.Config
import FormGuard.Files

/-! Configurations in files. -/
namespace FormGuard

/-- Where the library finds files and settings. -/
structure Environment where
  files : Files
  setting? : String → Option String

namespace Config

/-- The name of the setting that holds the path of a configuration. -/
def pathSetting : String := "FORMRULE_CONFIG"

def ofFile (host : Host) (files : Files) (path : String) (defaults : Bool) :
    Except Error Config := do
  ofValue host (← files.mapping .ruleConfig path) defaults

/-- The configuration in the file that the setting names, or the rules of the library. -/
def ofEnvironment (host : Host) (env : Environment) : Except Error Config :=
  match env.setting? pathSetting with
  | some path => if path.isEmpty then .ok default else ofFile host env.files path true
  | none => .ok default

end Config

end FormGuard
