import FormGuard.Value.Access

/-! What the library notes while it works. -/
namespace FormGuard

inductive Level where
  | debug
  | warning
  deriving DecidableEq

def Level.word : Level → String
  | .debug => "DEBUG"
  | .warning => "WARNING"

/-- The parts of the library that note something. -/
inductive Topic where
  | rules
  | registry
  | forms
  deriving DecidableEq

def Topic.name : Topic → String
  | .rules => "formrule.rules.builtin"
  | .registry => "formrule.rules.registry"
  | .forms => "formrule.forms"

structure Note where
  level : Level
  topic : Topic
  message : String
  deriving DecidableEq

/-- A note about a value, its text between two others. None is made about what cannot be written. -/
def Note.about (level : Level) (topic : Topic) (before : String) (v : Value) (behind : String) :
    List Note :=
  if v.isWritable then [⟨level, topic, before ++ v.plain ++ behind⟩] else []

end FormGuard
