/-! Names for what a value may stand for in the program that uses the library. -/
namespace FormGuard

/-- How a rule name was bound to its implementation. -/
inductive RuleKind where
  | regex
  | callback
  | function
  | ofClass
  | custom
  deriving DecidableEq

namespace RuleKind

def word : RuleKind → String
  | .regex => "regex"
  | .callback => "callback"
  | .function => "function"
  | .ofClass => "class"
  | .custom => "custom"

def all : List RuleKind := [.regex, .callback, .function, .ofClass, .custom]

def ofWord? (s : String) : Option RuleKind := all.find? fun kind => kind.word == s

def label : RuleKind → String
  | .regex => "RuleKind.REGEX"
  | .callback => "RuleKind.CALLBACK"
  | .function => "RuleKind.FUNCTION"
  | .ofClass => "RuleKind.CLASS"
  | .custom => "RuleKind.CUSTOM"

theorem ofWord?_word (kind : RuleKind) : ofWord? kind.word = some kind := by
  cases kind <;> decide

end RuleKind

/-- Where a rule is enforced: on submission only, or in the browser as well. -/
inductive Mode where
  | server
  | client
  deriving DecidableEq

namespace Mode

def word : Mode → String
  | .server => "server"
  | .client => "client"

def ofWord? (s : String) : Option Mode :=
  if s == "server" then some .server else if s == "client" then some .client else none

def label : Mode → String
  | .server => "ValidationMode.SERVER"
  | .client => "ValidationMode.CLIENT"

theorem ofWord?_word (mode : Mode) : ofWord? mode.word = some mode := by
  cases mode <;> decide

end Mode

/-- A function, an object with attributes, a method of one, or a module. Two references with one
`id` are the same thing. -/
structure External where
  id : String
  /-- How it is shown. -/
  shown : String
  /-- The name it bears, if it bears one. -/
  name : Option String
  /-- The name of its type. -/
  typeName : String
  callable : Bool
  deriving DecidableEq

/-- A class of the using program. -/
structure ExternalClass where
  name : String
  /-- The module it is defined in. -/
  home : String
  /-- How an instance is shown. -/
  instanceShown : String
  validates : Bool
  checks : Bool
  deriving DecidableEq

/-- A class; those of the library are known by name. -/
inductive RuleClass where
  | base
  | required
  | regex
  | email
  | callback
  | range
  | compare
  | external (cls : ExternalClass)
  deriving DecidableEq

namespace RuleClass

def name : RuleClass → String
  | .base => "BaseRule"
  | .required => "RequiredRule"
  | .regex => "RegexRule"
  | .email => "EmailRule"
  | .callback => "CallbackRule"
  | .range => "RangeRule"
  | .compare => "CompareRule"
  | .external cls => cls.name

def home : RuleClass → String
  | .base => "formrule.rules.base"
  | .external cls => cls.home
  | _ => "formrule.rules.builtin"

/-- A class of builtin objects is shown without a module. -/
def shown (cls : RuleClass) : String :=
  "<class '" ++ (if cls.home.isEmpty then cls.name else cls.home ++ "." ++ cls.name) ++ "'>"

def instanceShown : RuleClass → String
  | .external cls => cls.instanceShown
  | cls => cls.name ++ "()"

/-- Whether instances can validate and offer a browser check. -/
def isRule : RuleClass → Bool
  | .external cls => cls.validates && cls.checks
  | _ => true

end RuleClass

end FormGuard
