import FormGuard.Element.Kind
import FormGuard.Value.Written

/-! What can go wrong, by cause, and how it is reported. -/
namespace FormGuard

/-- Why an import path leads nowhere. -/
inductive ImportFault where
  | notAPath (path : String)
  | noAttribute (module path : String)
  | noModule (name : String)
  | notAPackage (name parent : String)
  deriving DecidableEq

namespace ImportFault

def message : ImportFault → String
  | .notAPath path => "'" ++ path ++ "' is not a dotted import path"
  | .noAttribute module path => "'" ++ module ++ "' has no attribute '" ++ path ++ "'"
  | .noModule name => "No module named " ++ Text.quoted name
  | .notAPackage name parent =>
    "No module named " ++ Text.quoted name ++ "; " ++ Text.quoted parent ++ " is not a package"

end ImportFault

/-- Why the fields of a descriptor do not fit together. -/
inductive DescriptorFault where
  | unknownKind (name kind : Value)
  | nameless
  | multiple (name : Value) (kind : ElementKind)
  | noChildren (name : Value)
  | nameCount (name : Value) (count names : Nat)
  | hasChildren (name : Value) (kind : ElementKind)
  | unnamed (definition : Value)
  | notAGroup (name : Value)
  deriving DecidableEq

namespace DescriptorFault

def message : DescriptorFault → String
  | .unknownKind name kind =>
    "Element '" ++ name.plain ++ "' has unknown kind '" ++ kind.plain ++ "'"
  | .nameless => "Element descriptors need a name"
  | .multiple name kind =>
    "Element '" ++ name.plain ++ "' of kind '" ++ kind.word
      ++ "' cannot be multiple; only select elements hold several values"
  | .noChildren name => "Group '" ++ name.plain ++ "' has no children"
  | .nameCount name count names =>
    "Group '" ++ name.plain ++ "' has " ++ toString count ++ " children but "
      ++ toString names ++ " qualified names"
  | .hasChildren name kind =>
    "Element '" ++ name.plain ++ "' of kind '" ++ kind.word ++ "' cannot have children"
  | .unnamed definition => "Element definition without a name: " ++ definition.quoted
  | .notAGroup name => "Element '" ++ name.plain ++ "' is not a group"

/-- The values that the report names. -/
def named : DescriptorFault → List Value
  | .unknownKind name kind => [name, kind]
  | .nameless => []
  | .multiple name _ | .noChildren name | .nameCount name _ _ | .hasChildren name _
  | .notAGroup name => [name]
  | .unnamed definition => [definition]

end DescriptorFault

/-- Why a rule cannot be registered or its implementation not be made. -/
inductive RegistrationFault where
  | notAPattern (name data : Value)
  | badPattern (name : Value)
  | notCallable (name data : Value)
  | noMethod (owner name : Value) (method : String)
  | notARule (cls : String)
  | unusable (name data : Value)
  | bound (name : Value) (current target : String)
  | construction (cls reason : String)
  | unimportable (path : String) (fault : ImportFault)
  | notARuleClass (path : String)
  | formRule (rule : Value)
  deriving DecidableEq

namespace RegistrationFault

def message : RegistrationFault → String
  | .notAPattern name data =>
    "Pattern for rule '" ++ name.plain ++ "' must be a string or compiled regex, got "
      ++ data.quoted
  | .badPattern name => "Invalid pattern for rule '" ++ name.plain ++ "': ..."
  | .notCallable name data =>
    "Callback for rule '" ++ name.plain ++ "' must be callable, got " ++ data.quoted
  | .noMethod owner name method =>
    "Owner " ++ owner.quoted ++ " of rule '" ++ name.plain ++ "' has no method '" ++ method ++ "'"
  | .notARule cls => cls ++ " does not implement validate() and client_check()"
  | .unusable name data => "Cannot register rule '" ++ name.plain ++ "' from " ++ data.quoted
  | .bound name current target =>
    "Rule '" ++ name.plain ++ "' is already bound to " ++ current ++ "; cannot rebind it to "
      ++ target
  | .construction cls reason => "Cannot instantiate rule class " ++ cls ++ ": " ++ reason
  | .unimportable path fault => "Cannot import rule class '" ++ path ++ "': " ++ fault.message
  | .notARuleClass path => "'" ++ path ++ "' is not a rule class"
  | .formRule rule => "Form rule must be callable, got " ++ rule.quoted

/-- The values that the report names. -/
def named : RegistrationFault → List Value
  | .notAPattern name data | .notCallable name data | .unusable name data => [name, data]
  | .badPattern name | .bound name _ _ => [name]
  | .noMethod owner name _ => [owner, name]
  | .formRule rule => [rule]
  | .notARule _ | .construction _ _ | .unimportable _ _ | .notARuleClass _ => []

end RegistrationFault

/-- What a rule lacks where it is applied. -/
inductive DataFault where
  | noPattern (name : Value)
  | notAPattern (name format : Value)
  | noCallback (name : Value)
  | unloadable (name : Value) (path : String) (fault : ImportFault)
  | notCallable (name format : Value)
  | notABound (name format : Value)
  | operands (name value : Value)
  deriving DecidableEq

namespace DataFault

def message : DataFault → String
  | .noPattern name => "Rule '" ++ name.plain ++ "' has no pattern and none was given as format"
  | .notAPattern name format =>
    "Rule '" ++ name.plain ++ "' needs a pattern as format, got " ++ format.quoted
  | .noCallback name => "Rule '" ++ name.plain ++ "' has no callback and none was given as format"
  | .unloadable name path fault =>
    "Rule '" ++ name.plain ++ "' cannot load callback '" ++ path ++ "': " ++ fault.message
  | .notCallable name format =>
    "Rule '" ++ name.plain ++ "' has no callback and its format " ++ format.quoted
      ++ " is not callable"
  | .notABound name format =>
    "Rule '" ++ name.plain ++ "' needs a length bound as format, got " ++ format.quoted
  | .operands name value =>
    "Rule '" ++ name.plain ++ "' compares two values, got " ++ value.quoted

/-- The values that the report names. -/
def named : DataFault → List Value
  | .noPattern name | .noCallback name | .unloadable name _ _ => [name]
  | .notAPattern name v | .notCallable name v | .notABound name v | .operands name v => [name, v]

end DataFault

/-- The two kinds of file. -/
inductive Document where
  | ruleConfig
  | formDefinition
  deriving DecidableEq

namespace Document

def word : Document → String
  | .ruleConfig => "rule config"
  | .formDefinition => "form definition"

/-- The name at the beginning of a sentence. -/
def title : Document → String
  | .ruleConfig => "Rule config"
  | .formDefinition => "Form definition"

end Document

/-- Why a configuration or a form definition is refused. -/
inductive ConfigFault where
  | unreadable (document : Document) (path : String)
  | notYaml (document : Document) (path : String)
  | notAMapping (document : Document) (path : String)
  | rules
  | noType (name : Value)
  | unknownType (name type : Value)
  | noPattern (name : Value)
  | noCallback (name : Value)
  | unloadable (name : Value) (fault : ImportFault)
  | noClass (name : Value)
  | custom (name : Value)
  | element (fault : DescriptorFault)
  | target (rule : Value)
  | formRuleImport (path : Value) (fault : ImportFault)
  | formRule (path : Value) (fault : RegistrationFault)
  deriving DecidableEq

namespace ConfigFault

def message : ConfigFault → String
  | .unreadable document path => "Cannot read " ++ document.word ++ " " ++ path ++ ": ..."
  | .notYaml document path => "Invalid YAML in " ++ document.word ++ " " ++ path ++ ": ..."
  | .notAMapping document path => document.title ++ " " ++ path ++ " must contain a mapping"
  | .rules => "'rules' must be a mapping of rule name to definition"
  | .noType name => "Rule '" ++ name.plain ++ "' needs a mapping with a 'type'"
  | .unknownType name type =>
    "Rule '" ++ name.plain ++ "' has unknown type '" ++ type.plain
      ++ "'. Expected one of: regex, callback, function, class"
  | .noPattern name => "Regex rule '" ++ name.plain ++ "' needs a 'pattern'"
  | .noCallback name => "Callback rule '" ++ name.plain ++ "' needs a 'callback'"
  | .unloadable name fault =>
    "Cannot load callback for rule '" ++ name.plain ++ "': " ++ fault.message
  | .noClass name => "Class rule '" ++ name.plain ++ "' needs a 'class'"
  | .custom name =>
    "Rule '" ++ name.plain ++ "': custom rule instances cannot be configured from files"
  | .element fault => "Invalid element definition: " ++ fault.message
  | .target rule => "Rule needs an 'element' or a 'group': " ++ rule.quoted
  | .formRuleImport path fault =>
    "Cannot load form rule '" ++ path.plain ++ "': " ++ fault.message
  | .formRule path fault => "Cannot load form rule '" ++ path.plain ++ "': " ++ fault.message

/-- The values that the report names. -/
def named : ConfigFault → List Value
  | .unreadable _ _ | .notYaml _ _ | .notAMapping _ _ | .rules => []
  | .noType name | .noPattern name | .noCallback name | .unloadable name _ | .noClass name
  | .custom name => [name]
  | .unknownType name type => [name, type]
  | .element fault => fault.named
  | .target rule => [rule]
  | .formRuleImport path _ => [path]
  | .formRule path fault => path :: fault.named

end ConfigFault

/-- An operation that a value does not allow. -/
inductive Misuse where
  /-- The operation is not for values of this type. -/
  | type
  /-- The type is right and the value is not. -/
  | value
  /-- A mapping lacks the key. -/
  | key
  /-- A sequence is too short. -/
  | index
  /-- There is no such attribute. -/
  | attribute
  /-- A number is too large. -/
  | overflow
  deriving DecidableEq

inductive Error where
  | unknownRule (name : Value)
  | descriptor (fault : DescriptorFault)
  | registration (fault : RegistrationFault)
  | data (fault : DataFault)
  | config (fault : ConfigFault)
  /-- The report is written only where it is shown. -/
  | unknownElement (name : Value)
  | formRuleResult (rule result : Value)
  | notFound (fault : ImportFault)
  | expression (fault : Regex.Fault)
  | misuse (fault : Misuse)
  /-- A rule is declared for no element at all. -/
  | noElement
  /-- A rule for a whole group is declared without saying which. -/
  | noRuleType
  | noChild (group key : Value)
  /-- The using program raised this. -/
  | raised (kind message : String)
  deriving DecidableEq

namespace Error

/-- Whether the error is one of the library's own. -/
def isOwn : Error → Bool
  | .unknownRule _ | .descriptor _ | .registration _ | .data _ | .config _ | .unknownElement _
  | .formRuleResult _ _ => true
  | _ => false

/-- The report, where the library words one. -/
def message : Error → String
  | .unknownRule name =>
    "Rule '" ++ name.plain
      ++ "' is not registered. Rules must be registered before they are applied."
  | .descriptor fault => fault.message
  | .registration fault => fault.message
  | .data fault => fault.message
  | .config fault => fault.message
  | .unknownElement name => "Element '" ++ name.plain ++ "' does not exist in the form"
  | .formRuleResult rule result =>
    "Form rule " ++ rule.quoted ++ " returned " ++ result.quoted
      ++ "; expected True or a mapping of element name to message"
  | .notFound fault => fault.message
  | .noElement => "add_rule() needs at least one element"
  | .noRuleType => "add_group_rule() needs a rule type for a group-wide rule"
  | .noChild group key => "Group '" ++ group.plain ++ "' has no child " ++ key.quoted
  | .raised _ message => message
  | .expression _ | .misuse _ => ""

/-- The values that the report names. -/
def named : Error → List Value
  | .unknownRule name | .unknownElement name => [name]
  | .descriptor fault => fault.named
  | .registration fault => fault.named
  | .data fault => fault.named
  | .config fault => fault.named
  | .formRuleResult rule result => [rule, result]
  | .noChild group key => [group, key]
  | .notFound _ | .expression _ | .misuse _ | .noElement | .noRuleType | .raised _ _ => []

/-- Whether the report can be written. -/
def isWritable (e : Error) : Bool := Value.areWritable e.named

@[simp] theorem isWritable_unknownRule (name : Value) :
    (Error.unknownRule name).isWritable = name.isWritable := by
  simp [isWritable, named]

@[simp] theorem isWritable_noChild (group key : Value) :
    (Error.noChild group key).isWritable = (group.isWritable && key.isWritable) := by
  simp [isWritable, named]

@[simp] theorem isWritable_descriptor (fault : DescriptorFault) :
    (Error.descriptor fault).isWritable = Value.areWritable fault.named := rfl

@[simp] theorem isWritable_registration (fault : RegistrationFault) :
    (Error.registration fault).isWritable = Value.areWritable fault.named := rfl

@[simp] theorem isWritable_data (fault : DataFault) :
    (Error.data fault).isWritable = Value.areWritable fault.named := rfl

@[simp] theorem isWritable_config (fault : ConfigFault) :
    (Error.config fault).isWritable = Value.areWritable fault.named := rfl

/-- The error that is raised with a report: what cannot be written is a wrong value in its stead. -/
def worded (e : Error) : Error := if e.isWritable then e else .misuse .value

/-- Fails with a report. -/
def raise {α : Type} (e : Error) : Except Error α := .error e.worded

@[simp] theorem raise_ne_ok {α : Type} (e : Error) (a : α) : raise e ≠ .ok a := nofun

theorem worded_of_isWritable {e : Error} (h : e.isWritable = true) : e.worded = e := if_pos h

theorem worded_of_not_isWritable {e : Error} (h : ¬ e.isWritable = true) :
    e.worded = .misuse .value := if_neg h

theorem worded_cases (e : Error) : e.worded = e ∨ e.worded = .misuse .value := by
  unfold worded
  split
  · exact Or.inl rfl
  · exact Or.inr rfl

theorem isOwn_worded (e : Error) : e.worded.isOwn = (e.isWritable && e.isOwn) := by
  unfold worded
  cases e.isWritable <;> rfl

end Error

end FormGuard
