import FormGuard.Rule.Callback
import FormGuard.Rule.Comparison
import FormGuard.Rule.Length
import FormGuard.Rule.Regex

/-! Rules: what serves the rule names that share one implementation. -/
namespace FormGuard

inductive Rule where
  /-- Accepts everything and has no browser side. -/
  | base
  | required
  | regex (patterns : Patterns)
  | email
  | callback (callbacks : Callbacks)
  | length
  | compare
  /-- An instance of a class of the using program. -/
  | external (cls : ExternalClass) (state : Value)
  deriving DecidableEq

namespace Rule

def cls : Rule → RuleClass
  | .base => .base
  | .required => .required
  | .regex _ => .regex
  | .email => .email
  | .callback _ => .callback
  | .length => .range
  | .compare => .compare
  | .external cls _ => .external cls

/-- What an instance holds: its patterns, its callbacks each with its owner, or what the using program
put there. -/
def held : Rule → Value
  | .regex patterns => .map (patterns.entries.map fun (name, p) => (name, .pattern p))
  | .callback callbacks =>
    .map (callbacks.entries.map fun (name, c) => (name, .tuple [c.target, c.owner]))
  | .external _ state => state
  | _ => .null

/-- An instance as a value. -/
def object (rule : Rule) : Value := .ruleObject rule.cls rule.held

def heldPattern? : Value × Value → Option (Value × Pattern)
  | (name, .pattern p) => some (name, p)
  | _ => none

def heldCallback? : Value × Value → Option (Value × Callback)
  | (name, .tuple [target, owner]) => some (name, ⟨target, owner⟩)
  | _ => none

/-- The instance of a class that holds this. -/
def ofHeld (cls : RuleClass) (held : Value) : Rule :=
  match cls with
  | .base => .base
  | .required => .required
  | .regex => .regex ⟨held.ownEntries.filterMap heldPattern?⟩
  | .email => .email
  | .callback => .callback ⟨held.ownEntries.filterMap heldCallback?⟩
  | .range => .length
  | .compare => .compare
  | .external cls => .external cls held

theorem heldPattern?_pattern (entry : Value × Pattern) :
    heldPattern? (entry.1, .pattern entry.2) = some entry := rfl

theorem heldCallback?_callback (entry : Value × Callback) :
    heldCallback? (entry.1, .tuple [entry.2.target, entry.2.owner]) = some entry := rfl

/-- An instance is found again in the value that it is. -/
theorem ofHeld_held (rule : Rule) : ofHeld rule.cls rule.held = rule := by
  cases rule with
  | regex patterns | callback callbacks =>
    simp [ofHeld, cls, held, Value.ownEntries, List.filterMap_map, Function.comp_def,
      heldPattern?_pattern, heldCallback?_callback]
  | _ => rfl

/-- A new instance of a class. Those of the library take no arguments. -/
def make (host : Host) (cls : RuleClass) (arguments : List Value) : Except Error Rule :=
  match cls with
  | .external cls => do return .external cls (← host.construct cls arguments)
  | cls =>
    if !arguments.isEmpty then Value.misuse .type
    else
      match cls with
      | .required => .ok .required
      | .regex => .ok (.regex Patterns.initial)
      | .email => .ok .email
      | .callback => .ok (.callback Table.empty)
      | .range => .ok .length
      | .compare => .ok .compare
      | _ => .ok .base

/-- Whether a value is there: collections have an item and other values are not the empty text. -/
def isPresent : Value → Except Error Bool
  | .null => .ok false
  | .list items | .tuple items => .ok !items.isEmpty
  | .map entries => .ok !entries.isEmpty
  | v => do return (← v.spelled) != ""

/-- The answer to a value, and the instance afterwards. -/
def validate (host : Host) (rule : Rule) (name value format : Value) :
    Except Error Value × Rule :=
  match rule with
  | .base => (.ok (.bool true), rule)
  | .required => (.bool <$> isPresent value, rule)
  | .regex patterns => (patterns.validate name value format, rule)
  | .email => (matchesPattern Pattern.email value, rule)
  | .callback callbacks => (callbacks.validate host name value format, rule)
  | .length => (Length.validate name value format, rule)
  | .compare => (Comparison.validate name value format, rule)
  | .external cls state =>
    let (answer, state) := host.validate cls state name value format
    (answer, .external cls state)

/-- The browser side under a name. -/
def check (host : Host) (rule : Rule) (name format : Value) : Except Error Script.Check :=
  match rule with
  | .base => .ok ⟨"", ""⟩
  | .required => .ok ⟨"", Script.placeholder ++ " == ''"⟩
  | .regex patterns => patterns.check name format
  | .email => .ok (patternCheck Pattern.email)
  | .callback callbacks => callbacks.check name format
  | .length => Length.check name format
  | .compare => Comparison.check format
  | .external cls state => host.check cls state name format

/-- Stores data for a name, where the rule keeps any. -/
def add (host : Host) (rule : Rule) (name data owner : Value) :
    Except Error (Rule × List Note) := do
  match rule with
  | .regex patterns =>
    let (patterns, notes) ← patterns.add name data
    return (.regex patterns, notes)
  | .callback callbacks =>
    let (callbacks, notes) ← callbacks.add host name data owner
    return (.callback callbacks, notes)
  | _ => Value.misuse .attribute

end Rule

end FormGuard
