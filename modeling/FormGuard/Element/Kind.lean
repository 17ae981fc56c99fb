/-! The shapes of form controls. -/
namespace FormGuard

inductive ElementKind where
  | field
  | checkbox
  /-- Three states to look at, two values. -/
  | advcheckbox
  | radio
  | select
  /-- A select that looks like a text field with suggestions. -/
  | autocomplete
  | group
  deriving DecidableEq

namespace ElementKind

def word : ElementKind → String
  | .field => "field"
  | .checkbox => "checkbox"
  | .advcheckbox => "advcheckbox"
  | .radio => "radio"
  | .select => "select"
  | .autocomplete => "autocomplete"
  | .group => "group"

def all : List ElementKind :=
  [.field, .checkbox, .advcheckbox, .radio, .select, .autocomplete, .group]

def ofWord? (s : String) : Option ElementKind := all.find? fun kind => kind.word == s

/-- Only the select family can hold several values. -/
def isSelect (kind : ElementKind) : Bool := kind == .select || kind == .autocomplete

theorem word_of_ofWord? {s : String} {kind : ElementKind} (h : ofWord? s = some kind) :
    kind.word = s := by
  simpa using List.find?_some h

theorem ofWord?_word (kind : ElementKind) : ofWord? kind.word = some kind := by
  cases kind <;> decide

end ElementKind

end FormGuard
