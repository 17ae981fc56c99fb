import FormGuard.Value.Access

/-! Rule applications: one rule applied to one element, or to several read together. -/
namespace FormGuard

namespace Mode

/-- The mode a value names. -/
def ofValue? (v : Value) : Option Mode := v.asText?.bind ofWord?

/-- The browser mode for its name, the other one for anything else. -/
def reading (v : Value) : Mode := if v.same (.mode .client) then .client else .server

end Mode

structure Application where
  type : Value
  message : Value
  /-- What the rule is told besides the value: a pattern, bounds, an operator. -/
  format : Value
  /-- The key under which several applications report together. -/
  group : Value
  /-- Whether a failure restores the control in the browser. -/
  reset : Value
  /-- How many of several values have to pass. -/
  howmany : Value
  mode : Mode
  /-- The other elements whose values the rule reads. -/
  dependents : List Value
  deriving DecidableEq

namespace Application

/-- An application from values whose shape is not known beforehand. -/
def make (type message format group reset howmany mode dependents : Value) :
    Except Error Application :=
  match Mode.ofValue? mode with
  | none => Value.misuse .value
  | some mode => do
    return ⟨type, message, format, group, reset, howmany, mode, ← dependents.items⟩

def isClient (a : Application) : Bool := a.mode == .client

/-- The key failures are reported under: the group's, or the target's. -/
def reportKey (a : Application) (target : Value) : Value := a.group.orElse target

end Application

end FormGuard
