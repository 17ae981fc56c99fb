import FormGuard.ImportPath
import FormGuard.Journal
import FormGuard.Script.Literal

/-! The rules that ask a function of the using program. -/
namespace FormGuard

/-- A function, or the name of a method together with its owner. -/
structure Callback where
  target : Value
  owner : Value
  deriving DecidableEq

namespace Callback

/-- The name under which the browser knows a function: of a path the last part. -/
def browserName (v : Value) : String :=
  match v.asText? with
  | some path =>
    String.ofList ((Text.parts (fun c => c == ':' || c == '.') path.toList).getLast?.getD [])
  | none =>
    match v with
    | .external ref => ref.name.getD ref.typeName
    | .ruleClass cls => cls.name
    | v => v.typeName

/-- The method name, when the function is given by an owner and a name. -/
def method? (c : Callback) : Option String :=
  if c.owner.isNull then none else c.target.asText?

def resolve (host : Host) (c : Callback) : Except Error Value :=
  match c.method? with
  | none => .ok c.target
  | some method =>
    match host.member? c.owner method with
    | some f => .ok f
    | none => Value.misuse .attribute

/-- The arguments a function is called with. -/
def arguments (value format : Value) : List Value :=
  if format.isNull then [value] else [value, format]

end Callback

/-- One callback for each rule name. -/
abbrev Callbacks := Table Callback

namespace Callbacks

def replacing (name : Value) : List Note :=
  Note.about .warning .rules "Replacing callback for rule '" name "'"

/-- Whether a callback can be used: a function, or a method that the owner has. -/
def usable (host : Host) (name : Value) (c : Callback) : Except Error Unit :=
  if c.owner.isNull then
    if c.target.isCallable then .ok () else Error.raise (.registration (.notCallable name c.target))
  else
    match c.target.asText? with
    | none => .ok ()
    | some method =>
      if (host.member? c.owner method).isSome then .ok ()
      else Error.raise (.registration (.noMethod c.owner name method))

/-- Stores a callback under a name; replacing one is noted. -/
def add (host : Host) (callbacks : Callbacks) (name target owner : Value) :
    Except Error (Callbacks × List Note) := do
  let c : Callback := ⟨target, owner⟩
  usable host name c
  name.needKey
  return (callbacks.insert name c, if callbacks.contains name then replacing name else [])

/-- What a format names: a pair of an owner and a method name, or an import path. -/
def named (host : Host) (name format : Value) : Except Error Value :=
  match format with
  | .list [owner, method] | .tuple [owner, method] =>
    .ok ((method.asText?.bind (host.member? owner)).getD .null)
  | format =>
    match format.asText? with
    | none => .ok .null
    | some path =>
      match ImportPath.resolveText host path with
      | .error (.notFound fault) => Error.raise (.data (.unloadable name path fault))
      | found => found

/-- The function that a format gives. -/
def fromFormat (host : Host) (name format : Value) : Except Error Value :=
  if format.isCallable then .ok format
  else do
    let f ← named host name format
    if f.isCallable then return f else throw (.worded (.data (.notCallable name format)))

def verdict (answer : Except Error Value) : Except Error Value :=
  answer.map fun v => .bool v.truthy

def validate (host : Host) (callbacks : Callbacks) (name value format : Value) :
    Except Error Value := do
  name.needKey
  match callbacks.find? name with
  | some c => verdict (host.apply (← c.resolve host) (Callback.arguments value format))
  | none => verdict (host.apply (← fromFormat host name format) [value])

def browserTest (function parameters : String) : Script.Check :=
  ⟨"", Script.placeholder ++ " != '' && !" ++ function ++ "(" ++ parameters ++ ")"⟩

/-- The second of a pair names the browser function, and so does anything else by itself. -/
def browserTarget (format : Value) : Except Error Value :=
  match format with
  | .list items | .tuple items =>
    match items with
    | _ :: second :: _ => .ok second
    | _ => Value.misuse .index
  | v => .ok v

/-- The parameters of the browser function: the value, and the format as text where one is given. -/
def browserParameters (format : Value) : Except Error String :=
  if format.isNull then .ok Script.placeholder
  else do return Script.placeholder ++ ", '" ++ Script.escape (← format.spelled) ++ "'"

def check (callbacks : Callbacks) (name format : Value) : Except Error Script.Check := do
  name.needKey
  match callbacks.find? name with
  | some c => return browserTest (Callback.browserName c.target) (← browserParameters format)
  | none =>
    if format.isNull then throw (.worded (.data (.noCallback name)))
    return browserTest (Callback.browserName (← browserTarget format)) Script.placeholder

end Callbacks

end FormGuard
