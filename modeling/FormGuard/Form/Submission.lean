import FormGuard.Text.Integer
import FormGuard.Unicode.Digit
import FormGuard.Value.Order

/-! Submitted values under array-style names such as `group[child]`. -/
namespace FormGuard.Submission

/-- The contents of the bracket pairs of a text; `inside` holds, reversed, what came since an
opening bracket. -/
def brackets (inside : Option (List Char)) : List Char → List (List Char)
  | [] => []
  | c :: rest =>
    match inside with
    | none => if c == '[' then brackets (some []) rest else brackets none rest
    | some done =>
      if c == ']' then done.reverse :: brackets none rest else brackets (some (c :: done)) rest

/-- Whether a key consists of digits. -/
def isPosition (key : List Char) : Bool := !key.isEmpty && key.all Unicode.isDigit

/-- The item of a list at a position written as text. Digits that make no number are an error. -/
def itemAt (items : List Value) (key : List Char) : Except Error (Option Value) :=
  if isPosition key then
    match Text.integer? key with
    | some i => .ok items[i.toNat]?
    | none => Value.misuse .value
  else .ok none

/-- One step into a value: a mapping is entered by the key, a list by position. -/
def step (value : Value) (key : List Char) : Except Error (Option Value) :=
  match value with
  | .map _ => .ok (value.get? (String.ofList key))
  | .list items => itemAt items key
  | _ => .ok none

def walk (value : Value) : List (List Char) → Except Error (Option Value)
  | [] => .ok (some value)
  | key :: keys => do
    match ← step value key with
    | some inner => walk inner keys
    | none => return none

/-- A mapping stands for the list of its values. -/
def flattened : Value → Value
  | .map entries => .list (entries.map (·.2))
  | v => v

/-- The value under a bracketed name: the part before the first bracket is a key, and each pair of
brackets is a step. -/
def nested (submitted : Value) (name : String) : Except Error Value := do
  match Text.cut? '[' name.toList with
  | some (base, c :: rest) =>
    if ← submitted.mentions (String.ofList base) then
      let start ← submitted.field (String.ofList base)
      match ← walk start (brackets (some []) (c :: rest)) with
      | some v => return flattened v
      | none => return .null
    else return .null
  | _ => return .null

/-- Whether a submission has a value under the very name. -/
def has (submitted name : Value) : Except Error Bool := do
  match submitted with
  | .map entries =>
    name.needKey
    return (⟨entries⟩ : Table Value).contains name
  | .set items =>
    name.needKey
    return items.any fun item => item.same name
  | .list items | .tuple items => return items.any fun item => item.same name
  | v =>
    match v.asText?, name.asText? with
    | some s, some word => return Text.occursIn word.toList s.toList
    | _, _ => Value.misuse .type

/-- The item of a sequence at a position, counted from the end below zero. -/
def itemFrom (items : List Value) (position : Value) : Except Error Value :=
  match position.asInt? with
  | none => Value.misuse .type
  | some i =>
    let place := if i < 0 then i + items.length else i
    match if place < 0 then none else items[place.toNat]? with
    | some item => .ok item
    | none => Value.misuse .index

/-- The value submitted under the very name. -/
def under (submitted name : Value) : Except Error Value :=
  match submitted with
  | .map entries => .ok (((⟨entries⟩ : Table Value).find? name).getD .null)
  | .list items | .tuple items => itemFrom items name
  | _ => Value.misuse .type

/-- The value submitted under a name: the one under the very name, or the one that its brackets
lead to. -/
def value (submitted name : Value) : Except Error Value := do
  if ← has submitted name then return flattened (← under submitted name)
  else
    match name.asText? with
    | some name => nested submitted name
    | none => Value.misuse .attribute

end FormGuard.Submission
