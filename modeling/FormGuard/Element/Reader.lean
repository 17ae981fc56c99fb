import FormGuard.Element

/-! Reading element descriptors from definitions. -/
namespace FormGuard.Descriptor

mutual

/-- The descriptor a definition gives. -/
def ofValue : Value → Except Error Descriptor
  | .map entries =>
    let definition := Value.map entries
    match definition.get? "name" with
    | none => fault (.unnamed definition)
    | some name =>
      let kind := (definition.get? "kind").getD (.text ElementKind.field.word)
      let frozen := (definition.get? "frozen").getD (.bool false)
      if kind.same (.text ElementKind.group.word) then do
        let children ← childrenIn entries
        group name children ((definition.get? "appendName").getD (.bool true)) frozen
      else
        make name kind ((definition.get? "multiple").getD (.bool false)) [] (.tuple []) frozen
  | v => do
    if ← v.mentions "name" then Value.misuse .attribute else fault (.unnamed v)

/-- The descriptors under the key for children. -/
def childrenIn : List (Value × Value) → Except Error (List Descriptor)
  | [] => .ok []
  | (key, v) :: rest => if key.same (.text "children") then ofItems v else childrenIn rest

/-- The descriptors of what a value yields one by one. -/
def ofItems : Value → Except Error (List Descriptor)
  | .list items | .tuple items | .set items => ofEach items
  | .map entries => ofKeys entries
  | v =>
    match v.asText? with
    | none => Value.misuse .type
    | some s =>
      match Value.letters s with
      | [] => .ok []
      | letter :: _ => fault (.unnamed letter)

def ofEach : List Value → Except Error (List Descriptor)
  | [] => .ok []
  | item :: items => do return (← ofValue item) :: (← ofEach items)

def ofKeys : List (Value × Value) → Except Error (List Descriptor)
  | [] => .ok []
  | (key, _) :: entries => do return (← ofValue key) :: (← ofKeys entries)

end

end FormGuard.Descriptor
