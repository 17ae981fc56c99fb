import FormGuard.Yaml.Collection

/-! Reading a YAML text that holds one document. -/
namespace FormGuard.Yaml

/-- Whether nothing but closing markers follows. -/
def closes : Nat → Cursor → Bool
  | 0, place => place.rest.isEmpty
  | fuel + 1, place =>
    if place.hasMarker && place.rest.head? == some '.' then
      closes fuel ((place.forward 3).skip.1)
    else place.rest.isEmpty

/-- The document at a place, if it is the only one. -/
def document? (fresh : Bool) (place : Cursor) : Option Node :=
  if place.atEnd then if closes place.rest.length place then some .empty else none
  else do
    let (node, next) ← blockNode (4 * place.rest.length + 4) 0 fresh place
    guard (closes next.rest.length next)
    return node

/-- The node of a text. A text without a document holds nothing. -/
def node? (text : List Char) : Option Node :=
  if !text.all isPrintable then none
  else
    let text := if text.head? == some '\ufeff' then text.drop 1 else text
    let (place, _) := (⟨text, 0⟩ : Cursor).skip
    if place.hasMarker && place.rest.head? == some '-' then
      let (place, crossed) := (place.forward 3).skip
      document? crossed place
    else document? true place

/-- The value of a text. -/
def load (text : String) : Except Fault Value :=
  match node? text.toList with
  | some node => node.value
  | none => .error .malformed

end FormGuard.Yaml
