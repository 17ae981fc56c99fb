import FormGuard.Yaml.Node
import FormGuard.Yaml.Text

/-! Flow and block collections of a YAML document. Fuel bounds the work by the length of the text. -/
namespace FormGuard.Yaml

/-- A node as written: whether it runs over several lines, and the place behind. -/
structure Found where
  node : Node
  crossed : Bool
  after : Cursor

def Written.found (quoted : Bool) (w : Written) : Found :=
  let text := String.ofList w.text
  ⟨if quoted then .quoted text else .plain text, w.crossed, w.after⟩

/-- The scalar that begins at a place, in quotes or plain. -/
def scalarAt? (flow : Bool) (least : Nat) (place : Cursor) : Option Found :=
  match place.rest with
  | '"' :: _ => (quoted? true place).map (·.found true)
  | '\'' :: _ => (quoted? false place).map (·.found true)
  | rest =>
    if startsPlain flow rest && !place.hasMarker then some ((plainText flow least place).found false)
    else none

mutual

/-- The node at a place inside a flow collection. -/
def flowNode : Nat → Cursor → Option Found
  | 0, _ => none
  | fuel + 1, place =>
    match place.rest with
    | '[' :: _ => flowItems fuel [] (place.forward 1)
    | '\x7b' :: _ => flowEntries fuel [] (place.forward 1)
    | _ => scalarAt? true 0 place

/-- A node and the value that a colon gives it, if one follows on the same line. -/
def flowPair (closing : Char) : Nat → Cursor → Option (Node × Option Node × Cursor)
  | 0, _ => none
  | fuel + 1, place => do
    let key ← flowNode fuel place
    let (next, crossed) := key.after.skip
    match next.rest with
    | ':' :: _ =>
      if key.crossed || crossed then none
      else
        let (next, _) := (next.forward 1).skip
        if next.rest.head? == some ',' || next.rest.head? == some closing then
          return (key.node, some .empty, next)
        else
          let value ← flowNode fuel next
          return (key.node, some value.node, value.after.skip.1)
    | _ => return (key.node, none, next)

/-- The items of a flow sequence; one with a colon is a mapping of a single entry. -/
def flowItems : Nat → List Node → Cursor → Option Found
  | 0, _, _ => none
  | fuel + 1, done, place =>
    let (place, _) := place.skip
    if place.rest.head? == some ']' then some ⟨.sequence done.reverse, true, place.forward 1⟩
    else do
      let (key, value?, next) ← flowPair ']' fuel place
      let item := match value? with
        | some value => .mapping [(key, value)]
        | none => key
      match next.rest with
      | ',' :: _ => flowItems fuel (item :: done) (next.forward 1)
      | ']' :: _ => some ⟨.sequence (item :: done).reverse, true, next.forward 1⟩
      | _ => none

/-- The entries of a flow mapping; a key may stand alone. -/
def flowEntries : Nat → List (Node × Node) → Cursor → Option Found
  | 0, _, _ => none
  | fuel + 1, done, place =>
    let (place, _) := place.skip
    if place.rest.head? == some '\x7d' then some ⟨.mapping done.reverse, true, place.forward 1⟩
    else do
      let (key, value?, next) ← flowPair '\x7d' fuel place
      let entry := (key, value?.getD .empty)
      match next.rest with
      | ',' :: _ => flowEntries fuel (entry :: done) (next.forward 1)
      | '\x7d' :: _ => some ⟨.mapping (entry :: done).reverse, true, next.forward 1⟩
      | _ => none

end

/-- The place behind a colon that makes a key of what came before on the line. -/
def behindKey? (found : Found) : Option Cursor :=
  let spaces := found.after.rest.takeWhile (· == ' ')
  let place := found.after.forward spaces.length
  match place.rest with
  | ':' :: rest => if startsBlank rest then some (place.forward 1) else none
  | _ => none

/-- A node that ends its line, and the next place. -/
def closed? (found : Found) : Option (Node × Cursor) :=
  let (next, crossed) := found.after.skip
  if crossed || next.rest.isEmpty then some (found.node, next) else none

/-- The key at a place and the place behind its colon. A key stays on its line. -/
def keyAt? (place : Cursor) : Option (Node × Cursor) := do
  let key ← scalarAt? false (place.column + 1) place
  if key.crossed then none else return (key.node, ← behindKey? key)

mutual

/-- The node at a place, inside a block collection whose lines begin at column `least - 1`. Only a
fresh place may begin a block collection. -/
def blockNode : Nat → (least : Nat) → (fresh : Bool) → Cursor → Option (Node × Cursor)
  | 0, _, _, _ => none
  | fuel + 1, least, fresh, place =>
    if place.atEntry then
      if fresh then blockItems fuel place.column false [] place else none
    else
      match place.rest with
      | '[' :: _ | '\x7b' :: _ => do closed? (← flowNode fuel place)
      | '|' :: _ => do
        let w ← block? false least place
        return (.quoted (String.ofList w.text), w.after.skip.1)
      | '>' :: _ => do
        let w ← block? true least place
        return (.quoted (String.ofList w.text), w.after.skip.1)
      | _ => do
        let found ← scalarAt? false least place
        match behindKey? found with
        | none => closed? found
        | some next =>
          if fresh && !found.crossed then blockEntries fuel place.column [] found.node next
          else none

/-- The entries of a block mapping at a column, the first key of which is read. -/
def blockEntries : Nat → Nat → List (Node × Node) → Node → Cursor → Option (Node × Cursor)
  | 0, _, _, _, _ => none
  | fuel + 1, column, done, key, place => do
    let (value, next) ← blockValue fuel column place
    let done := (key, value) :: done
    if next.atEnd || next.column < column then return (.mapping done.reverse, next)
    else if next.column == column then
      let (key, after) ← keyAt? next
      blockEntries fuel column done key after
    else none

/-- The value of an entry: on the line of its key, or on deeper lines, or a sequence at the column
of the key, or nothing. -/
def blockValue : Nat → Nat → Cursor → Option (Node × Cursor)
  | 0, _, _ => none
  | fuel + 1, column, place =>
    let (next, crossed) := place.skip
    if next.rest.isEmpty then some (.empty, next)
    else if !crossed then blockNode fuel (column + 1) false next
    else if next.hasMarker then some (.empty, next)
    else if column < next.column then blockNode fuel (column + 1) true next
    else if next.column == column && next.atEntry then blockItems fuel column true [] next
    else some (.empty, next)

/-- The items of a block sequence at a column; `shared` says that it is the column of a mapping. -/
def blockItems : Nat → Nat → (shared : Bool) → List Node → Cursor → Option (Node × Cursor)
  | 0, _, _, _, _ => none
  | fuel + 1, column, shared, done, place => do
    let (next, crossed) := (place.forward 1).skip
    let (item, next) ←
      if next.atEnd || (crossed && next.column ≤ column) then some (Node.empty, next)
      else blockNode fuel (column + 1) true next
    let done := item :: done
    if next.atEnd || next.column < column then return (.sequence done.reverse, next)
    else if next.column != column then none
    else if next.atEntry then blockItems fuel column shared done next
    else if shared then return (.sequence done.reverse, next)
    else none

end

end FormGuard.Yaml
