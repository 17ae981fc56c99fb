import FormGuard.Table
import FormGuard.Yaml.Scalar

/-! The nodes of a YAML document and the value they stand for. -/
namespace FormGuard.Yaml

inductive Node where
  | plain (text : String)
  | quoted (text : String)
  | sequence (items : List Node)
  | mapping (entries : List (Node × Node))
  deriving Inhabited

namespace Node

def empty : Node := .plain ""

mutual

/-- The value of a node. Only scalars are keys, and a later entry replaces an earlier value. -/
def value : Node → Except Fault Value
  | .plain text => scalar text
  | .quoted text => .ok (.text text)
  | .sequence nodes => (values nodes).map .list
  | .mapping nodes => (entries nodes).map fun es => .map (Table.ofList es).entries

def values : List Node → Except Fault (List Value)
  | [] => .ok []
  | node :: nodes => do return (← value node) :: (← values nodes)

def entries : List (Node × Node) → Except Fault (List (Value × Value))
  | [] => .ok []
  | (key, node) :: rest => do
    let key ← value key
    if key.isKey then return (key, ← value node) :: (← entries rest) else throw .malformed

end

end Node

end FormGuard.Yaml
