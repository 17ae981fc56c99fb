import FormGuard.Element
import FormGuard.Script.Piece

/-! Browser code that reads a control's value and restores its default. -/
namespace FormGuard.Script

/-- The two pieces of code for an element: one reads its value into `value`, the other restores
the default after a failure. -/
structure Extraction where
  reading : List Piece
  restoring : List Piece
  deriving DecidableEq

/-- The name of the control of a select that holds several values. -/
def multipleName (name : Value) : Except Error Value :=
  match name, name.asText? with
  | _, some s => .ok (.text (s ++ "[]"))
  | .list items, _ => .ok (.list (items ++ Value.letters "[]"))
  | _, _ => Value.misuse .type

def readField (place name : String) : List Piece :=
  lines [["  value", .place place, " = frm.elements[", .name name, "].value;"]]

def readCheckbox (place name : String) : List Piece :=
  lines [["  value", .place place, " = frm.elements[", .name name, "].checked? '1': '';"]]

def readAdvcheckbox (place name : String) : List Piece :=
  lines [["  value", .place place, " = frm.elements[", .name name, "][1].checked? frm.elements[",
    .name name, "][1].value: frm.elements[", .name name, "][0].value;"]]

def readRadio (place name : String) : List Piece :=
  lines [
    ["  value", .place place, " = '';"],
    ["  var els = 'length' in frm.elements[", .name name, "]? frm.elements[", .name name,
      "]: [ frm.elements[", .name name, "] ];"],
    ["  for (var i = 0; i < els.length; i++) \x7b"],
    ["    if (els[i].checked) \x7b"],
    ["      value", .place place, " = els[i].value;"],
    ["    \x7d"],
    ["  \x7d"]]

def readSelect (place name : String) : List Piece :=
  lines [["  value", .place place, " = frm.elements[", .name name,
    "].selectedIndex == -1? '': frm.elements[", .name name, "].options[frm.elements[", .name name,
    "].selectedIndex].value;"]]

def readMultiple (place name : String) : List Piece :=
  lines [
    ["  value", .place place, " = new Array();"],
    ["  var valueIdx = 0;"],
    ["  for (var i = 0; i < frm.elements[", .name name, "].options.length; i++) \x7b"],
    ["    if (frm.elements[", .name name, "].options[i].selected) \x7b"],
    ["      value", .place place, "[valueIdx++] = frm.elements[", .name name,
      "].options[i].value;"],
    ["    \x7d"],
    ["  \x7d"]]

/-- The names of a group's members, each as a key. -/
def memberList : List String → List Piece
  | [] => []
  | [member] => [.name member, ": true"]
  | member :: rest => .name member :: ": true" :: ", " :: memberList rest

/-- Declares the names of the controls in a group. -/
def declareGroup (name : String) (members : List String) : List Piece :=
  lines [.code "  _qfGroups[" :: .name name :: .code "] = \x7b" :: memberList members ++ [.code "\x7d;"]]

/-- Reads a control by its type. -/
def readMember (place : String) : List Piece :=
  lines [
    ["      switch (_element.type) \x7b"],
    ["        case 'checkbox':"],
    ["        case 'radio':"],
    ["          if (_element.checked) \x7b"],
    ["            value", .place place, "[valueIdx++] = _element.value;"],
    ["          \x7d"],
    ["          break;"],
    ["        case 'select-one':"],
    ["          if (-1 != _element.selectedIndex) \x7b"],
    ["            value", .place place,
      "[valueIdx++] = _element.options[_element.selectedIndex].value;"],
    ["          \x7d"],
    ["          break;"]]
  ++ lines [
    ["        case 'select-multiple':"],
    ["          var tmpVal = new Array();"],
    ["          var tmpIdx = 0;"],
    ["          for (var j = 0; j < _element.options.length; j++) \x7b"],
    ["            if (_element.options[j].selected) \x7b"],
    ["              tmpVal[tmpIdx++] = _element.options[j].value;"],
    ["            \x7d"],
    ["          \x7d"],
    ["          if (tmpIdx > 0) \x7b"],
    ["            value", .place place, "[valueIdx++] = tmpVal;"],
    ["          \x7d"],
    ["          break;"],
    ["        default:"],
    ["          value", .place place, "[valueIdx++] = _element.value;"],
    ["      \x7d"]]

def readGroup (place name : String) : List Piece :=
  lines [
    ["  value", .place place, " = new Array();"],
    ["  var valueIdx = 0;"],
    ["  for (var i = 0; i < frm.elements.length; i++) \x7b"],
    ["    var _element = frm.elements[i];"],
    ["    if (_element.name in _qfGroups[", .name name, "]) \x7b"]]
  ++ readMember place
  ++ lines [
    ["    \x7d"],
    ["  \x7d"]]

/-- Names the control whose default is restored. -/
def fieldOf (name : String) : List Piece :=
  lines [["    var field = frm.elements[", .name name, "];"]]

def restoreField : List Piece := lines [["    field.value = field.defaultValue;"]]

def restoreCheckbox : List Piece := lines [["    field.checked = field.defaultChecked;"]]

def restoreAdvcheckbox : List Piece := lines [["    field[1].checked = field[1].defaultChecked;"]]

def restoreRadio : List Piece :=
  lines [
    ["    for (var i = 0; i < field.length; i++) \x7b"],
    ["      field[i].checked = field[i].defaultChecked;"],
    ["    \x7d"]]

def restoreSelect : List Piece :=
  lines [
    ["    for (var i = 0; i < field.options.length; i++) \x7b"],
    ["      field.options[i].selected = field.options[i].defaultSelected;"],
    ["    \x7d"]]

def restoreGroup (name : String) : List Piece :=
  lines [
    ["    for (var i = 0; i < frm.elements.length; i++) \x7b"],
    ["      var _element = frm.elements[i];"],
    ["      if (_element.name in _qfGroups[", .name name, "]) \x7b"],
    ["        switch (_element.type) \x7b"],
    ["          case 'checkbox':"],
    ["          case 'radio':"],
    ["            _element.checked = _element.defaultChecked;"],
    ["            break;"],
    ["          case 'select-one':"],
    ["          case 'select-multiple':"],
    ["            for (var j = 0; j < _element.options.length; j++) \x7b"],
    ["              _element.options[j].selected = _element.options[j].defaultSelected;"],
    ["            \x7d"],
    ["            break;"],
    ["          default:"],
    ["            _element.value = _element.defaultValue;"],
    ["        \x7d"],
    ["      \x7d"],
    ["    \x7d"]]

namespace Extraction

def value (e : Extraction) : String := Piece.join e.reading

def restore (e : Extraction) : String := Piece.join e.restoring

/-- The name of a group member's control, as text. -/
def memberName (member : Value × Descriptor) : Except Error String := do
  (← if member.2.kind.isSelect && member.2.isMultiple then multipleName member.1
    else .ok member.1).spelled

/-- The code for a control of its own: `restoring` follows where a failure restores it. -/
def single (name : Value) (reset : Bool) (reading : String → List Piece) (restoring : List Piece) :
    Except Error Extraction := do
  let name ← name.spelled
  return ⟨reading name, if reset then fieldOf name ++ restoring else []⟩

/-- Where the value of an element goes: to a position of the array, or to none. -/
def placeOf (index : Value) : Except Error String :=
  if index.isNull then .ok "" else do return "[" ++ (← index.spelled) ++ "]"

/-- The code for one element whose value goes to a place. -/
def placed (d : Descriptor) (name : Value) (reset : Bool) (place : String) : Except Error Extraction :=
  match d.kind with
  | .field => single name reset (readField place) restoreField
  | .checkbox => single name reset (readCheckbox place) restoreCheckbox
  | .advcheckbox => single name reset (readAdvcheckbox place) restoreAdvcheckbox
  | .radio => single name reset (readRadio place) restoreRadio
  | .select | .autocomplete =>
    if d.isMultiple then do single (← multipleName name) reset (readMultiple place) restoreSelect
    else single name reset (readSelect place) restoreSelect
  | .group => do
    let members ← d.members.mapM memberName
    let name ← name.spelled
    return ⟨declareGroup name members ++ readGroup place name,
      if reset then restoreGroup name else []⟩

/-- The code for one element, read under the given name. -/
def ofElement (d : Descriptor) (name : Value) (reset : Bool) (index : Value) :
    Except Error Extraction := do placed d name reset (← placeOf index)

/-- The code for elements read together, beginning at a position of the array. -/
def ofElementsFrom (position : Nat) (reset : Bool) : List Descriptor → Except Error Extraction
  | [] => .ok ⟨[], []⟩
  | d :: rest => do
    let first ← ofElement d d.name reset (.int position)
    let others ← ofElementsFrom (position + 1) reset rest
    return ⟨.code "\n" :: first.reading ++ others.reading, first.restoring ++ others.restoring⟩

/-- The code that reads several elements, in order, into one array. -/
def ofElements (ds : List Descriptor) (reset : Bool) : Except Error Extraction := do
  let each ← ofElementsFrom 0 reset ds
  return ⟨lines [["  value = new Array();"]] ++ each.reading, each.restoring⟩

end Extraction

end FormGuard.Script
