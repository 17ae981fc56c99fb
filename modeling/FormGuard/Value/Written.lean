import FormGuard.Double.Shortest
import FormGuard.Text.Integer
import FormGuard.Text.Quoted
import FormGuard.Value

/-! How values are written: as definitions with texts in quotes, or plainly. -/
namespace FormGuard

namespace Compiled

/-- The names of the switches, in a fixed order. -/
def switchNames (e : Compiled) : List String :=
  [('i', "re.IGNORECASE"), ('m', "re.MULTILINE"), ('s', "re.DOTALL"), ('x', "re.VERBOSE")].filterMap
    (fun (letter, name) => if e.letters.toList.contains letter then some name else none)
    ++ (if e.ascii then ["re.ASCII"] else [])

/-- The written form; a long expression is cut. -/
def shown (e : Compiled) : String :=
  "re.compile(" ++ ((Text.quoted e.source).take 200).toString
    ++ (if e.switchNames.isEmpty then "" else ", " ++ String.intercalate "|" e.switchNames) ++ ")"

end Compiled

namespace Pattern

def shown (p : Pattern) : String :=
  "Pattern(source=" ++ Text.quoted p.source ++ ", flags=" ++ Text.quoted p.flags ++ ")"

end Pattern

namespace Value

def enclosed (opening closing : String) (parts : List String) : String :=
  opening ++ String.intercalate ", " parts ++ closing

mutual

/-- A value as it would be written in a definition. -/
def quoted : Value → String
  | .null => "None"
  | .bool b => if b then "True" else "False"
  | .int i => toString i
  | .float d => d.text
  | .text s => Text.quoted s
  | .list items => enclosed "[" "]" (quotedItems items)
  | .tuple [item] => "(" ++ quoted item ++ ",)"
  | .tuple items => enclosed "(" ")" (quotedItems items)
  | .set [] => "set()"
  | .set items => enclosed "\x7b" "\x7d" (quotedItems items)
  | .map entries => enclosed "\x7b" "\x7d" (quotedEntries entries)
  | .compiled e => e.shown
  | .pattern p => p.shown
  | .kind k => "<" ++ k.label ++ ": " ++ Text.quoted k.word ++ ">"
  | .mode m => "<" ++ m.label ++ ": " ++ Text.quoted m.word ++ ">"
  | .ruleClass cls => cls.shown
  | .ruleObject cls _ => cls.instanceShown
  | .external ref => ref.shown

def quotedItems : List Value → List String
  | [] => []
  | item :: items => quoted item :: quotedItems items

def quotedEntries : List (Value × Value) → List String
  | [] => []
  | (key, value) :: entries => (quoted key ++ ": " ++ quoted value) :: quotedEntries entries

end

/-- A value as text: a text is itself and a pattern its literal. -/
def plain : Value → String
  | .text s => s
  | .pattern p => p.literal
  | .kind k => k.label
  | .mode m => m.label
  | v => v.quoted

/-- A value as rules test it: nothing is the empty text. -/
def tested : Value → String
  | .null => ""
  | v => v.plain

mutual

/-- Whether a value can be written: no whole number in it has more digits than are read. -/
def isWritable : Value → Bool
  | .int i => (Nat.toDigits 10 i.natAbs).length ≤ Text.maxDigits
  | .list items | .tuple items | .set items => areWritable items
  | .map entries => areWritableEntries entries
  | _ => true

def areWritable : List Value → Bool
  | [] => true
  | item :: items => isWritable item && areWritable items

def areWritableEntries : List (Value × Value) → Bool
  | [] => true
  | (key, value) :: entries =>
    isWritable key && isWritable value && areWritableEntries entries

end

@[simp] theorem areWritable_nil : areWritable [] = true := by simp [areWritable]

@[simp] theorem areWritable_cons (v : Value) (vs : List Value) :
    areWritable (v :: vs) = (v.isWritable && areWritable vs) := by simp [areWritable]

@[simp] theorem isWritable_text (s : String) : isWritable (.text s) = true := by simp [isWritable]

@[simp] theorem plain_text (s : String) : plain (.text s) = s := rfl

@[simp] theorem tested_null : tested .null = "" := rfl

@[simp] theorem tested_text (s : String) : tested (.text s) = s := rfl

/-- The name of a value's type. -/
def typeName : Value → String
  | .null => "NoneType"
  | .bool _ => "bool"
  | .int _ => "int"
  | .float _ => "float"
  | .text _ => "str"
  | .list _ => "list"
  | .tuple _ => "tuple"
  | .set _ => "set"
  | .map _ => "dict"
  | .compiled _ => "Pattern"
  | .pattern _ => "Pattern"
  | .kind _ => "RuleKind"
  | .mode _ => "ValidationMode"
  | .ruleClass _ => "type"
  | .ruleObject cls _ => cls.name
  | .external ref => ref.typeName

end Value

end FormGuard
