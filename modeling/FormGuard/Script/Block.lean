import FormGuard.Application
import FormGuard.Script.Check
import FormGuard.Script.Extraction
import FormGuard.Script.Literal

/-! Blocks of browser code, one for each rule application, and the function around them. -/
namespace FormGuard.Script

/-- When a block reports a failure. -/
inductive Condition where
  /-- The test of the value holds. -/
  | fails (test : String)
  /-- The test of an item does not hold for as many items as needed. -/
  | tooFew (test needed : String)
  deriving DecidableEq

namespace Condition

/-- The code that counts the items that pass. -/
def counting : Condition → List Piece
  | .fails _ => []
  | .tooFew test _ =>
    lines [
      ["  var res = 0;"],
      ["  for (var i = 0; i < value.length; i++) \x7b"],
      ["    if (!(", .given test, ")) \x7b"],
      ["      res++;"],
      ["    \x7d"],
      ["  \x7d"]]

/-- The operand of the test. -/
def operand : Condition → List Piece
  | .fails test => [.given test]
  | .tooFew _ needed => ["res < ", .given needed]

/-- The test as the rule gives it. -/
def test : Condition → String
  | .fails test => test
  | .tooFew test _ => test

end Condition

/-- One rule application in the browser: read the values, prepare the test, and report the message
under the key unless something is already reported there. -/
structure Block where
  extraction : Extraction
  setup : String
  condition : Condition
  key : String
  /-- The message as it stands in its literal. -/
  message : String

namespace Block

/-- How a block looks at the flag of its key and sets it. -/
def guardLines (key : String) : List Piece :=
  [" && !errFlag[", .name key, "]) \x7b\n", "    errFlag[", .name key, "] = true;\n"]

def pieces (b : Block) : List Piece :=
  List.flatten [
    b.extraction.reading,
    ["\n", .given b.setup],
    b.condition.counting,
    ["  if ("],
    b.condition.operand,
    guardLines b.key,
    ["    _qfMsg = _qfMsg + ", .literal ("\\n - " ++ b.message), ";\n"],
    b.extraction.restoring,
    ["  \x7d\n"]]

def text (b : Block) : String := Piece.join b.pieces

end Block

/-- What a block reads: one element under a name of its own, or several elements together. -/
inductive Source where
  | one (element : Descriptor)
  | several (elements : List Descriptor)

namespace Source

def extraction (source : Source) (name : Value) (reset : Bool) : Except Error Extraction :=
  match source with
  | .one d => Extraction.ofElement d name reset .null
  | .several ds => Extraction.ofElements ds reset

end Source

namespace Block

/-- When the block of an application reports a failure. -/
def conditionOf (a : Application) (check : Check) : Except Error Condition :=
  if a.howmany.isNull then .ok (.fails (check.bind "value"))
  else do return .tooFew (check.bind "value[i]") (← a.howmany.spelled)

/-- The block of an application; `name` is the name of the first element in the live form. -/
def make (source : Source) (name : Value) (a : Application) (check : Check) :
    Except Error Block := do
  let extraction ← source.extraction name a.reset.truthy
  let condition ← conditionOf a check
  return ⟨extraction, check.setup, condition, ← (a.reportKey name).spelled, ← a.message.spelled⟩

end Block

def defaultHeading : String := "Invalid information entered."

def defaultClosing : String := "Please correct these fields."

/-- The code before the blocks. -/
def opening (formId : String) : List Piece :=
  lines [
    [],
    ["<script type=\"text/javascript\">"],
    ["//<![CDATA["],
    ["function validate_", .given formId, "(frm) \x7b"],
    ["  var value = '';"],
    ["  var errFlag = new Array();"],
    ["  var _qfGroups = \x7b\x7d;"],
    ["  _qfMsg = '';"],
    []]

/-- The code behind the blocks. -/
def ending (heading closing : String) : List Piece :=
  lines [
    [],
    ["  if (_qfMsg != '') \x7b"],
    ["    _qfMsg = ", .literal (escape heading), " + _qfMsg;"],
    ["    _qfMsg = _qfMsg + ", .literal ("\\n" ++ escape closing), ";"],
    ["    alert(_qfMsg);"],
    ["    return false;"],
    ["  \x7d"],
    ["  return true;"],
    ["\x7d"],
    ["//]]>"]] ++ [.code "</script>"]

/-- The function around the blocks; without blocks there is none. -/
def function (formId : String) (blocks : List String) (heading closing : String) : String :=
  if blocks.isEmpty then ""
  else
    Piece.join (opening formId) ++ String.intercalate "\n" blocks
      ++ Piece.join (ending heading closing)

end FormGuard.Script
