import FormGuard.Text.Occurrence

/-! Browser checks: statements that prepare a test, and the test of one value. -/
namespace FormGuard.Script

/-- What stands for the value under test. -/
def placeholder : String := "\x7bjsVar\x7d"

/-- A test is true when the value is not valid; a rule without a browser side has an empty one. -/
structure Check where
  setup : String
  test : String
  deriving DecidableEq

namespace Check

/-- The test of a variable. -/
def bind (check : Check) (name : String) : String :=
  String.ofList (Text.replaceAll placeholder.toList name.toList check.test.toList)

end Check

end FormGuard.Script
