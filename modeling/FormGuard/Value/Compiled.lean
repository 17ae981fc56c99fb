import FormGuard.Value

/-! Compiling an expression on its own, outside a pattern. -/
namespace FormGuard.Compiled

/-- An expression with the switches of the given letters and those it sets itself. -/
def make (source letters : String) : Except Regex.Fault Compiled := do
  let program ← Regex.parse (Pattern.switches ('u' :: letters.toList)) source.toList
  let flags := program.flags
  let on := [('i', flags.ignoreCase), ('m', flags.multiline), ('s', flags.dotAll),
    ('x', flags.verbose)]
  return ⟨source, String.ofList ((on.filter (·.2)).map (·.1)), flags.ascii⟩

end FormGuard.Compiled
