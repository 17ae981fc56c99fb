import FormGuard.CommandLine

/-! The command-line program. -/
namespace FormGuard

/-- A using program that offers nothing of its own. -/
def Host.bare : Host where
  modules := []
  member? _ _ := none
  call _ _ := Value.misuse .type
  construct _ _ := Value.misuse .type
  validate _ state _ _ _ := (Value.misuse .type, state)
  check _ _ _ _ := Value.misuse .type

/-- The words that may name files: arguments and the values attached to options. -/
def candidates (words : List String) : List String :=
  words ++ words.filterMap fun word => (CommandLine.attached word).2

/-- The texts of those files that can be read. -/
def readAll : List String → IO (List (String × String))
  | [] => return []
  | path :: rest => do
    let others ← readAll rest
    try
      return (normalPath path, ← IO.FS.readFile path) :: others
    catch _ => return others

end FormGuard

open FormGuard in
def main (words : List String) : IO UInt32 := do
  let path ← IO.getEnv Config.pathSetting
  let level ← IO.getEnv CommandLine.levelSetting
  let texts ← readAll (candidates words ++ path.toList)
  let setting? (name : String) : Option String :=
    if name == Config.pathSetting then path
    else if name == CommandLine.levelSetting then level else none
  let outcome := CommandLine.run Host.bare ⟨⟨fun path => texts.lookup path⟩, setting?⟩ words
  IO.print outcome.output
  IO.eprint outcome.errors
  return UInt32.ofNat outcome.exit
