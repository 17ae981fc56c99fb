import FormGuard.CommandLine
import FormGuard.Proofs.Registry.Configuration
import FormGuard.Proofs.Registry.Escape

/-! Checking values from a command line: which exit code tells what. -/
namespace FormGuard.CommandLine
variable {host : Host} {r : Registry} {name : String} {values : List String} {format : Option String}
  {whole : Bool}

/-- What is validated: one value by itself, several as a list. -/
def checkedValue (values : List String) (whole : Bool) : Value :=
  match values, whole with
  | [value], false => .text value
  | values, _ => .list (values.map .text)

def formatValue (format : Option String) : Value := (format.map Value.text).getD .null

/-- What the rule is asked about: all values at once, or each. -/
def askedValues (values : List String) (whole : Bool) : List Value :=
  if whole then [.list (values.map .text)] else values.map .text

/-- The words behind the name of the command. Two dashes end the options, so that names and values
may begin with one. -/
def checkWords (name : String) (values : List String) (format : Option String) (whole : Bool) :
    List String :=
  (match format with
    | some text => ["--format", text]
    | none => []) ++ (if whole then ["--multiple"] else []) ++ "--" :: name :: values

/-- The words before the name of the command group. -/
def configWords : Option String → List String
  | some path => ["--config", path]
  | none => []

/-- What validating the values answers. -/
def validated (host : Host) (r : Registry) (name : String) (values : List String)
    (format : Option String) (whole : Bool) : Except Error Registry.Verdict :=
  (outcome (Registry.validate host (.text name) (checkedValue values whole) (formatValue format)
    whole) r).1

/-- The exit code that tells an answer. -/
def exitCode : Except Error Registry.Verdict → Nat
  | .ok verdict => if verdict.holds then 0 else 1
  | .error e => if e.isOwn then 2 else 1

theorem exit_checkValues (host : Host) (r : Registry) (name : String) (values : List String)
    (format : Option String) (whole : Bool) :
    (checkValues host r name values format whole).1.exit =
      exitCode (validated host r name values format whole) := by
  rcases ho : outcome (Registry.validate host (.text name) (checkedValue values whole)
    (formatValue format) whole) r with ⟨answer, next⟩
  have hanswer : validated host r name values format whole = answer := congrArg Prod.fst ho
  rw [hanswer]
  unfold checkValues
  dsimp only
  split
  rename_i result registry heq
  obtain rfl : answer = result := congrArg Prod.fst (ho.symm.trans heq)
  cases answer with
  | ok verdict => rfl
  | error e =>
    change (Outcome.failed 2 "" e).exit = if e.isOwn then 2 else 1
    unfold Outcome.failed
    split <;> rfl

theorem offered_checkedValue (values : List String) (whole : Bool) :
    Registry.offered (checkedValue values whole) whole = askedValues values whole := by
  unfold Registry.offered askedValues
  cases whole with
  | true =>
    match values with
    | [] | [_] | _ :: _ :: _ => rfl
  | false =>
    match values with
    | [] | [_] | _ :: _ :: _ => rfl

theorem worded_askedValues : ∀ v ∈ askedValues values whole, v.Worded := by
  unfold askedValues
  intro v hv
  split at hv
  · rw [List.mem_singleton] at hv
    subst hv
    exact .list values
  · obtain ⟨s, _, rfl⟩ := List.mem_map.mp hv
    exact .text s

theorem wordedFormat_formatValue : (formatValue format).WordedFormat := by
  cases format with
  | none => exact .null
  | some s => exact .text s

/-- What validating the values of a command fails with is the library's own, or it escapes. -/
theorem foreign_validated {e : Error} (h : r.Reachable host) :
    Foreign (validated host r name values format whole) e ↔
      r.Escapes host (.text name) (formatValue format) (askedValues values whole) e := by
  have hv : ∀ v ∈ Registry.offered (checkedValue values whole) whole, v.Worded := by
    rw [offered_checkedValue]
    exact worded_askedValues
  rw [validated, Registry.foreign_validate (Value.isKey_text name) (Value.isWritable_text name)
    wordedFormat_formatValue (Registry.keyed_of_reachable h) hv, offered_checkedValue]

/-- What the words of a check give: the options, and behind them the name and the values. -/
def givenWords (name : String) (values : List String) (format : Option String) (whole : Bool) :
    Given :=
  ⟨(format.map fun text => ("--format", text)).toList ++ (if whole then [("--multiple", "")] else []),
    name :: values⟩

theorem scan_checkWords : scan checkForms true .empty (checkWords name values format whole) =
    .ok (givenWords name values format whole) := by
  have hends : ∀ g : Given, scan checkForms true g ("--" :: name :: values) =
      .ok { g with arguments := g.arguments ++ name :: values } := by
    intro g
    rw [scan]
    rfl
  have hmultiple : ∀ (g : Given) (rest : List String), scan checkForms true g ("--multiple" :: rest) =
      scan checkForms true (g.option "--multiple" "") rest := by
    intro g rest
    rw [scan]
    rfl
  have hformat : ∀ (g : Given) (text : String) (rest : List String),
      scan checkForms true g ("--format" :: text :: rest) =
        scan checkForms true (g.option "--format" text) rest := by
    intro g text rest
    rw [scan]
    rfl
  unfold checkWords
  cases format with
  | none =>
    cases whole with
    | false => exact hends _
    | true => exact (hmultiple _ _).trans (hends _)
  | some text =>
    cases whole with
    | false => exact (hformat _ _ _).trans (hends _)
    | true => exact (hformat _ _ _).trans ((hmultiple _ _).trans (hends _))

theorem last?_givenWords : (givenWords name values format whole).last? "--format" = format := by
  unfold Given.last? givenWords
  cases format <;> cases whole <;> rfl

theorem has_multiple_givenWords :
    (givenWords name values format whole).has "--multiple" = whole := by
  unfold Given.has givenWords
  cases format <;> cases whole <;> rfl

theorem has_help_givenWords : (givenWords name values format whole).has "--help" = false := by
  unfold Given.has givenWords
  cases format <;> cases whole <;> rfl

/-- The command checks the values, whatever they are. -/
theorem exit_runRules (host : Host) (r : Registry) (name value : String) (values : List String)
    (format : Option String) (whole : Bool) :
    (runRules host r ("check" :: checkWords name (value :: values) format whole)).1.exit =
      exitCode (validated host r name (value :: values) format whole) := by
  have hscan : scan [helpForm] false .empty
      ("check" :: checkWords name (value :: values) format whole) =
      .ok ⟨[], "check" :: checkWords name (value :: values) format whole⟩ := by
    rw [scan]
    rfl
  have hnone : Given.has ⟨[], "check" :: checkWords name (value :: values) format whole⟩ "--help" =
      false := rfl
  rw [← exit_checkValues]
  unfold runRules
  rw [if_neg (by simp), hscan]
  simp only [hnone, scan_checkWords, has_help_givenWords, last?_givenWords, has_multiple_givenWords,
    Bool.false_eq_true, if_false]
  rfl

/-- Before the command its registry is made, from the configuration that the options or the settings
name. -/
theorem exit_run {env : Environment} {path : Option String} {notes : List Note} {level : Nat}
    (hs : startRegistry host env path = (.ok r, notes))
    (hf : ∀ given, path = some given → isFile env.files given = true)
    (hl : threshold? ((env.setting? levelSetting).getD "WARNING") = some level)
    (rest : List String) :
    (run host env (configWords path ++ "rules" :: rest)).exit = (runRules host r rest).1.exit := by
  have hrules : ∀ g : Given, scan mainForms false g ("rules" :: rest) =
      .ok { g with arguments := g.arguments ++ "rules" :: rest } := by
    intro g
    rw [scan]
    rfl
  have hnotes : ∀ (o : Outcome) (shown : String), (o.withNotes shown).exit = o.exit := by
    intro o shown
    unfold Outcome.withNotes
    split <;> rfl
  have hscan : scan mainForms false .empty (configWords path ++ "rules" :: rest) =
      .ok ⟨(path.map fun given => ("--config", given)).toList, "rules" :: rest⟩ := by
    cases path with
    | none => exact hrules _
    | some given =>
      refine Eq.trans ?_ (hrules (Given.empty.option "--config" given))
      change scan mainForms false .empty ("--config" :: given :: "rules" :: rest) = _
      rw [scan]
      rfl
  have hpath : Given.last? ⟨(path.map fun given => ("--config", given)).toList, "rules" :: rest⟩
      "--config" = path := by
    cases path <;> rfl
  have hhelp : Given.has ⟨(path.map fun given => ("--config", given)).toList, "rules" :: rest⟩
      "--help" = false := by
    cases path <;> rfl
  have hverbose : Given.has ⟨(path.map fun given => ("--config", given)).toList, "rules" :: rest⟩
      "--verbose" = false := by
    cases path <;> rfl
  have hfile : (path.any fun given => !isFile env.files given) = false := by
    cases path with
    | none => rfl
    | some given => simp [hf given rfl]
  have hwords : (configWords path ++ "rules" :: rest).isEmpty = false := by
    cases path <;> rfl
  unfold run
  simp only [hwords, hscan, hpath, hhelp, hverbose, hfile, hl, hs, Bool.false_eq_true, if_false,
    bne_self_eq_false, Bool.false_and, BEq.rfl, if_true, hnotes]

theorem exitCode_eq_zero {answer : Except Error Registry.Verdict} :
    exitCode answer = 0 ↔ ∃ verdict, answer = .ok verdict ∧ verdict.holds = true := by
  unfold exitCode
  rcases answer with e | verdict
  · cases he : e.isOwn <;> simp [he]
  · cases hv : verdict.holds <;> simp [hv]

theorem exitCode_eq_two {answer : Except Error Registry.Verdict} :
    exitCode answer = 2 ↔ ∃ e, answer = .error e ∧ e.isOwn = true := by
  unfold exitCode
  rcases answer with e | verdict
  · cases he : e.isOwn <;> simp [he]
  · cases hv : verdict.holds <;> simp [hv]

theorem exitCode_eq_one {answer : Except Error Registry.Verdict} :
    exitCode answer = 1 ↔
      (∃ verdict, answer = .ok verdict ∧ verdict.holds = false) ∨ ∃ e, Foreign answer e := by
  unfold exitCode
  rcases answer with e | verdict
  · cases he : e.isOwn <;> simp [he]
  · cases hv : verdict.holds <;> simp [hv]

/-- Neither files nor settings. -/
def bareEnvironment : Environment := ⟨⟨fun _ => none⟩, fun _ => none⟩

theorem startRegistry_bare :
    ∃ notes, startRegistry Host.bare bareEnvironment none = (.ok defaultRegistry, notes) := by
  have hstart : startRegistry Host.bare bareEnvironment none =
      Registry.ofConfig Host.bare Config.default := rfl
  have hconfig := ofConfig_default
  rw [hstart]
  generalize Registry.ofConfig Host.bare Config.default = made at hconfig
  obtain ⟨answer, notes⟩ := made
  obtain rfl : answer = .ok defaultRegistry := hconfig
  exact ⟨notes, rfl⟩

end FormGuard.CommandLine
