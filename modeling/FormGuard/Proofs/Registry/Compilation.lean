import FormGuard.Proofs.Regex.Fault
import FormGuard.Proofs.Registry.Offer

/-! Patterns that do not compile: which of them are refused, and which let their failure through. -/
namespace FormGuard

namespace Pattern
open Regex

/-- The tokens of the expression. -/
def tokens (p : Pattern) : List Token := Token.ofText p.source.toList

/-- What a pattern asks for beyond its form: a count that is too large or too long, or both scripts. -/
inductive Overasks (p : Pattern) : Fault → Prop where
  | tooLarge {digits : List Char} (counts : Counts digits p.tokens)
    (large : countLimit ≤ numeral 10 digits) : Overasks p .tooLarge
  | tooLong {digits : List Char} (counts : Counts digits p.tokens)
    (long : Text.maxDigits < digits.length) : Overasks p .conflict
  | scripts (every : Switches 'u' p.tokens)
    (ascii : p.flags.toList.contains 'u' = false ∨ Switches 'a' p.tokens) : Overasks p .conflict

theorem not_every_switches (letters : List Char) : (switches letters).every = false := by
  by_contra h
  rcases on_of_foldl (fun _ _ => every_of_set) ((Bool.not_eq_false _).mp h) with hn | hm
  · exact absurd hn Bool.false_ne_true
  · exact absurd (List.mem_filter.mp hm).2 (by decide)

theorem not_contains_of_ascii {letters : List Char} (h : (switches letters).ascii = true) :
    letters.contains 'u' = false := by
  rcases on_of_foldl (fun _ _ => ascii_of_set) h with hn | hm
  · simpa using hn
  · exact absurd (List.mem_filter.mp hm).2 (by decide)

/-- A pattern that does not compile is malformed, or asks for too much. -/
theorem malformed_or_overasks {p : Pattern} {fault : Fault} (h : p.compile = .error fault) :
    fault = .malformed ∨ p.Overasks fault := by
  cases faulty_of_parse h with
  | blamed blame =>
    cases blame with
    | malformed => exact Or.inl rfl
    | tooLarge counts large => exact Or.inr (.tooLarge counts large)
    | tooLong counts long => exact Or.inr (.tooLong counts long)
  | scripts every ascii =>
    refine Or.inr (.scripts (every.resolve_left ?_) (ascii.imp_left not_contains_of_ascii))
    rw [not_every_switches]
    exact Bool.false_ne_true

end Pattern

theorem Patterns.readable_text (name : Value) (text : String) :
    Patterns.readable name (.text text) =
      match (Pattern.parse text).compile with
      | .ok _ => .ok (Pattern.parse text)
      | .error .malformed => Error.raise (.registration (.badPattern name))
      | .error fault => .error (.expression fault) := rfl

theorem Rule.validate_text {host : Host} {patterns : Patterns} {name value : Value} {shown : String}
    (hn : name.isKey = true) (hp : patterns.find? name = none) (hv : value.written = .ok shown)
    (text : String) : ((Rule.regex patterns).validate host name value (.text text)).1 =
      match (Pattern.parse text).compile with
      | .ok program => .ok (.bool (program.expr.search shown.toList))
      | .error fault => .error (.expression fault) := by
  have hfor : patterns.patternFor name (.text text) = .ok (Pattern.parse text) := by
    rw [Patterns.patternFor, Value.needKey_eq_ok (u := ()).mpr hn, hp]
    rfl
  change patterns.validate name value (.text text) = _
  rw [Patterns.validate, hfor]
  change Rule.matchesPattern (Pattern.parse text) value = _
  rw [Rule.matchesPattern, Rule.search, hv]
  change Value.bool <$> Rule.liftFault ((Pattern.parse text).search shown) = _
  rw [Pattern.search]
  cases (Pattern.parse text).compile <;> rfl

namespace Registry
variable {host : Host} {r : Registry} {name kind data owner : Value} {cls : RuleClass}

/-- A name that may be bound is served as far as the shared instance takes the data. -/
theorem fst_registerData {before : Rule} (hb : r.canBind name (.ofClass cls) = .ok ())
    (hs : r.shared host cls = .ok before) (k : RuleKind) :
    (outcome (registerData host name cls k data owner) r).1 =
      (before.add host name data owner).map fun _ => () := by
  cases ha : before.add host name data owner with
  | ok stored => exact registerData_of_add hb hs ha k
  | error e =>
    have hi := outcome_classInstance host cls r
    rcases ho : outcome (classInstance host cls) r with ⟨answer, t⟩
    rw [ho] at hi
    obtain rfl : answer = .ok before := hi.trans hs
    rw [registerData, outcome_bind_of_ok (by rw [outcome_checkRebind, hb]), outcome_bind_of_ok ho, ha,
      outcome_bind_of_error (outcome_lift _ _)]
    rfl

theorem map_add_regex (host : Host) (patterns : Patterns) (hn : name.isKey = true) (data owner : Value) :
    ((Rule.regex patterns).add host name data owner).map (fun _ => ()) =
      (Patterns.readable name data).map fun _ => () := by
  rw [Rule.add, Patterns.add, Value.needKey_eq_ok (u := ()).mpr hn]
  cases Patterns.readable name data <;> rfl

/-- Under a name that is free, a text is registered as far as its pattern compiles. -/
theorem register_text (hr : r.Keyed) (hn : name.isKey = true) (hfree : r.targets.contains name = false)
    (hk : dataKind? kind = some (.regex, .regex)) (text : String) (owner : Value) :
    (outcome (register host name kind (.text text) owner) r).1 =
      match (Pattern.parse text).compile with
      | .ok _ => .ok ()
      | .error .malformed => Error.raise (.registration (.badPattern name))
      | .error fault => .error (.expression fault) := by
  obtain ⟨patterns, hs⟩ := shared_regex host hr
  have hb : r.canBind name (.ofClass .regex) = .ok () := by
    refine canBind_eq_ok.mpr ⟨hn, fun current hc => ?_⟩
    rw [Table.contains, hc] at hfree
    cases hfree
  rw [(outcome_register host name kind (.text text) owner r).1, enter_of_data hk,
    fst_registerData hb hs, map_add_regex host patterns hn, Patterns.readable_text]
  cases (Pattern.parse text).compile with
  | ok program => rfl
  | error fault => cases fault <;> rfl

/-- The report on a pattern says the name. -/
theorem worded_badPattern (name : Value) : (Error.registration (.badPattern name)).worded =
    if name.isWritable then .registration (.badPattern name) else .misuse .value := by
  simp [Error.worded, RegistrationFault.named]

end Registry

end FormGuard
