import FormGuard.Proofs.Pattern.Email
import FormGuard.Proofs.Registry.Likeness
import FormGuard.Proofs.Registry.StoredData
import FormGuard.Proofs.Rule.Bound
import FormGuard.Proofs.Rule.Operand

/-! Errors that are not the library's own: what escapes when values given as texts are validated. -/
namespace FormGuard
variable {host : Host} {e : Error}

/-- A path whose module begins with a point. -/
def ImportPath.Relative (path : String) : Prop :=
  ∃ home members, split path = some (home, members) ∧ home.toList.head? = some '.'

theorem ImportPath.resolveText_of_relative {path : String} (h : Relative path) (host : Host) :
    resolveText host path = .error (.misuse .type) := by
  obtain ⟨home, members, hs, hh⟩ := h
  simp [resolveText, hs, hh, Value.misuse]

/-- A path that is not relative leads somewhere or is reported as not found. -/
theorem ImportPath.resolveText_eq_error {path : String} (h : resolveText host path = .error e) :
    (∃ fault, e = .notFound fault) ∨ Relative path ∧ e = .misuse .type := by
  unfold resolveText at h
  split at h
  · cases h
    exact Or.inl ⟨_, rfl⟩
  · rename_i home members hs
    split at h
    · rename_i hh
      cases h
      exact Or.inr ⟨⟨home, members, hs, by simpa using hh⟩, rfl⟩
    · split at h
      · cases h
        exact Or.inl ⟨_, rfl⟩
      · dsimp only at h
        split at h
        · cases h
        · cases h
          exact Or.inl ⟨_, rfl⟩

/-- A value as a command line gives it: a text, or several as a list. -/
inductive Value.Worded : Value → Prop where
  | text (s : String) : Worded (.text s)
  | list (texts : List String) : Worded (.list (texts.map .text))

/-- A format as a command line gives it: none, or a text. -/
inductive Value.WordedFormat : Value → Prop where
  | null : WordedFormat .null
  | text (s : String) : WordedFormat (.text s)

theorem Value.areWritable_texts (texts : List String) :
    areWritable (texts.map .text) = true := by
  induction texts with
  | nil => rfl
  | cons s rest ih => simp [ih]

theorem Value.Worded.isWritable {value : Value} (h : value.Worded) : value.isWritable = true := by
  cases h with
  | text s => exact isWritable_text s
  | list texts => simpa [Value.isWritable] using areWritable_texts texts

theorem Value.WordedFormat.isWritable {format : Value} (h : format.WordedFormat) :
    format.isWritable = true := by
  cases h with
  | null => rfl
  | text s => exact isWritable_text s

/-- A report of the library on what can be written does not escape. -/
theorem not_foreign_raise {α : Type} {d : Error} (ho : d.isOwn = true)
    (hw : d.isWritable = true) : ¬ Foreign (Error.raise d : Except Error α) e := by
  rw [foreign_raise ho, hw]
  rintro ⟨⟨⟩, _⟩

namespace Rule
variable {name format value : Value}

/-- How a rule fails with an error that is not the library's own: by a format that is no expression or
a relative path, by a number with a separator before it, by what an instance held when it was brought,
or by what the using program raises. -/
inductive Misses (host : Host) (name format value : Value) : Rule → Error → Prop where
  | expression {patterns : Patterns} {text : String} {fault : Regex.Fault}
      (unstored : patterns.find? name = none) (given : format = .text text)
      (broken : (Pattern.parse text).compile = .error fault) :
      Misses host name format value (.regex patterns) (.expression fault)
  | held {patterns : Patterns} {p : Pattern} {fault : Regex.Fault}
      (stored : patterns.find? name = some p) (broken : p.compile = .error fault) :
      Misses host name format value (.regex patterns) (.expression fault)
  | relative {callbacks : Callbacks} {path : String} (unstored : callbacks.find? name = none)
      (given : format = .text path) (relative : ImportPath.Relative path) :
      Misses host name format value (.callback callbacks) (.misuse .type)
  | imported {callbacks : Callbacks} {path : String} {f : Value} {e : Error}
      (unstored : callbacks.find? name = none) (given : format = .text path)
      (found : ImportPath.resolveText host path = .ok f) (callable : f.isCallable = true)
      (raised : host.apply f [value] = .error e) (foreign : e.isOwn = false) :
      Misses host name format value (.callback callbacks) e
  | stored {callbacks : Callbacks} {c : Callback} {f : Value} {e : Error}
      (stored : callbacks.find? name = some c) (resolved : c.resolve host = .ok f)
      (raised : host.apply f (Callback.arguments value format) = .error e)
      (foreign : e.isOwn = false) : Misses host name format value (.callback callbacks) e
  | lost {callbacks : Callbacks} {c : Callback} {e : Error} (stored : callbacks.find? name = some c)
      (lost : c.resolve host = .error e) (foreign : e.isOwn = false) :
      Misses host name format value (.callback callbacks) e
  | operand {word left right : String} {op : Operator} {others : List Value}
      (given : format = .text word) (named : Operator.ofText? word = some op)
      (ordering : op.comparesText = false)
      (pair : value = .list (.text left :: .text right :: others))
      (separated : Text.Separated left ∨ Text.Separated right) :
      Misses host name format value .compare (.misuse .value)
  | raised {cls : ExternalClass} {state : Value} {e : Error}
      (raised : (host.validate cls state name value format).1 = .error e)
      (foreign : e.isOwn = false) : Misses host name format value (.external cls state) e

theorem foreign_matchesPattern {p : Pattern} (hv : value.isWritable = true) :
    Foreign (matchesPattern p value) e ↔
      ∃ fault, p.compile = .error fault ∧ e = .expression fault := by
  unfold matchesPattern search
  rw [Value.written_eq_ok.mpr ⟨hv, rfl⟩]
  change Foreign (Value.bool <$> liftFault (p.search value.tested)) e ↔ _
  unfold Pattern.search
  cases p.compile with
  | ok program =>
    refine iff_of_false ?_ (by simp)
    exact not_foreign_ok _ e
  | error fault =>
    change Foreign (.error (.expression fault)) e ↔ _
    rw [foreign_error]
    constructor
    · rintro ⟨rfl, _⟩
      exact ⟨fault, rfl, rfl⟩
    · rintro ⟨_, ⟨⟩, rfl⟩
      exact ⟨rfl, rfl⟩

/-- The pattern in force may not compile, be it stored or given by a text. -/
theorem foreign_regex {patterns : Patterns} (hn : name.isKey = true) (hw : name.isWritable = true)
    (hf : format.WordedFormat) (hv : value.isWritable = true) :
    Foreign (patterns.validate name value format) e ↔
      (Rule.regex patterns).Misses host name format value e := by
  have hkey : name.needKey = .ok () := Value.needKey_eq_ok.mpr hn
  unfold Patterns.validate Patterns.patternFor
  rw [hkey]
  cases hp : patterns.find? name with
  | some p =>
    change Foreign (matchesPattern p value) e ↔ _
    rw [foreign_matchesPattern hv]
    constructor
    · rintro ⟨fault, hc, rfl⟩
      exact .held hp hc
    · intro h
      cases h with
      | expression unstored => cases hp.symm.trans unstored
      | held stored broken =>
        obtain rfl := Option.some.inj (hp.symm.trans stored)
        exact ⟨_, broken, rfl⟩
  | none =>
    cases hf with
    | null =>
      refine iff_of_false (not_foreign_raise (d := .data (.noPattern name)) rfl ?_) ?_
      · simp [DataFault.named, hw]
      · intro h
        cases h with
        | expression _ given => cases given
        | held stored => cases hp.symm.trans stored
    | text s =>
      change Foreign (matchesPattern (Pattern.parse s) value) e ↔ _
      rw [foreign_matchesPattern hv]
      constructor
      · rintro ⟨fault, hc, rfl⟩
        exact .expression hp rfl hc
      · intro h
        cases h with
        | expression _ given broken =>
          cases given
          exact ⟨_, broken, rfl⟩
        | held stored => cases hp.symm.trans stored

/-- The function that a text gives is the one at the path, if there is one to call. -/
theorem fromFormat_text {s : String} : Callbacks.fromFormat host name (.text s) =
    match ImportPath.resolveText host s with
    | .error (.notFound fault) => Error.raise (.data (.unloadable name s fault))
    | .error e => .error e
    | .ok f => if f.isCallable then .ok f else Error.raise (.data (.notCallable name (.text s))) := by
  unfold Callbacks.fromFormat Callbacks.named
  rw [if_neg (by simp [Value.isCallable])]
  dsimp only [Value.asText?]
  rcases ImportPath.resolveText host s with e | f
  · cases e <;> rfl
  · rfl

theorem fromFormat_text_eq_ok {s : String} {f : Value} :
    Callbacks.fromFormat host name (.text s) = .ok f ↔
      ImportPath.resolveText host s = .ok f ∧ f.isCallable = true := by
  rw [fromFormat_text]
  cases ImportPath.resolveText host s with
  | error d => cases d <;> simp
  | ok g =>
    cases hg : g.isCallable with
    | false =>
      refine iff_of_false (by simp [hg]) ?_
      rintro ⟨⟨⟩, hcall⟩
      rw [hg] at hcall
      cases hcall
    | true =>
      simp only [hg, if_true, Except.ok.injEq]
      exact ⟨fun h => ⟨h, h ▸ hg⟩, And.left⟩

theorem foreign_fromFormat_text (hw : name.isWritable = true) {s : String} :
    Foreign (Callbacks.fromFormat host name (.text s)) e ↔
      ImportPath.Relative s ∧ e = .misuse .type := by
  constructor
  · rw [fromFormat_text]
    intro h
    cases hres : ImportPath.resolveText host s with
    | error d =>
      rcases ImportPath.resolveText_eq_error hres with ⟨fault, rfl⟩ | ⟨hrel, rfl⟩
      · rw [hres] at h
        exact absurd h (not_foreign_raise rfl (by simp [DataFault.named, hw]))
      · rw [hres] at h
        obtain ⟨rfl, _⟩ := foreign_error.mp h
        exact ⟨hrel, rfl⟩
    | ok f =>
      rw [hres] at h
      dsimp only at h
      split at h
      · exact absurd h (not_foreign_ok f e)
      · exact absurd h (not_foreign_raise rfl (by simp [DataFault.named, hw]))
  · rintro ⟨hrel, rfl⟩
    rw [fromFormat_text, ImportPath.resolveText_of_relative hrel]
    exact ⟨rfl, rfl⟩

theorem foreign_apply {f : Value} {arguments : List Value} :
    Foreign (Callbacks.verdict (host.apply f arguments)) e ↔
      host.apply f arguments = .error e ∧ e.isOwn = false := by
  rw [Callbacks.verdict, foreign_map, Foreign]

theorem foreign_callback_of_stored {callbacks : Callbacks} {c : Callback}
    (hn : name.isKey = true) (hc : callbacks.find? name = some c) :
    Foreign (callbacks.validate host name value format) e ↔
      (Rule.callback callbacks).Misses host name format value e := by
  have hkey : name.needKey = .ok () := Value.needKey_eq_ok.mpr hn
  have hvalidate : callbacks.validate host name value format =
      (c.resolve host >>= fun f =>
        Callbacks.verdict (host.apply f (Callback.arguments value format))) := by
    unfold Callbacks.validate
    rw [hkey, hc]
    rfl
  rw [hvalidate, foreign_bind]
  simp only [foreign_apply]
  constructor
  · rintro (⟨hlost, hown⟩ | ⟨f, hf, hraised, hown⟩)
    · exact .lost hc hlost hown
    · exact .stored hc hf hraised hown
  · intro h
    cases h with
    | relative unstored | imported unstored => cases hc.symm.trans unstored
    | stored other resolved raised foreign =>
      obtain rfl := Option.some.inj (hc.symm.trans other)
      exact Or.inr ⟨_, resolved, raised, foreign⟩
    | lost other lost foreign =>
      obtain rfl := Option.some.inj (hc.symm.trans other)
      exact Or.inl ⟨lost, foreign⟩

theorem foreign_callback_of_unstored {callbacks : Callbacks} (hn : name.isKey = true)
    (hw : name.isWritable = true) (hc : callbacks.find? name = none) (hf : format.WordedFormat) :
    Foreign (callbacks.validate host name value format) e ↔
      (Rule.callback callbacks).Misses host name format value e := by
  have hkey : name.needKey = .ok () := Value.needKey_eq_ok.mpr hn
  have hvalidate : callbacks.validate host name value format =
      (Callbacks.fromFormat host name format >>= fun f =>
        Callbacks.verdict (host.apply f [value])) := by
    unfold Callbacks.validate
    rw [hkey, hc]
    rfl
  rw [hvalidate, foreign_bind]
  cases hf with
  | null =>
    refine iff_of_false ?_ ?_
    · rintro (h | ⟨_, ⟨⟩, _⟩)
      refine not_foreign_raise (d := .data (.notCallable name .null)) rfl ?_ h
      simp [DataFault.named, Value.isWritable, hw]
    · intro h
      cases h with
      | relative _ given | imported _ given => cases given
      | stored stored | lost stored => cases hc.symm.trans stored
  | text s =>
    simp only [foreign_fromFormat_text hw, fromFormat_text_eq_ok, foreign_apply]
    constructor
    · rintro (⟨hrel, rfl⟩ | ⟨f, ⟨hfound, hcall⟩, hraised, hown⟩)
      · exact .relative hc rfl hrel
      · exact .imported hc rfl hfound hcall hraised hown
    · intro h
      cases h with
      | relative _ given relative =>
        cases given
        exact Or.inl ⟨relative, rfl⟩
      | imported _ given found callable raised foreign =>
        cases given
        exact Or.inr ⟨_, ⟨found, callable⟩, raised, foreign⟩
      | stored stored | lost stored => cases hc.symm.trans stored

/-- A stored function is asked; the one that a text gives is looked for. -/
theorem foreign_callback {callbacks : Callbacks} (hn : name.isKey = true)
    (hw : name.isWritable = true) (hf : format.WordedFormat) :
    Foreign (callbacks.validate host name value format) e ↔
      (Rule.callback callbacks).Misses host name format value e := by
  cases hc : callbacks.find? name with
  | none => exact foreign_callback_of_unstored hn hw hc hf
  | some c => exact foreign_callback_of_stored hn hc

/-- No number that a text gives is infinite. -/
theorem not_unbounded (hf : format.WordedFormat) : ¬ Length.Unbounded name format := by
  intro h
  cases hf with
  | null =>
    cases h with
    | low _ both | high _ both _ => cases both
  | text s =>
    have hitems : (Value.text s).items = .ok (s.toList.map fun c => Value.text c.toString) := rfl
    have hfinite : ∀ v ∈ s.toList.map fun c => Value.text c.toString,
        ∀ negative, v ≠ .float (.infinite negative) := by simp
    cases h with
    | low _ both | high _ both _ =>
      rw [Except.ok.inj (hitems.symm.trans both)] at hfinite
      simp at hfinite

/-- What is no bound is reported as such. -/
theorem not_foreign_bounds (hw : name.isWritable = true) (hf : format.WordedFormat) :
    ¬ Foreign (Length.bounds name format) e := by
  have hbounded : ¬ Length.Unbounded name format := not_unbounded hf
  obtain ⟨b, hb⟩ | hb := Length.bounds_cases hbounded
  · rw [hb]
    exact not_foreign_ok b e
  · rw [hb]
    exact not_foreign_raise rfl (Length.isWritable_notABound.mpr ⟨hw, hf.isWritable⟩)

/-- Two texts can be compared as texts, and as numbers unless a separator stands before one. -/
theorem foreign_holds {op : Operator} {left right : String} :
    Foreign (op.holds (.text left) (.text right)) e ↔ op.comparesText = false ∧
      (Text.Separated left ∨ Text.Separated right) ∧ e = .misuse .value := by
  have hfails : op.comparesText = false → (Text.Separated left ∨ Text.Separated right) →
      op.holds (.text left) (.text right) = Value.misuse .value := by
    intro ht hs
    refine Operator.holds_of_misses ?_
    by_cases hl : Text.Separated left
    · exact Or.inl (Operator.misses_text.mpr ⟨ht, hl, rfl⟩)
    · refine Or.inr ⟨fun fault hm => hl (Operator.misses_text.mp hm).2.1, ?_⟩
      exact Operator.misses_text.mpr ⟨ht, hs.resolve_left hl, rfl⟩
  constructor
  · rintro ⟨hraised, hown⟩
    by_cases hm : op.comparesText = false ∧ (Text.Separated left ∨ Text.Separated right)
    · rw [hfails hm.1 hm.2] at hraised
      exact ⟨hm.1, hm.2, (Except.error.inj hraised).symm⟩
    · obtain ⟨b, hb⟩ : ∃ b, op.holds (.text left) (.text right) = .ok b :=
        Operator.holds_of_not_misses
          (fun fault h => hm ⟨(Operator.misses_text.mp h).1, Or.inl (Operator.misses_text.mp h).2.1⟩)
          fun fault h => hm ⟨(Operator.misses_text.mp h).1, Or.inr (Operator.misses_text.mp h).2.1⟩
      cases hb.symm.trans hraised
  · rintro ⟨ht, hs, rfl⟩
    exact ⟨hfails ht hs, rfl⟩

/-- An operator that no text names compares as texts. -/
theorem foreign_ordering {left right : String} (hf : format.WordedFormat) :
    Foreign (Operator.ofValue format >>= fun op => op.holds (.text left) (.text right)) e ↔
      ∃ word op, format = .text word ∧ Operator.ofText? word = some op ∧ op.comparesText = false ∧
        (Text.Separated left ∨ Text.Separated right) ∧ e = .misuse .value := by
  cases hf with
  | null =>
    change Foreign (Operator.holds .eq (.text left) (.text right)) e ↔ _
    rw [foreign_holds]
    exact iff_of_false (by simp [Operator.comparesText]) (by simp)
  | text word =>
    rw [Operator.ofValue_of_sought fun _ => Value.isKey_text word]
    change Foreign (Operator.holds ((Operator.ofText? word).getD .eq) (.text left) (.text right)) e ↔ _
    rw [foreign_holds]
    cases hop : Operator.ofText? word with
    | none => simp [Operator.comparesText, hop]
    | some op => simp [hop]

/-- Values given as texts have two operands where there are two texts, else none are there to compare. -/
theorem operands_of_worded (name : Value) (hv : value.Worded) :
    (∃ left right others, value = .list (.text left :: .text right :: others)) ∨
      Comparison.operands name value = Error.raise (.data (.operands name value)) := by
  cases hv with
  | text s => exact Or.inr rfl
  | list texts =>
    obtain _ | ⟨left, _ | ⟨right, others⟩⟩ := texts
    · exact Or.inr rfl
    · exact Or.inr rfl
    · exact Or.inl ⟨left, right, others.map .text, rfl⟩

/-- Only two texts that an ordering asks for as numbers are more than the rule can report. -/
theorem foreign_compare (hw : name.isWritable = true) (hf : format.WordedFormat)
    (hv : value.Worded) :
    Foreign (Comparison.validate name value format) e ↔
      Rule.compare.Misses host name format value e := by
  rcases operands_of_worded name hv with ⟨left, right, others, rfl⟩ | hnone
  · have hvalidate : Comparison.validate name (.list (.text left :: .text right :: others)) format =
        (Operator.ofValue format >>= fun op => op.holds (.text left) (.text right)).map .bool := by
      unfold Comparison.validate
      cases Operator.ofValue format <;> rfl
    rw [hvalidate, foreign_map, foreign_ordering hf]
    constructor
    · rintro ⟨word, op, hword, hop, hordering, hseparated, rfl⟩
      exact .operand hword hop hordering rfl hseparated
    · intro h
      cases h with
      | operand given named ordering pair separated =>
        cases pair
        exact ⟨_, _, given, named, ordering, separated, rfl⟩
  · unfold Comparison.validate
    rw [hnone]
    refine iff_of_false (not_foreign_raise (d := .data (.operands name value)) rfl ?_) ?_
    · simp [DataFault.named, hw, hv.isWritable]
    intro h
    cases h with
    | operand _ _ _ pair _ =>
      rw [pair] at hnone
      exact Error.raise_ne_ok _ _ hnone.symm

theorem isPresent_of_worded (hv : value.Worded) : ∃ b, isPresent value = .ok b := by
  cases hv with
  | text s => exact ⟨_, rfl⟩
  | list texts => exact ⟨_, rfl⟩

/-- What a rule does not report when texts are validated is one of the ways it misses. -/
theorem foreign_validate {rule : Rule} (hn : name.isKey = true) (hw : name.isWritable = true)
    (hf : format.WordedFormat) (hv : value.Worded) :
    Foreign (rule.validate host name value format).1 e ↔ rule.Misses host name format value e := by
  cases rule with
  | base =>
    refine iff_of_false (not_foreign_ok _ e) ?_
    rintro ⟨⟩
  | required =>
    refine iff_of_false ?_ ?_
    · obtain ⟨b, hb⟩ := isPresent_of_worded hv
      change ¬ Foreign (Value.bool <$> isPresent value) e
      rw [hb]
      exact not_foreign_ok _ e
    · rintro ⟨⟩
  | regex patterns => exact foreign_regex hn hw hf hv.isWritable
  | email =>
    change Foreign (matchesPattern Pattern.email value) e ↔ _
    rw [foreign_matchesPattern hv.isWritable]
    refine iff_of_false ?_ ?_
    · rintro ⟨fault, hc, _⟩
      rw [Pattern.compile_email] at hc
      cases hc
    · rintro ⟨⟩
  | callback callbacks => exact foreign_callback hn hw hf
  | length =>
    refine iff_of_false ?_ ?_
    · change ¬ Foreign (Length.validate name value format) e
      rw [Length.validate_of_isWritable hv.isWritable]
      exact mt foreign_map.mp (not_foreign_bounds hw hf)
    · rintro ⟨⟩
  | compare => exact foreign_compare hw hf hv
  | external cls state =>
    constructor
    · rintro ⟨hraised, hown⟩
      exact .raised hraised hown
    · intro h
      cases h with
      | raised raised foreign => exact ⟨raised, foreign⟩

/-- A rule that is asked about values one after the other misses on one of them. -/
inductive Breaks (host : Host) (name format : Value) : Rule → List Value → Error → Prop where
  | here {rule : Rule} {value : Value} {rest : List Value} {e : Error}
      (missed : rule.Misses host name format value e) :
      Breaks host name format rule (value :: rest) e
  | later {rule : Rule} {value answer : Value} {rest : List Value} {e : Error}
      (answered : (rule.validate host name value format).1 = .ok answer)
      (behind : Breaks host name format (rule.validate host name value format).2 rest e) :
      Breaks host name format rule (value :: rest) e

end Rule

namespace Registry
variable {r : Registry} {name format value : Value} {cls : RuleClass} {rule : Rule}

/-- What the rule of a name is asked about, one after the other. -/
def offered (value : Value) (whole : Bool) : List Value :=
  (if whole then none else collected? value).getD [value]

/-- What escapes from validating: the class of the name is behind a relative path, or its rule misses. -/
inductive Escapes (host : Host) (r : Registry) (name format : Value) (values : List Value) :
    Error → Prop where
  | relative {path : String} (bound : r.targets.find? name = some (.path path))
      (relative : ImportPath.Relative path) : Escapes host r name format values (.misuse .type)
  | broken {rule : Rule} {e : Error} (served : r.ruleOf host name = .ok rule)
      (broken : Rule.Breaks host name format rule values e) :
      Escapes host r name format values e

theorem foreign_classAt {path : String} :
    Foreign (classAt host path) e ↔ ImportPath.Relative path ∧ e = .misuse .type := by
  constructor
  · intro h
    unfold classAt at h
    split at h
    · obtain ⟨rfl, ⟨⟩⟩ := foreign_error.mp h
    · rename_i d hno hd
      obtain ⟨rfl, _⟩ := foreign_error.mp h
      exact (ImportPath.resolveText_eq_error hd).resolve_left fun ⟨fault, hf⟩ => hno fault hf
    · split at h
      · exact absurd h (not_foreign_ok _ e)
      · obtain ⟨rfl, ⟨⟩⟩ := foreign_error.mp h
    · obtain ⟨rfl, ⟨⟩⟩ := foreign_error.mp h
  · rintro ⟨hrel, rfl⟩
    unfold classAt
    rw [ImportPath.resolveText_of_relative hrel]
    exact ⟨rfl, rfl⟩

theorem not_foreign_shared : ¬ Foreign (r.shared host cls) e := by
  unfold shared
  split
  · exact not_foreign_ok _ e
  · split
    · rintro ⟨⟨⟩, ⟨⟩⟩
    · exact not_foreign_ok _ e

/-- Looking a name up reports everything but a relative path. -/
theorem foreign_ruleOf (hn : name.isKey = true) (hw : name.isWritable = true) :
    Foreign (r.ruleOf host name) e ↔ ∃ path, r.targets.find? name = some (.path path) ∧ ImportPath.Relative path ∧
      e = .misuse .type := by
  have hkey : name.needKey = .ok () := Value.needKey_eq_ok.mpr hn
  unfold ruleOf classOf?
  rw [hkey]
  cases ht : r.targets.find? name with
  | none =>
    refine iff_of_false (not_foreign_raise (d := .unknownRule name) rfl ?_) (by simp)
    simp [hw]
  | some target =>
    change Foreign (targetClass host target >>= fun cls => r.shared host cls) e ↔ _
    rw [foreign_bind]
    cases target with
    | ofClass cls =>
      refine iff_of_false ?_ (by simp)
      rintro (h | ⟨_, _, h⟩)
      · exact not_foreign_ok cls e h
      · exact not_foreign_shared h
    | path path =>
      rw [targetClass, foreign_classAt]
      constructor
      · rintro (⟨hrel, rfl⟩ | ⟨_, _, h⟩)
        · exact ⟨path, rfl, hrel, rfl⟩
        · exact absurd h not_foreign_shared
      · rintro ⟨_, ⟨⟩, hrel, rfl⟩
        exact Or.inl ⟨hrel, rfl⟩

section
variable (hn : name.isKey = true) (hw : name.isWritable = true) (hf : format.WordedFormat)
include hn hw hf

theorem foreign_passes (hs : r.shared host cls = .ok rule) (hv : value.Worded) :
    Foreign (outcome (passes host cls name value format) r).1 e ↔
      rule.Misses host name format value e := by
  rw [outcome_passes, hs]
  change Foreign ((rule.validate host name value format).1.map Value.truthy) e ↔ _
  rw [foreign_map, Rule.foreign_validate hn hw hf hv]

theorem foreign_count {values : List Value} (hk : r.Keyed) (hs : r.shared host cls = .ok rule)
    (hv : ∀ value ∈ values, value.Worded) :
    Foreign (outcome (count host cls name format values) r).1 e ↔
      Rule.Breaks host name format rule values e := by
  induction values generalizing r rule with
  | nil =>
    refine iff_of_false (not_foreign_ok 0 e) ?_
    rintro ⟨⟩
  | cons value rest ih =>
    obtain ⟨hvalue, hrest⟩ := List.forall_mem_cons.mp hv
    have hnext := ih (moves_passes host cls name value format r hk).keyed
      (shared_passes host hk hs name value format) hrest
    have hanswer : (outcome (passes host cls name value format) r).1 =
        (rule.validate host name value format).1.map Value.truthy := by
      rw [outcome_passes, hs]
      rfl
    rw [count, fst_outcome_bind, foreign_bind, foreign_passes hn hw hf hs hvalue, hanswer]
    simp only [bind_pure_comp, outcome_map, foreign_map, hnext]
    constructor
    · rintro (hmissed | ⟨_, hok, hbehind⟩)
      · exact .here hmissed
      · cases hval : (rule.validate host name value format).1 with
        | error d =>
          rw [hval] at hok
          cases hok
        | ok answer => exact .later hval hbehind
    · intro h
      cases h with
      | here missed => exact Or.inl missed
      | later answered behind =>
        rw [answered]
        exact Or.inr ⟨_, rfl, behind⟩

/-- Validating texts fails with an error of the library, or by what escapes. -/
theorem foreign_validate (hk : r.Keyed) {whole : Bool}
    (hv : ∀ v ∈ offered value whole, v.Worded) :
    Foreign (outcome (validate host name value format whole) r).1 e ↔
      r.Escapes host name format (offered value whole) e := by
  have ha := moves_getRule (K := fun _ => True) host name r hk
  have hescapes : r.Escapes host name format (offered value whole) e ↔
      (∃ path, r.targets.find? name = some (.path path) ∧ ImportPath.Relative path ∧ e = .misuse .type) ∨
        ∃ rule, r.ruleOf host name = .ok rule ∧
          Rule.Breaks host name format rule (offered value whole) e := by
    constructor
    · intro h
      cases h with
      | relative bound relative => exact Or.inl ⟨_, bound, relative, rfl⟩
      | broken served broken => exact Or.inr ⟨_, served, broken⟩
    · rintro (⟨path, hbound, hrel, rfl⟩ | ⟨rule, hrule, h⟩)
      · exact .relative hbound hrel
      · exact .broken hrule h
  rw [validate, fst_outcome_bind, foreign_bind, outcome_getRule, foreign_ruleOf hn hw, hescapes]
  refine or_congr Iff.rfl (exists_congr fun rule => and_congr_right fun hrule => ?_)
  obtain ⟨_, cls, _, hs⟩ := ruleOf_eq_ok.mp hrule
  obtain rfl := cls_of_shared hk hs
  have ht := (ha.shared rule.cls trivial).trans hs
  unfold offered at hv ⊢
  cases hi : if whole then none else collected? value with
  | none =>
    simp only [hi, Option.getD_none, List.mem_singleton, forall_eq] at hv
    simp only [bind_pure_comp, outcome_map, foreign_map, Option.getD_none,
      foreign_passes hn hw hf ht hv]
    constructor
    · exact fun h => .here h
    · intro h
      cases h with
      | here missed => exact missed
      | later _ behind => cases behind
  | some items =>
    simp only [hi, Option.getD_some] at hv
    simp only [bind_pure_comp, outcome_map, foreign_map, Option.getD_some,
      foreign_count hn hw hf ha.keyed ht hv]

end

end Registry

end FormGuard
