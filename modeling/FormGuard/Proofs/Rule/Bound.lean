import FormGuard.Main
import FormGuard.Proofs.Rule.Length
import Mathlib

/-! Bounds of any shape: where both sides of a length rule answer, and what they report where they do
not. -/
namespace FormGuard

/-- Whatever a computation fails with is a report about the data. -/
abbrev Reports {α : Type} (x : Except Error α) : Prop := FailsAs (fun e => ∃ fault, e = .data fault) x

theorem not_reports_misuse {α : Type} (fault : Misuse) :
    ¬ Reports (Value.misuse fault : Except Error α) := by
  intro h
  obtain ⟨_, hfault⟩ := h _ rfl
  cases hfault

/-- Whatever a computation fails with is a wrong type or a wrong value. -/
abbrev Misshapen {α : Type} (x : Except Error α) : Prop :=
  FailsAs (fun e => e = .misuse .type ∨ e = .misuse .value) x

theorem misshapen_type {α : Type} : Misshapen (Value.misuse .type : Except Error α) :=
  failsAs_error (Or.inl rfl)

theorem misshapen_value {α : Type} : Misshapen (Value.misuse .value : Except Error α) :=
  failsAs_error (Or.inr rfl)

namespace Value

theorem isWritable_int {i : Int} :
    isWritable (.int i) = true ↔ i.natAbs < 10 ^ Text.maxDigits := by
  rw [isWritable, decide_eq_true_eq]
  exact Nat.length_toDigits_le_iff (by decide) (by decide)

theorem misshapen_items (v : Value) : Misshapen v.items := by
  unfold items
  split
  iterate 4 exact failsAs_ok _
  split
  · exact failsAs_ok _
  · exact misshapen_type

theorem misshapen_pair (v : Value) : Misshapen v.pair := by
  refine failsAs_bind (misshapen_items v) fun items => ?_
  split
  · exact failsAs_ok _
  · exact misshapen_value

theorem pair_eq_ok {v low high : Value} :
    v.pair = .ok (low, high) ↔ v.items = .ok [low, high] := by
  unfold pair
  rw [bind_eq_ok]
  constructor
  · rintro ⟨items, hitems, h⟩
    split at h
    · cases h
      exact hitems
    · cases h
  · intro h
    exact ⟨_, h, rfl⟩

/-- Only an infinite double is too large for a whole number. -/
theorem misshapen_toInt {v : Value} (h : ∀ negative, v ≠ .float (.infinite negative)) :
    Misshapen v.toInt := by
  unfold toInt
  split
  · exact failsAs_ok _
  · exact failsAs_ok _
  · exact misshapen_value
  · exact absurd rfl (h _)
  · exact failsAs_ok _
  · split
    · split
      · exact failsAs_ok _
      · exact misshapen_value
    · exact misshapen_type

end Value

namespace Length

variable {name value format : Value} {b : Bounds}

/-- The names that take one bound. -/
def isSingle (name : Value) : Bool := name.same (.text "minlength") || name.same (.text "maxlength")

/-- An infinite double stands where a bound is read. -/
inductive Unbounded (name : Value) : Value → Prop where
  | single (one : isSingle name = true) (negative : Bool) :
    Unbounded name (.float (.infinite negative))
  | low {format high : Value} {negative : Bool} (two : isSingle name = false)
    (both : format.items = .ok [.float (.infinite negative), high]) : Unbounded name format
  | high {format low : Value} {i : Int} {negative : Bool} (two : isSingle name = false)
    (both : format.items = .ok [low, .float (.infinite negative)]) (read : low.toInt = .ok i) :
    Unbounded name format

/-- With one bound the format is read as a number, with two as a pair of them. -/
theorem readBounds_of_isSingle (h : isSingle name = true) (format : Value) :
    ∃ f : Int → Bounds, readBounds name format = f <$> format.toInt := by
  unfold readBounds
  split
  · exact ⟨_, rfl⟩
  · next hmin =>
    rw [isSingle, Bool.not_eq_true _ |>.mp hmin, Bool.false_or] at h
    rw [if_pos h]
    exact ⟨_, rfl⟩

theorem readBounds_of_not_isSingle (h : isSingle name = false) :
    readBounds name format = do
      let (low, high) ← format.pair
      return .between (← low.toInt) (← high.toInt) := by
  rw [isSingle, Bool.or_eq_false_iff] at h
  rw [readBounds, h.1, if_neg Bool.false_ne_true, h.2, if_neg Bool.false_ne_true]

theorem misshapen_readBounds (h : ¬ Unbounded name format) : Misshapen (readBounds name format) := by
  cases hone : isSingle name with
  | true =>
    obtain ⟨f, hf⟩ := readBounds_of_isSingle hone format
    have hint : Misshapen format.toInt := by
      refine Value.misshapen_toInt ?_
      rintro negative rfl
      exact h (.single hone negative)
    rw [hf]
    exact failsAs_map hint f
  | false =>
    rw [readBounds_of_not_isSingle hone]
    refine failsAs_bind_of_ok (Value.misshapen_pair format) ?_
    rintro ⟨low, high⟩ hpair
    have hitems := Value.pair_eq_ok.mp hpair
    refine failsAs_bind_of_ok (Value.misshapen_toInt ?_) fun i hread =>
      failsAs_bind (Value.misshapen_toInt ?_) fun _ => failsAs_ok _
    · rintro negative rfl
      exact h (.low hone hitems)
    · rintro negative rfl
      exact h (.high hone hitems hread)

theorem bounds_of_unbounded (h : Unbounded name format) :
    bounds name format = Value.misuse .overflow := by
  have hread : readBounds name format = Value.misuse .overflow := by
    cases h with
    | single one negative =>
      obtain ⟨f, hf⟩ := readBounds_of_isSingle one (.float (.infinite negative))
      rw [hf]
      rfl
    | low two both =>
      rw [readBounds_of_not_isSingle two, Value.pair_eq_ok.mpr both]
      rfl
    | high two both read =>
      rw [readBounds_of_not_isSingle two, Value.pair_eq_ok.mpr both]
      simp only [Bind.bind, Except.bind, read]
      rfl
  rw [bounds, hread]
  rfl

/-- Bounds that cannot be read are reported. -/
theorem bounds_cases (h : ¬ Unbounded name format) :
    (∃ b, bounds name format = .ok b) ∨
      bounds name format = Error.raise (.data (.notABound name format)) := by
  have hread := misshapen_readBounds h
  unfold bounds
  cases hb : readBounds name format with
  | ok b => exact Or.inl ⟨b, rfl⟩
  | error e =>
    right
    obtain rfl | rfl := hread e hb
    · rfl
    · rfl

/-- The report says the name and the format. -/
theorem isWritable_notABound : (Error.data (.notABound name format)).isWritable = true ↔
    name.isWritable = true ∧ format.isWritable = true := by
  simp [DataFault.named]

theorem validate_of_isWritable (h : value.isWritable = true) :
    validate name value format =
      (fun b : Bounds => .bool (b.holds value.tested.length)) <$> bounds name format := by
  rw [validate, Value.written, if_pos h]
  rfl

theorem validate_of_not_isWritable (h : value.isWritable = false) :
    validate name value format = Value.misuse .value := by
  rw [validate, Value.written, h, if_neg Bool.false_ne_true]
  rfl

theorem check_of_error {e : Error} (h : bounds name format = .error e) :
    Length.check name format = .error e := by
  rw [Length.check, h]
  rfl

/-- What a rule writes can be written: the bounds in the test, its name and the format in the report
that it has none. -/
def Wordable (name format : Value) : Prop :=
  (∀ b, bounds name format = .ok b → b.isWritable = true) ∧
    ((∀ b, bounds name format ≠ .ok b) → name.isWritable = true ∧ format.isWritable = true)

/-- Both sides have an answer, or both report that the format is no bound. -/
theorem answers_of_wordable (host : Host) (h : ¬ Unbounded name format)
    (hvalue : value.isWritable = true) (hformat : Wordable name format) :
    (∃ b check, bounds name format = .ok b ∧
        (Rule.length.validate host name value format).1 =
          .ok (.bool (b.holds value.tested.length)) ∧
        Rule.length.check host name format = .ok check) ∨
      (Rule.length.validate host name value format).1 = .error (.data (.notABound name format)) ∧
        Rule.length.check host name format = .error (.data (.notABound name format)) := by
  change (∃ b check, bounds name format = .ok b ∧ validate name value format = _ ∧
      Length.check name format = _) ∨
    validate name value format = _ ∧ Length.check name format = _
  rw [validate_of_isWritable hvalue]
  obtain ⟨b, hb⟩ | hb := bounds_cases h
  · refine Or.inl ⟨b, ⟨"", Script.placeholder ++ " != '' && " ++ b.test⟩, hb, ?_, ?_⟩
    · rw [hb]
      rfl
    · rw [check_of_bounds hb, Bounds.check, if_pos (hformat.1 b hb)]
  · have hwritten : name.isWritable = true ∧ format.isWritable = true := by
      refine hformat.2 fun b hread => ?_
      exact Error.raise_ne_ok _ b (hb.symm.trans hread)
    rw [Error.raise, Error.worded_of_isWritable (isWritable_notABound.mpr hwritten)] at hb
    refine Or.inr ⟨?_, check_of_error hb⟩
    rw [hb]
    rfl

/-- Both sides have an answer or report about the data, and report alike, exactly where no infinite
double stands for a bound and everything that is written can be. They then report the same fault. An
infinite double ends both in an overflow. -/
theorem reports_alike_iff (host : Host) (name value format : Value) :
    ((Reports (Rule.length.validate host name value format).1 ∧
        Reports (Rule.length.check host name format) ∧
        ((∃ e, (Rule.length.validate host name value format).1 = .error e) ↔
          ∃ e, Rule.length.check host name format = .error e)) ↔
      ¬ Unbounded name format ∧ value.isWritable = true ∧ Wordable name format) ∧
    (¬ Unbounded name format → value.isWritable = true → Wordable name format →
      (∃ b check, bounds name format = .ok b ∧
          (Rule.length.validate host name value format).1 =
            .ok (.bool (b.holds value.tested.length)) ∧
          Rule.length.check host name format = .ok check) ∨
        (Rule.length.validate host name value format).1 =
            .error (.data (.notABound name format)) ∧
          Rule.length.check host name format = .error (.data (.notABound name format))) ∧
    (Unbounded name format → Rule.length.check host name format = Value.misuse .overflow ∧
      (value.isWritable = true →
        (Rule.length.validate host name value format).1 = Value.misuse .overflow)) := by
  refine ⟨⟨?_, ?_⟩, answers_of_wordable host, fun h => ⟨?_, fun hvalue => ?_⟩⟩
  · rintro ⟨hvalidate, hcheck, halike⟩
    have hbounded : ¬ Unbounded name format := by
      intro h
      rw [show Rule.length.check host name format = _ from
        check_of_error (bounds_of_unbounded h)] at hcheck
      exact not_reports_misuse _ hcheck
    have hvalue : value.isWritable = true := by
      by_contra hw
      rw [show (Rule.length.validate host name value format).1 = _ from
        validate_of_not_isWritable (Bool.not_eq_true _ |>.mp hw)] at hvalidate
      exact not_reports_misuse _ hvalidate
    refine ⟨hbounded, hvalue, fun b hb => ?_, fun hmiss => ?_⟩
    · by_contra hw
      rw [show Rule.length.check host name format = _ from check_of_bounds hb, Bounds.check,
        if_neg hw] at hcheck
      exact not_reports_misuse _ hcheck
    · by_contra hw
      obtain ⟨b, hb⟩ | hb := bounds_cases hbounded
      · exact hmiss b hb
      · rw [Error.raise, Error.worded_of_not_isWritable (mt isWritable_notABound.mp hw)] at hb
        rw [show Rule.length.check host name format = _ from check_of_error hb] at hcheck
        exact not_reports_misuse _ hcheck
  · rintro ⟨hbounded, hvalue, hformat⟩
    obtain ⟨b, check, -, hv, hc⟩ | ⟨hv, hc⟩ := answers_of_wordable host hbounded hvalue hformat
    · rw [hv, hc]
      exact ⟨failsAs_ok _, failsAs_ok _, by simp⟩
    · rw [hv, hc]
      exact ⟨failsAs_error ⟨_, rfl⟩, failsAs_error ⟨_, rfl⟩, by simp⟩
  · exact check_of_error (bounds_of_unbounded h)
  · change validate name value format = _
    rw [validate_of_isWritable hvalue, bounds_of_unbounded h]
    rfl

/-- Without a format both sides report that the bound is missing. -/
theorem reports_missing_bound :
    ¬ Unbounded (.text "minlength") .null ∧ (Value.text "a").isWritable = true ∧
    Wordable (.text "minlength") .null ∧
    (Rule.length.validate Host.bare (.text "minlength") (.text "a") .null).1 =
      .error (.data (.notABound (.text "minlength") .null)) ∧
    Rule.length.check Host.bare (.text "minlength") .null =
      .error (.data (.notABound (.text "minlength") .null)) := by
  have hbounded : ¬ Unbounded (.text "minlength") .null := by
    intro h
    cases h with
    | low two => exact absurd two (by decide)
    | high two => exact absurd two (by decide)
  have hvalue : (Value.text "a").isWritable = true := Value.isWritable_text "a"
  have hwordable : Wordable (.text "minlength") .null := by
    refine ⟨?_, fun _ => by simp [Value.isWritable]⟩
    rintro b ⟨⟩
  obtain ⟨b, check, hb, -⟩ | h :=
    (reports_alike_iff Host.bare _ _ _).2.1 hbounded hvalue hwordable
  · cases hb
  · exact ⟨hbounded, hvalue, hwordable, h⟩

/-- An infinite bound ends both sides in an overflow; a bound with more digits than are written is
bound enough on the server, and there is no test with it. -/
theorem reports_unlike :
    (∀ negative, (Rule.length.validate Host.bare (.text "minlength") (.text "a")
          (.float (.infinite negative))).1 = Value.misuse .overflow ∧
      Rule.length.check Host.bare (.text "minlength") (.float (.infinite negative)) =
        Value.misuse .overflow) ∧
    (Rule.length.validate Host.bare (.text "minlength") (.text "a")
        (.int (10 ^ Text.maxDigits : Nat))).1 = .ok (.bool false) ∧
      Rule.length.check Host.bare (.text "minlength") (.int (10 ^ Text.maxDigits : Nat)) =
        Value.misuse .value := by
  have hbounds := bounds_of_writes (.least (10 ^ Text.maxDigits : Nat))
  refine ⟨fun negative => ?_, ?_, ?_⟩
  · have hinfinite := bounds_of_unbounded (@Unbounded.single (.text "minlength") rfl negative)
    refine ⟨?_, check_of_error hinfinite⟩
    refine (validate_of_isWritable (Value.isWritable_text "a")).trans ?_
    rw [hinfinite]
    rfl
  · have hlarge : 1 < 10 ^ Text.maxDigits := Nat.one_lt_pow (by decide) (by decide)
    have hlength : "a".length = 1 := by decide
    refine (validate_of_bounds hbounds "a").trans ?_
    rw [Bounds.holds, reaches, hlength, decide_eq_false (by omega), decide_eq_false (by omega)]
    rfl
  · have hwide : (Bounds.least (10 ^ Text.maxDigits : Nat)).isWritable = false := by
      rw [Bounds.isWritable, Bool.eq_false_iff, Ne, Value.isWritable_int]
      exact Nat.lt_irrefl _
    refine (check_of_bounds hbounds).trans ?_
    rw [Bounds.check, hwide, if_neg Bool.false_ne_true]

end Length

end FormGuard
