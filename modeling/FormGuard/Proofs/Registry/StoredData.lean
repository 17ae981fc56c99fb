import FormGuard.Main
import FormGuard.Proofs.Registry.Run
import Mathlib

/-! Stored patterns and functions: the last accepted registration of a name decides its verdicts. -/
namespace FormGuard

namespace Rule
variable {host : Host} {rule after : Rule} {name data owner : Value} {notes : List Note}

theorem add_of_regex (hc : rule.cls = .regex)
    (h : rule.add host name data owner = .ok (after, notes)) :
    ∃ patterns p program, rule = .regex patterns ∧ patternOf? data = some p ∧
      p.compile = .ok program ∧ after = .regex (patterns.insert name p) := by
  cases rule with
  | regex patterns =>
    obtain ⟨⟨stored, _⟩, hs, h⟩ := bind_eq_ok.mp h
    obtain ⟨p, hp, hs⟩ := bind_eq_ok.mp hs
    obtain ⟨_, _, hs⟩ := bind_eq_ok.mp hs
    cases h
    cases hs
    unfold Patterns.readable at hp
    cases hd : patternOf? data with
    | none => simp [hd] at hp
    | some q =>
      rw [hd] at hp
      cases hq : q.compile with
      | error f => cases f <;> simp [hq] at hp
      | ok program =>
        obtain rfl : q = p := by simpa [hq] using hp
        exact ⟨patterns, q, program, rfl, rfl, hq, rfl⟩
  | _ => cases hc

theorem add_of_callback (hc : rule.cls = .callback)
    (h : rule.add host name data owner = .ok (after, notes)) :
    ∃ callbacks f, rule = .callback callbacks ∧
      (⟨data, owner⟩ : Callback).resolve host = .ok f ∧
      after = .callback (callbacks.insert name ⟨data, owner⟩) := by
  cases rule with
  | callback callbacks =>
    obtain ⟨⟨stored, _⟩, hs, h⟩ := bind_eq_ok.mp h
    obtain ⟨_, hu, hs⟩ := bind_eq_ok.mp hs
    obtain ⟨_, _, hs⟩ := bind_eq_ok.mp hs
    cases h
    cases hs
    have hf : ∃ f, (⟨data, owner⟩ : Callback).resolve host = .ok f := by
      unfold Callbacks.usable at hu
      unfold Callback.resolve Callback.method?
      cases hn : owner.isNull with
      | true => exact ⟨data, rfl⟩
      | false =>
        cases hm : data.asText? with
        | none => exact ⟨data, rfl⟩
        | some method =>
          cases hf : host.member? owner method with
          | none => simp [hn, hm, hf] at hu
          | some f => exact ⟨f, by simp [hf]⟩
    obtain ⟨f, hf⟩ := hf
    exact ⟨callbacks, f, rfl, hf, rfl⟩
  | _ => cases hc

end Rule

namespace Registry
variable {host : Host} {r s t : Registry} {name other : Value}

/-- The pattern stored under a name. -/
def patternOf? (host : Host) (r : Registry) (name : Value) : Option Pattern :=
  match r.shared host .regex with
  | .ok (.regex patterns) => patterns.find? name
  | _ => none

/-- The function stored under a name. -/
def callbackOf? (host : Host) (r : Registry) (name : Value) : Option Callback :=
  match r.shared host .callback with
  | .ok (.callback callbacks) => callbacks.find? name
  | _ => none

/-- What one registry holds for a name, another one holds too. -/
structure Holds (host : Host) (name : Value) (r s : Registry) : Prop where
  keyed : s.Keyed
  classOf : ∀ found, r.classOf? host name = some found → s.classOf? host name = some found
  pattern : s.patternOf? host name = r.patternOf? host name
  callback : s.callbackOf? host name = r.callbackOf? host name

theorem Holds.refl (hr : r.Keyed) : Holds host name r r := ⟨hr, fun _ h => h, rfl, rfl⟩

theorem Holds.trans (hrs : Holds host name r s) (hst : Holds host name s t) : Holds host name r t :=
  ⟨hst.keyed, fun found h => hst.classOf found (hrs.classOf found h),
    hst.pattern.trans hrs.pattern, hst.callback.trans hrs.callback⟩

theorem patternOf?_congr (h : s.shared host .regex = r.shared host .regex) :
    s.patternOf? host name = r.patternOf? host name := by
  rw [patternOf?, patternOf?, h]

theorem callbackOf?_congr (h : s.shared host .callback = r.shared host .callback) :
    s.callbackOf? host name = r.callbackOf? host name := by
  rw [callbackOf?, callbackOf?, h]

theorem classOf?_congr (h : s.targets = r.targets) :
    s.classOf? host name = r.classOf? host name := by
  rw [classOf?, classOf?, h]

theorem holds_of_looks (hr : r.Keyed) (h : Looks host (Rule.KeepsState host) r s) :
    Holds host name r s := by
  have ha := h hr
  exact ⟨ha.keyed, fun _ hf => (ha.classOf name).trans hf,
    patternOf?_congr (ha.shared _ (Rule.keepsState_of_ne_external (by simp))),
    callbackOf?_congr (ha.shared _ (Rule.keepsState_of_ne_external (by simp)))⟩

theorem holds_bound (hr : r.Keyed) {target : Target} (h : r.canBind other target = .ok ())
    (kind : RuleKind) : Holds host name r (r.bound other target kind) :=
  ⟨hr, fun _ hf => classOf?_bound_of_some h hf, rfl, rfl⟩

/-- Data for another name is stored beside what there is. -/
theorem holds_of_stored {cls : RuleClass} {kind : RuleKind} {data owner : Value} (hr : r.Keyed)
    (h : Stored host other cls kind data owner r s) (hn : ¬ other.same name = true) :
    Holds host name r s := by
  obtain ⟨before, after, notes, hb, ha, hs⟩ := h.shared
  have hc := cls_of_shared hr hb
  refine ⟨h.keyed, ?_, ?_, ?_⟩
  · intro found hf
    rw [classOf?_congr (s := s) (r := r.bound other (.ofClass cls) kind) h.targets]
    exact classOf?_bound_of_some h.canBind hf
  · by_cases he : cls = .regex
    · subst he
      obtain ⟨patterns, p, _, rfl, _, _, rfl⟩ := Rule.add_of_regex hc ha
      simp [patternOf?, hs, hb, Table.find?_insert, hn]
    · exact patternOf?_congr ((hs _).trans (if_neg (Ne.symm he)))
  · by_cases he : cls = .callback
    · subst he
      obtain ⟨callbacks, f, rfl, _, rfl⟩ := Rule.add_of_callback hc ha
      simp [callbackOf?, hs, hb, Table.find?_insert, hn]
    · exact callbackOf?_congr ((hs _).trans (if_neg (Ne.symm he)))

/-- What an accepted registration brings. -/
structure Registration where
  kind : Value
  data : Value
  owner : Value
  deriving DecidableEq

/-- What a registry serves under a name by a registration with data: a pattern that compiles, or a
function that is there. -/
structure Serves (host : Host) (r : Registry) (name : Value) (g : Registration) : Prop where
  isKey : name.isKey = true
  pattern : dataKind? g.kind = some (.regex, .regex) →
    r.classOf? host name = some (.ok .regex) ∧
    ∃ p program, Rule.patternOf? g.data = some p ∧ p.compile = .ok program ∧
      r.patternOf? host name = some p
  callback : ∀ kind, dataKind? g.kind = some (kind, .callback) →
    r.classOf? host name = some (.ok .callback) ∧
    (∃ f, (⟨g.data, g.owner⟩ : Callback).resolve host = .ok f) ∧
    r.callbackOf? host name = some ⟨g.data, g.owner⟩

theorem Serves.of_holds {g : Registration} (h : Serves host r name g)
    (hh : Holds host name r s) : Serves host s name g := by
  refine ⟨h.isKey, ?_, ?_⟩
  · intro hk
    obtain ⟨hc, p, program, hp, hq, hs⟩ := h.pattern hk
    exact ⟨hh.classOf _ hc, p, program, hp, hq, hh.pattern.trans hs⟩
  · intro kind hk
    obtain ⟨hc, hf, hs⟩ := h.callback kind hk
    exact ⟨hh.classOf _ hc, hf, hh.callback.trans hs⟩

theorem serves_of_stored {cls : RuleClass} {k : RuleKind} {g : Registration} (hr : r.Keyed)
    (hk : dataKind? g.kind = some (k, cls)) (h : Stored host other cls k g.data g.owner r s)
    (hn : other.same name = true) : Serves host s name g := by
  obtain ⟨before, after, notes, hb, ha, hs⟩ := h.shared
  have hc := cls_of_shared hr hb
  have hclass : s.classOf? host name = some (.ok cls) := by
    rw [classOf?_congr (s := s) (r := r.bound other (.ofClass cls) k) h.targets, classOf?_bound,
      if_pos hn]
    rfl
  have hkey : name.isKey = true := by
    obtain ⟨_, hkey, _⟩ := bind_eq_ok.mp h.canBind
    rw [← Value.isKey_congr hn]
    exact Value.needKey_eq_ok.mp hkey
  refine ⟨hkey, ?_, ?_⟩
  · intro hg
    obtain ⟨rfl, rfl⟩ : k = .regex ∧ cls = .regex := by simpa [hk] using hg
    obtain ⟨patterns, p, program, rfl, hp, hq, rfl⟩ := Rule.add_of_regex hc ha
    exact ⟨hclass, p, program, hp, hq, by simp [patternOf?, hs, Table.find?_insert, hn]⟩
  · intro kind hg
    obtain ⟨rfl, rfl⟩ : k = kind ∧ cls = .callback := by simpa [hk] using hg
    obtain ⟨callbacks, f, rfl, hf, rfl⟩ := Rule.add_of_callback hc ha
    exact ⟨hclass, ⟨f, hf⟩, by simp [callbackOf?, hs, Table.find?_insert, hn]⟩

/-- What an operation brings under a name if it is accepted. -/
def Operation.registration? (host : Host) (name : Value) (r : Registry) :
    Operation → Option Registration
  | .register other kind data owner =>
    if other.same name && (Operation.register other kind data owner).accepted host r then
      some ⟨kind, data, owner⟩
    else none
  | _ => none

/-- The last accepted registration of a name in a run. -/
def lastAccepted (host : Host) (name : Value) : List Operation → Registry → Option Registration
  | [], _ => none
  | op :: ops, r =>
    match lastAccepted host name ops (op.next host r) with
    | some g => some g
    | none => op.registration? host name r

/-- No accepted registration of a run puts an instance in the place of a shared one. -/
def InstanceFree (host : Host) : List Operation → Registry → Prop
  | [], _ => True
  | op :: ops, r =>
    (op.bringsInstance → op.accepted host r = false) ∧ InstanceFree host ops (op.next host r)

theorem serves_without_data {target : Target} {g : Registration} (hk : dataKind? g.kind = none)
    (hb : r.canBind other target = .ok ()) (hn : other.same name = true) (s : Registry) :
    Serves host s name g := by
  obtain ⟨_, hkey, _⟩ := bind_eq_ok.mp hb
  have hkey := Value.needKey_eq_ok.mp hkey
  exact ⟨(Value.isKey_congr hn).symm.trans hkey, by simp [hk], by simp [hk]⟩

/-- The entry of a registration: what is accepted for the name is served from then on, and anything
else leaves what is held for it. -/
theorem enter_cases (name : Value) (hr : r.Keyed) (other kind data owner : Value)
    (hi : (Operation.register other kind data owner).bringsInstance →
      (outcome (enter host other kind data owner) r).1.isOk = false) :
    (other.same name = true ∧ (outcome (enter host other kind data owner) r).1.isOk = true ∧
      Serves host (outcome (enter host other kind data owner) r).2 name ⟨kind, data, owner⟩) ∨
    (¬ (other.same name = true ∧ (outcome (enter host other kind data owner) r).1.isOk = true) ∧
      Holds host name r (outcome (enter host other kind data owner) r).2) := by
  cases hk : dataKind? kind with
  | some found =>
    obtain ⟨k, cls⟩ := found
    rw [enter_of_data hk]
    rcases registerData_cases host hr other cls k data owner with
      ⟨s, ho, hs⟩ | ⟨e, s, ho, hs⟩
    · rw [ho]
      by_cases hn : other.same name = true
      · exact Or.inl ⟨hn, rfl, serves_of_stored hr hk hs hn⟩
      · exact Or.inr ⟨fun h => hn h.1, holds_of_stored hr hs hn⟩
    · rw [ho]
      exact Or.inr ⟨by simp [Except.isOk, Except.toBool], holds_of_looks hr fun _ => hs _⟩
  | none =>
    rcases enter_target_cases hk host other data owner r with
      ⟨e, ho⟩ | ⟨target, _, _, hb, ho⟩ | ⟨cls, held, _, rfl, _, _, ho⟩
    · rw [ho]
      exact Or.inr ⟨by simp [Except.isOk, Except.toBool], Holds.refl hr⟩
    · rw [ho]
      by_cases hn : other.same name = true
      · exact Or.inl ⟨hn, rfl, serves_without_data hk hb hn _⟩
      · exact Or.inr ⟨fun h => hn h.1, holds_bound hr hb .ofClass⟩
    · have hi := hi hk
      rw [ho] at hi
      cases hi

/-- One operation: an accepted registration of the name is served from then on, and anything else
leaves what is held for it. -/
theorem next_cases (name : Value) (hr : r.Keyed) {op : Operation}
    (hi : op.bringsInstance → op.accepted host r = false) :
    (∃ g, op.registration? host name r = some g ∧ Serves host (op.next host r) name g) ∨
      op.registration? host name r = none ∧ Holds host name r (op.next host r) := by
  cases op with
  | register other kind data owner =>
    obtain ⟨hfst, notes, hsnd⟩ := outcome_register host other kind data owner r
    have hacc : (Operation.register other kind data owner).accepted host r =
        (outcome (enter host other kind data owner) r).1.isOk := congrArg Except.isOk hfst
    rw [hacc] at hi
    rw [Operation.next, Operation.perform, hsnd, Operation.registration?, hacc]
    rcases enter_cases name hr other kind data owner hi with ⟨hn, hok, hs⟩ | ⟨hno, hh⟩
    · left
      exact ⟨⟨kind, data, owner⟩, by simp [hn, hok], hs.isKey, hs.pattern, hs.callback⟩
    · right
      exact ⟨if_neg (by simpa using hno), hh.keyed, hh.classOf, hh.pattern, hh.callback⟩
  | _ => exact Or.inr ⟨rfl, holds_of_looks hr (looks_next (by simp) r)⟩

/-- Along a run, the last accepted registration of a name is served, and without one what was held
for it stays. -/
theorem run_cases (name : Value) {ops : List Operation} (hr : r.Keyed) (hi : InstanceFree host ops r) :
    (∃ g, lastAccepted host name ops r = some g ∧ Serves host (run host ops r) name g) ∨
      lastAccepted host name ops r = none ∧ Holds host name r (run host ops r) := by
  induction ops generalizing r with
  | nil => exact Or.inr ⟨rfl, Holds.refl hr⟩
  | cons op ops ih =>
    rw [lastAccepted, run]
    rcases ih (keyed_next op hr) hi.2 with ⟨g, hg, hs⟩ | ⟨hg, hh⟩
    · rw [hg]
      exact Or.inl ⟨g, rfl, hs⟩
    · rw [hg]
      rcases next_cases name hr hi.1 with ⟨g, ho, hs⟩ | ⟨ho, hn⟩
      · exact Or.inl ⟨g, ho, hs.of_holds hh⟩
      · exact Or.inr ⟨ho, hn.trans hh⟩

theorem ruleOf_of_patternOf? {p : Pattern} (hkey : name.isKey = true)
    (hc : r.classOf? host name = some (.ok .regex)) (hp : r.patternOf? host name = some p) :
    ∃ patterns, r.ruleOf host name = .ok (.regex patterns) ∧ patterns.find? name = some p := by
  unfold patternOf? at hp
  split at hp
  · rename_i patterns hs
    exact ⟨patterns, ruleOf_eq_ok.mpr ⟨hkey, .regex, hc, hs⟩, hp⟩
  · cases hp

theorem ruleOf_of_callbackOf? {c : Callback} (hkey : name.isKey = true)
    (hc : r.classOf? host name = some (.ok .callback)) (hp : r.callbackOf? host name = some c) :
    ∃ callbacks, r.ruleOf host name = .ok (.callback callbacks) ∧ callbacks.find? name = some c := by
  unfold callbackOf? at hp
  split at hp
  · rename_i callbacks hs
    exact ⟨callbacks, ruleOf_eq_ok.mpr ⟨hkey, .callback, hc, hs⟩, hp⟩
  · cases hp

/-- A single value is offered to the rule of the name as it is. -/
theorem outcome_validate_of_ruleOf (hr : r.Keyed) {rule : Rule}
    (hrule : r.ruleOf host name = .ok rule) {value : Value} (hv : collected? value = none)
    (format : Value) (whole : Bool) :
    (outcome (validate host name value format whole) r).1 =
      (rule.accepts host name format value).map .single := by
  have hone : (if whole then none else collected? value) = none := by simp [hv]
  rw [outcome_validate hr (by simp [hone]), verdictOf, hrule, hone]
  change (rule.accepts host name format value >>= fun b => pure (Verdict.single b)) = _
  cases rule.accepts host name format value <;> rfl

theorem accepts_of_callback {callbacks : Callbacks} {c : Callback} {f : Value}
    (hkey : name.isKey = true) (hf : callbacks.find? name = some c) (hc : c.resolve host = .ok f)
    (format value : Value) :
    (Rule.callback callbacks).accepts host name format value =
      (host.apply f (Callback.arguments value format)).map Value.truthy := by
  have hn := Value.needKey_eq_ok (u := ()).mpr hkey
  rw [Rule.accepts, Rule.validate, Callbacks.validate, hn, hf]
  change (Except.map Value.truthy (c.resolve host >>= fun f =>
    Callbacks.verdict (host.apply f (Callback.arguments value format)))) = _
  rw [hc]
  change (Callbacks.verdict (host.apply f (Callback.arguments value format))).map Value.truthy = _
  cases host.apply f (Callback.arguments value format) <;> rfl

theorem check_of_pattern (host : Host) {patterns : Patterns} {p : Pattern} (hkey : name.isKey = true)
    (hf : patterns.find? name = some p) (format : Value) :
    (Rule.regex patterns).check host name format = .ok (Rule.patternCheck p) := by
  have hn := Value.needKey_eq_ok (u := ()).mpr hkey
  rw [Rule.check, Patterns.check, Patterns.patternFor, hn, hf]
  rfl

/-- A pattern that compiles is searched in every value that can be written. -/
theorem search_of_isWritable {p : Pattern} {program : Regex.Program} {value : Value}
    (hp : p.compile = .ok program) (hw : value.isWritable = true) :
    ∃ b, Rule.search p value = .ok b := by
  refine ⟨program.expr.search value.tested.toList, ?_⟩
  rw [Rule.search, Value.written, if_pos hw]
  change Rule.liftFault (p.search value.tested) = _
  rw [Pattern.search, hp]
  rfl

/-- The last accepted registration of a name decides: its pattern is searched in every single value
and stands as its literal in the browser, and its function, which is there, answers for the value,
with the format where one is given. A search has an answer wherever the value can be written. -/
theorem lastAccepted_decides {ops : List Operation} (hi : InstanceFree host ops empty)
    {kind data owner : Value} (h : lastAccepted host name ops empty = some ⟨kind, data, owner⟩) :
    (kindWord kind = .ok "regex" → ∃ p, Rule.patternOf? data = some p ∧
      (∀ value format whole, collected? value = none →
        (outcome (validate host name value format whole) (run host ops empty)).1 =
          (Rule.search p value).map .single ∧
        (value.isWritable = true → ∃ b, Rule.search p value = .ok b)) ∧
      ∀ format, ∃ c, (outcome (check host name format) (run host ops empty)).1 = .ok c ∧
        c.setup = "  var regex = " ++ p.literal ++ ";\n") ∧
    (kindWord kind = .ok "callback" ∨ kindWord kind = .ok "function" →
      ∃ f, (⟨data, owner⟩ : Callback).resolve host = .ok f ∧
      ∀ value format whole, collected? value = none →
        (outcome (validate host name value format whole) (run host ops empty)).1 =
          (host.apply f (if format.isNull then [value] else [value, format])).map
            fun answer => .single answer.truthy) := by
  have hr : (run host ops empty).Keyed := keyed_run keyed_empty
  rcases run_cases name keyed_empty hi with ⟨g, hg, hs⟩ | ⟨hg, _⟩
  · obtain rfl : g = ⟨kind, data, owner⟩ := by simpa [hg] using h
    constructor
    · intro hk
      obtain ⟨hc, p, program, hp, hq, hstored⟩ := hs.pattern (by simp only [dataKind?, hk]; rfl)
      obtain ⟨patterns, hrule, hf⟩ := ruleOf_of_patternOf? hs.isKey hc hstored
      refine ⟨p, hp, ?_, ?_⟩
      · intro value format whole hv
        rw [outcome_validate_of_ruleOf hr hrule hv, Rule.accepts_of_pattern host hs.isKey hf]
        exact ⟨rfl, search_of_isWritable hq⟩
      · intro format
        refine ⟨Rule.patternCheck p, ?_, rfl⟩
        rw [outcome_check, hrule]
        exact check_of_pattern host hs.isKey hf format
    · intro hk
      have hd : ∃ k, dataKind? kind = some (k, .callback) := by
        rcases hk with hk | hk <;> exact ⟨_, by simp only [dataKind?, hk]; rfl⟩
      obtain ⟨k, hd⟩ := hd
      obtain ⟨hc, ⟨f, hf⟩, hstored⟩ := hs.callback k hd
      obtain ⟨callbacks, hrule, hfind⟩ := ruleOf_of_callbackOf? hs.isKey hc hstored
      refine ⟨f, hf, ?_⟩
      intro value format whole hv
      rw [outcome_validate_of_ruleOf hr hrule hv, accepts_of_callback hs.isKey hfind hf,
        Callback.arguments]
      cases host.apply f (if format.isNull then [value] else [value, format]) <;> rfl
  · simp [hg] at h

/-- A pattern, one that does not compile under the same name, and one under another name. -/
def zipRun : List Operation :=
  [.register (.text "zip") (.kind .regex) (.text "^[0-9]+$") .null,
    .register (.text "zip") (.kind .regex) (.text "(") .null,
    .register (.text "word") (.kind .regex) (.text "^[a-z]+$") .null,
    .validate (.text "word") (.text "abc") .null false]

theorem lastAccepted_decides_zip :
    InstanceFree Host.bare zipRun empty ∧
    lastAccepted Host.bare (.text "zip") zipRun empty =
      some ⟨.kind .regex, .text "^[0-9]+$", .null⟩ ∧
    ∀ value format whole, collected? value = none →
      (outcome (validate Host.bare (.text "zip") value format whole)
        (run Host.bare zipRun empty)).1 =
        (Rule.search (Pattern.parse "^[0-9]+$") value).map .single ∧
      (value.isWritable = true → ∃ b, Rule.search (Pattern.parse "^[0-9]+$") value = .ok b) := by
  have hi : InstanceFree Host.bare zipRun empty := by
    simp [zipRun, InstanceFree, Operation.bringsInstance]
  have hl : lastAccepted Host.bare (.text "zip") zipRun empty =
      some ⟨.kind .regex, .text "^[0-9]+$", .null⟩ := by decide +kernel
  obtain ⟨p, hp, hv, _⟩ := (lastAccepted_decides hi hl).1 rfl
  obtain rfl : Pattern.parse "^[0-9]+$" = p := by simpa [Rule.patternOf?, Value.asText?] using hp
  exact ⟨hi, hl, hv⟩

end Registry

end FormGuard
