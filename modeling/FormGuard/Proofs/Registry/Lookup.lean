import FormGuard.Proofs.Action
import FormGuard.Registry

/-! Looking rules up: what serves a name, and what looking up and asking leave as it was. -/
namespace FormGuard

namespace Rule
variable {host : Host} {cls : RuleClass} {rule : Rule}

theorem cls_of_make {arguments : List Value} (h : make host cls arguments = .ok rule) :
    rule.cls = cls := by
  cases cls with
  | external c =>
    obtain ⟨state, _, hr⟩ := bind_eq_ok.mp h
    cases hr
    rfl
  | _ =>
    cases arguments with
    | nil => cases h; rfl
    | cons a rest => cases h

@[simp] theorem cls_ofHeld (cls : RuleClass) (held : Value) : (ofHeld cls held).cls = cls := by
  cases cls <;> rfl

theorem cls_validate (host : Host) (rule : Rule) (name value format : Value) :
    (rule.validate host name value format).2.cls = rule.cls := by
  cases rule <;> rfl

/-- Asking an instance of the class never changes it. -/
def KeepsState (host : Host) (cls : RuleClass) : Prop :=
  ∀ rule : Rule, rule.cls = cls →
    ∀ name value format, (rule.validate host name value format).2 = rule

/-- Only classes of the using program can have instances that change. -/
theorem keepsState_of_ne_external (h : ∀ c, cls ≠ .external c) : KeepsState host cls := by
  rintro rule rfl name value format
  cases rule with
  | external c state => exact absurd rfl (h c)
  | _ => rfl

/-- Whether a rule accepts a value under a name. -/
def accepts (host : Host) (rule : Rule) (name format value : Value) : Except Error Bool :=
  (rule.validate host name value format).1.map Value.truthy

theorem truthy_matchesPattern (p : Pattern) (value : Value) :
    (matchesPattern p value).map Value.truthy = search p value := by
  rw [matchesPattern]
  cases search p value <;> rfl

/-- A stored pattern answers for its name, whatever the format. -/
theorem accepts_of_pattern (host : Host) {name : Value} {patterns : Patterns} {p : Pattern}
    (hkey : name.isKey = true) (hf : patterns.find? name = some p) (format value : Value) :
    (Rule.regex patterns).accepts host name format value = search p value := by
  have hn := Value.needKey_eq_ok (u := ()).mpr hkey
  have hp : patterns.patternFor name format = .ok p := by
    rw [Patterns.patternFor, hn, hf]
    rfl
  rw [Rule.accepts, Rule.validate, Patterns.validate, hp]
  exact truthy_matchesPattern p value

/-- How many values a rule accepts, asked one after the other. -/
def countAccepted (host : Host) (rule : Rule) (name format : Value) :
    List Value → Except Error Nat
  | [] => .ok 0
  | value :: rest => do
    let first ← rule.accepts host name format value
    return (if first then 1 else 0) + (← countAccepted host rule name format rest)

end Rule

/-- The classes of the using program keep nothing between two questions. -/
def Host.Stateless (host : Host) : Prop :=
  ∀ cls state name value format, (host.validate cls state name value format).2 = state

theorem Host.Stateless.keepsState {host : Host} (h : host.Stateless) (cls : RuleClass) :
    Rule.KeepsState host cls := by
  rintro rule rfl name value format
  cases rule with
  | external c state => exact congrArg (Rule.external c) (h c state name value format)
  | _ => rfl

namespace Registry
variable {host : Host} {r s : Registry} {name : Value} {cls : RuleClass} {rule : Rule}

/-- Every instance is kept under its own class. -/
def Keyed (r : Registry) : Prop := ∀ cls rule, r.instance? cls = some rule → rule.cls = cls

/-- The class at an import path. -/
def classAt (host : Host) (path : String) : Except Error RuleClass :=
  match ImportPath.resolveText host path with
  | .error (.notFound f) => .error (.registration (.unimportable path f))
  | .error e => .error e
  | .ok (.ruleClass cls) =>
    if cls.isRule then .ok cls else .error (.registration (.notARuleClass path))
  | .ok _ => .error (.registration (.notARuleClass path))

/-- The class that a target stands for, whether it was looked for already or not. -/
def targetClass (host : Host) : Target → Except Error RuleClass
  | .ofClass cls => .ok cls
  | .path path => classAt host path

def classOf? (host : Host) (r : Registry) (name : Value) : Option (Except Error RuleClass) :=
  (r.targets.find? name).map (targetClass host)

/-- The instance that serves a class: the one there is, or else a new one. -/
def shared (host : Host) (r : Registry) (cls : RuleClass) : Except Error Rule :=
  match r.instance? cls with
  | some rule => .ok rule
  | none =>
    match Rule.make host cls [] with
    | .error e => .error (.registration (.construction cls.name e.message))
    | .ok rule => .ok rule

/-- The rule that serves a name. -/
def ruleOf (host : Host) (r : Registry) (name : Value) : Except Error Rule := do
  name.needKey
  match r.classOf? host name with
  | none => throw (.worded (.unknownRule name))
  | some found => r.shared host (← found)

/-- The verdict of the rule that serves a name. -/
def verdictOf (host : Host) (r : Registry) (name value format : Value) (whole : Bool) :
    Except Error Verdict := do
  let rule ← r.ruleOf host name
  match if whole then none else collected? value with
  | some items => return .several (← rule.countAccepted host name format items)
  | none => return .single (← rule.accepts host name format value)

/-- Binds every name bound to a path to the class at it. -/
def settle (path : String) (cls : RuleClass) (r : Registry) : Registry :=
  { r with targets := r.targets.map fun _ target =>
      if target = .path path then .ofClass cls else target }

/-- Keeps an instance in the place of the one of its class. -/
def put (rule : Rule) (r : Registry) : Registry :=
  { r with instances := (rule.cls, rule) :: r.instances.filter fun entry => entry.1 != rule.cls }

theorem lookup_filter_ne (entries : List (RuleClass × Rule)) {a b : RuleClass} (h : b ≠ a) :
    (entries.filter fun entry => entry.1 != a).lookup b = entries.lookup b := by
  induction entries with
  | nil => rfl
  | cons entry rest ih =>
    obtain ⟨c, rule⟩ := entry
    by_cases hc : c = a
    · subst hc
      have hb : (b == c) = false := beq_false_of_ne h
      simp [ih, List.lookup_cons, hb]
    · simp [hc, ih, List.lookup_cons]

theorem outcome_putInstance (rule : Rule) (r : Registry) :
    outcome (putInstance rule) r = (.ok (), r.put rule) := rfl

theorem instance?_put (rule : Rule) (r : Registry) (cls : RuleClass) :
    (r.put rule).instance? cls = if cls = rule.cls then some rule else r.instance? cls := by
  by_cases h : cls = rule.cls
  · simp [put, instance?, h]
  · have hb : (cls == rule.cls) = false := by simpa using h
    simp [put, instance?, List.lookup_cons, lookup_filter_ne r.instances h, h, hb]

theorem keyed_put (h : r.Keyed) (rule : Rule) : (r.put rule).Keyed := by
  intro cls other ho
  rw [instance?_put] at ho
  split at ho
  · rename_i hc
    cases ho
    exact hc.symm
  · exact h cls other ho

/-- Two registries serve every name by the same class, and the classes of interest by the same
instances. -/
structure Agree (host : Host) (K : RuleClass → Prop) (r s : Registry) : Prop where
  keyed : s.Keyed
  keys : s.targets.keys = r.targets.keys
  kinds : s.kinds = r.kinds
  classOf : ∀ name, s.classOf? host name = r.classOf? host name
  shared : ∀ cls, K cls → s.shared host cls = r.shared host cls

/-- What looking up may do to a registry. -/
def Looks (host : Host) (K : RuleClass → Prop) (r s : Registry) : Prop := r.Keyed → Agree host K r s

variable {K : RuleClass → Prop}

instance : Std.Refl (Looks host K) where
  refl _ h := ⟨h, rfl, rfl, fun _ => rfl, fun _ _ => rfl⟩

instance : IsTrans Registry (Looks host K) where
  trans _ _ _ hrs hst h := by
    have a := hrs h
    have b := hst a.keyed
    exact ⟨b.keyed, b.keys.trans a.keys, b.kinds.trans a.kinds,
      fun name => (b.classOf name).trans (a.classOf name),
      fun cls hc => (b.shared cls hc).trans (a.shared cls hc)⟩

theorem Agree.contains (h : Agree host K r s) (name : Value) :
    s.targets.contains name = r.targets.contains name := by
  have hc := congrArg Option.isSome (h.classOf name)
  simpa only [classOf?, Option.isSome_map, Table.contains] using hc

/-- What is done to a registry that leaves every instance under its class and every name registered. -/
def Keeps (r s : Registry) : Prop :=
  r.Keyed → s.Keyed ∧ ∀ name, r.targets.contains name = true → s.targets.contains name = true

theorem keeps_of_looks (h : Looks host K r s) : r.Keeps s := by
  intro hr
  refine ⟨(h hr).keyed, fun name hc => ?_⟩
  rw [(h hr).contains name, hc]

theorem cls_of_shared (hr : r.Keyed) (h : r.shared host cls = .ok rule) : rule.cls = cls := by
  unfold shared at h
  split at h
  · rename_i hf
    cases h
    exact hr cls rule hf
  · split at h
    · cases h
    · rename_i made hm
      cases h
      exact Rule.cls_of_make hm

theorem shared_put (rule : Rule) (r : Registry) (cls : RuleClass) :
    (r.put rule).shared host cls = if cls = rule.cls then .ok rule else r.shared host cls := by
  by_cases h : cls = rule.cls <;> simp [shared, instance?_put, h]

theorem looks_note (notes : List Note) :
    Looks host K r { r with notes := r.notes ++ notes } :=
  fun h => ⟨h, rfl, rfl, fun _ => rfl, fun _ _ => rfl⟩

/-- Putting an instance back changes nothing where its class is not of interest or it is the one
that was there. -/
theorem looks_put (h : r.Keyed → K rule.cls → r.shared host rule.cls = .ok rule) :
    Looks host K r (r.put rule) := by
  intro hr
  refine ⟨keyed_put hr rule, rfl, rfl, fun _ => rfl, ?_⟩
  intro cls hc
  rw [shared_put]
  split
  · rename_i he
    rw [he, h hr (he ▸ hc)]
  · rfl

theorem looks_settle {path : String} (h : classAt host path = .ok cls) :
    Looks host K r (r.settle path cls) := by
  intro hr
  refine ⟨hr, Table.keys_map _ _, rfl, ?_, fun _ _ => rfl⟩
  intro name
  simp only [classOf?, settle, Table.find?_map, Option.map_map]
  congr 1
  funext target
  by_cases ht : target = .path path
  · simp [ht, targetClass, h]
  · simp [ht]

section
variable (host)

theorem lift_ok {α : Type} (a : α) : lift (.ok a) = pure a := rfl

@[simp] theorem outcome_lift {α : Type} (result : Except Error α) (r : Registry) :
    outcome (Registry.lift result) r = (result, r) := by
  cases result <;> rfl

theorem outcome_resolvePath (path : String) (r : Registry) :
    outcome (resolvePath host path) r =
      (classAt host path,
        match classAt host path with
        | .ok cls => r.settle path cls
        | .error _ => r) := by
  unfold resolvePath classAt
  cases ImportPath.resolveText host path with
  | error e => cases e <;> rfl
  | ok v =>
    cases v with
    | ruleClass cls =>
      cases h : cls.isRule with
      | true => simp [Except.map, settle, h]
      | false =>
        simp only [h, Bool.false_eq_true, if_false]
        rfl
    | _ => rfl

theorem outcome_resolve (target : Target) (r : Registry) :
    (outcome (resolve host target) r).1 = targetClass host target := by
  cases target with
  | ofClass cls => rfl
  | path path => rw [resolve, outcome_resolvePath, targetClass]

theorem moves_resolve (target : Target) : Moves (Looks host K) (resolve host target) := by
  intro r
  cases target with
  | ofClass cls => exact refl r
  | path path =>
    rw [resolve, outcome_resolvePath]
    cases h : classAt host path with
    | error e => exact refl r
    | ok cls => exact looks_settle h

/-- The instance of a class is there already, or cannot be made, or is made and put there. -/
theorem classInstance_cases (cls : RuleClass) (r : Registry) :
    (∃ rule, r.instance? cls = some rule ∧ outcome (classInstance host cls) r = (.ok rule, r)) ∨
    (∃ error, r.instance? cls = none ∧ Rule.make host cls [] = .error error ∧
      outcome (classInstance host cls) r =
        (.error (.registration (.construction cls.name error.message)), r)) ∨
    (∃ rule, r.instance? cls = none ∧ Rule.make host cls [] = .ok rule ∧
      outcome (classInstance host cls) r = (.ok rule, { r.put rule with
        notes := r.notes ++ [⟨.debug, .registry, "Instantiated rule class " ++ cls.name⟩] })) := by
  unfold classInstance
  rw [outcome_bind_of_ok (outcome_get r)]
  cases r.instance? cls with
  | some rule => exact .inl ⟨rule, rfl, rfl⟩
  | none =>
    cases Rule.make host cls [] with
    | error e => exact .inr (.inl ⟨e, rfl, rfl, rfl⟩)
    | ok rule => exact .inr (.inr ⟨rule, rfl, rfl, rfl⟩)

/-- A class is served by its instance, which is there from then on. -/
theorem outcome_classInstance (cls : RuleClass) (r : Registry) :
    (outcome (classInstance host cls) r).1 = r.shared host cls := by
  obtain ⟨rule, hi, ho⟩ | ⟨e, hi, hm, ho⟩ | ⟨rule, hi, hm, ho⟩ := classInstance_cases host cls r
  · simp [ho, shared, hi]
  · simp [ho, shared, hi, hm]
  · simp [ho, shared, hi, hm]

theorem moves_classInstance (cls : RuleClass) :
    Moves (Looks host K) (classInstance host cls) := by
  intro r
  obtain ⟨rule, -, ho⟩ | ⟨e, -, -, ho⟩ | ⟨rule, hi, hm, ho⟩ := classInstance_cases host cls r
  · exact ho ▸ refl r
  · exact ho ▸ refl r
  · rw [ho]
    have hs : r.shared host rule.cls = .ok rule := by simp [shared, Rule.cls_of_make hm, hi, hm]
    exact IsTrans.trans _ _ _ (looks_put fun _ _ => hs) (looks_note _)

theorem shared_of_classInstance {t : Registry} (hr : r.Keyed)
    (h : outcome (classInstance host cls) r = (.ok rule, t)) : t.shared host cls = .ok rule := by
  have ha := moves_classInstance (K := fun _ => True) host cls r hr
  have hs := outcome_classInstance host cls r
  rw [h] at ha hs
  rw [ha.shared cls trivial, ← hs]

theorem instances_resolve (target : Target) (r : Registry) :
    (outcome (resolve host target) r).2.instances = r.instances := by
  cases target with
  | ofClass cls => rfl
  | path path =>
    rw [resolve, outcome_resolvePath]
    cases classAt host path <;> rfl

theorem shared_congr (h : s.instances = r.instances) : s.shared host = r.shared host := by
  funext cls
  simp only [shared, instance?, h]

theorem outcome_getRule (name : Value) (r : Registry) :
    (outcome (getRule host name) r).1 = r.ruleOf host name := by
  unfold getRule ruleOf classOf?
  cases hk : name.needKey with
  | error e => rw [outcome_bind_of_error (by rw [outcome_lift])]; rfl
  | ok u =>
    rw [outcome_bind_of_ok (by rw [outcome_lift]), outcome_bind_of_ok (outcome_get r)]
    cases r.targets.find? name with
    | none => rfl
    | some target =>
      have hc := outcome_resolve host target r
      have hi := shared_congr host (instances_resolve host target r)
      rcases ho : outcome (resolve host target) r with ⟨result, t⟩
      rw [ho] at hc hi
      cases result with
      | error e => simp only [outcome_bind_of_error ho, Option.map_some, ← hc]; rfl
      | ok cls =>
        simp only [outcome_bind_of_ok ho, Option.map_some, ← hc, outcome_classInstance, hi]
        rfl

theorem moves_lift {α : Type} {R : Registry → Registry → Prop} [Std.Refl R]
    (result : Except Error α) : Moves R (Registry.lift result) := by
  intro r
  rw [outcome_lift]
  exact refl r

/-- Looking a name up does nothing but look for its class and for the instance of that. -/
theorem moves_getRule_of {R : Registry → Registry → Prop} [Std.Refl R] [IsTrans Registry R]
    (hr : ∀ target, Moves R (resolve host target)) (hc : ∀ cls, Moves R (classInstance host cls))
    (name : Value) : Moves R (getRule host name) := by
  refine moves_bind (moves_lift _) fun _ => moves_bind moves_get fun _ => ?_
  split
  · exact moves_throw _
  · exact moves_bind (hr _) hc

theorem moves_getRule (name : Value) : Moves (Looks host K) (getRule host name) :=
  moves_getRule_of host (moves_resolve host) (moves_classInstance host) name

end

theorem outcome_isRegistered (name : Value) (r : Registry) :
    outcome (isRegistered name) r = (name.needKey.map fun _ => r.targets.contains name, r) := by
  unfold isRegistered
  cases name.needKey <;> rfl

theorem outcome_names (r : Registry) : outcome names r = (Value.sorted r.targets.keys, r) := by
  unfold names
  rw [outcome_bind_of_ok (outcome_get r), outcome_lift]

theorem outcome_kind (name : Value) (r : Registry) :
    outcome (kind name) r =
      (name.needKey >>= fun _ =>
        match r.kinds.find? name with
        | some kind => .ok kind
        | none => Error.raise (.unknownRule name), r) := by
  unfold kind
  cases name.needKey with
  | error e => rfl
  | ok u =>
    rw [outcome_bind_of_ok (outcome_lift _ _), outcome_bind_of_ok (outcome_get r)]
    cases r.kinds.find? name <;> rfl

theorem ruleOf_eq_ok : r.ruleOf host name = .ok rule ↔
    name.isKey = true ∧ ∃ cls, r.classOf? host name = some (.ok cls) ∧
      r.shared host cls = .ok rule := by
  unfold ruleOf Value.needKey
  cases name.isKey with
  | false => exact ⟨fun h => (by cases h), fun h => (by cases h.1)⟩
  | true =>
    rcases r.classOf? host name with _ | _ | cls
    · exact ⟨fun h => (by cases h), fun ⟨_, _, h, _⟩ => (by cases h)⟩
    · exact ⟨fun h => (by cases h), fun ⟨_, _, h, _⟩ => (by cases h)⟩
    · constructor
      · intro h
        exact ⟨rfl, cls, rfl, h⟩
      · rintro ⟨_, _, ⟨⟩, h⟩
        exact h

theorem ruleOf_congr {L : RuleClass → Prop} (h : Agree host L r s)
    (hl : ∀ cls, r.classOf? host name = some (.ok cls) → L cls) :
    s.ruleOf host name = r.ruleOf host name := by
  unfold ruleOf
  rw [h.classOf name]
  cases name.needKey with
  | error e => rfl
  | ok u =>
    rcases hc : r.classOf? host name with _ | _ | cls
    · rfl
    · rfl
    · exact h.shared cls (hl cls hc)

end Registry

end FormGuard
