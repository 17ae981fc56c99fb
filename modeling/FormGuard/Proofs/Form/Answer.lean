import FormGuard.Proofs.Form.Step

/-! What declaring calls answer and what they leave, also where they are refused: a rule is applied as a
whole or not at all, and of several those in front of the first that is refused are applied. -/
namespace FormGuard.Form
variable {form next : Form} {d : Descriptor} {group child type : Value} {e : Error}

theorem outcome_checkRule (type : Value) (form : Form) :
    outcome (checkRule type) form = (admitted form.registry type, form) := by
  unfold checkRule admitted
  rw [outcome_bind, outcome_onRegistry, Registry.outcome_isRegistered]
  cases type.needKey with
  | error e => rfl
  | ok u => cases form.registry.targets.contains type <;> rfl

theorem outcome_checkElement (name : Value) (form : Form) :
    outcome (checkElement name) form = (present form.elements name, form) := by
  unfold checkElement present
  rw [outcome_bind, outcome_lift]
  cases name.needKey with
  | error e => rfl
  | ok u =>
    dsimp only
    rw [outcome_bind_of_ok (outcome_get form)]
    cases form.elements.contains name <;> rfl

theorem outcome_checkElements (names : List Value) (form : Form) :
    outcome (names.forM checkElement) form = (names.forM (present form.elements), form) := by
  induction names with
  | nil => rfl
  | cons name rest ih =>
    change outcome (checkElement name >>= fun _ => rest.forM checkElement) form =
      (present form.elements name >>= fun _ => rest.forM (present form.elements), form)
    rw [outcome_bind, outcome_checkElement]
    cases present form.elements name with
    | error e => rfl
    | ok u => exact ih

/-- What a call for one rule answers and leaves: the rule is applied, or refused and nothing is
done. -/
def settle (form : Form) : Except Error (Value × Application) → Except Error Unit × Form
  | .ok entry => (.ok (), form.declare entry.1 entry.2)
  | .error e => (.error e, form)

theorem settle_eq_ok {step : Except Error (Value × Application)} :
    form.settle step = (.ok (), next) ↔
      ∃ entry, step = .ok entry ∧ next = form.declare entry.1 entry.2 := by
  cases step <;> simp [settle, eq_comm]

theorem settle_eq_error {step : Except Error (Value × Application)} :
    form.settle step = (.error e, next) ↔ step = .error e ∧ next = form := by
  cases step <;> simp [settle, eq_comm]

theorem fst_settle (step : Except Error (Value × Application)) (form : Form) :
    (form.settle step).1 = step.map fun _ => () := by
  cases step <;> rfl

/-- A rule is applied once it is found to be registered. -/
theorem outcome_checkRule_bind {rest : PUnit → Action Unit} {entry : Value × Application}
    (h : outcome (rest ⟨⟩) form = (.ok (), form.declare entry.1 entry.2)) :
    outcome (checkRule type >>= rest) form =
      form.settle (admitted form.registry type >>= fun _ => pure entry) := by
  rw [outcome_bind, outcome_checkRule]
  cases admitted form.registry type with
  | error e => rfl
  | ok u => exact h

theorem outcome_addRule (element message type format mode reset : Value) (form : Form) :
    outcome (addRule element message type format mode reset) form =
      form.settle (elementStep form.elements form.registry element message type format mode reset) := by
  unfold addRule elementStep
  rw [outcome_bind, outcome_lift]
  rcases targets element with e | _ | ⟨target, dependents⟩
  · rfl
  · rfl
  change outcome ((target :: dependents).forM checkElement >>= _) form =
    form.settle ((target :: dependents).forM (present form.elements) >>= _)
  rw [outcome_bind, outcome_checkElements]
  cases hall : (target :: dependents).forM (present form.elements) with
  | error e => rfl
  | ok u =>
    have hkey := (present_eq_ok.mp (forM_eq_ok.mp hall target List.mem_cons_self)).1
    refine outcome_checkRule_bind (outcome_require_apply hkey
      ⟨type, message, format, .null, reset, .null, Mode.reading mode, dependents⟩ form)

theorem outcome_addWholeRule (hk : group.isKey = true)
    (message type format howmany mode reset : Value) (form : Form) :
    outcome (addWholeRule group d message type format howmany mode reset) form =
      form.settle (wholeStep form.registry group d message type format howmany mode reset) := by
  unfold addWholeRule wholeStep
  by_cases hn : type.isNull = true
  · rw [if_pos hn, if_pos hn]
    rfl
  rw [if_neg hn, if_neg hn]
  have happly := outcome_apply_require hk ⟨type, message, format, .null, reset,
    howmany.orElse (.int (defaultCount d type)), Mode.reading mode, []⟩ (pure ()) form
  rw [bind_pure_unit] at happly
  exact outcome_checkRule_bind happly

/-- A rule for elements is applied to the first of them, or refused; nothing is left half done. -/
theorem addRule_cases (element message type format mode reset : Value) (form : Form) :
    (∃ e, outcome (addRule element message type format mode reset) form = (.error e, form)) ∨
    ∃ target dependents a, targets element = .ok (target :: dependents) ∧
      a = ⟨type, message, format, .null, reset, .null, Mode.reading mode, dependents⟩ ∧
      form.registry.targets.contains type = true ∧ Declarable form.elements target a ∧
      outcome (addRule element message type format mode reset) form =
        (.ok (), form.declare target a) := by
  rw [outcome_addRule]
  cases hs : elementStep form.elements form.registry element message type format mode reset with
  | error e => exact Or.inl ⟨e, rfl⟩
  | ok entry =>
    obtain ⟨target, dependents, hnamed, hall, hknown, rfl⟩ := elementStep_eq_ok.mp hs
    exact Or.inr ⟨target, dependents, _, hnamed, rfl, hknown.2, .element hall rfl rfl, rfl⟩

/-! Calls for a group. -/

/-- The form with more applications, one after the other. -/
def declareAll (apps : List (Value × Application)) (form : Form) : Form :=
  apps.foldl (fun form entry => form.declare entry.1 entry.2) form

theorem declareAll_append (apps more : List (Value × Application)) (form : Form) :
    form.declareAll (apps ++ more) = (form.declareAll apps).declareAll more := List.foldl_append

theorem elements_declareAll (apps : List (Value × Application)) (form : Form) :
    (form.declareAll apps).elements = form.elements := by
  induction apps generalizing form with
  | nil => rfl
  | cons entry rest ih => exact ih (form.declare entry.1 entry.2)

theorem registry_declareAll (apps : List (Value × Application)) (form : Form) :
    (form.declareAll apps).registry = form.registry := by
  induction apps generalizing form with
  | nil => rfl
  | cons entry rest ih => exact ih (form.declare entry.1 entry.2)

/-- The form with more applications and mandatory names. -/
def extend (apps : List (Value × Application)) (extra : List Value) (form : Form) : Form :=
  { form.declareAll apps with required := (form.declareAll apps).required ++ extra }

/-- A rule that is applied to a child adds its application, and the others follow; one that is refused
leaves the form as it is. -/
theorem outcome_addChildRules_cons (rule : Value) (rest : List Value) (form : Form) :
    outcome (addChildRules group child (rule :: rest)) form =
      match childStep form.registry group child rule with
      | .ok entry => outcome (do
          return (if entry.2.type.same requiredRule then 1 else 0) +
            (← addChildRules group child rest)) (form.declare entry.1 entry.2)
      | .error e => (.error e, form) := by
  rw [addChildRules, outcome_bind, outcome_lift]
  cases hread : childRule group rule with
  | error e =>
    have hstep : childStep form.registry group child rule = .error e := by rw [childStep, hread]; rfl
    rw [hstep]
  | ok a =>
    have hstep : childStep form.registry group child rule =
        admitted form.registry a.type >>= fun _ => child.needKey >>= fun _ => pure (child, a) := by
      rw [childStep, hread]
      rfl
    dsimp only
    rw [hstep, outcome_bind, outcome_checkRule]
    cases admitted form.registry a.type with
    | error e => rfl
    | ok u =>
      cases hkey : child.needKey with
      | error e =>
        refine (outcome_bind_of_error ?_ _).trans rfl
        rw [outcome_apply, hkey]
      | ok u => exact outcome_apply_require (Value.needKey_eq_ok.mp hkey) a _ form

/-- The rules of a child are applied up to the first that is refused. -/
theorem outcome_addChildRules (group child : Value) (rules : List Value) (form : Form) :
    outcome (addChildRules group child rules) form =
      (((rules.map (childStep form.registry group child)).mapM id).map mandatoryCount,
        form.declareAll (leading (rules.map (childStep form.registry group child)))) := by
  induction rules generalizing form with
  | nil => rfl
  | cons rule rest ih =>
    rw [outcome_addChildRules_cons, List.map_cons, List.mapM_cons]
    cases childStep form.registry group child rule with
    | error e => rfl
    | ok entry =>
      -- a declaration leaves the registry as it is, so the steps behind are the same
      have hrest := ih (form.declare entry.1 entry.2)
      change outcome (addChildRules group child rest) (form.declare entry.1 entry.2) =
        (((rest.map (childStep form.registry group child)).mapM id).map mandatoryCount, _) at hrest
      dsimp only
      rw [outcome_bind, hrest]
      cases (rest.map (childStep form.registry group child)).mapM id with
      | error e => rfl
      | ok more =>
        refine Prod.ext ?_ rfl
        exact congrArg Except.ok (mandatoryCount_cons entry more).symm

/-- The rules for all children are applied up to the first that is refused. -/
theorem outcome_addEachRules (group : Value) (d : Descriptor) (given : List (Value × Value))
    (form : Form) :
    outcome (addEachRules group d given) form =
      (((eachSteps form.registry group d given).mapM id).map mandatoryCount,
        form.declareAll (leading (eachSteps form.registry group d given))) := by
  induction given generalizing form with
  | nil => rfl
  | cons entry rest ih =>
    obtain ⟨address, rules⟩ := entry
    have hsteps : eachSteps form.registry group d ((address, rules) :: rest) =
        childSteps form.registry group d (address, rules) ++
          eachSteps form.registry group d rest := List.flatMap_cons
    rw [addEachRules, hsteps, childSteps, outcome_bind, outcome_lift]
    cases childName group d address with
    | error e => rfl
    | ok child =>
      dsimp only
      rw [outcome_bind, outcome_lift]
      cases rules.items with
      | error e => rfl
      | ok items =>
        dsimp only
        rw [outcome_bind, outcome_addChildRules]
        generalize items.map (childStep form.registry group child) = steps
        rw [mapM_append_id]
        cases hall : steps.mapM id with
        | error e =>
          rw [leading_append_of_error hall]
          rfl
        | ok here =>
          have hrest := ih (form.declareAll here)
          rw [registry_declareAll] at hrest
          rw [leading_of_ok hall, leading_append_of_ok hall, declareAll_append]
          change outcome (addEachRules group d rest >>= _) (form.declareAll here) = _
          rw [outcome_bind, hrest]
          cases (eachSteps form.registry group d rest).mapM id with
          | error e => rfl
          | ok more =>
            refine Prod.ext ?_ rfl
            exact congrArg Except.ok (mandatoryCount_append here more).symm

theorem outcome_require_if (all : Bool) (group : Value) (apps : List (Value × Application))
    (form : Form) : outcome (if all then require group else pure ()) (form.declareAll apps) =
      (.ok (), form.extend apps (if all then [group] else [])) := by
  unfold extend
  cases all with
  | true => rfl
  | false => simp

/-- What a call for the children of a group answers and leaves: their rules up to the first that is
refused are applied, and the group is mandatory where all of them are. -/
def settleEach (form : Form) (group : Value) (d : Descriptor) (rules : Value) :
    Except Error Unit × Form :=
  match rules.entries with
  | .error e => (.error e, form)
  | .ok given =>
    match (eachSteps form.registry group d given).mapM id with
    | .error e => (.error e, form.declareAll (leading (eachSteps form.registry group d given)))
    | .ok apps => (.ok (), form.extend apps
        (if mandatoryCount apps != 0 && mandatoryCount apps == d.children.length then [group] else []))

theorem outcome_addChildren (group : Value) (d : Descriptor) (rules : Value) (form : Form) :
    outcome (do
      let mandatory ← addEachRules group d (← Form.lift rules.entries)
      if mandatory != 0 && mandatory == d.children.length then require group) form =
        form.settleEach group d rules := by
  unfold settleEach
  rw [outcome_bind, outcome_lift]
  cases rules.entries with
  | error e => rfl
  | ok given =>
    dsimp only
    rw [outcome_bind, outcome_addEachRules]
    cases hall : (eachSteps form.registry group d given).mapM id with
    | error e => rfl
    | ok apps =>
      rw [leading_of_ok hall]
      exact outcome_require_if _ group apps form

/-- A call for a group that is there goes on with the group as a whole or with its children. -/
theorem outcome_addGroupRule (group rules type format howmany mode reset : Value) (form : Form) :
    outcome (addGroupRule group rules type format howmany mode reset) form =
      match grouped form.elements group with
      | .error e => (.error e, form)
      | .ok d =>
        if rules.asText?.isSome then
          form.settle (wholeStep form.registry group d rules type format howmany mode reset)
        else form.settleEach group d rules := by
  unfold addGroupRule grouped
  rw [outcome_bind, outcome_lift]
  cases hk : group.needKey with
  | error e => rfl
  | ok u =>
    dsimp only
    rw [outcome_bind_of_ok (outcome_get form)]
    cases form.elements.find? group with
    | none => rfl
    | some d =>
      dsimp only
      cases d.kind != .group with
      | true => rfl
      | false =>
        have hwhole := outcome_addWholeRule (d := d) (Value.needKey_eq_ok.mp hk) rules type format
          howmany mode reset form
        change outcome (if rules.asText?.isSome = true then _ else _) form =
          if rules.asText?.isSome = true then _ else _
        split
        · exact hwhole
        · exact outcome_addChildren group d rules form

theorem fst_settleEach (group : Value) (d : Descriptor) (rules : Value) (form : Form) :
    (form.settleEach group d rules).1 = rules.entries >>= fun given =>
      ((eachSteps form.registry group d given).mapM id).map fun _ => () := by
  unfold settleEach
  cases rules.entries with
  | error e => rfl
  | ok given =>
    change _ = ((eachSteps form.registry group d given).mapM id).map fun _ => ()
    dsimp only
    cases (eachSteps form.registry group d given).mapM id <;> rfl

theorem fst_addGroupRule (group rules type format howmany mode reset : Value) (form : Form) :
    (outcome (addGroupRule group rules type format howmany mode reset) form).1 =
      grouped form.elements group >>= fun d =>
        if rules.asText?.isSome then
          (wholeStep form.registry group d rules type format howmany mode reset).map fun _ => ()
        else rules.entries >>= fun given =>
          ((eachSteps form.registry group d given).mapM id).map fun _ => () := by
  rw [outcome_addGroupRule]
  cases grouped form.elements group with
  | error e => rfl
  | ok d =>
    change _ = if rules.asText?.isSome = true then _ else _
    dsimp only
    rw [← fst_settle _ form, ← fst_settleEach]
    split <;> rfl

/-! What a call may add. -/

theorem changes_settle {step : Except Error (Value × Application)}
    (h : ∀ entry, step = .ok entry →
      Known form.registry entry.2.type ∧ Declarable form.elements entry.1 entry.2) :
    Changes form.elements form (form.settle step).2 := by
  cases step with
  | error e => exact refl form
  | ok entry =>
    obtain ⟨hknown, hdeclarable⟩ := h entry rfl
    exact (Change.declare hknown.2 hdeclarable).changes

theorem changes_declareAll {apps : List (Value × Application)}
    (h : ∀ entry ∈ apps,
      Known form.registry entry.2.type ∧ Declarable form.elements entry.1 entry.2) :
    Changes form.elements form (form.declareAll apps) := by
  induction apps generalizing form with
  | nil => exact refl form
  | cons entry rest ih =>
    obtain ⟨⟨hknown, hdeclarable⟩, hrest⟩ := List.forall_mem_cons.mp h
    have hmore : Changes form.elements (form.declare entry.1 entry.2)
        (declareAll rest (form.declare entry.1 entry.2)) := ih hrest
    exact IsTrans.trans _ _ _ (Change.declare hknown.2 hdeclarable).changes hmore

theorem changes_settleEach (hg : grouped form.elements group = .ok d) (rules : Value) :
    Changes form.elements form (form.settleEach group d rules).2 := by
  unfold settleEach
  cases rules.entries with
  | error e => exact refl form
  | ok given =>
    have hsteps : Changes form.elements form
        (form.declareAll (leading (eachSteps form.registry group d given))) :=
      changes_declareAll fun entry hm => declarable_of_mem_eachSteps hg (mem_of_mem_leading hm)
    dsimp only
    cases hall : (eachSteps form.registry group d given).mapM id with
    | error e => exact hsteps
    | ok apps =>
      rw [leading_of_ok hall] at hsteps
      dsimp only
      unfold extend
      split
      · exact IsTrans.trans _ _ _ hsteps (Change.require _ group).changes
      · rw [List.append_nil]
        exact hsteps

theorem changes_addRule (element message type format mode reset : Value) (form : Form) :
    Changes form.elements form
      (outcome (addRule element message type format mode reset) form).2 := by
  rw [outcome_addRule]
  exact changes_settle fun entry h => declarable_of_elementStep h

theorem changes_addGroupRule (group rules type format howmany mode reset : Value) (form : Form) :
    Changes form.elements form
      (outcome (addGroupRule group rules type format howmany mode reset) form).2 := by
  rw [outcome_addGroupRule]
  cases hg : grouped form.elements group with
  | error e => exact refl form
  | ok d =>
    dsimp only
    split
    · exact changes_settle fun entry h => declarable_of_wholeStep hg h
    · exact changes_settleEach hg rules

end FormGuard.Form
