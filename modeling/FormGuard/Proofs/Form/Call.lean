import FormGuard.Proofs.Form.Run

/-! Declaring calls that succeed: what they apply and what they make mandatory is said by the call, the
elements and the registry alone. -/
namespace FormGuard.Form
variable {host : Host} {form next other : Form} {elements : Table Descriptor} {registry : Registry}
  {d : Descriptor} {apps : List (Value × Application)} {extra : List Value}

/-- The applications that rules for children of a group stand for, each with the child's name. -/
def childApplications (group : Value) (d : Descriptor) :
    List (Value × Value) → Except Error (List (Value × Application))
  | [] => .ok []
  | (address, rules) :: rest => do
    let child ← childName group d address
    let here ← (← rules.items).mapM (childRule group)
    return here.map (fun a => (child, a)) ++ (← childApplications group d rest)

/-- What a call that succeeds applies, and what it makes mandatory besides the targets of required
rules: a group of which there are as many of these as children. -/
inductive Operation.Applies (elements : Table Descriptor) (registry : Registry) :
    Operation → List (Value × Application) → List Value → Prop where
  | element {element message type format mode reset target : Value} {dependents : List Value}
      (named : targets element = .ok (target :: dependents))
      (known : ∀ name ∈ target :: dependents, name.isKey = true ∧ elements.contains name = true)
      (registered : Known registry type) :
      Applies elements registry (.elementRule element message type format mode reset)
        [(target, ⟨type, message, format, .null, reset, .null, Mode.reading mode, dependents⟩)] []
  | whole {group message type format howmany mode reset : Value} {d : Descriptor}
      (isKey : group.isKey = true) (found : elements.find? group = some d) (kind : d.kind = .group)
      (text : message.asText?.isSome = true) (named : type.isNull = false)
      (registered : Known registry type) :
      Applies elements registry (.groupRule group message type format howmany mode reset)
        [(group, ⟨type, message, format, .null, reset,
          howmany.orElse (.int (defaultCount d type)), Mode.reading mode, []⟩)] []
  | children {group rules type format howmany mode reset : Value} {d : Descriptor}
      {given : List (Value × Value)} {apps : List (Value × Application)}
      (isKey : group.isKey = true) (found : elements.find? group = some d) (kind : d.kind = .group)
      (noText : rules.asText?.isSome = false) (entries : rules.entries = .ok given)
      (read : childApplications group d given = .ok apps)
      (registered : ∀ entry ∈ apps, Known registry entry.2.type ∧ entry.1.isKey = true) :
      Applies elements registry (.groupRule group rules type format howmany mode reset) apps
        (if mandatoryCount apps != 0 && mandatoryCount apps == d.children.length then [group] else [])

/-- Whether an operation declares rules for elements. -/
def Operation.Declares : Operation → Prop
  | .elementRule .. | .groupRule .. => True
  | _ => False

theorem Operation.Applies.declares {op : Operation} (h : op.Applies elements registry apps extra) :
    op.Declares := by
  cases h <;> trivial

theorem childApplications_cons {group address rules : Value} {rest : List (Value × Value)} :
    childApplications group d ((address, rules) :: rest) = .ok apps ↔
      ∃ child items here others, childName group d address = .ok child ∧ rules.items = .ok items ∧
        items.mapM (childRule group) = .ok here ∧ childApplications group d rest = .ok others ∧
        apps = here.map (fun a => (child, a)) ++ others := by
  rw [childApplications]
  constructor
  · intro h
    obtain ⟨child, hchild, h1⟩ := bind_eq_ok.mp h
    obtain ⟨items, hitems, h2⟩ := bind_eq_ok.mp h1
    obtain ⟨here, hhere, h3⟩ := bind_eq_ok.mp h2
    obtain ⟨others, hothers, h4⟩ := bind_eq_ok.mp h3
    cases h4
    exact ⟨child, items, here, others, hchild, hitems, hhere, hothers, rfl⟩
  · rintro ⟨child, items, here, others, hchild, hitems, hhere, hothers, rfl⟩
    exact bind_eq_ok.mpr ⟨child, hchild, bind_eq_ok.mpr ⟨items, hitems,
      bind_eq_ok.mpr ⟨here, hhere, bind_eq_ok.mpr ⟨others, hothers, rfl⟩⟩⟩⟩

theorem mapM_childStep_eq_ok {group child : Value} {rules : List Value} :
    (rules.map (childStep registry group child)).mapM id = .ok apps ↔
      ∃ here, rules.mapM (childRule group) = .ok here ∧
        (∀ a ∈ here, Known registry a.type ∧ child.isKey = true) ∧
        apps = here.map fun a => (child, a) := by
  induction rules generalizing apps with
  | nil =>
    constructor
    · rintro ⟨⟩
      exact ⟨[], rfl, by simp, rfl⟩
    · rintro ⟨_, ⟨⟩, _, rfl⟩
      rfl
  | cons rule rest ih =>
    rw [List.map_cons]
    constructor
    · intro h
      obtain ⟨entry, others, hstep, hrest, rfl⟩ := mapM_cons_eq_ok.mp h
      obtain ⟨a, hread, hknown, hkey, rfl⟩ := childStep_eq_ok.mp hstep
      obtain ⟨here, hmore, hall, rfl⟩ := ih.mp hrest
      exact ⟨a :: here, mapM_cons_eq_ok.mpr ⟨a, here, hread, hmore, rfl⟩,
        List.forall_mem_cons.mpr ⟨⟨hknown, hkey⟩, hall⟩, rfl⟩
    · rintro ⟨_, h, hall, rfl⟩
      obtain ⟨a, here, hread, hmore, rfl⟩ := mapM_cons_eq_ok.mp h
      obtain ⟨⟨hknown, hkey⟩, hall⟩ := List.forall_mem_cons.mp hall
      exact mapM_cons_eq_ok.mpr ⟨(child, a), here.map fun a => (child, a),
        childStep_eq_ok.mpr ⟨a, hread, hknown, hkey, rfl⟩, ih.mpr ⟨here, hmore, hall, rfl⟩, rfl⟩

theorem childSteps_eq_ok {group : Value} {entry : Value × Value} :
    (childSteps registry group d entry).mapM id = .ok apps ↔
      ∃ child items here, childName group d entry.1 = .ok child ∧ entry.2.items = .ok items ∧
        items.mapM (childRule group) = .ok here ∧
        (∀ a ∈ here, Known registry a.type ∧ child.isKey = true) ∧
        apps = here.map fun a => (child, a) := by
  unfold childSteps
  cases childName group d entry.1 with
  | error e => exact iff_of_false (by rintro ⟨⟩) (by simp)
  | ok child =>
    cases entry.2.items with
    | error e => exact iff_of_false (by rintro ⟨⟩) (by simp)
    | ok items =>
      dsimp only
      rw [mapM_childStep_eq_ok]
      constructor
      · rintro ⟨here, hread, hall, rfl⟩
        exact ⟨child, items, here, rfl, rfl, hread, hall, rfl⟩
      · rintro ⟨_, _, here, ⟨⟩, ⟨⟩, hread, hall, rfl⟩
        exact ⟨here, hread, hall, rfl⟩

/-- All rules for the children of a group are applied exactly where they can be read and each may be
applied to its child. -/
theorem eachSteps_eq_ok {group : Value} {given : List (Value × Value)} :
    (eachSteps registry group d given).mapM id = .ok apps ↔
      childApplications group d given = .ok apps ∧
        ∀ entry ∈ apps, Known registry entry.2.type ∧ entry.1.isKey = true := by
  induction given generalizing apps with
  | nil =>
    constructor
    · rintro ⟨⟩
      exact ⟨rfl, by simp⟩
    · rintro ⟨⟨⟩, _⟩
      rfl
  | cons entry rest ih =>
    obtain ⟨address, rules⟩ := entry
    have hsteps : eachSteps registry group d ((address, rules) :: rest) =
        childSteps registry group d (address, rules) ++ eachSteps registry group d rest :=
      List.flatMap_cons
    rw [hsteps, mapM_append_id, childApplications_cons]
    constructor
    · intro h
      obtain ⟨mine, hmine, h⟩ := bind_eq_ok.mp h
      obtain ⟨others, hothers, ⟨⟩⟩ := bind_eq_ok.mp h
      obtain ⟨child, items, here, hchild, hitems, hread, hall, rfl⟩ := childSteps_eq_ok.mp hmine
      obtain ⟨hmore, hrest⟩ := ih.mp hothers
      refine ⟨⟨child, items, here, others, hchild, hitems, hread, hmore, rfl⟩, ?_⟩
      rw [List.forall_mem_append, List.forall_mem_map]
      exact ⟨hall, hrest⟩
    · rintro ⟨⟨child, items, here, others, hchild, hitems, hread, hmore, rfl⟩, hall⟩
      rw [List.forall_mem_append, List.forall_mem_map] at hall
      exact bind_eq_ok.mpr ⟨_,
        childSteps_eq_ok.mpr ⟨child, items, here, hchild, hitems, hread, hall.1, rfl⟩,
        bind_eq_ok.mpr ⟨others, ih.mpr ⟨hmore, hall.2⟩, rfl⟩⟩

/-- Rules for the children of a group are applied, and the group is mandatory where all of them
are. -/
theorem settleEach_eq_ok {group rules : Value} :
    form.settleEach group d rules = (.ok (), next) ↔
      ∃ given apps, rules.entries = .ok given ∧ childApplications group d given = .ok apps ∧
        (∀ entry ∈ apps, Known form.registry entry.2.type ∧ entry.1.isKey = true) ∧
        next = form.extend apps
          (if mandatoryCount apps != 0 && mandatoryCount apps == d.children.length then [group]
            else []) := by
  unfold settleEach
  cases rules.entries with
  | error e => exact iff_of_false (by rintro ⟨⟩) (by simp)
  | ok given =>
    dsimp only
    constructor
    · intro h
      cases hall : (eachSteps form.registry group d given).mapM id with
      | error e =>
        rw [hall] at h
        cases h
      | ok apps =>
        rw [hall] at h
        obtain ⟨hread, hregistered⟩ := eachSteps_eq_ok.mp hall
        exact ⟨given, apps, rfl, hread, hregistered, (congrArg Prod.snd h).symm⟩
    · rintro ⟨_, apps, ⟨⟩, hread, hregistered, rfl⟩
      rw [eachSteps_eq_ok.mpr ⟨hread, hregistered⟩]

/-- A call for a group needs the group to be there, and then a rule for all of it or some for its
children. -/
theorem addGroupRule_eq_ok {group rules type format howmany mode reset : Value} :
    outcome (addGroupRule group rules type format howmany mode reset) form = (.ok (), next) ↔
      ∃ apps extra, (Operation.groupRule group rules type format howmany mode reset).Applies
        form.elements form.registry apps extra ∧ next = form.extend apps extra := by
  rw [outcome_addGroupRule]
  cases hg : grouped form.elements group with
  | error e =>
    have hno : ∀ d, ¬ (group.isKey = true ∧ form.elements.find? group = some d ∧
        d.kind = .group) := by
      intro d hd
      cases hg.symm.trans (grouped_eq_ok.mpr hd)
    constructor
    · rintro ⟨⟩
    · rintro ⟨_, _, _ | ⟨hkey, hd, hkind, _⟩ | ⟨hkey, hd, hkind, _⟩, _⟩
      all_goals exact absurd ⟨hkey, hd, hkind⟩ (hno _)
  | ok d =>
    obtain ⟨hkey, hd, hkind⟩ := grouped_eq_ok.mp hg
    have hsame : ∀ {other}, form.elements.find? group = some other → other = d :=
      fun hother => Option.some.inj (hother.symm.trans hd)
    dsimp only
    by_cases ht : rules.asText?.isSome = true
    · rw [if_pos ht, settle_eq_ok]
      simp only [wholeStep_eq_ok]
      constructor
      · rintro ⟨_, ⟨hnamed, hregistered, rfl⟩, rfl⟩
        exact ⟨_, _, .whole hkey hd hkind ht hnamed hregistered, by simp [extend, declareAll]⟩
      · rintro ⟨_, _, ha, rfl⟩
        cases ha with
        | whole _ hfound _ _ hnamed hregistered =>
          obtain rfl := hsame hfound
          exact ⟨_, ⟨hnamed, hregistered, rfl⟩, by simp [extend, declareAll]⟩
        | children _ _ _ hno _ _ _ => simp [hno] at ht
    · rw [if_neg ht, settleEach_eq_ok]
      constructor
      · rintro ⟨given, apps, hentries, hread, hregistered, rfl⟩
        exact ⟨_, _, .children hkey hd hkind (by simpa using ht) hentries hread hregistered, rfl⟩
      · rintro ⟨_, _, ha, rfl⟩
        cases ha with
        | whole _ _ _ htext _ _ => exact absurd htext ht
        | children _ hfound _ _ hentries hread hregistered =>
          obtain rfl := hsame hfound
          exact ⟨_, _, hentries, hread, hregistered, rfl⟩

/-- A declaring call that succeeds does exactly what it applies. -/
theorem perform_eq_ok {op : Operation} (h : op.Declares) :
    outcome (op.perform host) form = (.ok (), next) ↔
      ∃ apps extra, op.Applies form.elements form.registry apps extra ∧
        next = form.extend apps extra := by
  cases op with
  | elementRule element message type format mode reset =>
    rw [Operation.perform, outcome_addRule, settle_eq_ok]
    simp only [elementStep_eq_ok]
    constructor
    · rintro ⟨_, ⟨target, dependents, named, known, registered, rfl⟩, rfl⟩
      exact ⟨_, _, .element named known registered, by simp [extend, declareAll]⟩
    · rintro ⟨_, _, ⟨named, known, registered⟩, rfl⟩
      exact ⟨_, ⟨_, _, named, known, registered, rfl⟩, by simp [extend, declareAll]⟩
  | groupRule group rules type format howmany mode reset => exact addGroupRule_eq_ok
  | _ => exact h.elim

end FormGuard.Form
