import FormGuard.Proofs.Form.Declaration

/-! Steps of declaring calls: what is applied or why it is refused, said by the call, the elements and the
registry alone. -/
namespace FormGuard.Form
variable {elements : Table Descriptor} {r : Registry} {d : Descriptor}
  {group child rule type name : Value} {entry : Value × Application} {e : Error}

/-- A name under which a rule is registered. -/
def Known (r : Registry) (type : Value) : Prop := type.isKey = true ∧ r.targets.contains type = true

/-- Whether a type may be applied: it is a key under which a rule is registered. -/
def admitted (r : Registry) (type : Value) : Except Error Unit := do
  type.needKey
  if !r.targets.contains type then throw (.worded (.unknownRule type))

/-- Whether a name may be used: it is a key under which the form has an element. -/
def present (elements : Table Descriptor) (name : Value) : Except Error Unit := do
  name.needKey
  if !elements.contains name then throw (.unknownElement name)

theorem lookedUp_eq_ok {found : Bool} {absent : Error} {u : Unit} :
    (name.needKey >>= fun _ => if !found then throw absent else pure ()) = .ok u ↔
      name.isKey = true ∧ found = true := by
  rw [bind_eq_ok]
  simp only [Value.needKey_eq_ok]
  cases found with
  | true => exact ⟨fun ⟨_, hk, _⟩ => ⟨hk, rfl⟩, fun ⟨hk, _⟩ => ⟨(), hk, rfl⟩⟩
  | false =>
    refine iff_of_false ?_ (by simp)
    rintro ⟨_, _, ⟨⟩⟩

theorem admitted_eq_ok {u : Unit} : admitted r type = .ok u ↔ Known r type := lookedUp_eq_ok

theorem present_eq_ok {u : Unit} : present elements name = .ok u ↔
    name.isKey = true ∧ elements.contains name = true := lookedUp_eq_ok

/-! One step. -/

/-- A rule for elements, as it is applied or refused. -/
def elementStep (elements : Table Descriptor) (r : Registry)
    (element message type format mode reset : Value) : Except Error (Value × Application) := do
  match ← targets element with
  | [] => throw .noElement
  | target :: dependents =>
    (target :: dependents).forM (present elements)
    admitted r type
    return (target, ⟨type, message, format, .null, reset, .null, Mode.reading mode, dependents⟩)

/-- A rule for a group as a whole, as it is applied or refused. -/
def wholeStep (r : Registry) (group : Value) (d : Descriptor)
    (message type format howmany mode reset : Value) : Except Error (Value × Application) := do
  if type.isNull then throw .noRuleType
  admitted r type
  return (group, ⟨type, message, format, .null, reset, howmany.orElse (.int (defaultCount d type)),
    Mode.reading mode, []⟩)

/-- One rule of a child, as it is applied or refused. -/
def childStep (r : Registry) (group child rule : Value) : Except Error (Value × Application) := do
  let a ← childRule group rule
  admitted r a.type
  child.needKey
  return (child, a)

theorem elementStep_eq_ok {element message format mode reset : Value} :
    elementStep elements r element message type format mode reset = .ok entry ↔
      ∃ target dependents, targets element = .ok (target :: dependents) ∧
        (∀ name ∈ target :: dependents, name.isKey = true ∧ elements.contains name = true) ∧
        Known r type ∧ entry =
          (target, ⟨type, message, format, .null, reset, .null, Mode.reading mode, dependents⟩) := by
  unfold elementStep
  rw [bind_eq_ok]
  constructor
  · rintro ⟨names, hnamed, h⟩
    cases names with
    | nil => cases h
    | cons target dependents =>
      obtain ⟨_, hall, h⟩ := bind_eq_ok.mp h
      obtain ⟨_, hallowed, ⟨⟩⟩ := bind_eq_ok.mp h
      exact ⟨target, dependents, hnamed, fun name hm => present_eq_ok.mp (forM_eq_ok.mp hall name hm),
        admitted_eq_ok.mp hallowed, rfl⟩
  · rintro ⟨target, dependents, hnamed, hall, hknown, rfl⟩
    refine ⟨_, hnamed, bind_eq_ok.mpr ⟨(), ?_, bind_eq_ok.mpr ⟨(), admitted_eq_ok.mpr hknown, rfl⟩⟩⟩
    exact forM_eq_ok.mpr fun name hm => present_eq_ok.mpr (hall name hm)

theorem wholeStep_eq_ok {message format howmany mode reset : Value} :
    wholeStep r group d message type format howmany mode reset = .ok entry ↔
      type.isNull = false ∧ Known r type ∧ entry = (group, ⟨type, message, format, .null, reset,
        howmany.orElse (.int (defaultCount d type)), Mode.reading mode, []⟩) := by
  unfold wholeStep
  cases type.isNull with
  | true => exact iff_of_false (by rintro ⟨⟩) (by simp)
  | false =>
    change (admitted r type >>= fun _ => pure _) = _ ↔ _
    rw [bind_eq_ok]
    constructor
    · rintro ⟨_, hallowed, ⟨⟩⟩
      exact ⟨rfl, admitted_eq_ok.mp hallowed, rfl⟩
    · rintro ⟨_, hknown, rfl⟩
      exact ⟨(), admitted_eq_ok.mpr hknown, rfl⟩

theorem childStep_eq_ok : childStep r group child rule = .ok entry ↔
    ∃ a, childRule group rule = .ok a ∧ Known r a.type ∧ child.isKey = true ∧ entry = (child, a) := by
  unfold childStep
  rw [bind_eq_ok]
  refine exists_congr fun a => and_congr_right fun _ => ?_
  constructor
  · intro h
    obtain ⟨_, hallowed, h⟩ := bind_eq_ok.mp h
    obtain ⟨_, hkey, ⟨⟩⟩ := bind_eq_ok.mp h
    exact ⟨admitted_eq_ok.mp hallowed, Value.needKey_eq_ok.mp hkey, rfl⟩
  · rintro ⟨hknown, hkey, rfl⟩
    exact bind_eq_ok.mpr ⟨(), admitted_eq_ok.mpr hknown,
      bind_eq_ok.mpr ⟨(), Value.needKey_eq_ok.mpr hkey, rfl⟩⟩

/-! Several steps. -/

def mandatoryCount (apps : List (Value × Application)) : Nat :=
  apps.countP fun entry => entry.2.type.same requiredRule

theorem mandatoryCount_cons (entry : Value × Application) (rest : List (Value × Application)) :
    mandatoryCount (entry :: rest) =
      (if entry.2.type.same requiredRule then 1 else 0) + mandatoryCount rest := by
  unfold mandatoryCount
  rw [List.countP_cons, Nat.add_comm]

theorem mandatoryCount_append (apps more : List (Value × Application)) :
    mandatoryCount (apps ++ more) = mandatoryCount apps + mandatoryCount more :=
  List.countP_append

/-- The results before the first error. -/
def leading {α : Type} : List (Except Error α) → List α
  | .ok a :: rest => a :: leading rest
  | _ => []

section
variable {α : Type} {steps : List (Except Error α)}

theorem mapM_append_id (steps more : List (Except Error α)) :
    (steps ++ more).mapM id = do return (← steps.mapM id) ++ (← more.mapM id) :=
  List.mapM_append

theorem leading_append_of_ok {done : List α} (h : steps.mapM id = .ok done)
    (more : List (Except Error α)) : leading (steps ++ more) = done ++ leading more := by
  induction steps generalizing done with
  | nil =>
    cases h
    rfl
  | cons step rest ih =>
    obtain ⟨a, others, ha, ho, rfl⟩ := mapM_cons_eq_ok.mp h
    obtain rfl : step = .ok a := ha
    rw [List.cons_append, leading, ih ho]
    rfl

theorem leading_append_of_error (h : steps.mapM id = .error e) (more : List (Except Error α)) :
    leading (steps ++ more) = leading steps := by
  induction steps with
  | nil => cases h
  | cons step rest ih =>
    cases step with
    | error f => rfl
    | ok a =>
      rw [List.cons_append, leading, leading, ih ?_]
      rw [List.mapM_cons] at h
      cases ho : rest.mapM id with
      | error f =>
        rw [ho] at h
        exact h
      | ok others =>
        rw [ho] at h
        cases h

theorem leading_of_ok {done : List α} (h : steps.mapM id = .ok done) : leading steps = done := by
  have ha := leading_append_of_ok h []
  rwa [List.append_nil, show leading ([] : List (Except Error α)) = [] from rfl,
    List.append_nil] at ha

theorem mem_of_mem_leading {a : α} (h : a ∈ leading steps) : .ok a ∈ steps := by
  induction steps with
  | nil => cases h
  | cons step rest ih =>
    cases step with
    | error e => cases h
    | ok b =>
      rcases List.mem_cons.mp h with rfl | h
      · exact List.mem_cons_self
      · exact List.mem_cons_of_mem _ (ih h)

end

/-- The rules given for one address. Without a child there, or where they are no sequence, all is
refused at once. -/
def childSteps (r : Registry) (group : Value) (d : Descriptor) (entry : Value × Value) :
    List (Except Error (Value × Application)) :=
  match childName group d entry.1, entry.2.items with
  | .ok child, .ok rules => rules.map (childStep r group child)
  | .ok _, .error e => [.error e]
  | .error e, _ => [.error e]

/-- The rules given for the children of a group, in the order in which they are applied. -/
def eachSteps (r : Registry) (group : Value) (d : Descriptor) (given : List (Value × Value)) :
    List (Except Error (Value × Application)) :=
  given.flatMap (childSteps r group d)

/-- The group of a name, if the form has it. -/
def grouped (elements : Table Descriptor) (group : Value) : Except Error Descriptor := do
  group.needKey
  match elements.find? group with
  | none => throw (.unknownElement group)
  | some d => if d.kind != .group then throw (.worded (.descriptor (.notAGroup group))) else return d

theorem grouped_eq_ok : grouped elements group = .ok d ↔
    group.isKey = true ∧ elements.find? group = some d ∧ d.kind = .group := by
  unfold grouped
  rw [bind_eq_ok]
  simp only [Value.needKey_eq_ok]
  constructor
  · rintro ⟨_, hkey, h⟩
    split at h
    · cases h
    · split at h
      · cases h
      · rename_i hkind
        cases h
        exact ⟨hkey, ‹_›, by simpa using hkind⟩
  · rintro ⟨hkey, hfound, hkind⟩
    refine ⟨(), hkey, ?_⟩
    rw [hfound]
    dsimp only
    rw [if_neg (by simp [hkind])]
    rfl

theorem declarable_of_elementStep {element message format mode reset : Value}
    (h : elementStep elements r element message type format mode reset = .ok entry) :
    Known r entry.2.type ∧ Declarable elements entry.1 entry.2 := by
  obtain ⟨target, dependents, _, hall, hknown, rfl⟩ := elementStep_eq_ok.mp h
  exact ⟨hknown, .element hall rfl rfl⟩

theorem declarable_of_wholeStep {message format howmany mode reset : Value}
    (hg : grouped elements group = .ok d)
    (h : wholeStep r group d message type format howmany mode reset = .ok entry) :
    Known r entry.2.type ∧ Declarable elements entry.1 entry.2 := by
  obtain ⟨hkey, hfound, hkind⟩ := grouped_eq_ok.mp hg
  obtain ⟨_, hknown, rfl⟩ := wholeStep_eq_ok.mp h
  refine ⟨hknown, .whole hkey hfound hkind rfl ?_ rfl⟩
  unfold Value.orElse
  split
  · rename_i hm
    exact Or.inl hm
  · exact Or.inr rfl

theorem declarable_of_mem_eachSteps {given : List (Value × Value)}
    (hg : grouped elements group = .ok d) (h : .ok entry ∈ eachSteps r group d given) :
    Known r entry.2.type ∧ Declarable elements entry.1 entry.2 := by
  obtain ⟨hkey, hfound, hkind⟩ := grouped_eq_ok.mp hg
  obtain ⟨⟨address, rules⟩, _, h⟩ := List.mem_flatMap.mp h
  unfold childSteps at h
  dsimp only at h
  cases hname : childName group d address with
  | error e => simp [hname] at h
  | ok name =>
    cases hitems : rules.items with
    | error e => simp [hname, hitems] at h
    | ok items =>
      rw [hname, hitems] at h
      obtain ⟨rule, _, hstep⟩ := List.mem_map.mp h
      obtain ⟨a, hread, hknown, hchild, rfl⟩ := childStep_eq_ok.mp hstep
      obtain ⟨hgroup, hhow, halone⟩ := group_of_childRule hread
      obtain ⟨child, hm⟩ := mem_members_of_childName hname
      exact ⟨hknown, .child hchild (hgroup ▸ hkey) (hgroup ▸ hfound) hkind hm hhow halone⟩

end FormGuard.Form
