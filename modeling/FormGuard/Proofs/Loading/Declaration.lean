import FormGuard.Proofs.Form.Refusal
import FormGuard.Proofs.Loading.Element

/-! Declaring calls: which end in an error that is not the library's own. -/
namespace FormGuard.Form
variable {form : Form} {elements : Table Descriptor} {r : Registry} {d : Descriptor} {e : Error}
  {group child rule element type name : Value}

/-- What is wrong with the type of a rule: it cannot be a key, or no rule is registered under it and it
cannot be written. -/
inductive TypeMisfit (r : Registry) (type : Value) : Error → Prop where
  | key (noKey : type.isKey = false) : TypeMisfit r type (.misuse .type)
  | unknown (key : type.isKey = true) (unknown : r.targets.contains type = false)
      (unwritable : type.isWritable = false) : TypeMisfit r type (.misuse .value)

/-- What is wrong with a call for elements: they cannot be listed, there are none, or the first name
that is none of the form's cannot be a key; or all are there and the type is a misfit. -/
inductive ElementMisfit (form : Form) (element type : Value) : Error → Prop where
  | unlisted (unlisted : element.Unlisted) : ElementMisfit form element type (.misuse .type)
  | empty (named : targets element = .ok []) : ElementMisfit form element type .noElement
  | name {names : List Value} (named : targets element = .ok names)
      (comes : ComesTo (fun name => name.isKey = true ∧ form.elements.contains name = true)
        (fun name => name.isKey = false) names) : ElementMisfit form element type (.misuse .type)
  | type {names : List Value} {e : Error} (named : targets element = .ok names) (some : names ≠ [])
      (present : ∀ name ∈ names, name.isKey = true ∧ form.elements.contains name = true)
      (misfit : TypeMisfit form.registry type e) : ElementMisfit form element type e

/-- What is wrong with one rule of a child: it has no parts or fewer than two, its type is a misfit, or it
could be applied and the name of the child cannot be a key. -/
inductive PartsMisfit (r : Registry) (group child rule : Value) : Error → Prop where
  | unlisted (unlisted : rule.Unlisted) : PartsMisfit r group child rule (.misuse .type)
  | short {parts : List Value} (listed : rule.items = .ok parts) (short : parts.length < 2) :
      PartsMisfit r group child rule (.misuse .value)
  | type {a : Application} {e : Error} (read : childRule group rule = .ok a)
      (misfit : TypeMisfit r a.type e) : PartsMisfit r group child rule e
  | child {a : Application} (read : childRule group rule = .ok a) (known : Known r a.type)
      (noKey : child.isKey = false) : PartsMisfit r group child rule (.misuse .type)

/-- What is wrong with the rules given for one address: there is a child there, and going through its
rules one stops; or there is none, and the address cannot be written or the name of the group can
not. -/
inductive AddressMisfit (r : Registry) (group : Value) (d : Descriptor) (entry : Value × Value) :
    Error → Prop where
  | rules {child : Value} {e : Error} (named : childName group d entry.1 = .ok child)
      (stops : entry.2.Stops (fun rule => ∃ step, childStep r group child rule = .ok step)
        (PartsMisfit r group child) e) : AddressMisfit r group d entry e
  | absent (absent : d.child? entry.1 = none)
      (unwritable : (d.name.isWritable && group.isWritable && entry.1.isWritable) = false) :
      AddressMisfit r group d entry (.misuse .value)

/-- A form has a group of this name. -/
def HasGroup (form : Form) (group : Value) (d : Descriptor) : Prop :=
  group.isKey = true ∧ form.elements.find? group = some d ∧ d.kind = .group

/-- What is wrong with a call for a group: its name cannot be a key, or is that of no group and cannot
be written; or the form has the group and there is a message without a type or with one that is a
misfit, neither a message nor a mapping, or a mapping in which the first address that cannot be served
is a misfit. -/
inductive GroupMisfit (form : Form) (group rules type : Value) : Error → Prop where
  | group (noKey : group.isKey = false) : GroupMisfit form group rules type (.misuse .type)
  | single {d : Descriptor} (key : group.isKey = true) (found : form.elements.find? group = some d)
      (single : d.kind ≠ .group) (unwritable : group.isWritable = false) :
      GroupMisfit form group rules type (.misuse .value)
  | untyped {d : Descriptor} (found : form.HasGroup group d) (text : rules.asText?.isSome = true)
      (untyped : type = .null) : GroupMisfit form group rules type .noRuleType
  | type {d : Descriptor} {e : Error} (found : form.HasGroup group d)
      (text : rules.asText?.isSome = true) (misfit : TypeMisfit form.registry type e) :
      GroupMisfit form group rules type e
  | shape {d : Descriptor} (found : form.HasGroup group d) (noText : rules.asText? = none)
      (noMapping : ∀ given, rules ≠ .map given) :
      GroupMisfit form group rules type (.misuse .attribute)
  | address {d : Descriptor} {given : List (Value × Value)} {e : Error}
      (found : form.HasGroup group d) (mapping : rules = .map given)
      (comes : ComesTo
        (fun entry => ∃ done, (childSteps form.registry group d entry).mapM id = .ok done)
        (fun entry => AddressMisfit form.registry group d entry e) given) :
      GroupMisfit form group rules type e

theorem entries_eq_ok {v : Value} {given : List (Value × Value)} :
    v.entries = .ok given ↔ v = .map given := by
  cases v with
  | map entries => simp [Value.entries]
  | _ => simp [Value.entries, Value.misuse]

theorem foreign_entries {v : Value} : Foreign v.entries e ↔
    (∀ given, v ≠ .map given) ∧ e = .misuse .attribute := by
  cases v with
  | map entries => simp [Value.entries]
  | _ => simp [Value.entries, Value.misuse, Error.isOwn, eq_comm]

theorem foreign_needKey {v : Value} : Foreign v.needKey e ↔ v.isKey = false ∧ e = .misuse .type := by
  unfold Value.needKey
  cases v.isKey with
  | true => simp
  | false => simp [Value.misuse, Error.isOwn, eq_comm]

/-- A look-up needs something that can be a key, and reports what is not there. -/
theorem foreign_lookedUp {found : Bool} {absent : Error} :
    Foreign (name.needKey >>= fun _ => if !found then throw absent else pure ()) e ↔
      name.isKey = false ∧ e = .misuse .type ∨
        name.isKey = true ∧ found = false ∧ absent = e ∧ absent.isOwn = false := by
  rw [foreign_bind, foreign_needKey]
  simp only [Value.needKey_eq_ok]
  refine or_congr Iff.rfl ?_
  cases found with
  | true => exact iff_of_false (fun ⟨_, _, h⟩ => not_foreign_ok _ e h) (by simp)
  | false =>
    constructor
    · rintro ⟨_, hk, h⟩
      exact ⟨hk, rfl, foreign_error.mp h⟩
    · rintro ⟨hk, _, h⟩
      exact ⟨(), hk, foreign_error.mpr h⟩

theorem foreign_present : Foreign (present elements name) e ↔
    name.isKey = false ∧ e = .misuse .type :=
  foreign_lookedUp.trans (or_iff_left (by simp [Error.isOwn]))

theorem foreign_admitted : Foreign (admitted r type) e ↔ TypeMisfit r type e := by
  refine foreign_lookedUp.trans ?_
  rw [← foreign_error (α := Unit), ← Error.raise, foreign_raise rfl, Error.isWritable_unknownRule]
  constructor
  · rintro (⟨hk, rfl⟩ | ⟨hk, hu, hw, rfl⟩)
    · exact .key hk
    · exact .unknown hk hu hw
  · intro h
    cases h with
    | key noKey => exact Or.inl ⟨noKey, rfl⟩
    | unknown key unknown unwritable => exact Or.inr ⟨key, unknown, unwritable, rfl⟩

theorem foreign_targets : Foreign (targets element) e ↔ element.Unlisted ∧ e = .misuse .type := by
  rw [← Value.foreign_items]
  unfold targets
  cases ht : element.asText? with
  | none => exact Iff.rfl
  | some s =>
    refine iff_of_false (not_foreign_ok _ e) ?_
    rw [Value.foreign_items]
    rintro ⟨hu, _⟩
    cases element with
    | text s | kind k | mode m => exact hu _ rfl
    | _ => cases ht

/-- Elements that are listed have to be there, and then the rule has to be registered. -/
theorem foreign_named {α : Type} {names : List Value} {a : α} :
    Foreign (names.forM (present elements) >>= fun _ => admitted r type >>= fun _ => pure a) e ↔
      ComesTo (fun name => name.isKey = true ∧ elements.contains name = true)
        (fun name => name.isKey = false) names ∧ e = .misuse .type ∨
      (∀ name ∈ names, name.isKey = true ∧ elements.contains name = true) ∧ TypeMisfit r type e := by
  rw [foreign_bind, foreign_forM]
  simp only [foreign_bind_pure, foreign_admitted, foreign_present, forM_eq_ok, present_eq_ok,
    comesTo_and, exists_const]

/-- A call for elements fails with an error that is not the library's own just where it is a misfit. -/
theorem foreign_addRule {message format mode reset : Value} :
    Foreign (outcome (addRule element message type format mode reset) form).1 e ↔
      ElementMisfit form element type e := by
  rw [outcome_addRule, fst_settle, foreign_map, elementStep, foreign_bind, foreign_targets]
  constructor
  · rintro (⟨hu, rfl⟩ | ⟨names, hnamed, h⟩)
    · exact .unlisted hu
    · cases names with
      | nil =>
        obtain ⟨rfl, _⟩ := foreign_error.mp h
        exact .empty hnamed
      | cons target dependents =>
        obtain ⟨hcomes, rfl⟩ | ⟨hall, hmisfit⟩ := foreign_named.mp h
        · exact .name hnamed hcomes
        · exact .type hnamed (List.cons_ne_nil target dependents) hall hmisfit
  · intro h
    cases h with
    | unlisted unlisted => exact Or.inl ⟨unlisted, rfl⟩
    | empty named => exact Or.inr ⟨[], named, foreign_error.mpr ⟨rfl, rfl⟩⟩
    | @name names named comes =>
      cases names with
      | nil => cases comes
      | cons target dependents =>
        exact Or.inr ⟨_, named, foreign_named.mpr (Or.inl ⟨comes, rfl⟩)⟩
    | @type names e named some present misfit =>
      cases names with
      | nil => exact absurd rfl some
      | cons target dependents =>
        exact Or.inr ⟨_, named, foreign_named.mpr (Or.inr ⟨present, misfit⟩)⟩

theorem foreign_childRule : Foreign (childRule group rule) e ↔
    rule.Unlisted ∧ e = .misuse .type ∨
      ∃ parts, rule.items = .ok parts ∧ parts.length < 2 ∧ e = .misuse .value := by
  unfold childRule
  rw [foreign_bind, Value.foreign_items]
  refine or_congr Iff.rfl (exists_congr fun parts => and_congr Iff.rfl ?_)
  rcases parts with _ | ⟨message, _ | ⟨type, rest⟩⟩
  · simp [Value.misuse, Error.isOwn, eq_comm]
  · simp [Value.misuse, Error.isOwn, eq_comm]
  · refine iff_of_false (not_foreign_ok _ e) ?_
    rintro ⟨hlength, _⟩
    simp only [List.length_cons] at hlength
    omega

theorem foreign_childStep :
    Foreign (childStep r group child rule) e ↔ PartsMisfit r group child rule e := by
  unfold childStep
  simp only [foreign_bind, foreign_childRule, foreign_admitted, foreign_needKey, admitted_eq_ok]
  constructor
  · rintro ((⟨hu, rfl⟩ | ⟨parts, hp, hs, rfl⟩) |
      ⟨a, ha, hmisfit | ⟨_, hknown, ⟨hk, rfl⟩ | ⟨_, _, h⟩⟩⟩)
    · exact .unlisted hu
    · exact .short hp hs
    · exact .type ha hmisfit
    · exact .child ha hknown hk
    · exact absurd h (not_foreign_ok _ e)
  · intro h
    cases h with
    | unlisted unlisted => exact Or.inl (Or.inl ⟨unlisted, rfl⟩)
    | short listed short => exact Or.inl (Or.inr ⟨_, listed, short, rfl⟩)
    | type read misfit => exact Or.inr ⟨_, read, Or.inl misfit⟩
    | child read known noKey => exact Or.inr ⟨_, read, Or.inr ⟨(), known, Or.inl ⟨noKey, rfl⟩⟩⟩

/-- Where there is no child, the report says the name of the group and the address. -/
theorem foreign_childName {address : Value} : Foreign (childName group d address) e ↔
    (d.child? address = none ∧
      (d.name.isWritable && group.isWritable && address.isWritable) = false) ∧ e = .misuse .value := by
  unfold childName
  cases hf : d.child? address with
  | some found =>
    rw [Descriptor.child_of_some hf]
    exact iff_of_false (not_foreign_ok _ e) (by simp)
  | none =>
    rw [Descriptor.child_of_none hf, Error.raise]
    cases hw : d.name.isWritable && address.isWritable with
    | false =>
      rw [Error.worded_of_not_isWritable (by simp [hw])]
      rw [Bool.and_right_comm, hw, Bool.false_and]
      simp [Error.isOwn, eq_comm]
    | true =>
      rw [Error.worded_of_isWritable ((Error.isWritable_noChild _ _).trans hw), Bool.and_right_comm, hw, Bool.true_and]
      rw [Bool.and_eq_true] at hw
      dsimp only
      rw [foreign_bind, Value.foreign_spelled, Value.spelled_eq_ok.mpr ⟨hw.2, rfl⟩]
      simp only [true_and, or_iff_left_iff_imp]
      rintro ⟨_, _, ⟨⟩, ⟨⟩⟩

theorem foreign_childSteps {entry : Value × Value} :
    Foreign ((childSteps r group d entry).mapM id) e ↔ AddressMisfit r group d entry e := by
  have hone : ∀ f : Error, Foreign ([.error f].mapM (id : Except Error (Value × Application) → _)) e ↔
      f = e ∧ f.isOwn = false := fun f => foreign_error
  have hsteps : Foreign ((childSteps r group d entry).mapM id) e ↔
      Foreign (childName group d entry.1) e ∨ ∃ child, childName group d entry.1 = .ok child ∧
        entry.2.Stops (fun rule => ∃ step, childStep r group child rule = .ok step)
          (PartsMisfit r group child) e := by
    unfold childSteps Value.Stops
    cases hc : childName group d entry.1 with
    | error f =>
      dsimp only
      rw [hone]
      simp
    | ok child =>
      rw [← Value.foreign_items]
      cases hi : entry.2.items with
      | error f =>
        dsimp only
        rw [hone]
        simp
      | ok rules =>
        dsimp only
        rw [foreign_mapM, comesTo_map]
        simp [foreign_childStep]
  rw [hsteps, foreign_childName]
  constructor
  · rintro (⟨⟨hnone, hw⟩, rfl⟩ | ⟨child, hc, hstops⟩)
    · exact .absent hnone hw
    · exact .rules hc hstops
  · intro h
    cases h with
    | rules named stops => exact Or.inr ⟨_, named, stops⟩
    | absent absent unwritable => exact Or.inl ⟨⟨absent, unwritable⟩, rfl⟩

/-- Several lists of steps are done one list after the other. -/
theorem foreign_flatMap {α β : Type} {f : α → List (Except Error β)} {xs : List α} :
    Foreign ((xs.flatMap f).mapM id) e ↔ ComesTo (fun a => ∃ done, (f a).mapM id = .ok done)
      (fun a => Foreign ((f a).mapM id) e) xs := by
  induction xs with
  | nil => exact iff_of_false (not_foreign_ok _ e) not_comesTo_nil
  | cons a rest ih => rw [List.flatMap_cons, mapM_append_id, foreign_both, comesTo_cons, ih]

theorem foreign_eachSteps {given : List (Value × Value)} :
    Foreign ((eachSteps r group d given).mapM id) e ↔
      ComesTo (fun entry => ∃ done, (childSteps r group d entry).mapM id = .ok done)
        (fun entry => AddressMisfit r group d entry e) given := by
  unfold eachSteps
  simp only [foreign_flatMap, foreign_childSteps]

theorem foreign_wholeStep {message format howmany mode reset : Value} :
    Foreign (wholeStep r group d message type format howmany mode reset) e ↔
      type = .null ∧ e = .noRuleType ∨ TypeMisfit r type e := by
  unfold wholeStep
  by_cases hn : type.isNull = true
  · obtain rfl := (Value.isNull_iff type).mp hn
    rw [if_pos hn]
    constructor
    · rintro ⟨⟨⟩, _⟩
      exact Or.inl ⟨rfl, rfl⟩
    · rintro (⟨_, rfl⟩ | hmisfit)
      · exact ⟨rfl, rfl⟩
      · cases hmisfit with
        | key noKey => cases noKey
        | unknown _ _ unwritable => cases unwritable
  · have hno : type ≠ .null := fun h => hn ((Value.isNull_iff type).mpr h)
    rw [if_neg hn]
    change Foreign (admitted r type >>= fun _ => pure _) e ↔ _
    rw [foreign_bind_pure, foreign_admitted]
    simp [hno]

theorem foreign_grouped : Foreign (grouped elements group) e ↔
    group.isKey = false ∧ e = .misuse .type ∨
      ∃ d, group.isKey = true ∧ elements.find? group = some d ∧ d.kind ≠ .group ∧
        group.isWritable = false ∧ e = .misuse .value := by
  unfold grouped
  rw [foreign_bind, foreign_needKey]
  simp only [Value.needKey_eq_ok, exists_const]
  refine or_congr Iff.rfl ?_
  cases elements.find? group with
  | none =>
    refine iff_of_false ?_ (by simp)
    rintro ⟨_, ⟨⟩, ⟨⟩⟩
  | some d =>
    by_cases hd : d.kind = .group
    · exact iff_of_false (by simp [hd, pure, Except.pure]) (by simp [hd])
    · dsimp only
      rw [if_pos (by simpa using hd)]
      change _ ∧ Foreign (Error.raise (.descriptor (.notAGroup group))) e ↔ _
      rw [foreign_raise rfl]
      simp [hd, DescriptorFault.named]

/-- Rules for the children of a group are given by a mapping, and applied one by one. -/
theorem foreign_entered {rules : Value} :
    Foreign (rules.entries >>= fun given =>
      ((eachSteps r group d given).mapM id).map fun _ => ()) e ↔
      (∀ given, rules ≠ .map given) ∧ e = .misuse .attribute ∨
      ∃ given, rules = .map given ∧ ComesTo
        (fun entry => ∃ done, (childSteps r group d entry).mapM id = .ok done)
        (fun entry => AddressMisfit r group d entry e) given := by
  rw [foreign_bind, foreign_entries]
  simp only [foreign_map, entries_eq_ok, foreign_eachSteps]

/-- A call for a group fails with an error that is not the library's own just where it is a misfit. -/
theorem foreign_addGroupRule {rules format howmany mode reset : Value} :
    Foreign (outcome (addGroupRule group rules type format howmany mode reset) form).1 e ↔
      GroupMisfit form group rules type e := by
  rw [fst_addGroupRule, foreign_bind, foreign_grouped]
  constructor
  · rintro ((⟨hk, rfl⟩ | ⟨d, hk, hd, hsingle, hw, rfl⟩) | ⟨d, hg, h⟩)
    · exact .group hk
    · exact .single hk hd hsingle hw
    have hd : form.HasGroup group d := grouped_eq_ok.mp hg
    by_cases ht : rules.asText?.isSome = true
    · rw [if_pos ht, foreign_map, foreign_wholeStep] at h
      obtain ⟨hn, rfl⟩ | hmisfit := h
      · exact .untyped hd ht hn
      · exact .type hd ht hmisfit
    · rw [if_neg ht, foreign_entered] at h
      obtain ⟨hshape, rfl⟩ | ⟨given, hmapping, hcomes⟩ := h
      · exact .shape hd (by simpa using ht) hshape
      · exact .address hd hmapping hcomes
  · have hthere : ∀ {d}, form.HasGroup group d → grouped form.elements group = .ok d :=
      grouped_eq_ok.mpr
    intro h
    cases h with
    | group noKey => exact Or.inl (Or.inl ⟨noKey, rfl⟩)
    | single key found single unwritable =>
      exact Or.inl (Or.inr ⟨_, key, found, single, unwritable, rfl⟩)
    | untyped found text untyped =>
      refine Or.inr ⟨_, hthere found, ?_⟩
      rw [if_pos text, foreign_map, foreign_wholeStep]
      exact Or.inl ⟨untyped, rfl⟩
    | type found text misfit =>
      refine Or.inr ⟨_, hthere found, ?_⟩
      rw [if_pos text, foreign_map, foreign_wholeStep]
      exact Or.inr misfit
    | shape found noText noMapping =>
      refine Or.inr ⟨_, hthere found, ?_⟩
      rw [if_neg (by simp [noText]), foreign_entered]
      exact Or.inl ⟨noMapping, rfl⟩
    | address found mapping comes =>
      refine Or.inr ⟨_, hthere found, ?_⟩
      rw [if_neg (by simp [mapping, Value.asText?]), foreign_entered]
      exact Or.inr ⟨_, mapping, comes⟩

end FormGuard.Form
