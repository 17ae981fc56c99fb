import FormGuard.Proofs.Form.Order
import FormGuard.Proofs.Form.Refusal
import Mathlib.Algebra.BigOperators.Ring.Finset
import Mathlib.Algebra.Order.BigOperators.Group.Finset

/-! Rules for the children of a group, and when they make the group mandatory: the call counts the
rules that make a child mandatory, not the children that are given one. -/
namespace FormGuard

namespace Descriptor
variable {d : Descriptor} {address : Value} {place : Nat}

/-- The place of the child that is meant: that of its number, or the first where its own name or its
name in the group is the one given. -/
def place? (d : Descriptor) (address : Value) : Option Nat :=
  match address.asInt? with
  | some i => if 0 ≤ i ∧ i.toNat < d.members.length then some i.toNat else none
  | none => d.members.findIdx? fun (qualified, child) =>
      child.name.same address || qualified.same address

theorem child?_eq (d : Descriptor) (address : Value) :
    d.child? address = (d.place? address).bind fun place => d.members[place]? := by
  have hat : ∀ i : Int, d.childAt? i =
      (if 0 ≤ i ∧ i.toNat < d.members.length then some i.toNat else none).bind
        fun place => d.members[place]? := by
    intro i
    unfold childAt?
    by_cases hi : 0 ≤ i
    · by_cases hl : i.toNat < d.members.length
      · simp [hi, hl]
      · simp [hi, hl]
    · simp [hi]
  cases address with
  | int i => exact hat i
  | bool b => exact hat _
  | _ => exact List.find?_eq_bind_findIdx?_getElem?

theorem place_lt (h : d.place? address = some place) : place < d.members.length := by
  unfold place? at h
  split at h
  · split at h
    · rename_i hl
      cases h
      exact hl.2
    · cases h
  · exact (List.findIdx?_eq_some_iff_getElem.mp h).1

end Descriptor

namespace Form
variable {form next : Form} {d : Descriptor} {group name child type format howmany mode reset : Value}
  {address rules : Value} {given rest : List (Value × Value)} {apps : List (Value × Application)}
  {here : List Application} {place n : Nat}

/-- A rule, as it is written down for a child, that makes the child mandatory. -/
def isMandatory (rule : Value) : Bool :=
  match rule.items with
  | .ok (_ :: type :: _) => type.same requiredRule
  | _ => false

/-- How many of some rules make a child mandatory. -/
def mandatoryIn (rules : Value) : Nat :=
  match rules.items with
  | .ok items => items.countP isMandatory
  | .error _ => 0

/-- How many rules make the child at a place mandatory, under whatever address they are given. -/
def share (d : Descriptor) (given : List (Value × Value)) (place : Nat) : Nat :=
  (given.map fun entry => if d.place? entry.1 = some place then mandatoryIn entry.2 else 0).sum

/-- The child at a place is given a rule that makes it mandatory. -/
def Given (d : Descriptor) (given : List (Value × Value)) (place : Nat) : Prop :=
  ∃ entry ∈ given, d.place? entry.1 = some place ∧
    ∃ items, entry.2.items = .ok items ∧ ∃ rule ∈ items, isMandatory rule = true

/-- How counting rules misses who is given one: one child has the rule that another is missing, or
all have one and some child a second, or a child bears the name of the group. -/
inductive Misjudged (group : Value) (d : Descriptor) (given : List (Value × Value)) : Prop where
  | instead {place : Nat} (within : place < d.children.length) (without : ¬ Given d given place)
      (total : ∑ place ∈ Finset.range d.children.length, share d given place = d.children.length)
  | beyond {place : Nat} (all : ∀ place < d.children.length, Given d given place)
      (within : place < d.children.length) (more : 1 < share d given place)
      (apart : ∀ name ∈ d.childNames, name.same group = false)
  | namesake {place twin : Nat} {name : Value} (within : place < d.children.length)
      (without : ¬ Given d given place) (child : d.childNames[twin]? = some name)
      (same : name.same group = true) (mandatory : Given d given twin)

/-! Rules that are counted. -/

theorem mandatoryIn_pos : 0 < mandatoryIn rules ↔
    ∃ items, rules.items = .ok items ∧ ∃ rule ∈ items, isMandatory rule = true := by
  unfold mandatoryIn
  cases rules.items <;> simp

theorem share_cons (d : Descriptor) (address rules : Value) (rest : List (Value × Value)) (place : Nat) :
    share d ((address, rules) :: rest) place =
      (if d.place? address = some place then mandatoryIn rules else 0) + share d rest place := rfl

theorem given_cons : Given d ((address, rules) :: rest) place ↔
    (d.place? address = some place ∧ 0 < mandatoryIn rules) ∨ Given d rest place := by
  unfold Given
  rw [List.exists_mem_cons_iff, mandatoryIn_pos]

theorem share_pos : 0 < share d given place ↔ Given d given place := by
  induction given with
  | nil => simp [share, Given]
  | cons entry rest ih =>
    obtain ⟨address, rules⟩ := entry
    rw [share_cons, given_cons, ← ih]
    by_cases hp : d.place? address = some place
    · simp [hp]
    · simp [hp]

theorem isMandatory_of_childRule {rule : Value} {a : Application} (h : childRule group rule = .ok a) :
    isMandatory rule = a.type.same requiredRule := by
  obtain ⟨items, hitems, h⟩ := bind_eq_ok.mp h
  unfold isMandatory
  rw [hitems]
  match items, h with
  | _ :: _ :: _, h =>
    cases h
    rfl
  | [_], h => cases h
  | [], h => cases h

theorem mandatoryCount_of_childRules {items : List Value}
    (h : items.mapM (childRule group) = .ok here) (child : Value) :
    mandatoryCount (here.map fun a => (child, a)) = items.countP isMandatory := by
  induction items generalizing here with
  | nil =>
    cases h
    rfl
  | cons rule rest ih =>
    obtain ⟨a, more, ha, hmore, rfl⟩ := mapM_cons_eq_ok.mp h
    rw [List.map_cons, mandatoryCount_cons, ih hmore, List.countP_cons, isMandatory_of_childRule ha,
      Nat.add_comm]

theorem mandatoryCount_of_items {items : List Value} (hi : rules.items = .ok items)
    (h : items.mapM (childRule group) = .ok here) (child : Value) :
    mandatoryCount (here.map fun a => (child, a)) = mandatoryIn rules := by
  rw [mandatoryCount_of_childRules h, mandatoryIn, hi]

/-- A child that is found has a place, and its name in the group there. -/
theorem place_of_childName (h : childName group d address = .ok child) :
    ∃ place, d.place? address = some place ∧ place < d.members.length ∧
      d.childNames[place]? = some child := by
  obtain ⟨found, hf⟩ := childName_eq_ok.mp h
  rw [Descriptor.child?_eq] at hf
  obtain ⟨place, hp, hm⟩ := Option.bind_eq_some_iff.mp hf
  exact ⟨place, hp, Descriptor.place_lt hp, (List.getElem?_zip_eq_some.mp hm).1⟩

/-- The call counts, over all places, the rules for the child there. -/
theorem mandatoryCount_of_childApplications (h : childApplications group d given = .ok apps) :
    mandatoryCount apps = ∑ place ∈ Finset.range d.members.length, share d given place := by
  induction given generalizing apps with
  | nil =>
    cases h
    simp [mandatoryCount, share]
  | cons entry rest ih =>
    obtain ⟨address, rules⟩ := entry
    obtain ⟨child, items, here, others, hchild, hitems, hhere, hothers, rfl⟩ :=
      childApplications_cons.mp h
    obtain ⟨place, hp, hlt, _⟩ := place_of_childName hchild
    -- what stands under one address counts at one place only
    simp only [share_cons, hp, Option.some.injEq]
    rw [mandatoryCount_append, mandatoryCount_of_items hitems hhere, ih hothers,
      Finset.sum_add_distrib, Finset.sum_ite_eq, if_pos (Finset.mem_range.mpr hlt)]

theorem exists_mandatory_iff (child name : Value) (here : List Application) :
    (∃ entry ∈ here.map (fun a => (child, a)), entry.2.type.same requiredRule = true ∧
      entry.1.same name = true) ↔
    child.same name = true ∧ 0 < mandatoryCount (here.map fun a => (child, a)) := by
  unfold mandatoryCount
  rw [List.countP_pos_iff]
  constructor
  · rintro ⟨entry, hm, ht, hs⟩
    refine ⟨?_, entry, hm, ht⟩
    obtain ⟨a, _, rfl⟩ := List.mem_map.mp hm
    exact hs
  · rintro ⟨hs, entry, hm, ht⟩
    refine ⟨entry, hm, ht, ?_⟩
    obtain ⟨a, _, rfl⟩ := List.mem_map.mp hm
    exact hs

/-- A name that the call makes mandatory by a rule is that of a child that is given one. -/
theorem exists_given_iff (h : childApplications group d given = .ok apps) (name : Value) :
    (∃ entry ∈ apps, entry.2.type.same requiredRule = true ∧ entry.1.same name = true) ↔
      ∃ place child, d.childNames[place]? = some child ∧ child.same name = true ∧
        Given d given place := by
  induction given generalizing apps with
  | nil =>
    cases h
    simp [Given]
  | cons entry rest ih =>
    obtain ⟨address, rules⟩ := entry
    obtain ⟨child, items, here, others, hchild, hitems, hhere, hothers, rfl⟩ :=
      childApplications_cons.mp h
    obtain ⟨found, hp, _, hname⟩ := place_of_childName hchild
    have hhead := exists_mandatory_iff child name here
    rw [mandatoryCount_of_items hitems hhere] at hhead
    simp only [List.mem_append, or_and_right, exists_or, hhead, ih hothers, given_cons, hp,
      Option.some.injEq, and_or_left]
    refine or_congr_left ?_
    constructor
    · rintro ⟨hs, hpos⟩
      exact ⟨found, child, hname, hs, rfl, hpos⟩
    · rintro ⟨_, other, hother, hs, rfl, hpos⟩
      obtain rfl := Option.some.inj (hname.symm.trans hother)
      exact ⟨hs, hpos⟩

/-! The verdict on the group. -/

/-- Where each of some numbers is at least one, or each is at most one, they add up to how many they
are exactly if all are one. -/
theorem sum_eq_count_iff {f : Nat → Nat}
    (h : (∀ place < n, 1 ≤ f place) ∨ ∀ place < n, f place ≤ 1) :
    ∑ place ∈ Finset.range n, f place = n ↔ ∀ place < n, f place = 1 := by
  have hn : ∑ _place ∈ Finset.range n, 1 = n := by simp
  have hmem : (∀ place ∈ Finset.range n, f place = 1) ↔ ∀ place < n, f place = 1 := by simp
  rw [← hmem]
  rcases h with h | h
  · have hiff := Finset.sum_eq_sum_iff_of_le fun place hm => h place (Finset.mem_range.mp hm)
    rw [hn, eq_comm] at hiff
    simpa only [eq_comm] using hiff
  · have hiff := Finset.sum_eq_sum_iff_of_le fun place hm => h place (Finset.mem_range.mp hm)
    rwa [hn] at hiff

/-- Counting rules tells who is given one, unless it is misled. -/
theorem counts_iff_not_misjudged (h : d.childNames.length = d.children.length) :
    ((∑ place ∈ Finset.range d.children.length, share d given place = d.children.length ∨
        ∃ place child, d.childNames[place]? = some child ∧ child.same group = true ∧
          Given d given place) ↔
      ∀ place < d.children.length, Given d given place) ↔ ¬ Misjudged group d given := by
  have hone : (∀ place < d.children.length, Given d given place) →
      ∀ place < d.children.length, 1 ≤ share d given place := fun hall place hp =>
    share_pos.mpr (hall place hp)
  constructor
  · intro hlaw hm
    cases hm with
    | instead within without total => exact without (hlaw.mp (Or.inl total) _ within)
    | namesake within without child same mandatory =>
      exact without (hlaw.mp (Or.inr ⟨_, _, child, same, mandatory⟩) _ within)
    | beyond all within more apart =>
      rcases hlaw.mpr all with htotal | ⟨_, name, hname, same, _⟩
      · have hsingle := (sum_eq_count_iff (Or.inl (hone all))).mp htotal _ within
        omega
      · rw [apart name (List.mem_of_getElem? hname)] at same
        cases same
  · intro hm
    constructor
    · intro hcount place within
      by_contra without
      rcases hcount with total | ⟨twin, name, child, same, mandatory⟩
      · exact hm (.instead within without total)
      · exact hm (.namesake within without child same mandatory)
    · intro all
      by_contra hno
      obtain ⟨htotal, hname⟩ := not_or.mp hno
      rw [sum_eq_count_iff (Or.inl (hone all))] at htotal
      push Not at htotal
      obtain ⟨place, within, hne⟩ := htotal
      have hpos := hone all place within
      refine hm (.beyond all within (by omega) fun name hmem => ?_)
      rw [Bool.eq_false_iff]
      intro same
      obtain ⟨twin, hlt, rfl⟩ := List.mem_iff_getElem.mp hmem
      exact hname ⟨twin, _, List.getElem?_eq_getElem hlt, same, all twin (h ▸ hlt)⟩

/-- Where no child gets two and none bears the name of the group, counting is not misled. -/
theorem not_misjudged_of_single (hs : ∀ place < d.children.length, share d given place ≤ 1)
    (ha : ∀ name ∈ d.childNames, name.same group = false) : ¬ Misjudged group d given := by
  intro hm
  cases hm with
  | instead within without total =>
    have hone := (sum_eq_count_iff (Or.inr hs)).mp total _ within
    exact without (share_pos.mp (by omega))
  | beyond _ within more _ => exact absurd (hs _ within) (by omega)
  | namesake _ _ child same _ =>
    rw [ha _ (List.mem_of_getElem? child)] at same
    cases same

section
variable (hd : form.elements.find? group = some d) (hc : d.checked = .ok d)
  (hopen : form.isRequired group = false)
  (hok : outcome (addGroupRule group (.map given) type format howmany mode reset) form =
    (.ok (), next))
include hd hc hok

theorem childNames_of_addGroupRule : d.children ≠ [] ∧ d.childNames.length = d.children.length := by
  obtain ⟨apps, extra, happlies, _⟩ := addGroupRule_eq_ok.mp hok
  cases happlies with
  | whole _ _ _ text _ _ => cases text
  | children _ found kind _ _ _ _ =>
    obtain rfl := Option.some.inj (hd.symm.trans found)
    exact (Descriptor.fits_of_checked hc).group kind

include hopen

/-- A call for the children makes the group mandatory that it counts as many rules for as there are
children, or whose name a child bears that it makes mandatory. -/
theorem isRequired_group_iff : next.isRequired group = true ↔
    ∑ place ∈ Finset.range d.children.length, share d given place = d.children.length ∨
    ∃ place child, d.childNames[place]? = some child ∧ child.same group = true ∧
      Given d given place := by
  obtain ⟨hsome, hlength⟩ := childNames_of_addGroupRule hd hc hok
  have hmembers : d.members.length = d.children.length := by
    rw [Descriptor.members, List.length_zip, hlength, min_self]
  have hpos : d.children.length ≠ 0 := by simpa using hsome
  obtain ⟨apps, extra, happlies, rfl⟩ := addGroupRule_eq_ok.mp hok
  rw [isRequired_extend, hopen]
  cases happlies with
  | whole _ _ _ text _ _ => cases text
  | children _ found _ _ entries read _ =>
    cases entries
    obtain rfl := Option.some.inj (hd.symm.trans found)
    rw [Requires, exists_given_iff read, mandatoryCount_of_childApplications read, hmembers]
    simp only [Bool.false_eq_true, false_or]
    rw [or_comm]
    refine or_congr_left ?_
    by_cases ht : ∑ place ∈ Finset.range d.children.length, share d given place = d.children.length
    · simp [ht, hpos, Value.same_self]
    · simp [ht]

/-- After a call for the children of a group that was not mandatory, it is mandatory where the call
has as many required rules as the group has children, or has one for a child that bears the group's
name. This is where each child has got one unless the group is misjudged, which it never is where no
child gets two and none bears the group's name. -/
theorem group_mandatory_iff :
    (next.isRequired group = true ↔
      ∑ place ∈ Finset.range d.children.length, share d given place = d.children.length ∨
      ∃ place child, d.childNames[place]? = some child ∧ child.same group = true ∧
        Given d given place) ∧
    ((next.isRequired group = true ↔ ∀ place < d.children.length, Given d given place) ↔
      ¬ Misjudged group d given) ∧
    ((∀ place < d.children.length, share d given place ≤ 1) →
      (∀ name ∈ d.childNames, name.same group = false) →
      (next.isRequired group = true ↔ ∀ place < d.children.length, Given d given place)) := by
  have hrequired := isRequired_group_iff hd hc hopen hok
  have hcounts : (next.isRequired group = true ↔ ∀ place < d.children.length, Given d given place) ↔
      ¬ Misjudged group d given := by
    rw [hrequired]
    exact counts_iff_not_misjudged (childNames_of_addGroupRule hd hc hok).2
  exact ⟨hrequired, hcounts, fun hs ha => hcounts.mpr (not_misjudged_of_single hs ha)⟩

end

/-- Rules for both children, one under its name and one under its number. -/
def forBoth : List (Value × Value) :=
  [(.text "area", .list [.list [.text "No area", .text "required"],
      .list [.text "Long", .text "maxlength", .int 3]]),
    (.int 1, .list [.list [.text "No number", .text "required"]])]

theorem group_mandatory_iff_phone :
    unruledForm.elements.find? (.text "phone") = some phoneGroup ∧
    phoneGroup.checked = .ok phoneGroup ∧ unruledForm.isRequired (.text "phone") = false ∧
    ∃ next, outcome (addGroupRule (.text "phone") (.map forBoth) .null .null .null .null .null)
        unruledForm = (.ok (), next) ∧
      next.isRequired (.text "phone") = true := by
  have hd : unruledForm.elements.find? (.text "phone") = some phoneGroup := rfl
  have hc : phoneGroup.checked = .ok phoneGroup := rfl
  have hopen : unruledForm.isRequired (.text "phone") = false := rfl
  have hok : outcome (addGroupRule (.text "phone") (.map forBoth) .null .null .null .null .null)
      unruledForm = (.ok (), _) := Prod.ext rfl rfl
  have hsingle : ∀ place < phoneGroup.children.length, share phoneGroup forBoth place ≤ 1 := by
    decide +kernel
  have hgiven : ∀ place < phoneGroup.children.length, 0 < share phoneGroup forBoth place := by
    decide +kernel
  have hapart : ∀ name ∈ phoneGroup.childNames, name.same (.text "phone") = false := by
    decide +kernel
  have hlaw := (group_mandatory_iff hd hc hopen hok).2.2 hsingle hapart
  exact ⟨hd, hc, hopen, _, hok, hlaw.mpr fun place hp => share_pos.mp (hgiven place hp)⟩

/-- Two required rules for one of two children. -/
def twiceForOne : List (Value × Value) :=
  [(.text "area", .list [.list [.text "No area", .text "required"],
    .list [.text "Still no area", .text "required"]])]

/-- The group is mandatory, though its second child is given no rule. -/
theorem second_rule_counted :
    ∃ (form next : Form) (d : Descriptor) (given : List (Value × Value)) (place : Nat),
      form.Reachable Host.bare ∧ form.elements.find? (.text "phone") = some d ∧ d.checked = .ok d ∧
      form.isRequired (.text "phone") = false ∧
      outcome (addGroupRule (.text "phone") (.map given) .null .null .null .null .null) form =
        (.ok (), next) ∧
      next.isRequired (.text "phone") = true ∧ place < d.children.length ∧ ¬ Given d given place := by
  have hnone : ¬ 0 < share phoneGroup twiceForOne 1 := by decide +kernel
  exact ⟨unruledForm, _, phoneGroup, twiceForOne, 1, unruledForm_reachable, rfl, rfl, rfl,
    Prod.ext rfl rfl, by decide +kernel, by decide, fun hg => hnone (share_pos.mpr hg)⟩

end Form

end FormGuard
