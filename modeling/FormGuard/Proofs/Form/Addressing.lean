import FormGuard.Proofs.Form.Children
import FormGuard.Proofs.Form.References

/-! Names of children: which child is found under the name of one that was found before, and which child
the browser reads for a rule that was declared for one of them. -/
namespace FormGuard

namespace Descriptor
variable {d child : Descriptor} {address name target : Value} {m : Value × Descriptor}

/-- A child answers to its own name and to its name in the group. -/
def Answers (name : Value) (m : Value × Descriptor) : Prop :=
  m.2.name.same name = true ∨ m.1.same name = true

/-- The first of the children that answers to a name. -/
inductive First (d : Descriptor) (name : Value) (m : Value × Descriptor) : Prop where
  | intro {front back : List (Value × Descriptor)} (split : d.members = front ++ m :: back)
    (answers : Answers name m) (before : ∀ other ∈ front, ¬ Answers name other)

theorem answers_self (name : Value) (child : Descriptor) : Answers name (name, child) :=
  Or.inr (Value.same_self name)

theorem childNamed?_eq_some : d.childNamed? name = some m ↔ d.First name m := by
  have hanswers : ∀ m : Value × Descriptor,
      (m.2.name.same name || m.1.same name) = true ↔ Answers name m := by
    intro m
    rw [Bool.or_eq_true, Answers]
  unfold childNamed?
  rw [List.find?_eq_some_iff_append]
  constructor
  · rintro ⟨hm, front, back, hsplit, hbefore⟩
    refine .intro hsplit ((hanswers m).mp hm) fun other ho ha => ?_
    simpa [(hanswers other).mpr ha] using hbefore other ho
  · rintro ⟨hsplit, hm, hbefore⟩
    refine ⟨(hanswers m).mpr hm, _, _, hsplit, fun other ho => ?_⟩
    rw [Bool.not_eq_true', Bool.eq_false_iff]
    exact mt (hanswers other).mp (hbefore other ho)

/-- Only a number stands for a position. -/
theorem child?_of_asInt? (h : address.asInt? = none) : d.child? address = d.childNamed? address := by
  cases address with
  | int i => cases h
  | bool b => cases h
  | _ => rfl

theorem child?_of_position {i : Int} (h : address.asInt? = some i) :
    d.child? address = d.childAt? i := by
  cases address with
  | int j | bool b =>
    cases h
    rfl
  | _ => cases h

theorem asInt?_of_asText? (h : name.asText?.isSome = true) : name.asInt? = none := by
  cases name with
  | int i => cases h
  | bool b => cases h
  | _ => rfl

theorem First.unique {other : Value × Descriptor} (h : d.First name m) (k : d.First name other) :
    m = other :=
  Option.some.inj ((childNamed?_eq_some.mpr h).symm.trans (childNamed?_eq_some.mpr k))

theorem First.congr (h : d.First name m) (hs : target.same name = true) : d.First target m := by
  have hanswers : ∀ other, Answers target other ↔ Answers name other := fun other => by
    rw [Answers, Answers, Value.same_congr hs, Value.same_congr hs]
  cases h with
  | intro split answers before =>
    exact .intro split ((hanswers m).mpr answers) fun other ho =>
      mt (hanswers other).mp (before other ho)

/-- Where a child answers to a name there is a first one that does. -/
theorem exists_first (hm : m ∈ d.members) (ha : Answers name m) : ∃ first, d.First name first := by
  have hfound : (d.childNamed? name).isSome = true := by
    refine List.find?_isSome.mpr ⟨m, hm, ?_⟩
    rwa [Bool.or_eq_true]
  obtain ⟨first, hfirst⟩ := Option.isSome_iff_exists.mp hfound
  exact ⟨first, childNamed?_eq_some.mp hfirst⟩

/-- A child is found again under its name in the group exactly where it is the first that answers to it;
a name that is a number stands for a position. -/
theorem child?_again_iff (name : Value) (child : Descriptor) :
    d.child? name = some (name, child) ↔
      (∀ i, name.asInt? = some i → d.childAt? i = some (name, child)) ∧
        (name.asInt? = none → d.First name (name, child)) := by
  cases hi : name.asInt? with
  | none =>
    rw [child?_of_asInt? hi, childNamed?_eq_some]
    simp
  | some i =>
    rw [child?_of_position hi]
    simp

end Descriptor

namespace Form
variable {host : Host} {form start next : Form} {registry : Registry} {elements : List Descriptor}
  {group rules type format howmany mode reset target name : Value} {a : Application}
  {g : Descriptor} {given : List (Value × Value)} {apps : List (Value × Application)}
  {m : Value × Descriptor} {ops : List Operation}

/-- For a rule of a group's child the browser reads the first child that answers to the target. -/
theorem source?_of_first (hd : form.elements.find? a.group = some g) (hk : a.group.isKey = true)
    (ht : a.group.truthy = true) (hi : target.asInt? = none) (hm : g.First target m) :
    form.source? target a =
      .ok (if g.isFrozen || m.2.isFrozen then none else some (.one m.2)) := by
  have hkey : a.group.needKey = .ok () := Value.needKey_eq_ok.mpr hk
  have helement : form.element a.group = .ok g := by
    rw [element, hkey, hd]
    rfl
  have hchild : g.child target = .ok m := by
    refine Descriptor.child_of_some ?_
    rw [Descriptor.child?_of_asInt? hi, Descriptor.childNamed?_eq_some.mpr hm]
  unfold source?
  rw [if_pos ht, helement]
  dsimp only [Bind.bind, Except.bind]
  rw [hchild]
  cases g.isFrozen <;> rfl

/-- Every rule that is given for a child is applied, under the child's name in the group. -/
theorem brings_of_childApplications (h : childApplications group g given = .ok apps) {k rs : Value}
    (hm : (k, rs) ∈ given) :
    ∃ name child items, g.child? k = some (name, child) ∧ rs.items = .ok items ∧
      ∀ rule ∈ items, ∃ a, childRule group rule = .ok a ∧ Brings apps name a := by
  induction given generalizing apps with
  | nil => cases hm
  | cons entry rest ih =>
    obtain ⟨address, own⟩ := entry
    obtain ⟨name, items, here, others, hname, hitems, hhere, hothers, rfl⟩ :=
      childApplications_cons.mp h
    obtain hentry | hm := List.mem_cons.mp hm
    · cases hentry
      obtain ⟨child, hfound⟩ := childName_eq_ok.mp hname
      refine ⟨name, child, items, hfound, hitems, fun rule hr => ?_⟩
      obtain ⟨a, ha, hread⟩ := exists_of_mem_mapM hhere hr
      refine ⟨a, hread, (name, a), ?_, rfl, Value.same_self name⟩
      exact List.mem_append_left _ (List.mem_map_of_mem ha)
    · obtain ⟨name, child, items, hfound, hitems, hall⟩ := ih hothers hm
      refine ⟨name, child, items, hfound, hitems, fun rule hr => ?_⟩
      obtain ⟨a, hread, entry, he, hbrings⟩ := hall rule hr
      exact ⟨a, hread, entry, List.mem_append_right _ he, hbrings⟩

theorem Extends.exists_mem {entries more : List (Value × List Application)}
    (h : Extends entries more) {here : List Application} (hm : (target, here) ∈ entries) :
    ∃ there, (target, there) ∈ more ∧ here <+: there := by
  induction h with
  | nil added => cases hm
  | cons kept _ ih =>
    obtain he | hm := List.mem_cons.mp hm
    · cases he
      exact ⟨_, List.mem_cons_self, kept⟩
    · obtain ⟨there, ht, hp⟩ := ih hm
      exact ⟨there, List.mem_cons_of_mem _ ht, hp⟩

/-- What was declared stays, under its target. -/
theorem mem_stored_run (hm : (target, a) ∈ form.stored) (ops : List Operation) :
    (target, a) ∈ (run host ops form).stored := by
  obtain ⟨here, hentry, ha⟩ := mem_stored.mp hm
  obtain ⟨there, ht, hp⟩ := (continues_run host ops form).rules.exists_mem hentry
  exact mem_stored.mpr ⟨there, ht, hp.subset ha⟩

theorem Offers.truthy_of_valid (h : form.Offers elements) (hv : ∀ d ∈ elements, d.checked = .ok d)
    (hd : form.elements.find? name = some g) : name.truthy = true := by
  obtain ⟨hm, hs⟩ := h name g hd
  rw [← Value.truthy_congr hs]
  exact (Descriptor.fits_of_checked (hv g hm)).named

/-- A child is found again under its name in the group exactly where no child before it answers to that
name. A rule that is declared for a child is stored under this name, and whatever is declared later the
browser reads the first child that answers to it: exactly then the one the declaration meant. -/
theorem child_read_again (hs : ofElements registry elements = .ok start)
    (hv : ∀ d ∈ elements, d.checked = .ok d) (hf : run host ops start = form)
    (hp : outcome (addGroupRule group rules type format howmany mode reset) form = (.ok (), next))
    (he : rules.entries = .ok given) :
    (∀ (d : Descriptor) (k name : Value) (child : Descriptor), d.child? k = some (name, child) →
      (d.child? name = some (name, child) ↔
        (∀ i, name.asInt? = some i → d.childAt? i = some (name, child)) ∧
          (name.asInt? = none → d.First name (name, child)))) ∧
    ∃ g, form.elements.find? group = some g ∧ ∀ k rs, (k, rs) ∈ given →
      ∃ name child items, g.child? k = some (name, child) ∧ rs.items = .ok items ∧
        (name.asText?.isSome = true → ∃ first, g.First name first ∧
          (first = (name, child) ↔ g.First name (name, child)) ∧
          ∀ rule ∈ items, ∃ a target, childRule group rule = .ok a ∧ target.same name = true ∧
            ∀ later, (target, a) ∈ (run host later next).stored ∧
              (run host later next).source? target a =
                .ok (if g.isFrozen || first.2.isFrozen then none else some (.one first.2))) := by
  refine ⟨fun d _ name child _ => Descriptor.child?_again_iff name child, ?_⟩
  obtain ⟨apps, extra, happ, hnext⟩ := addGroupRule_eq_ok.mp hp
  cases happ with
  | whole _ _ _ text =>
    cases rules with
    | map entries => cases text
    | _ => cases he
  | @children _ _ _ _ _ _ _ g _ _ isKey found _ _ entries read _ =>
    obtain rfl := Except.ok.inj (entries.symm.trans he)
    have htruthy : group.truthy = true := by
      refine Offers.truthy_of_valid (offers_of_ofElements hs) hv (g := g) ?_
      rw [← elements_run host ops start, hf, found]
    refine ⟨g, found, fun k rs hm => ?_⟩
    obtain ⟨name, child, items, hchild, hitems, hall⟩ := brings_of_childApplications read hm
    refine ⟨name, child, items, hchild, hitems, fun htext => ?_⟩
    obtain ⟨first, hfirst⟩ := Descriptor.exists_first (mem_members_of_child? hchild)
      (Descriptor.answers_self name child)
    refine ⟨first, hfirst, ?_, fun rule hr => ?_⟩
    · constructor
      · rintro rfl
        exact hfirst
      · exact hfirst.unique
    obtain ⟨a, hread, hbrings⟩ := hall rule hr
    have happlied : next.Applied name a := by
      rw [hnext]
      exact applied_extend.mpr (Or.inr hbrings)
    obtain ⟨target, hstored, hsame⟩ := happlied
    obtain ⟨hgroup, -, -⟩ := group_of_childRule hread
    refine ⟨a, target, hread, hsame, fun later => ⟨mem_stored_run hstored later, ?_⟩⟩
    have hlater : (run host later next).elements.find? a.group = some g := by
      rw [elements_run, hnext, elements_extend, hgroup, found]
    have htarget : target.asInt? = none := by
      refine Descriptor.asInt?_of_asText? ?_
      rw [Value.asText?_congr hsame, htext]
    exact source?_of_first hlater (hgroup ▸ isKey) (hgroup ▸ htruthy) htarget (hfirst.congr hsame)

/-- A rule that is declared for the second child by its number is read from the second child. -/
theorem child_read_again_phone :
    ofElements plainRegistry [phoneGroup] = .ok unruledForm ∧
    (∀ d ∈ [phoneGroup], d.checked = .ok d) ∧ run Host.bare [] unruledForm = unruledForm ∧
    ∃ next target a, outcome (addGroupRule (.text "phone") (.map forBoth) .null .null .null .null
        .null) unruledForm = (.ok (), next) ∧
      target.same (.text "phone[number]") = true ∧ (target, a) ∈ next.stored ∧
      next.source? target a = .ok (some (.one (textField "number"))) := by
  have hs : ofElements plainRegistry [phoneGroup] = .ok unruledForm := rfl
  have hv : ∀ d ∈ [phoneGroup], d.checked = .ok d := by
    intro d hd
    obtain rfl := List.mem_singleton.mp hd
    rfl
  have hok : outcome (addGroupRule (.text "phone") (.map forBoth) .null .null .null .null .null)
      unruledForm = (.ok (), _) := Prod.ext rfl rfl
  obtain ⟨-, g, hg, hgiven⟩ := child_read_again hs hv (rfl : run Host.bare [] _ = _) hok rfl
  obtain rfl : phoneGroup = g := Option.some.inj hg
  obtain ⟨name, child, items, hchild, hitems, hread⟩ :=
    hgiven (.int 1) _ (List.mem_cons_of_mem _ List.mem_cons_self)
  obtain ⟨rfl, rfl⟩ : .text "phone[number]" = name ∧ textField "number" = child := by
    simpa using Option.some.inj hchild
  obtain rfl := Except.ok.inj hitems
  have hsecond : phoneGroup.First (.text "phone[number]")
      (.text "phone[number]", textField "number") :=
    Descriptor.childNamed?_eq_some.mp rfl
  obtain ⟨first, hfirst, hmeant, hrules⟩ := hread rfl
  obtain rfl := hmeant.mpr hsecond
  obtain ⟨a, target, -, hsame, hlater⟩ := hrules _ List.mem_cons_self
  exact ⟨hs, hv, rfl, _, target, a, hok, hsame, (hlater []).1, (hlater []).2⟩

/-- Two controls of one name, the second one frozen. -/
def twins : Descriptor :=
  ⟨.text "twins", .group, .bool false,
    [textField "a", { textField "a" with kind := .checkbox, frozen := .bool true }],
    [.text "a", .text "a"], .bool false⟩

/-- The second of two children with one name is found by its number, and the first one under its name:
the browser reads the first one for a rule that is declared for the second. -/
theorem twin_read :
    twins.checked = .ok twins ∧
    (∃ second, twins.child? (.int 1) = some (.text "a", second) ∧ second.isFrozen = true ∧
      twins.child? (.text "a") ≠ some (.text "a", second)) ∧
    ∃ form next target a, ofElements plainRegistry [twins] = .ok form ∧
      outcome (addGroupRule (.text "twins") (.map [(.int 1, .list [.list [.text "No", .text "required"]])])
        .null .null .null .null .null) form = (.ok (), next) ∧
      next.stored = [(target, a)] ∧ next.source? target a = .ok (some (.one (textField "a"))) := by
  have hfirst : twins.child? (.text "a") = some (.text "a", textField "a") := rfl
  refine ⟨rfl, ⟨_, rfl, rfl, fun h => ?_⟩, _, _, _, _, rfl, Prod.ext rfl rfl, rfl, rfl⟩
  cases congrArg (Option.map fun m => m.2.kind) (hfirst.symm.trans h)

end Form

end FormGuard
