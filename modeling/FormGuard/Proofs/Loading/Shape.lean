import FormGuard.Proofs.Form.Addressing
import FormGuard.Proofs.Loading.Element
import FormGuard.Proofs.Script.Extraction

/-! The shape of a descriptor that was read from a definition: at every depth its fields fit together,
the children are found under their positions, and the code for it can be written wherever its names
allow. -/
namespace FormGuard
open Script

section
variable {α β : Type} {bad worse : Misuse → Prop} {x : Except Error α} {fault : Misuse}

/-- A computation comes to a result, unless something stands against it; then that is its failure. -/
def AnswersUnless (bad : Misuse → Prop) (x : Except Error α) : Prop :=
  (∃ a, x = .ok a) ∧ (∀ fault, ¬ bad fault) ∨ ∃ fault, x = Value.misuse fault ∧ bad fault

theorem answersUnless_ok {a : α} (h : ∀ fault, ¬ bad fault) :
    AnswersUnless bad (.ok a : Except Error α) := Or.inl ⟨⟨a, rfl⟩, h⟩

theorem answersUnless_misuse (h : bad fault) :
    AnswersUnless bad (Value.misuse fault : Except Error α) := Or.inr ⟨fault, rfl, h⟩

theorem AnswersUnless.congr (h : AnswersUnless bad x) (hb : ∀ fault, worse fault ↔ bad fault) :
    AnswersUnless worse x := by
  rwa [show worse = bad from funext fun fault => propext (hb fault)]

theorem AnswersUnless.exists_ok (h : AnswersUnless bad x) (hb : ∀ fault, ¬ bad fault) :
    ∃ a, x = .ok a := by
  obtain ⟨hx, -⟩ | ⟨fault, -, h⟩ := h
  · exact hx
  · exact absurd h (hb fault)

theorem AnswersUnless.eq_misuse (h : AnswersUnless bad x) (hb : ∀ other, bad other ↔ other = fault) :
    x = Value.misuse fault := by
  obtain ⟨-, h⟩ | ⟨other, hx, h⟩ := h
  · exact absurd ((hb fault).mpr rfl) (h fault)
  · rwa [(hb other).mp h] at hx

theorem AnswersUnless.map (h : AnswersUnless bad x) (f : α → β) : AnswersUnless bad (f <$> x) := by
  obtain ⟨⟨a, rfl⟩, hb⟩ | ⟨fault, rfl, hb⟩ := h
  · exact Or.inl ⟨⟨f a, rfl⟩, hb⟩
  · exact Or.inr ⟨fault, rfl, hb⟩

theorem AnswersUnless.bind {f : α → Except Error β} (h : AnswersUnless bad x)
    (hf : ∀ a, AnswersUnless worse (f a)) :
    AnswersUnless (fun fault => bad fault ∨ worse fault) (x >>= f) := by
  obtain ⟨⟨a, rfl⟩, hb⟩ | ⟨fault, rfl, hb⟩ := h
  · exact (hf a).congr fun fault => or_iff_right (hb fault)
  · exact Or.inr ⟨fault, rfl, Or.inl hb⟩

theorem answersUnless_mapM {f : α → Except Error β} {bad : α → Misuse → Prop} {xs : List α}
    (h : ∀ a ∈ xs, AnswersUnless (bad a) (f a)) :
    AnswersUnless (fun fault => ∃ a ∈ xs, bad a fault) (xs.mapM f) := by
  induction xs with
  | nil => exact answersUnless_ok (by simp)
  | cons a rest ih =>
    obtain ⟨ha, hrest⟩ := List.forall_mem_cons.mp h
    rw [List.mapM_cons]
    refine (ha.bind fun b => (ih hrest).map fun bs => b :: bs).congr ?_
    simp

theorem answers_spelled (v : Value) :
    AnswersUnless (fun fault => v.isWritable = false ∧ fault = .value) v.spelled := by
  unfold Value.spelled
  cases hw : v.isWritable with
  | true => exact answersUnless_ok (by simp)
  | false => exact answersUnless_misuse ⟨rfl, rfl⟩

end

namespace Descriptor
variable {d e : Descriptor} {v w name index address append : Value} {path : List Nat} {i : Nat}
  {reset : Bool}

/-- The descriptor to which the positions of children lead. -/
def descendant? (d : Descriptor) : List Nat → Option Descriptor
  | [] => some d
  | i :: path => d.children[i]?.bind fun child => child.descendant? path

/-- The definition to which the positions of children lead. -/
def definitionAt? (v : Value) : List Nat → Option Value
  | [] => some v
  | i :: path => do
    let children ← v.get? "children"
    let items ← children.items.toOption
    definitionAt? (← items[i]?) path

/-- Why the code cannot name a control: it holds several values, and its name cannot be marked for
them, being neither a text nor a list; or its name cannot be written. -/
inductive Unmarkable (control : Value × Descriptor) : Misuse → Prop where
  | unmarked (several : control.2.isMultiple = true) (noText : control.1.asText? = none)
      (noList : ∀ items, control.1 ≠ .list items) : Unmarkable control .type
  | unwritable (unwritable : control.1.isWritable = false) : Unmarkable control .value

/-- Why an element cannot be read to a position: that cannot be written, or a control, its own one or a
child's, cannot be named. -/
def Unreadable (d : Descriptor) (name index : Value) (fault : Misuse) : Prop :=
  index.isWritable = false ∧ fault = .value ∨
    ∃ control ∈ (name, d) :: d.members, Unmarkable control fault

/-- What holds of the fields of a descriptor whose children are named with or without its own name. -/
structure Shaped (append : Value) (d : Descriptor) : Prop where
  named : d.name.truthy = true
  multiple : d.isMultiple = true → d.kind = .select ∨ d.kind = .autocomplete
  children : d.children ≠ [] ↔ d.kind = .group
  counted : d.childNames.length = d.children.length
  name : ∀ (i : Nat) (child : Descriptor), d.children[i]? = some child → d.childNames[i]? = some
    (if append.truthy then .text (d.name.plain ++ "[" ++ child.name.plain ++ "]") else child.name)
  /-- A number that is the position of a child finds it, with its name. -/
  found : ∀ (i : Nat) (address : Value), address.asInt? = some (i : Int) → i < d.children.length →
    ∃ name child, d.childNames[i]? = some name ∧ d.children[i]? = some child ∧
      d.child address = .ok (name, child)

/-! What was read fits together. -/

theorem Fits.counted (h : d.Fits) : d.childNames.length = d.children.length := by
  by_cases hk : d.kind = .group
  · exact (h.group hk).2
  · obtain ⟨hc, hn⟩ := h.single hk
    rw [hc, hn]
    rfl

theorem Fits.answers (h : d.Fits) (ha : address.asInt? = some (i : Int)) (hi : i < d.children.length) :
    ∃ name child, d.childNames[i]? = some name ∧ d.children[i]? = some child ∧
      d.child address = .ok (name, child) := by
  have hn : i < d.childNames.length := h.counted ▸ hi
  have hmember : d.members[i]? = some (d.childNames[i], d.children[i]) :=
    List.getElem?_zip_eq_some.mpr ⟨List.getElem?_eq_getElem hn, List.getElem?_eq_getElem hi⟩
  have hchild : d.child? address = some (d.childNames[i], d.children[i]) := by
    rw [child?_of_position ha, childAt?, if_pos (Int.natCast_nonneg i)]
    exact hmember
  refine ⟨d.childNames[i], d.children[i], List.getElem?_eq_getElem hn, List.getElem?_eq_getElem hi, ?_⟩
  exact child_of_some hchild

theorem qualify_eq_ok {child : Descriptor} {qualified : Value}
    (h : qualify name append child = .ok qualified) : qualified =
      if append.truthy then .text (name.plain ++ "[" ++ child.name.plain ++ "]") else child.name := by
  unfold qualify at h
  split at h
  · rename_i ha
    obtain ⟨own, hown, h⟩ := bind_eq_ok.mp h
    obtain ⟨other, hother, h⟩ := bind_eq_ok.mp h
    obtain ⟨-, rfl⟩ := Value.spelled_eq_ok.mp hown
    obtain ⟨-, rfl⟩ := Value.spelled_eq_ok.mp hother
    rw [if_pos ha]
    exact (Except.ok.inj h).symm
  · rename_i ha
    rw [if_neg ha]
    exact (Except.ok.inj h).symm

theorem Fits.shaped (h : d.Fits) (hn : d.children.mapM (qualify d.name append) = .ok d.childNames) :
    d.Shaped append where
  named := h.named
  multiple hm := by simpa [ElementKind.isSelect] using h.multiple hm
  children := ⟨fun hc => by_contra fun hk => hc (h.single hk).1, fun hk => (h.group hk).1⟩
  counted := h.counted
  name i child hc := by
    obtain ⟨hi, rfl⟩ := List.getElem?_eq_some_iff.mp hc
    have hname := List.getElem?_eq_getElem (h.counted ▸ hi)
    obtain ⟨other, hother, hq⟩ := getElem?_of_mapM hn hname
    obtain rfl := Option.some.inj (hc.symm.trans hother)
    rw [hname, qualify_eq_ok hq]
  found _ _ ha hi := h.answers ha hi

theorem parts_of_group {children : List Descriptor} {frozen : Value}
    (h : group name children append frozen = .ok d) :
    d.Fits ∧ d.children = children ∧
      d.children.mapM (qualify d.name append) = .ok d.childNames := by
  obtain ⟨names, hnames, h⟩ := bind_eq_ok.mp h
  obtain ⟨rfl, hfits⟩ := checked_eq_ok_iff.mp h
  exact ⟨hfits, rfl, hnames⟩

theorem parts_of_make {kind multiple frozen : Value}
    (h : make name kind multiple [] (.tuple []) frozen = .ok d) :
    d.Fits ∧ d.children = [] ∧ d.childNames = [] := by
  unfold make at h
  split at h
  · cases h
  · obtain ⟨names, hnames, h⟩ := bind_eq_ok.mp h
    cases hnames
    obtain ⟨rfl, hfits⟩ := checked_eq_ok_iff.mp h
    exact ⟨hfits, rfl, rfl⟩

theorem parts_of_childrenIn {entries : List (Value × Value)} {ds : List Descriptor}
    (h : childrenIn entries = .ok ds) :
    ds = [] ∨ ∃ children items, (Value.map entries).get? "children" = some children ∧
      children.items = .ok items ∧ items.mapM ofValue = .ok ds := by
  rw [childrenIn_eq] at h
  cases hgiven : (Value.map entries).get? "children" with
  | none =>
    rw [hgiven] at h
    cases h
    exact Or.inl rfl
  | some children =>
    rw [hgiven, Option.elim, ofItems_eq] at h
    obtain ⟨items, hi, h⟩ := bind_eq_ok.mp h
    exact Or.inr ⟨children, items, rfl, hi, h⟩

/-- A definition that can be read gives a descriptor that fits together, with its children read in
order from the definitions under their key. -/
theorem parts_of_ofValue (h : ofValue v = .ok d) :
    d.Fits ∧ d.children.mapM (qualify d.name (appendIn v)) = .ok d.childNames ∧
      (d.children = [] ∨ ∃ children items, v.get? "children" = some children ∧
        children.items = .ok items ∧ items.mapM ofValue = .ok d.children) := by
  by_cases hv : ∃ entries, v = .map entries
  · obtain ⟨entries, rfl⟩ := hv
    rw [ofValue] at h
    dsimp only at h
    split at h
    · cases h
    split at h
    · obtain ⟨children, hread, hgroup⟩ := bind_eq_ok.mp h
      obtain ⟨hfits, rfl, hnames⟩ := parts_of_group hgroup
      exact ⟨hfits, hnames, parts_of_childrenIn hread⟩
    · obtain ⟨hfits, hchildren, hnames⟩ := parts_of_make h
      exact ⟨hfits, by rw [hchildren, hnames]; rfl, Or.inl hchildren⟩
  · -- What is no mapping gives no descriptor, whether it has the word in it or not.
    have hno : ∀ entries, v ≠ .map entries := fun entries he => hv ⟨entries, he⟩
    rw [ofValue_of_no_mapping hno] at h
    obtain ⟨named, -, h⟩ := bind_eq_ok.mp h
    cases named <;> cases h

/-- What stands in a descriptor that was read was read itself, from the definition at the same place. -/
theorem exists_of_descendant? (h : ofValue v = .ok d) (hp : d.descendant? path = some e) :
    ∃ w, definitionAt? v path = some w ∧ ofValue w = .ok e := by
  induction path generalizing v d with
  | nil =>
    cases hp
    exact ⟨v, rfl, h⟩
  | cons i path ih =>
    obtain ⟨child, hc, hp⟩ := Option.bind_eq_some_iff.mp hp
    obtain ⟨-, -, hnone | ⟨children, items, hgiven, hitems, hread⟩⟩ := parts_of_ofValue h
    · rw [hnone] at hc
      cases hc
    obtain ⟨item, hi, hchild⟩ := getElem?_of_mapM hread hc
    obtain ⟨w, hw, he⟩ := ih hchild hp
    refine ⟨w, ?_, he⟩
    simp [definitionAt?, hgiven, hitems, hi, hw, Except.toOption]

theorem descendant?_append (d : Descriptor) (path more : List Nat) :
    d.descendant? (path ++ more) = (d.descendant? path).bind fun e => e.descendant? more := by
  induction path generalizing d with
  | nil => rfl
  | cons i path ih =>
    rw [List.cons_append, descendant?, descendant?, Option.bind_assoc]
    simp only [ih]

theorem fits_of_descendant? (h : ofValue v = .ok d) (hp : d.descendant? path = some e) : e.Fits := by
  obtain ⟨w, -, hw⟩ := exists_of_descendant? h hp
  exact (parts_of_ofValue hw).1

/-- The children of a descriptor stand below it. -/
theorem fits_of_mem (h : ofValue v = .ok d) (hp : d.descendant? path = some e) {child : Descriptor}
    (hc : child ∈ e.children) : child.Fits := by
  obtain ⟨i, hi⟩ := List.mem_iff_getElem?.mp hc
  have hchild : d.descendant? (path ++ [i]) = some child := by
    rw [descendant?_append, hp]
    simp [descendant?, hi]
  exact fits_of_descendant? h hchild

/-! The code for it. -/

/-- The mark changes nothing about whether a list can be written. -/
theorem areWritable_append_letters (items : List Value) (s : String) :
    Value.areWritable (items ++ Value.letters s) = Value.areWritable items := by
  induction items with
  | nil =>
    rw [List.nil_append, Value.letters]
    induction s.toList with
    | nil => rfl
    | cons c rest ih => simpa using ih
  | cons item rest ih => simp [ih]

/-- A text can always be marked. -/
theorem not_unmarkable_of_text {control : Value × Descriptor} {s : String}
    (h : control.1.asText? = some s) (fault : Misuse) : ¬ Unmarkable control fault := by
  intro hu
  cases hu with
  | unmarked _ noText => cases h.symm.trans noText
  | unwritable unwritable => cases (Value.isWritable_of_asText? h).symm.trans unwritable

theorem answers_markedName (h : d.isMultiple = true) :
    AnswersUnless (Unmarkable (name, d)) (multipleName name >>= Value.spelled) := by
  unfold multipleName
  split
  · rename_i s hs
    change AnswersUnless _ (Value.text _).spelled
    rw [Value.spelled_text]
    exact answersUnless_ok (not_unmarkable_of_text hs)
  · rename_i items _
    refine (answers_spelled (.list (items ++ Value.letters "[]"))).congr fun fault => ?_
    have hw : (Value.list (items ++ Value.letters "[]")).isWritable = (Value.list items).isWritable := by
      rw [Value.isWritable, Value.isWritable, areWritable_append_letters]
    rw [hw]
    constructor
    · intro hu
      cases hu with
      | unmarked _ _ noList => exact absurd rfl (noList items)
      | unwritable unwritable => exact ⟨unwritable, rfl⟩
    · rintro ⟨hwritable, rfl⟩
      exact .unwritable hwritable
  · rename_i hl hs
    exact answersUnless_misuse (.unmarked h (Option.eq_none_iff_forall_ne_some.mpr hs) hl)

theorem unmarkable_of_single {control : Value × Descriptor} (h : control.2.isMultiple = false)
    (fault : Misuse) :
    Unmarkable control fault ↔ control.1.isWritable = false ∧ fault = .value := by
  constructor
  · intro hu
    cases hu with
    | unmarked several => cases h.symm.trans several
    | unwritable unwritable => exact ⟨unwritable, rfl⟩
  · rintro ⟨hw, rfl⟩
    exact .unwritable hw

theorem answers_memberName {m : Value × Descriptor} (h : m.2.Fits) :
    AnswersUnless (Unmarkable m) (Extraction.memberName m) := by
  unfold Extraction.memberName
  cases hm : m.2.isMultiple with
  | false =>
    rw [Bool.and_false]
    exact (answers_spelled m.1).congr (unmarkable_of_single hm)
  | true =>
    rw [h.multiple hm]
    exact answers_markedName hm

/-- The code for a control of its own follows from the name by which it is read. -/
theorem placed_of_single (hk : d.kind ≠ .group) (name : Value) (reset : Bool) (place : String) :
    ∃ f, Extraction.placed d name reset place = f <$> Extraction.memberName (name, d) := by
  have hcode : ∀ (v : Value) (reading : String → List Piece) (restoring : List Piece),
      Extraction.single v reset reading restoring =
        (fun s => ⟨reading s, if reset then fieldOf s ++ restoring else []⟩) <$> v.spelled := by
    intro v reading restoring
    unfold Extraction.single
    cases v.spelled <;> rfl
  unfold Extraction.placed
  cases hd : d.kind with
  | field | checkbox | advcheckbox | radio =>
    rw [memberName_of_single (by rw [hd]; rfl)]
    exact ⟨_, hcode name _ _⟩
  | select | autocomplete =>
    cases hm : d.isMultiple with
    | false =>
      rw [memberName_of_single (by rw [hm, Bool.and_false])]
      exact ⟨_, hcode name _ _⟩
    | true =>
      have hname : Extraction.memberName (name, d) = multipleName name >>= Value.spelled := by
        simp only [Extraction.memberName, hd, hm]
        rfl
      rw [hname]
      refine ⟨fun s => ⟨readMultiple place s, if reset then fieldOf s ++ restoreSelect else []⟩, ?_⟩
      cases multipleName name with
      | error e => rfl
      | ok marked => exact hcode marked _ _
  | group => exact absurd hd hk

theorem answers_placeOf (index : Value) :
    AnswersUnless (fun fault => index.isWritable = false ∧ fault = .value)
      (Extraction.placeOf index) := by
  unfold Extraction.placeOf
  split
  · rename_i hn
    obtain rfl := (Value.isNull_iff index).mp hn
    exact answersUnless_ok (by simp [Value.isWritable])
  · exact (answers_spelled index).map fun s => "[" ++ s ++ "]"

/-- Whatever the kind of an element, the code for it can be written if its names can, and can be marked
where they need to be. -/
theorem answers_placed (h : d.Fits) (hc : ∀ child ∈ d.children, child.Fits) (name : Value)
    (reset : Bool) (place : String) :
    AnswersUnless (fun fault => ∃ control ∈ (name, d) :: d.members, Unmarkable control fault)
      (Extraction.placed d name reset place) := by
  by_cases hk : d.kind = .group
  · -- Its own name needs no mark, since only selects hold several values.
    have hsingle : d.isMultiple = false := by
      by_contra hm
      have hs := h.multiple (by simpa using hm)
      rw [hk] at hs
      cases hs
    have hmembers : AnswersUnless (fun fault => ∃ m ∈ d.members, Unmarkable m fault)
        (d.members.mapM Extraction.memberName) :=
      answersUnless_mapM fun m hm => answers_memberName (hc m.2 (List.of_mem_zip hm).2)
    have hown : AnswersUnless (Unmarkable (name, d)) name.spelled :=
      (answers_spelled name).congr (unmarkable_of_single hsingle)
    unfold Extraction.placed
    rw [hk]
    refine (hmembers.bind fun members => hown.map fun s => _).congr ?_
    simp [or_comm]
  · obtain ⟨f, hf⟩ := placed_of_single hk name reset place
    have hmembers : d.members = [] := by
      rw [members, (h.single hk).1, List.zip_nil_right]
    rw [hf, hmembers]
    exact ((answers_memberName h).map f).congr (by simp)

theorem answers_ofElement (h : d.Fits) (hc : ∀ child ∈ d.children, child.Fits) (name : Value)
    (reset : Bool) (index : Value) :
    AnswersUnless (d.Unreadable name index) (Extraction.ofElement d name reset index) :=
  (answers_placeOf index).bind fun place => answers_placed h hc name reset place

/-- Elements that are read together are put at the positions behind the first one. -/
theorem answers_ofElementsFrom {ds : List Descriptor}
    (h : ∀ d ∈ ds, d.Fits ∧ ∀ child ∈ d.children, child.Fits) (position : Nat) (reset : Bool) :
    AnswersUnless (fun fault => ∃ (i : Nat) (d : Descriptor), ds[i]? = some d ∧
        d.Unreadable d.name (.int (position + i : Nat)) fault)
      (Extraction.ofElementsFrom position reset ds) := by
  induction ds generalizing position with
  | nil => exact answersUnless_ok (by simp)
  | cons d rest ih =>
    obtain ⟨⟨hd, hc⟩, hrest⟩ := List.forall_mem_cons.mp h
    have hcode := (answers_ofElement hd hc d.name reset (.int position)).bind fun first =>
      (ih hrest (position + 1)).map fun others => (⟨.code "\n" :: first.reading ++ others.reading,
        first.restoring ++ others.restoring⟩ : Extraction)
    refine hcode.congr fun fault => ?_
    constructor
    · rintro ⟨_ | i, e, he, hu⟩
      · cases he
        exact Or.inl hu
      · exact Or.inr ⟨i, e, he, by rwa [Nat.add_right_comm, Nat.add_assoc]⟩
    · rintro (hu | ⟨i, e, he, hu⟩)
      · exact ⟨0, d, rfl, hu⟩
      · exact ⟨i + 1, e, he, by rwa [Nat.add_right_comm, Nat.add_assoc] at hu⟩

theorem answers_ofElements {ds : List Descriptor}
    (h : ∀ d ∈ ds, d.Fits ∧ ∀ child ∈ d.children, child.Fits) (reset : Bool) :
    AnswersUnless (fun fault => ∃ (i : Nat) (d : Descriptor), ds[i]? = some d ∧
      d.Unreadable d.name (.int i) fault) (Extraction.ofElements ds reset) :=
  ((answers_ofElementsFrom h 0 reset).map _).congr (by simp)

/-- Whatever stands in a descriptor that was read, at any depth, was read from the definition at that
place; its fields fit together, its children are found by their positions, and the code that reads it
in the browser, alone or together with others, ends in nothing but the errors of its names: one can
not be marked for several values or cannot be written. -/
theorem shape_of_read (h : ofValue v = .ok d) :
    (∀ path e, d.descendant? path = some e →
      (∃ w, definitionAt? v path = some w ∧ ofValue w = .ok e ∧ e.Shaped (appendIn w)) ∧
      ∀ name reset index,
        AnswersUnless (e.Unreadable name index) (Extraction.ofElement e name reset index)) ∧
    ∀ ds : List Descriptor, (∀ e ∈ ds, ∃ path, d.descendant? path = some e) → ∀ reset,
      AnswersUnless (fun fault => ∃ (i : Nat) (e : Descriptor), ds[i]? = some e ∧
        e.Unreadable e.name (.int i) fault) (Extraction.ofElements ds reset) := by
  refine ⟨fun path e hp => ?_, fun ds hds => ?_⟩
  · obtain ⟨w, hw, he⟩ := exists_of_descendant? h hp
    obtain ⟨hfits, hnames, -⟩ := parts_of_ofValue he
    exact ⟨⟨w, hw, he, hfits.shaped hnames⟩, answers_ofElement hfits fun _ hc => fits_of_mem h hp hc⟩
  · refine answers_ofElements fun e he => ?_
    obtain ⟨path, hp⟩ := hds e he
    exact ⟨fits_of_descendant? h hp, fun _ hc => fits_of_mem h hp hc⟩

/-- A group with a group in it; the children of the outer one keep their own names. -/
def contactDefinition : Value :=
  .map [(.text "name", .text "contact"), (.text "kind", .text "group"),
    (.text "appendName", .bool false), (.text "children", .list
      [.map [(.text "name", .text "email")],
        .map [(.text "name", .text "phones"), (.text "kind", .text "group"),
          (.text "children", .list [.map [(.text "name", .text "lines"),
            (.text "kind", .text "select"), (.text "multiple", .bool true)]])]])]

def phoneLines : Descriptor := ⟨.text "lines", .select, .bool true, [], [], .bool false⟩

def contact : Descriptor :=
  ⟨.text "contact", .group, .bool false,
    [⟨.text "email", .field, .bool false, [], [], .bool false⟩,
      ⟨.text "phones", .group, .bool false, [phoneLines], [.text "phones[lines]"], .bool false⟩],
    [.text "email", .text "phones"], .bool false⟩

theorem shape_of_read_contact :
    ofValue contactDefinition = .ok contact ∧ contact.descendant? [1, 0] = some phoneLines ∧
    (∃ w, definitionAt? contactDefinition [1, 0] = some w ∧ phoneLines.Shaped (appendIn w)) ∧
    (∃ code, Extraction.ofElement phoneLines (.text "phones[lines]") true .null = .ok code) ∧
    Extraction.ofElement phoneLines (.int 7) true .null = .error (.misuse .type) ∧
    ∃ code, Extraction.ofElements [contact, phoneLines] true = .ok code := by
  have hread : ofValue contactDefinition = .ok contact := by rfl
  have hbelow : contact.descendant? [1, 0] = some phoneLines := rfl
  have hplaces : ∀ e ∈ [contact, phoneLines], ∃ path, contact.descendant? path = some e := by
    rw [List.forall_mem_cons, List.forall_mem_singleton]
    exact ⟨⟨[], rfl⟩, [1, 0], hbelow⟩
  obtain ⟨hdeep, htogether⟩ := shape_of_read hread
  obtain ⟨⟨w, hw, -, hshape⟩, halone⟩ := hdeep [1, 0] phoneLines hbelow
  refine ⟨hread, hbelow, ⟨w, hw, hshape⟩, (halone _ _ _).exists_ok ?_, (halone _ _ _).eq_misuse ?_,
    (htogether _ hplaces true).exists_ok ?_⟩
  · rintro fault (⟨⟨⟩, _⟩ | ⟨control, hc, hu⟩)
    obtain rfl := List.mem_singleton.mp hc
    exact not_unmarkable_of_text rfl fault hu
  · refine fun other => ⟨?_, ?_⟩
    · rintro (⟨⟨⟩, _⟩ | ⟨control, hc, hu⟩)
      obtain rfl := List.mem_singleton.mp hc
      cases hu with
      | unmarked => rfl
      | unwritable unwritable => cases unwritable
    · rintro rfl
      exact Or.inr ⟨_, List.mem_cons_self, .unmarked rfl rfl (by simp)⟩
  · have hpositions : ∀ i < 2, (Value.int (i : Nat)).isWritable = true := by decide
    have hnames : ∀ e ∈ [contact, phoneLines], ∀ control ∈ (e.name, e) :: e.members,
        control.1.asText?.isSome = true := by
      simp [members, contact, phoneLines, Value.asText?, -Prod.forall]
    rintro fault ⟨i, e, he, ⟨hw, _⟩ | ⟨control, hc, hu⟩⟩
    · obtain ⟨hi, _⟩ := List.getElem?_eq_some_iff.mp he
      cases (hpositions i hi).symm.trans hw
    · have hname := hnames e (List.mem_of_getElem? he) control hc
      obtain ⟨s, hs⟩ := Option.isSome_iff_exists.mp hname
      exact not_unmarkable_of_text hs fault hu

end Descriptor

end FormGuard
