import FormGuard.Element.Reader
import FormGuard.Proofs.Action

/-! Reading descriptors: which definitions end in an error that is not the library's own. -/
namespace FormGuard
variable {e : Error} {v : Value}

/-- A value that yields nothing one by one: a number, a truth value, none at all. -/
def Value.Unlisted (v : Value) : Prop := ∀ items, v.items ≠ .ok items

theorem Value.foreign_items : Foreign v.items e ↔ v.Unlisted ∧ e = .misuse .type := by
  unfold Unlisted
  cases h : v.items with
  | ok items => simp
  | error d =>
    have hd : d = .misuse .type := by
      unfold items at h
      split at h
      iterate 4 cases h
      split at h
      · cases h
      · exact (Except.error.inj h).symm
    subst hd
    simp [Error.isOwn, eq_comm]

/-- Whether a word is in a value can be asked just where there is something to go through. -/
theorem Value.mentions_cases (word : String) (v : Value) :
    v.Unlisted ∧ v.mentions word = misuse .type ∨ ¬ v.Unlisted ∧ ∃ b, v.mentions word = .ok b := by
  cases v with
  | list items | tuple items | set items | map entries | text s | kind k | mode m =>
    exact Or.inr ⟨fun h => h _ rfl, _, rfl⟩
  | _ => exact Or.inl ⟨fun _ hi => (nomatch hi), rfl⟩

theorem Value.foreign_mentions {word : String} :
    Foreign (v.mentions word) e ↔ v.Unlisted ∧ e = .misuse .type := by
  rcases mentions_cases word v with ⟨hu, hm⟩ | ⟨hu, b, hb⟩
  · rw [hm]
    simp [hu, misuse, Error.isOwn, eq_comm]
  · rw [hb]
    simp [hu]

theorem Value.foreign_spelled : Foreign v.spelled e ↔ v.isWritable = false ∧ e = .misuse .value := by
  unfold spelled
  cases v.isWritable with
  | true => simp
  | false => simp [misuse, Error.isOwn, eq_comm]

theorem Value.get?_of_no_mapping (h : ∀ entries, v ≠ .map entries) (name : String) :
    v.get? name = none := by
  cases v with
  | map entries => exact absurd rfl (h entries)
  | _ => rfl

theorem Value.field_of_no_mapping (h : ∀ entries, v ≠ .map entries) (name : String) :
    v.field name = misuse .type := by
  cases v with
  | map entries => exact absurd rfl (h entries)
  | _ => rfl

/-- Going through a value one comes to an end with an error: there is nothing to go through, or one
comes to a bad item. -/
def Value.Stops (good : Value → Prop) (bad : Value → Error → Prop) (v : Value) (e : Error) : Prop :=
  v.Unlisted ∧ e = .misuse .type ∨
    ∃ items, v.items = .ok items ∧ ComesTo good (fun item => bad item e) items

theorem Value.foreign_mapM {α : Type} {f : Value → Except Error α} :
    Foreign (v.items >>= fun items => items.mapM f) e ↔
      v.Stops (fun item => ∃ a, f item = .ok a) (fun item => Foreign (f item)) e := by
  rw [foreign_bind, foreign_items]
  simp only [FormGuard.foreign_mapM, Stops]

theorem Value.foreign_forM {f : Value → Except Error Unit} :
    Foreign (v.items >>= fun items => items.forM f) e ↔
      v.Stops (fun item => f item = .ok ()) (fun item => Foreign (f item)) e := by
  rw [foreign_bind, foreign_items]
  simp only [FormGuard.foreign_forM, Stops]

theorem Value.stops_congr {good fine : Value → Prop} {bad wrong : Value → Error → Prop}
    (hg : ∀ item, good item ↔ fine item) (hb : ∀ item, bad item e ↔ wrong item e) :
    v.Stops good bad e ↔ v.Stops fine wrong e := by
  refine or_congr Iff.rfl (exists_congr fun items => and_congr Iff.rfl ?_)
  exact comesTo_congr (fun item _ => hg item) fun item _ => hb item

namespace Descriptor

/-- What a definition says the kind of an element is. -/
def kindIn (definition : Value) : Value :=
  (definition.get? "kind").getD (.text ElementKind.field.word)

/-- What a definition says about holding several values. -/
def multipleIn (definition : Value) : Value := (definition.get? "multiple").getD (.bool false)

/-- How a definition says that its children are named. -/
def appendIn (definition : Value) : Value := (definition.get? "appendName").getD (.bool true)

/-- The children that a definition gives. -/
def childrenOf (definition : Value) : Except Error (List Descriptor) :=
  (definition.get? "children").elim (.ok []) ofItems

/-- The kind of a control is none, or is not for the several values that it is said to hold, and what is
reported of that cannot be written. -/
inductive Unsayable (name kind multiple : Value) : Prop where
  | kind (unknown : kind.asText?.bind ElementKind.ofWord? = none)
      (unwritable : (name.isWritable && kind.isWritable) = false) : Unsayable name kind multiple
  | multiple {k : ElementKind} (known : kind.asText?.bind ElementKind.ofWord? = some k)
      (noSelect : k.isSelect = false) (several : multiple.truthy = true)
      (unwritable : name.isWritable = false) : Unsayable name kind multiple

/-- A group has no children, and its name cannot be written; or it is to be put before the name of a
child, and one of the two cannot be written. -/
inductive Unnamable (name append : Value) (children : List Descriptor) : Prop where
  | childless (none : children = []) (unwritable : name.isWritable = false) :
      Unnamable name append children
  | child {child : Descriptor} (appended : append.truthy = true) (member : child ∈ children)
      (unwritable : (name.isWritable && child.name.isWritable) = false) :
      Unnamable name append children

/-- What is wrong with a definition: there is nothing in it to go through, it is no mapping and has the
word for the name in it, or it is of a group and its children cannot be listed, or one cannot be
read. What else does not fit together is reported, unless that takes what cannot be written. -/
inductive Misfit : Value → Error → Prop where
  | unlisted {definition : Value} (unlisted : definition.Unlisted) :
      Misfit definition (.misuse .type)
  | listed {definition : Value} (noMapping : ∀ entries, definition ≠ .map entries)
      (named : definition.mentions "name" = .ok true) : Misfit definition (.misuse .attribute)
  | children {definition name children : Value} (named : definition.get? "name" = some name)
      (group : (kindIn definition).same (.text ElementKind.group.word) = true)
      (given : definition.get? "children" = some children) (unlisted : children.Unlisted) :
      Misfit definition (.misuse .type)
  | child {definition name children child : Value} {before after : List Value} {e : Error}
      (named : definition.get? "name" = some name)
      (group : (kindIn definition).same (.text ElementKind.group.word) = true)
      (given : definition.get? "children" = some children)
      (listed : children.items = .ok (before ++ child :: after))
      (read : ∀ other ∈ before, ∃ d, ofValue other = .ok d) (misfit : Misfit child e) :
      Misfit definition e
  | unnamed {definition : Value} (absent : definition.mentions "name" = .ok false)
      (unwritable : definition.isWritable = false) : Misfit definition (.misuse .value)
  | control {definition name : Value} (named : definition.get? "name" = some name)
      (single : (kindIn definition).same (.text ElementKind.group.word) = false)
      (unsayable : Unsayable name (kindIn definition) (multipleIn definition)) :
      Misfit definition (.misuse .value)
  | group {definition name : Value} {children : List Descriptor}
      (named : definition.get? "name" = some name)
      (group : (kindIn definition).same (.text ElementKind.group.word) = true)
      (read : childrenOf definition = .ok children)
      (unnamable : Unnamable name (appendIn definition) children) :
      Misfit definition (.misuse .value)

/-- What is wrong with the definitions of several elements. -/
abbrev Misfits (definitions : Value) (e : Error) : Prop :=
  definitions.Stops (fun item => ∃ d, ofValue item = .ok d) Misfit e

theorem ofEach_eq (items : List Value) : ofEach items = items.mapM ofValue := by
  induction items with
  | nil => rfl
  | cons item rest ih => rw [ofEach, ih, List.mapM_cons]

theorem ofKeys_eq (entries : List (Value × Value)) :
    ofKeys entries = (entries.map (·.1)).mapM ofValue := by
  induction entries with
  | nil => rfl
  | cons entry rest ih => rw [ofKeys, ih, List.map_cons, List.mapM_cons]

theorem childrenIn_eq (entries : List (Value × Value)) :
    childrenIn entries = ((Value.map entries).get? "children").elim (.ok []) ofItems := by
  induction entries with
  | nil => rfl
  | cons entry rest ih =>
    obtain ⟨key, v⟩ := entry
    rw [childrenIn, ih]
    unfold Value.get? Table.find?
    by_cases hk : key.same (.text "children") = true
    · simp [hk]
    · simp [hk]

theorem ofValue_of_no_mapping (h : ∀ entries, v ≠ .map entries) : ofValue v =
    v.mentions "name" >>= fun named => if named then Value.misuse .attribute else fault (.unnamed v) := by
  cases v with
  | map entries => exact absurd rfl (h entries)
  | _ => rw [ofValue]; exact h

/-- One letter is not long enough for the word. -/
theorem ofValue_letter (c : Char) :
    ofValue (.text c.toString) = fault (.unnamed (.text c.toString)) := by
  have hm : (Value.text c.toString).mentions "name" = .ok false := by
    change Except.ok (Text.occursIn "name".toList c.toString.toList) = _
    have hc : c.toString.toList = [c] := by simp
    rw [hc]
    simp [Text.occursIn, List.isPrefixOf]
  rw [ofValue_of_no_mapping (by simp), hm]
  rfl

theorem mapM_letters (s : String) : (Value.letters s).mapM ofValue =
    (Value.letters s).head?.elim (.ok []) fun letter => fault (.unnamed letter) := by
  unfold Value.letters
  cases s.toList with
  | nil => rfl
  | cons c rest =>
    rw [List.map_cons, List.mapM_cons, ofValue_letter]
    rfl

/-- Definitions of elements are read one by one. -/
theorem ofItems_eq (v : Value) : ofItems v = v.items >>= fun items => items.mapM ofValue := by
  cases v with
  | list items | tuple items | set items =>
    rw [ofItems, ofEach_eq]
    rfl
  | map entries =>
    rw [ofItems, ofKeys_eq]
    rfl
  | text s | kind k | mode m =>
    rw [ofItems]
    · change _ = (Value.letters _).mapM ofValue
      rw [mapM_letters]
      dsimp only [Value.asText?]
      generalize Value.letters _ = letters
      cases letters <;> rfl
    all_goals simp
  | _ =>
    rw [ofItems]
    · rfl
    all_goals simp

/-- A fault escapes where it cannot be written. -/
theorem foreign_fault {α : Type} {f : DescriptorFault} : Foreign (fault f : Except Error α) e ↔
    Value.areWritable f.named = false ∧ e = .misuse .value := foreign_raise rfl

theorem foreign_ofValue_of_no_mapping (h : ∀ entries, v ≠ .map entries) :
    Foreign (ofValue v) e ↔ Misfit v e := by
  rw [ofValue_of_no_mapping h, foreign_bind, Value.foreign_mentions]
  constructor
  · rintro (⟨hu, rfl⟩ | ⟨named, hn, hf⟩)
    · exact .unlisted hu
    · cases named with
      | true =>
        obtain ⟨rfl, _⟩ := foreign_error.mp hf
        exact .listed h hn
      | false =>
        obtain ⟨hw, rfl⟩ := foreign_fault.mp hf
        exact .unnamed hn (by simpa [DescriptorFault.named] using hw)
  · intro hm
    cases hm with
    | unlisted unlisted => exact Or.inl ⟨unlisted, rfl⟩
    | listed _ named => exact Or.inr ⟨true, named, rfl, rfl⟩
    | unnamed absent unwritable =>
      exact Or.inr ⟨false, absent, foreign_fault.mpr ⟨by simp [DescriptorFault.named, unwritable], rfl⟩⟩
    | children named | child named | control named | group named =>
      cases (Value.get?_of_no_mapping h "name").symm.trans named

section
variable {entries : List (Value × Value)} {name append kind multiple frozen : Value}
  {children : List Descriptor}

/-- A name is put before that of a child where both can be written. -/
theorem foreign_qualify {child : Descriptor} : Foreign (qualify name append child) e ↔
    (append.truthy = true ∧ (name.isWritable && child.name.isWritable) = false) ∧
      e = .misuse .value := by
  unfold qualify
  cases append.truthy with
  | false => exact iff_of_false (not_foreign_ok _ e) (by simp)
  | true =>
    rw [if_pos rfl, foreign_both, Value.foreign_spelled, Value.foreign_spelled]
    cases hw : name.isWritable with
    | false => simp
    | true => simp [Value.spelled, hw]

theorem qualify_cases (name append : Value) (child : Descriptor) :
    (∃ qualified, qualify name append child = .ok qualified) ∨
      append.truthy = true ∧ (name.isWritable && child.name.isWritable) = false := by
  unfold qualify Value.spelled
  cases append.truthy <;> cases name.isWritable <;> cases child.name.isWritable <;>
    simp [Value.misuse, bind, Except.bind, pure, Except.pure]

theorem foreign_qualified : Foreign (children.mapM (qualify name append)) e ↔
    (∃ child ∈ children,
      append.truthy = true ∧ (name.isWritable && child.name.isWritable) = false) ∧
      e = .misuse .value := by
  rw [foreign_mapM]
  simp only [foreign_qualify, comesTo_and]
  rw [comesTo_iff_exists fun child _ => qualify_cases name append child]

/-- A group with a name for each child is refused where it has no children. -/
theorem foreign_checked_group {qualified : List Value} (h : qualified.length = children.length) :
    Foreign (checked ⟨name, .group, .bool false, children, qualified, frozen⟩) e ↔
      (children = [] ∧ name.isWritable = false) ∧ e = .misuse .value := by
  unfold checked
  cases hn : name.truthy with
  | false =>
    refine iff_of_false ?_ ?_
    · rintro ⟨⟨⟩, ⟨⟩⟩
    · rintro ⟨⟨_, hw⟩, _⟩
      cases hn.symm.trans (Value.truthy_of_not_isWritable hw)
  | true =>
    cases children with
    | nil => simp [isMultiple, foreign_fault, DescriptorFault.named]
    | cons child rest => simp [isMultiple, h]

/-- With the children read, only names that cannot be written escape. -/
theorem foreign_group : Foreign (group name children append frozen) e ↔
    Unnamable name append children ∧ e = .misuse .value := by
  unfold group
  rw [foreign_bind, foreign_qualified]
  constructor
  · rintro (⟨⟨child, hm, ha, hw⟩, rfl⟩ | ⟨qualified, hq, h⟩)
    · exact ⟨.child ha hm hw, rfl⟩
    · obtain ⟨⟨hnone, hw⟩, rfl⟩ := (foreign_checked_group (length_of_mapM hq)).mp h
      exact ⟨.childless hnone hw, rfl⟩
  · rintro ⟨hu, rfl⟩
    cases hu with
    | child appended member unwritable => exact Or.inl ⟨⟨_, member, appended, unwritable⟩, rfl⟩
    | childless none unwritable =>
      subst none
      exact Or.inr ⟨[], rfl, (foreign_checked_group rfl).mpr ⟨⟨rfl, unwritable⟩, rfl⟩⟩

/-- A control that is no group is refused where it is to hold several values and is no select. -/
theorem foreign_checked_single {k : ElementKind} (hk : k ≠ .group) :
    Foreign (checked ⟨name, k, multiple, [], [], frozen⟩) e ↔
      (multiple.truthy = true ∧ k.isSelect = false ∧ name.isWritable = false) ∧
        e = .misuse .value := by
  have hchecked : checked ⟨name, k, multiple, [], [], frozen⟩ =
      if !name.truthy then fault .nameless
      else if multiple.truthy && !k.isSelect then fault (.multiple name k)
      else .ok ⟨name, k, multiple, [], [], frozen⟩ := by
    simp [checked, isMultiple, hk]
  rw [hchecked]
  constructor
  · intro h
    split at h
    · obtain ⟨⟨⟩, _⟩ := foreign_fault.mp h
    · split at h
      · rename_i hmultiple
        rw [Bool.and_eq_true, Bool.not_eq_true'] at hmultiple
        obtain ⟨hw, rfl⟩ := foreign_fault.mp h
        exact ⟨⟨hmultiple.1, hmultiple.2, by simpa [DescriptorFault.named] using hw⟩, rfl⟩
      · exact absurd h (not_foreign_ok _ e)
  · rintro ⟨⟨hm, hs, hw⟩, rfl⟩
    simp [Value.truthy_of_not_isWritable hw, hm, hs, foreign_fault, DescriptorFault.named, hw]

/-- What is no group has a kind of its own, or none. -/
theorem foreign_make (hk : kind.same (.text ElementKind.group.word) = false) :
    Foreign (make name kind multiple [] (.tuple []) frozen) e ↔
      Unsayable name kind multiple ∧ e = .misuse .value := by
  unfold make
  cases hkind : kind.asText?.bind ElementKind.ofWord? with
  | none =>
    dsimp only
    rw [foreign_fault]
    refine and_congr_left fun _ => ⟨fun hw => .kind hkind (by simpa [DescriptorFault.named] using hw), ?_⟩
    intro h
    cases h with
    | kind _ unwritable => simpa [DescriptorFault.named] using unwritable
    | multiple known => cases hkind.symm.trans known
  | some k =>
    have hgroup : k ≠ .group := by
      rintro rfl
      obtain ⟨s, hs, hword⟩ := Option.bind_eq_some_iff.mp hkind
      obtain rfl := ElementKind.word_of_ofWord? hword
      cases hk.symm.trans (Value.same_of_asText? hs)
    change Foreign (checked ⟨name, k, multiple, [], [], frozen⟩) e ↔ _
    rw [foreign_checked_single hgroup]
    refine and_congr_left fun _ => ⟨fun ⟨hm, hs, hw⟩ => .multiple hkind hs hm hw, ?_⟩
    intro h
    cases h with
    | kind unknown => cases hkind.symm.trans unknown
    | multiple known noSelect several unwritable =>
      obtain rfl := Option.some.inj (hkind.symm.trans known)
      exact ⟨several, noSelect, unwritable⟩

theorem foreign_ofValue_unnamed (hn : (Value.map entries).get? "name" = none) :
    Foreign (ofValue (.map entries)) e ↔
      (Value.map entries).isWritable = false ∧ e = .misuse .value := by
  rw [ofValue]
  dsimp only
  rw [hn]
  dsimp only
  rw [foreign_fault]
  simp [DescriptorFault.named]

theorem foreign_ofValue_single (hn : (Value.map entries).get? "name" = some name)
    (hk : (kindIn (.map entries)).same (.text ElementKind.group.word) = false) :
    Foreign (ofValue (.map entries)) e ↔
      Unsayable name (kindIn (.map entries)) (multipleIn (.map entries)) ∧ e = .misuse .value := by
  rw [ofValue]
  dsimp only
  rw [hn]
  change Foreign (if (kindIn (.map entries)).same (.text ElementKind.group.word) then _ else _) e ↔ _
  rw [hk, if_neg Bool.false_ne_true]
  exact foreign_make hk

theorem foreign_ofValue_group (hn : (Value.map entries).get? "name" = some name)
    (hk : (kindIn (.map entries)).same (.text ElementKind.group.word) = true) :
    Foreign (ofValue (.map entries)) e ↔ Foreign (childrenOf (.map entries)) e ∨
      ∃ children, childrenOf (.map entries) = .ok children ∧
        Unnamable name (appendIn (.map entries)) children ∧ e = .misuse .value := by
  rw [ofValue]
  dsimp only
  rw [hn]
  change Foreign (if (kindIn (.map entries)).same (.text ElementKind.group.word) then _ else _) e ↔ _
  rw [hk, if_pos rfl, foreign_bind, childrenIn_eq]
  exact or_congr Iff.rfl (exists_congr fun children => and_congr_right fun _ => foreign_group)

theorem foreign_childrenOf : Foreign (childrenOf v) e ↔
    ∃ children, v.get? "children" = some children ∧ Foreign (ofItems children) e := by
  unfold childrenOf
  cases v.get? "children" with
  | none => simp
  | some children => simp

end

theorem misfit_of_children {entries : List (Value × Value)} {name children : Value}
    (hn : (Value.map entries).get? "name" = some name)
    (hk : (kindIn (.map entries)).same (.text ElementKind.group.word) = true)
    (hc : (Value.map entries).get? "children" = some children) (h : Misfits children e) :
    Misfit (.map entries) e := by
  rcases h with ⟨hu, rfl⟩ | ⟨items, hi, hcomes⟩
  · exact .children hn hk hc hu
  · obtain ⟨before, child, after, rfl, hread, hm⟩ := comesTo_iff.mp hcomes
    exact .child hn hk hc hi hread hm

theorem foreign_each : Foreign (ofItems v) e ↔
    v.Stops (fun item => ∃ d, ofValue item = .ok d) (fun item => Foreign (ofValue item)) e := by
  rw [ofItems_eq, Value.foreign_mapM]

/-- A text has no letter in it that could be read. -/
theorem not_foreign_letters (s : String) : ¬ ComesTo (fun item => ∃ d, ofValue item = .ok d)
    (fun item => Foreign (ofValue item) e) (Value.letters s) := by
  rw [← foreign_mapM, mapM_letters]
  unfold Value.letters
  cases s.toList with
  | nil => exact not_foreign_ok _ e
  | cons c rest =>
    change ¬ Foreign (fault (.unnamed (.text c.toString))) e
    simp [foreign_fault, DescriptorFault.named]

theorem misfits_of_plain (hi : (∃ s, v.items = .ok (Value.letters s)) ∨ v.items = Value.misuse .type)
    (h : Foreign (ofItems v) e) : Misfits v e := by
  rcases foreign_each.mp h with h | ⟨items, hok, hcomes⟩
  · exact Or.inl h
  · rcases hi with ⟨s, hs⟩ | hm
    · obtain rfl := Except.ok.inj (hok.symm.trans hs)
      exact absurd hcomes (not_foreign_letters s)
    · cases hok.symm.trans hm

mutual

theorem misfit_of_ofValue : ∀ v, Foreign (ofValue v) e → Misfit v e
  | .map entries, h => by
    cases hn : (Value.map entries).get? "name" with
    | none =>
      obtain ⟨hw, rfl⟩ := (foreign_ofValue_unnamed hn).mp h
      exact .unnamed (by simp [Value.mentions, hn]) hw
    | some name =>
      cases hk : (kindIn (.map entries)).same (.text ElementKind.group.word) with
      | false =>
        obtain ⟨hu, rfl⟩ := (foreign_ofValue_single hn hk).mp h
        exact .control hn hk hu
      | true =>
        obtain hread | ⟨children, hread, hu, rfl⟩ := (foreign_ofValue_group hn hk).mp h
        · obtain ⟨children, hc, h⟩ := foreign_childrenOf.mp hread
          exact misfit_of_children hn hk hc (misfits_under entries hc h)
        · exact .group hn hk hread hu
  | .null, h | .bool _, h | .int _, h | .float _, h | .text _, h | .list _, h | .tuple _, h
  | .set _, h | .compiled _, h | .pattern _, h | .kind _, h | .mode _, h | .ruleClass _, h
  | .ruleObject _ _, h | .external _, h => (foreign_ofValue_of_no_mapping (by simp)).mp h

theorem misfits_under : ∀ entries {children}, (Value.map entries).get? "children" = some children →
    Foreign (ofItems children) e → Misfits children e
  | [], _, hc, _ => by cases hc
  | (key, v) :: rest, children, hc, h => by
    by_cases hk : key.same (.text "children") = true
    · obtain rfl : v = children := by simpa [Value.get?, Table.find?, hk] using hc
      exact misfits_of_ofItems v h
    · refine misfits_under rest ?_ h
      simpa [Value.get?, Table.find?, hk] using hc

theorem misfits_of_ofItems : ∀ v, Foreign (ofItems v) e → Misfits v e
  | .list items, h | .tuple items, h | .set items, h => by
    rcases foreign_each.mp h with h | ⟨_, ⟨⟩, hcomes⟩
    · exact Or.inl h
    · exact Or.inr ⟨items, rfl, comesTo_misfit items hcomes⟩
  | .map entries, h => by
    rcases foreign_each.mp h with h | ⟨_, ⟨⟩, hcomes⟩
    · exact Or.inl h
    · exact Or.inr ⟨_, rfl, comesTo_misfit_key entries hcomes⟩
  | .text _, h | .kind _, h | .mode _, h => misfits_of_plain (Or.inl ⟨_, rfl⟩) h
  | .null, h | .bool _, h | .int _, h | .float _, h | .compiled _, h | .pattern _, h
  | .ruleClass _, h | .ruleObject _ _, h | .external _, h => misfits_of_plain (Or.inr rfl) h

theorem comesTo_misfit : ∀ items, ComesTo (fun item => ∃ d, ofValue item = .ok d)
    (fun item => Foreign (ofValue item) e) items →
      ComesTo (fun item => ∃ d, ofValue item = .ok d) (fun item => Misfit item e) items
  | [], h => by cases h
  | item :: rest, h => by
    rcases comesTo_cons.mp h with h | ⟨hread, h⟩
    · exact .here (misfit_of_ofValue item h)
    · exact .later hread (comesTo_misfit rest h)

theorem comesTo_misfit_key : ∀ entries : List (Value × Value),
    ComesTo (fun item => ∃ d, ofValue item = .ok d) (fun item => Foreign (ofValue item) e)
      (entries.map (·.1)) →
      ComesTo (fun item => ∃ d, ofValue item = .ok d) (fun item => Misfit item e)
        (entries.map (·.1))
  | [], h => by cases h
  | (key, _) :: rest, h => by
    rcases comesTo_cons.mp h with h | ⟨hread, h⟩
    · exact .here (misfit_of_ofValue key h)
    · exact .later hread (comesTo_misfit_key rest h)

end

theorem foreign_of_misfit (h : Misfit v e) : Foreign (ofValue v) e := by
  induction h with
  | @unlisted definition unlisted =>
    refine (foreign_ofValue_of_no_mapping ?_).mpr (.unlisted unlisted)
    rintro entries rfl
    exact unlisted _ rfl
  | listed noMapping named => exact (foreign_ofValue_of_no_mapping noMapping).mpr (.listed noMapping named)
  | @children definition name children named group given unlisted =>
    cases definition with
    | map entries =>
      exact (foreign_ofValue_group named group).mpr (Or.inl (foreign_childrenOf.mpr
        ⟨children, given, foreign_each.mpr (Or.inl ⟨unlisted, rfl⟩)⟩))
    | _ => cases named
  | @child definition name children child before after e named group given listed read _ ih =>
    cases definition with
    | map entries =>
      have hcomes : ComesTo (fun item => ∃ d, ofValue item = .ok d)
          (fun item => Foreign (ofValue item) e) (before ++ child :: after) :=
        comesTo_iff.mpr ⟨before, child, after, rfl, read, ih⟩
      exact (foreign_ofValue_group named group).mpr (Or.inl (foreign_childrenOf.mpr
        ⟨children, given, foreign_each.mpr (Or.inr ⟨_, listed, hcomes⟩)⟩))
    | _ => cases named
  | @unnamed definition absent unwritable =>
    by_cases hm : ∃ entries, definition = .map entries
    · obtain ⟨entries, rfl⟩ := hm
      have hn : (Value.map entries).get? "name" = none := by simpa [Value.mentions] using absent
      exact (foreign_ofValue_unnamed hn).mpr ⟨unwritable, rfl⟩
    · exact (foreign_ofValue_of_no_mapping fun entries h => hm ⟨entries, h⟩).mpr
        (.unnamed absent unwritable)
  | @control definition name named single unsayable =>
    cases definition with
    | map entries => exact (foreign_ofValue_single named single).mpr ⟨unsayable, rfl⟩
    | _ => cases named
  | @group definition name children named group read unnamable =>
    cases definition with
    | map entries =>
      exact (foreign_ofValue_group named group).mpr (Or.inr ⟨children, read, unnamable, rfl⟩)
    | _ => cases named

/-- A definition fails with an error that is not the library's own just where it is a misfit. -/
theorem foreign_ofValue : Foreign (ofValue v) e ↔ Misfit v e :=
  ⟨misfit_of_ofValue v, foreign_of_misfit⟩

theorem foreign_ofItems : Foreign (ofItems v) e ↔ Misfits v e :=
  foreign_each.trans (Value.stops_congr (fun _ => Iff.rfl) fun _ => foreign_ofValue)

end Descriptor

end FormGuard
