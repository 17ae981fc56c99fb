import FormGuard.Element.Kind
import FormGuard.Value.Access

/-! Element descriptors: the structural view of one form control or a group of them. -/
namespace FormGuard

structure Descriptor where
  name : Value
  kind : ElementKind
  /-- Whether a select holds several values. -/
  multiple : Value
  children : List Descriptor
  /-- The name under which the form knows each child. -/
  childNames : List Value
  /-- Frozen controls are not checked in the browser. -/
  frozen : Value

namespace Descriptor

def fault {α : Type} (f : DescriptorFault) : Except Error α := Error.raise (.descriptor f)

def isMultiple (d : Descriptor) : Bool := d.multiple.truthy

def isFrozen (d : Descriptor) : Bool := d.frozen.truthy

/-- Whether the fields fit together: only selects hold several values, and exactly groups have
children, at least one, each with its name. -/
def checked (d : Descriptor) : Except Error Descriptor :=
  if !d.name.truthy then fault .nameless
  else if d.isMultiple && !d.kind.isSelect then fault (.multiple d.name d.kind)
  else if d.kind == .group then
    if d.children.isEmpty then fault (.noChildren d.name)
    else if d.childNames.length != d.children.length then
      fault (.nameCount d.name d.children.length d.childNames.length)
    else .ok d
  else if d.children.isEmpty && d.childNames.isEmpty then .ok d
  else fault (.hasChildren d.name d.kind)

def make (name kind multiple : Value) (children : List Descriptor) (childNames frozen : Value) :
    Except Error Descriptor :=
  match kind.asText?.bind ElementKind.ofWord? with
  | none => fault (.unknownKind name kind)
  | some kind => do checked ⟨name, kind, multiple, children, ← childNames.items, frozen⟩

/-- The name of a child inside its group: `group[child]`, or its own. -/
def qualify (name append : Value) (child : Descriptor) : Except Error Value :=
  if append.truthy then do
    return .text ((← name.spelled) ++ "[" ++ (← child.name.spelled) ++ "]")
  else .ok child.name

def group (name : Value) (children : List Descriptor) (append frozen : Value) :
    Except Error Descriptor := do
  checked ⟨name, .group, .bool false, children, ← children.mapM (qualify name append), frozen⟩

/-- The children's kind, when they all have one. -/
def groupKind? (d : Descriptor) : Option ElementKind :=
  match d.children with
  | [] => none
  | first :: rest => if rest.all fun child => child.kind == first.kind then some first.kind else none

/-- The children under their names. -/
def members (d : Descriptor) : List (Value × Descriptor) := d.childNames.zip d.children

/-- The first child with this own name or name in the group. -/
def childNamed? (d : Descriptor) (name : Value) : Option (Value × Descriptor) :=
  d.members.find? fun (qualified, child) => child.name.same name || qualified.same name

/-- The child at this position. -/
def childAt? (d : Descriptor) (position : Int) : Option (Value × Descriptor) :=
  if 0 ≤ position then d.members[position.toNat]? else none

/-- A child by position or by name. -/
def child? (d : Descriptor) (address : Value) : Option (Value × Descriptor) :=
  match address with
  | .int i => d.childAt? i
  | .bool b => d.childAt? (if b then 1 else 0)
  | name => d.childNamed? name

def child (d : Descriptor) (address : Value) : Except Error (Value × Descriptor) :=
  match d.child? address with
  | some found => .ok found
  | none => Error.raise (.noChild d.name address)

theorem child_of_some {d : Descriptor} {address : Value} {found : Value × Descriptor}
    (h : d.child? address = some found) : d.child address = .ok found := by
  rw [child, h]

theorem child_of_none {d : Descriptor} {address : Value} (h : d.child? address = none) :
    d.child address = Error.raise (.noChild d.name address) := by
  rw [child, h]

/-- The fields fit together. -/
structure Fits (d : Descriptor) : Prop where
  named : d.name.truthy = true
  multiple : d.isMultiple = true → d.kind.isSelect = true
  group : d.kind = .group → d.children ≠ [] ∧ d.childNames.length = d.children.length
  single : d.kind ≠ .group → d.children = [] ∧ d.childNames = []

/-- What is checked stays as it is, and passes exactly if its fields fit together. -/
theorem checked_eq_ok_iff {d e : Descriptor} : checked d = .ok e ↔ e = d ∧ d.Fits := by
  constructor
  · intro h
    unfold checked fault Error.raise at h
    split at h
    · cases h
    rename_i hnamed
    split at h
    · cases h
    rename_i hmultiple
    have hn : d.name.truthy = true := by simpa using hnamed
    have hm : d.isMultiple = true → d.kind.isSelect = true := by simpa using hmultiple
    split at h
    · rename_i hk
      split at h
      · cases h
      split at h
      · cases h
      exact ⟨(Except.ok.inj h).symm, hn, hm, by simp_all, fun hne => absurd (eq_of_beq hk) hne⟩
    · rename_i hk
      split at h
      · exact ⟨(Except.ok.inj h).symm, hn, hm, fun he => absurd (beq_iff_eq.mpr he) hk, by simp_all⟩
      · cases h
  · rintro ⟨rfl, h⟩
    unfold checked
    rw [h.named, if_neg (by simp), if_neg (by simpa using h.multiple)]
    by_cases hk : e.kind = .group
    · obtain ⟨hchildren, hnames⟩ := h.group hk
      simp [hk, hchildren, hnames]
    · obtain ⟨hchildren, hnames⟩ := h.single hk
      simp [hk, hchildren, hnames]

theorem fits_of_checked {d : Descriptor} (h : checked d = .ok d) : d.Fits :=
  (checked_eq_ok_iff.mp h).2

end Descriptor

end FormGuard
