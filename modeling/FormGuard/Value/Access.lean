import FormGuard.Error
import FormGuard.Table
import FormGuard.Text.Occurrence

/-! Reading values whose shape is not known beforehand; the wrong shape is an error. -/
namespace FormGuard.Value

/-- Numbers count as true unless zero, texts and collections unless empty. -/
def truthy : Value → Bool
  | .null => false
  | .bool b => b
  | .int i => i != 0
  | .float d => d.truthy
  | .text s => !s.isEmpty
  | .list items | .tuple items | .set items => !items.isEmpty
  | .map entries => !entries.isEmpty
  | _ => true

/-- The value itself, or another one where it counts as false. -/
def orElse (v w : Value) : Value := if v.truthy then v else w

def isNull : Value → Bool
  | .null => true
  | _ => false

/-- Classes are called to make instances. -/
def isCallable : Value → Bool
  | .external ref => ref.callable
  | .ruleClass _ => true
  | _ => false

def misuse {α : Type} (fault : Misuse) : Except Error α := .error (.misuse fault)

/-- A value as text, if it can be written. -/
def spelled (v : Value) : Except Error String :=
  if v.isWritable then .ok v.plain else misuse .value

/-- A value as rules test it, if it can be written. -/
def written (v : Value) : Except Error String :=
  if v.isWritable then .ok v.tested else misuse .value

/-- The characters of a text, each as a text. -/
def letters (s : String) : List Value := s.toList.map fun c => .text c.toString

/-- What a value yields one by one: a mapping its keys, a text its characters. -/
def items (v : Value) : Except Error (List Value) :=
  match v with
  | .list items | .tuple items | .set items => .ok items
  | .map entries => .ok (entries.map (·.1))
  | v =>
    match v.asText? with
    | some s => .ok (letters s)
    | none => misuse .type

/-- The only two things a value yields. -/
def pair (v : Value) : Except Error (Value × Value) := do
  match ← v.items with
  | [a, b] => return (a, b)
  | _ => misuse .value

/-- Makes sure that a value can be a key. -/
def needKey (v : Value) : Except Error Unit := if v.isKey then .ok () else misuse .type

/-- The value under a key of a mapping. -/
def get? (v : Value) (name : String) : Option Value :=
  match v with
  | .map entries => (⟨entries⟩ : Table Value).find? (.text name)
  | _ => none

/-- Whether a word is among what a value holds; for a text, whether it is a part of it. -/
def mentions (word : String) (v : Value) : Except Error Bool :=
  match v with
  | .map _ => .ok (v.get? word).isSome
  | .list items | .tuple items | .set items => .ok (items.any fun item => item.same (.text word))
  | v =>
    match v.asText? with
    | some s => .ok (Text.occursIn word.toList s.toList)
    | none => misuse .type

/-- The value under a key that has to be there. -/
def field (v : Value) (name : String) : Except Error Value :=
  match v with
  | .map _ =>
    match v.get? name with
    | some w => .ok w
    | none => misuse .key
  | _ => misuse .type

/-- The value under a key that may be missing. -/
def fieldOr (v : Value) (name : String) (default : Value) : Except Error Value :=
  match v with
  | .map _ => .ok ((v.get? name).getD default)
  | _ => misuse .attribute

/-- The entries of a mapping. -/
def entries (v : Value) : Except Error (List (Value × Value)) :=
  match v with
  | .map entries => .ok entries
  | _ => misuse .attribute

/-- The entries of a mapping; other values have none. -/
def ownEntries : Value → List (Value × Value)
  | .map entries => entries
  | _ => []

theorem needKey_eq_ok {v : Value} {u : Unit} : v.needKey = .ok u ↔ v.isKey = true := by
  unfold needKey
  cases v.isKey <;> simp [misuse]

@[simp] theorem truthy_text (s : String) : truthy (.text s) = !s.isEmpty := rfl

@[simp] theorem truthy_bool (b : Bool) : truthy (.bool b) = b := rfl

theorem truthy_key (v : Value) : v.key.truthy = v.truthy := by
  cases v with
  | bool b => cases b <;> rfl
  | kind k => cases k <;> rfl
  | mode m => cases m <;> rfl
  | list items | tuple items | set items => cases items <;> rfl
  | map entries => cases entries <;> rfl
  | float d =>
    rw [key]
    cases hi : d.integral? with
    | none => rfl
    | some i => exact (Double.truthy_of_integral? hi).symm
  | _ => rfl

/-- Values that count as the same count as true together. -/
theorem truthy_congr {v w : Value} (h : v.same w = true) : v.truthy = w.truthy := by
  rw [← truthy_key v, same_iff.mp h, truthy_key w]

theorem isWritable_of_asText? {v : Value} {s : String} (h : v.asText? = some s) :
    v.isWritable = true := by
  cases v with
  | text t | kind k | mode m => simp [isWritable]
  | _ => cases h

/-- What counts as false can be written. -/
theorem truthy_of_not_isWritable {v : Value} (h : v.isWritable = false) : v.truthy = true := by
  cases v with
  | int i =>
    rw [truthy, bne_iff_ne]
    rintro rfl
    simp [isWritable, Text.maxDigits] at h
  | list items | tuple items | set items | map items =>
    cases items with
    | nil => simp [isWritable, areWritableEntries] at h
    | cons item rest => rfl
  | _ => simp [isWritable] at h

@[simp] theorem written_text (s : String) : written (.text s) = .ok s := by simp [written]

@[simp] theorem spelled_text (s : String) : spelled (.text s) = .ok s := by simp [spelled]

theorem spelled_eq_ok {v : Value} {s : String} :
    v.spelled = .ok s ↔ v.isWritable = true ∧ v.plain = s := by
  unfold spelled
  cases v.isWritable <;> simp [misuse]

theorem written_eq_ok {v : Value} {s : String} :
    v.written = .ok s ↔ v.isWritable = true ∧ v.tested = s := by
  unfold written
  cases v.isWritable <;> simp [misuse]

@[simp] theorem isNull_null : isNull .null = true := rfl

theorem isNull_iff (v : Value) : v.isNull = true ↔ v = .null := by
  cases v <;> simp [isNull]

end FormGuard.Value
