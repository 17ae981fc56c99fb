import FormGuard.Value

/-! Values as keys: which can be keys, and when two count as the same. -/
namespace FormGuard.Value

/-- The text a value is: the named constants of the library are their words. -/
def asText? : Value → Option String
  | .text s => some s
  | .kind k => some k.word
  | .mode m => some m.word
  | _ => none

mutual

/-- One representative of the values that count as the same: whole numbers agree whatever their
type, and a named constant with its word. -/
def key : Value → Value
  | .bool b => .int (if b then 1 else 0)
  | .float d =>
    match d.integral? with
    | some i => .int i
    | none => .float d
  | .kind k => .text k.word
  | .mode m => .text m.word
  | .list items => .list (keyItems items)
  | .tuple items => .tuple (keyItems items)
  | .set items => .set (keyItems items)
  | .map entries => .map (keyEntries entries)
  | v => v

def keyItems : List Value → List Value
  | [] => []
  | item :: items => key item :: keyItems items

def keyEntries : List (Value × Value) → List (Value × Value)
  | [] => []
  | (k, v) :: entries => (key k, key v) :: keyEntries entries

end

/-- Whether two values count as the same. -/
def same (v w : Value) : Bool := v.key == w.key

mutual

/-- Whether a value can be a key: lists, sets and mappings cannot, nor what holds one. -/
def isKey : Value → Bool
  | .list _ | .set _ | .map _ => false
  | .tuple items => areKeys items
  | _ => true

def areKeys : List Value → Bool
  | [] => true
  | item :: items => isKey item && areKeys items

end

mutual

theorem isKey_key : ∀ v : Value, isKey (key v) = isKey v
  | .tuple items => by simpa [key, isKey] using areKeys_keyItems items
  | .float d => by
    rw [key]
    cases d.integral? <;> rfl
  | .null | .bool _ | .int _ | .text _ | .list _ | .set _ | .map _ | .compiled _ | .pattern _
  | .kind _ | .mode _ | .ruleClass _ | .ruleObject _ _ | .external _ => by simp [key, isKey]

theorem areKeys_keyItems : ∀ items : List Value, areKeys (keyItems items) = areKeys items
  | [] => rfl
  | item :: items => by simp [keyItems, areKeys, isKey_key item, areKeys_keyItems items]

end

@[simp] theorem key_text (s : String) : key (.text s) = .text s := by simp [key]

@[simp] theorem isKey_text (s : String) : isKey (.text s) = true := by simp [isKey]

@[simp] theorem same_self (v : Value) : v.same v = true := by simp [same]

theorem same_comm (v w : Value) : v.same w = w.same v := by simp [same, Bool.beq_comm]

theorem same_iff {v w : Value} : v.same w = true ↔ v.key = w.key := by simp [same]

theorem same_trans {u v w : Value} (h : u.same v = true) (k : v.same w = true) :
    u.same w = true := by
  rw [same_iff] at h k ⊢
  exact h.trans k

/-- Values that count as the same are not told apart by a third. -/
theorem same_congr {v w : Value} (h : v.same w = true) (u : Value) : u.same v = u.same w := by
  simp only [same, same_iff.mp h]

theorem isKey_congr {v w : Value} (h : v.same w = true) : v.isKey = w.isKey := by
  rw [← isKey_key v, same_iff.mp h, isKey_key w]

theorem asText?_key (v : Value) : v.key.asText? = v.asText? := by
  cases v with
  | float d =>
    rw [key]
    cases d.integral? <;> rfl
  | _ => simp [key, asText?]

theorem same_of_asText? {v : Value} {s : String} (h : v.asText? = some s) :
    v.same (.text s) = true := by
  cases v with
  | text t | kind k | mode m =>
    cases h
    simp [same_iff, key]
  | _ => cases h

/-- Values that count as the same are the same text or none. -/
theorem asText?_congr {v w : Value} (h : v.same w = true) : v.asText? = w.asText? := by
  rw [← asText?_key v, same_iff.mp h, asText?_key w]

theorem same_text (s t : String) : same (.text s) (.text t) = decide (s = t) := by
  simp [same, BEq.beq, beq]

end FormGuard.Value
