import FormGuard.Double
import FormGuard.Pattern
import FormGuard.Reference

/-! Values: submitted data, rule formats and definitions. -/
namespace FormGuard

/-- A compiled expression; `letters` are the switches in force out of `i`, `m`, `s`, `x`. -/
structure Compiled where
  source : String
  letters : String
  ascii : Bool
  deriving DecidableEq

inductive Value where
  | null
  | bool (b : Bool)
  | int (i : Int)
  | float (d : Double)
  | text (s : String)
  | list (items : List Value)
  | tuple (items : List Value)
  | set (items : List Value)
  /-- A mapping in the order of its first insertions; keys do not repeat. -/
  | map (entries : List (Value × Value))
  | compiled (e : Compiled)
  | pattern (p : Pattern)
  | kind (k : RuleKind)
  | mode (m : Mode)
  | ruleClass (cls : RuleClass)
  /-- An instance of a class, with what it holds. -/
  | ruleObject (cls : RuleClass) (held : Value)
  | external (ref : External)
  deriving Inhabited

namespace Value

mutual

def beq : Value → Value → Bool
  | .null, .null => true
  | .bool a, .bool b => a == b
  | .int a, .int b => a == b
  | .float a, .float b => a == b
  | .text a, .text b => a == b
  | .list xs, .list ys => beqList xs ys
  | .tuple xs, .tuple ys => beqList xs ys
  | .set xs, .set ys => beqList xs ys
  | .map xs, .map ys => beqEntries xs ys
  | .compiled a, .compiled b => a == b
  | .pattern a, .pattern b => a == b
  | .kind a, .kind b => a == b
  | .mode a, .mode b => a == b
  | .ruleClass a, .ruleClass b => a == b
  | .ruleObject a x, .ruleObject b y => a == b && beq x y
  | .external a, .external b => a == b
  | _, _ => false

def beqList : List Value → List Value → Bool
  | [], [] => true
  | x :: xs, y :: ys => beq x y && beqList xs ys
  | _, _ => false

def beqEntries : List (Value × Value) → List (Value × Value) → Bool
  | [], [] => true
  | (k, v) :: xs, (l, w) :: ys => beq k l && beq v w && beqEntries xs ys
  | _, _ => false

end

instance : BEq Value := ⟨beq⟩

mutual

theorem beq_refl : ∀ v : Value, beq v v = true
  | .null => rfl
  | .bool _ | .int _ | .float _ | .text _ | .compiled _ | .pattern _ | .kind _ | .mode _
  | .ruleClass _ | .external _ => by simp [beq]
  | .list xs | .tuple xs | .set xs => by simpa [beq] using beqList_refl xs
  | .ruleObject _ x => by simpa [beq] using beq_refl x
  | .map xs => by simpa [beq] using beqEntries_refl xs

theorem beqList_refl : ∀ xs : List Value, beqList xs xs = true
  | [] => rfl
  | x :: xs => by simp [beqList, beq_refl x, beqList_refl xs]

theorem beqEntries_refl : ∀ xs : List (Value × Value), beqEntries xs xs = true
  | [] => rfl
  | (k, v) :: xs => by simp [beqEntries, beq_refl k, beq_refl v, beqEntries_refl xs]

end

mutual

theorem eq_of_beq : ∀ {v w : Value}, beq v w = true → v = w
  | .null, w, h => by cases w <;> simp_all [beq]
  | .bool _, w, h | .int _, w, h | .float _, w, h | .text _, w, h | .compiled _, w, h
  | .pattern _, w, h | .kind _, w, h | .mode _, w, h | .ruleClass _, w, h | .external _, w, h => by
    cases w <;> simp_all [beq]
  | .list xs, w, h | .tuple xs, w, h | .set xs, w, h => by
    cases w with
    | list ys | tuple ys | set ys => simp_all [beq] <;> exact eq_of_beqList h
    | _ => simp [beq] at h
  | .ruleObject _ x, w, h => by
    cases w with
    | ruleObject _ y => simp [beq] at h; rw [h.1, eq_of_beq h.2]
    | _ => simp [beq] at h
  | .map xs, w, h => by
    cases w with
    | map ys => simp [beq] at h; rw [eq_of_beqEntries h]
    | _ => simp [beq] at h

theorem eq_of_beqList : ∀ {xs ys : List Value}, beqList xs ys = true → xs = ys
  | [], ys, h => by cases ys <;> simp_all [beqList]
  | x :: xs, ys, h => by
    cases ys with
    | nil => simp [beqList] at h
    | cons y ys => simp [beqList] at h; rw [eq_of_beq h.1, eq_of_beqList h.2]

theorem eq_of_beqEntries : ∀ {xs ys : List (Value × Value)}, beqEntries xs ys = true → xs = ys
  | [], ys, h => by cases ys <;> simp_all [beqEntries]
  | (k, v) :: xs, ys, h => by
    cases ys with
    | nil => simp [beqEntries] at h
    | cons y ys =>
      obtain ⟨l, w⟩ := y
      simp [beqEntries] at h
      rw [eq_of_beq h.1.1, eq_of_beq h.1.2, eq_of_beqEntries h.2]

end

instance : LawfulBEq Value where
  rfl := beq_refl _
  eq_of_beq := eq_of_beq

instance : DecidableEq Value := fun v w =>
  if h : v == w then isTrue (eq_of_beq h) else isFalse fun e => h (by simp [e])

end Value

end FormGuard
