import FormGuard.Form.Submission
import FormGuard.Proofs.Action

/-! Submitted values: what a name with brackets leads to. -/
namespace FormGuard

namespace Submission
variable {entries : List (Value × Value)} {name base : String} {keys : List (List Char)}
  {value : Value}

/-- Keys written one after the other, each in brackets. -/
def bracketed (keys : List (List Char)) : List Char :=
  keys.flatMap fun key => '[' :: (key ++ [']'])

theorem brackets_inside {key : List Char} (h : ']' ∉ key) (done rest : List Char) :
    brackets (some done) (key ++ ']' :: rest) = (done.reverse ++ key) :: brackets none rest := by
  induction key generalizing done with
  | nil => simp [brackets]
  | cons c key ih =>
    obtain ⟨hc, hkey⟩ : ']' ≠ c ∧ ']' ∉ key := by simpa using h
    have hb : (c == ']') = false := beq_false_of_ne (Ne.symm hc)
    rw [List.cons_append, brackets, hb]
    simpa using ih hkey (c :: done)

/-- Bracketed keys are read back one by one. -/
theorem brackets_bracketed (h : ∀ key ∈ keys, ']' ∉ key) :
    brackets none (bracketed keys) = keys := by
  induction keys with
  | nil => rfl
  | cons key rest ih =>
    obtain ⟨hkey, hrest⟩ := List.forall_mem_cons.mp h
    have hb : bracketed (key :: rest) = '[' :: (key ++ ']' :: bracketed rest) := by
      simp [bracketed]
    rw [hb, brackets, if_pos (by decide), brackets_inside hkey, ih hrest]
    rfl

/-- A key that a submission has decides alone. -/
theorem value_of_key (h : (Value.map entries).get? name = some value) :
    Submission.value (.map entries) (.text name) = .ok (flattened value) := by
  change (⟨entries⟩ : Table Value).find? (.text name) = some value at h
  have hk : (Value.text name).needKey = .ok () := Value.needKey_eq_ok.mpr (Value.isKey_text name)
  simp only [Submission.value, has, hk, Table.contains, under, h]
  rfl

theorem value_of_no_key (h : (Value.map entries).get? name = none) :
    Submission.value (.map entries) (.text name) = nested (.map entries) name := by
  change (⟨entries⟩ : Table Value).find? (.text name) = none at h
  have hk : (Value.text name).needKey = .ok () := Value.needKey_eq_ok.mpr (Value.isKey_text name)
  simp only [Submission.value, has, hk, Table.contains, h]
  rfl

/-- Names that count as the same lead to one value. -/
theorem value_congr {name other : Value} (h : name.same other = true) :
    Submission.value (.map entries) name = Submission.value (.map entries) other := by
  have hk : name.needKey = other.needKey := by
    rw [Value.needKey, Value.needKey, Value.isKey_congr h]
  have hf : (⟨entries⟩ : Table Value).find? name = (⟨entries⟩ : Table Value).find? other :=
    Table.find?_congr _ h
  simp only [Submission.value, has, under, Table.contains, hk, hf, Value.asText?_congr h]

/-- Without a bracket that something follows, a name leads nowhere. -/
theorem nested_of_no_cut (h : ∀ rest, Text.cut? '[' name.toList = some rest → rest.2 = []) :
    nested (.map entries) name = .ok .null := by
  unfold nested
  cases hc : Text.cut? '[' name.toList with
  | none => rfl
  | some parts =>
    obtain ⟨before, rest⟩ := parts
    obtain rfl : rest = [] := h _ hc
    rfl

/-- A name with a bracket leads from the value under what is before it to where the keys lead, if that
is anywhere. -/
theorem nested_of_cut {rest : List Char} (hb : '[' ∉ base.toList) (hr : rest ≠ [])
    (hname : name.toList = base.toList ++ '[' :: rest) :
    nested (.map entries) name =
      match (Value.map entries).get? base with
      | none => .ok .null
      | some start => (walk start (brackets none ('[' :: rest))).map fun found =>
          (found.map flattened).getD .null := by
  obtain ⟨c, more, rfl⟩ := List.exists_cons_of_ne_nil hr
  have hkeys : brackets none ('[' :: c :: more) = brackets (some []) (c :: more) := by
    rw [brackets, if_pos (by decide)]
  unfold nested
  rw [hname, Text.cut?_of_not_mem hb, hkeys]
  simp only [String.ofList_toList]
  cases hg : (Value.map entries).get? base with
  | none => simp [Value.mentions, hg]; rfl
  | some start =>
    simp only [Value.mentions, hg, Value.field, bind, Except.bind, Option.isSome_some, if_true]
    rcases walk start (brackets (some []) (c :: more)) with _ | _ | _ <;> rfl

/-- A name of a base and keys in brackets leads from the value under the base to where the keys
lead, if that is anywhere. -/
theorem nested_of_keys (hb : '[' ∉ base.toList) (hk : ∀ key ∈ keys, ']' ∉ key) (hn : keys ≠ [])
    (hname : name.toList = base.toList ++ bracketed keys) :
    nested (.map entries) name =
      match (Value.map entries).get? base with
      | none => .ok .null
      | some start => (walk start keys).map fun found => (found.map flattened).getD .null := by
  obtain ⟨key, rest, rfl⟩ := List.exists_cons_of_ne_nil hn
  have hcut : bracketed (key :: rest) = '[' :: (key ++ ']' :: bracketed rest) := by
    simp [bracketed]
  have hkeys : brackets none ('[' :: (key ++ ']' :: bracketed rest)) = key :: rest := by
    rw [← hcut, brackets_bracketed hk]
  have hmore : key ++ ']' :: bracketed rest ≠ [] := by simp
  rw [nested_of_cut hb hmore (hcut ▸ hname), hkeys]

/-- The value of a group's child is the one under its name in what was submitted for the group. -/
theorem value_of_child {child : String} (hb : '[' ∉ base.toList) (hc : ']' ∉ child.toList)
    (hflat : (Value.map entries).get? (base ++ "[" ++ child ++ "]") = none)
    {inner : List (Value × Value)} (hi : (Value.map entries).get? base = some (.map inner)) :
    Submission.value (.map entries) (.text (base ++ "[" ++ child ++ "]")) =
      .ok ((((Value.map inner).get? child).map flattened).getD .null) := by
  have hname : (base ++ "[" ++ child ++ "]").toList = base.toList ++ bracketed [child.toList] := by
    simp [bracketed, String.toList_append]
  have hkeys : ∀ key ∈ [child.toList], ']' ∉ key := by simpa using hc
  rw [value_of_no_key hflat, nested_of_keys hb hkeys (by simp) hname, hi]
  simp only [walk, step, String.ofList_toList]
  cases (Value.map inner).get? child <;> rfl

end Submission

end FormGuard
