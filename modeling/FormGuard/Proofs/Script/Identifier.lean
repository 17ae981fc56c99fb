import Mathlib.Data.List.Basic

/-! Identifiers: what is read as one, up to the first character that may not stand in it. -/
namespace FormGuard.Script

/-- The characters that may stand inside an identifier: of ASCII the letters, the digits, `_` and `$`.
Which others there are is left open. -/
structure IdentifierClass where
  part : Char → Bool
  ascii : ∀ c : Char, c.val < 128 → part c = (c.isAlphanum || c == '_' || c == '$')

namespace IdentifierClass

/-- No others at all. -/
def plain : IdentifierClass := ⟨fun c => c.isAlphanum || c == '_' || c == '$', fun _ _ => rfl⟩

variable (k : IdentifierClass)

/-- Reads the identifier that a text begins with: its characters, and what follows. Escapes are not
read. -/
def read : List Char → Option (List Char × List Char)
  | [] => some ([], [])
  | c :: rest =>
    if c == '\\' then none
    else if k.part c then do
      let (name, after) ← read rest
      return (c :: name, after)
    else some ([], c :: rest)

theorem part_backslash : k.part '\\' = false := k.ascii '\\' (by decide)

variable {k} {c stop : Char} {chars rest : List Char}

theorem read_cons_of_part (h : k.part c = true) (rest : List Char) :
    k.read (c :: rest) = (k.read rest).map fun (name, after) => (c :: name, after) := by
  have hb : (c == '\\') = false := beq_false_of_ne fun he => by
    rw [he, k.part_backslash] at h
    cases h
  rw [read, hb, h]
  cases k.read rest <;> rfl

/-- Characters are read as one identifier exactly when each of them may stand in it. -/
theorem read_append_iff (hstop : k.part stop = false) (hb : stop ≠ '\\') :
    k.read (chars ++ stop :: rest) = some (chars, stop :: rest) ↔
      ∀ c ∈ chars, k.part c = true := by
  induction chars with
  | nil => simp [read, hstop, hb]
  | cons c chars ih =>
    rw [List.cons_append, List.forall_mem_cons]
    cases hc : k.part c with
    | true =>
      rw [read_cons_of_part hc, ← ih]
      cases k.read (chars ++ stop :: rest) <;> simp [Prod.ext_iff]
    | false =>
      refine iff_of_false (fun h => ?_) fun h => absurd h.1 (by decide)
      rw [read, hc] at h
      split at h <;> cases h

end IdentifierClass

end FormGuard.Script
