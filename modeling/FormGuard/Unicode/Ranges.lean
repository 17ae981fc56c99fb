/-! Sets of code points written as the ascending list of the places where membership changes. -/
namespace FormGuard.Unicode

/-- Walks the changes up to `n`; `inside` is whether the walk is within the set so far. -/
def within (inside : Bool) : List Nat → Nat → Bool
  | [], _ => inside
  | change :: changes, n => if n < change then inside else within (!inside) changes n

theorem within_cons_of_lt {inside : Bool} {change n : Nat} {changes : List Nat} (h : n < change) :
    within inside (change :: changes) n = inside := by simp [within, h]

theorem within_cons_of_le {inside : Bool} {change n : Nat} {changes : List Nat} (h : change ≤ n) :
    within inside (change :: changes) n = within (!inside) changes n := by
  simp [within, Nat.not_lt.2 h]

/-- Between two changes the membership is that of the place of the first. -/
theorem within_congr {inside : Bool} {changes : List Nat} {m n : Nat} (h : m ≤ n)
    (hc : ∀ change ∈ changes, change ≤ n → change ≤ m) :
    within inside changes n = within inside changes m := by
  induction changes generalizing inside with
  | nil => rfl
  | cons change rest ih =>
    obtain ⟨hfirst, hrest⟩ := List.forall_mem_cons.mp hc
    by_cases hn : change ≤ n
    · rw [within_cons_of_le hn, within_cons_of_le (hfirst hn), ih hrest]
    · have hlt : n < change := by omega
      rw [within_cons_of_lt hlt, within_cons_of_lt (Nat.lt_of_le_of_lt h hlt)]

theorem exists_last_change (changes : List Nat) (n : Nat) :
    ∃ m ∈ 0 :: changes, m ≤ n ∧ ∀ change ∈ changes, change ≤ n → change ≤ m := by
  induction changes with
  | nil => exact ⟨0, List.mem_cons_self, Nat.zero_le n, by simp⟩
  | cons change rest ih =>
    obtain ⟨m, hm, hle, hlast⟩ := ih
    by_cases hc : change ≤ n ∧ m ≤ change
    · refine ⟨change, by simp, hc.1, List.forall_mem_cons.mpr ⟨fun _ => Nat.le_refl _, ?_⟩⟩
      exact fun other ho hn => Nat.le_trans (hlast other ho hn) hc.2
    · refine ⟨m, ?_, hle, List.forall_mem_cons.mpr ⟨fun hn => by omega, hlast⟩⟩
      rcases List.mem_cons.mp hm with rfl | hm
      · exact List.mem_cons_self
      · exact List.mem_cons_of_mem _ (List.mem_cons_of_mem _ hm)

/-- Two sets that have none of the places in common where one of them changes have none in common. -/
theorem within_apart {changes others : List Nat}
    (h : ∀ m ∈ 0 :: (changes ++ others), within false changes m = true →
      within false others m = false) {n : Nat} (hn : within false changes n = true) :
    within false others n = false := by
  obtain ⟨m, hm, hle, hlast⟩ := exists_last_change (changes ++ others) n
  have hfirst : within false changes n = within false changes m :=
    within_congr hle fun change hc => hlast change (List.mem_append_left _ hc)
  have hsecond : within false others n = within false others m :=
    within_congr hle fun change hc => hlast change (List.mem_append_right _ hc)
  rw [hsecond]
  exact h m hm (hfirst ▸ hn)

end FormGuard.Unicode
