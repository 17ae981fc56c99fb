import FormGuard.Value.Key

/-! Tables: values by key, in the order in which the keys first came. -/
namespace FormGuard

structure Table (α : Type) where
  entries : List (Value × α)
  deriving DecidableEq, Inhabited

namespace Table
variable {α : Type}

def empty : Table α := ⟨[]⟩

def find? (t : Table α) (name : Value) : Option α :=
  (t.entries.find? fun entry => entry.1.same name).map (·.2)

def contains (t : Table α) (name : Value) : Bool := (t.find? name).isSome

def keys (t : Table α) : List Value := t.entries.map (·.1)

def values (t : Table α) : List α := t.entries.map (·.2)

/-- Puts a value in the place of the old one, under the key that came first, or at the end. -/
def insertEntry (name : Value) (a : α) : List (Value × α) → List (Value × α)
  | [] => [(name, a)]
  | (key, b) :: rest =>
    if key.same name then (key, a) :: rest else (key, b) :: insertEntry name a rest

def insert (t : Table α) (name : Value) (a : α) : Table α := ⟨insertEntry name a t.entries⟩

def erase (t : Table α) (name : Value) : Table α :=
  ⟨t.entries.filter fun entry => !entry.1.same name⟩

def ofList (entries : List (Value × α)) : Table α :=
  entries.foldl (fun t entry => t.insert entry.1 entry.2) empty

/-- Changes a value in place, or puts `start`, changed, at the end. -/
def alter (t : Table α) (name : Value) (start : α) (f : α → α) : Table α :=
  t.insert name (f ((t.find? name).getD start))

def map {β : Type} (f : Value → α → β) (t : Table α) : Table β :=
  ⟨t.entries.map fun (key, a) => (key, f key a)⟩

theorem find?_insertEntry (name other : Value) (a : α) (entries : List (Value × α)) :
    ((insertEntry name a entries).find? fun entry => entry.1.same other).map (·.2)
      = if name.same other then some a
        else (entries.find? fun entry => entry.1.same other).map (·.2) := by
  induction entries with
  | nil => by_cases h : name.same other <;> simp [insertEntry, h]
  | cons entry rest ih =>
    obtain ⟨key, b⟩ := entry
    simp only [Value.same, beq_iff_eq] at ih ⊢
    simp only [insertEntry, Value.same, beq_iff_eq]
    by_cases hk : key.key = name.key
    · by_cases h : name.key = other.key <;> simp [hk, h]
    · rw [if_neg hk]
      by_cases ho : key.key = other.key
      · have hn : ¬ name.key = other.key := fun h => hk (ho.trans h.symm)
        simp [ho, hn]
      · simpa [ho] using ih

/-- A look-up after an insertion finds the new value under its key and the old one elsewhere. -/
theorem find?_insert (t : Table α) (name other : Value) (a : α) :
    (t.insert name a).find? other = if name.same other then some a else t.find? other :=
  find?_insertEntry name other a t.entries

@[simp] theorem find?_insert_self (t : Table α) (name : Value) (a : α) :
    (t.insert name a).find? name = some a := by simp [find?_insert]

@[simp] theorem find?_empty (name : Value) : (empty : Table α).find? name = none := rfl

theorem find?_congr (t : Table α) {name other : Value} (h : name.same other = true) :
    t.find? name = t.find? other := by
  simp only [find?, Value.same_congr h]

theorem contains_insert (t : Table α) (name other : Value) (a : α) :
    (t.insert name a).contains other = (name.same other || t.contains other) := by
  rw [contains, find?_insert]
  cases name.same other <;> rfl

@[simp] theorem contains_insert_self (t : Table α) (name : Value) (a : α) :
    (t.insert name a).contains name = true := by simp [contains_insert]

@[simp] theorem contains_empty (name : Value) : (empty : Table α).contains name = false := rfl

/-- An entry after an insertion is an old one, or it has the new value: under the new key, or in the
place of what was found there. -/
theorem mem_insert {t : Table α} {name : Value} {a : α} {entry : Value × α}
    (h : entry ∈ (t.insert name a).entries) :
    entry ∈ t.entries ∨ entry.2 = a ∧
      (entry.1 = name ∧ t.find? name = none ∨
        entry.1.same name = true ∧ ∃ b, t.find? name = some b ∧ (entry.1, b) ∈ t.entries) := by
  obtain ⟨entries⟩ := t
  change entry ∈ insertEntry name a entries at h
  induction entries with
  | nil =>
    obtain rfl : entry = (name, a) := by simpa [insertEntry] using h
    exact Or.inr ⟨rfl, Or.inl ⟨rfl, rfl⟩⟩
  | cons first rest ih =>
    obtain ⟨key, b⟩ := first
    rw [insertEntry] at h
    split at h
    · rename_i hk
      rcases List.mem_cons.mp h with rfl | h
      · exact Or.inr ⟨rfl, Or.inr ⟨hk, b, by simp [find?, hk], List.mem_cons_self⟩⟩
      · exact Or.inl (List.mem_cons_of_mem _ h)
    · rename_i hk
      have hf : find? ⟨(key, b) :: rest⟩ name = find? ⟨rest⟩ name := by simp [find?, hk]
      rcases List.mem_cons.mp h with rfl | h
      · exact Or.inl List.mem_cons_self
      · rw [hf]
        rcases ih h with h | ⟨ha, hn | ⟨hs, c, hc, hm⟩⟩
        · exact Or.inl (List.mem_cons_of_mem _ h)
        · exact Or.inr ⟨ha, Or.inl hn⟩
        · exact Or.inr ⟨ha, Or.inr ⟨hs, c, hc, List.mem_cons_of_mem _ hm⟩⟩

/-- What a table made from entries has comes from one of them, under a key that counts as the same. -/
theorem mem_ofList {entries : List (Value × α)} {entry : Value × α}
    (h : entry ∈ (ofList entries).entries) :
    ∃ name, (name, entry.2) ∈ entries ∧ entry.1.same name = true := by
  have hfold : ∀ (entries : List (Value × α)) (t : Table α),
      entry ∈ (entries.foldl (fun t entry => t.insert entry.1 entry.2) t).entries →
      entry ∈ t.entries ∨ ∃ name, (name, entry.2) ∈ entries ∧ entry.1.same name = true := by
    intro entries
    induction entries with
    | nil => exact fun t h => Or.inl h
    | cons first rest ih =>
      intro t h
      rcases ih (t.insert first.1 first.2) h with h | ⟨name, hm, hs⟩
      · rcases mem_insert h with h | ⟨ha, hat⟩
        · exact Or.inl h
        · refine Or.inr ⟨first.1, ha ▸ List.mem_cons_self, ?_⟩
          rcases hat with ⟨hn, _⟩ | ⟨hs, _⟩
          · rw [hn, Value.same_self]
          · exact hs
      · exact Or.inr ⟨name, List.mem_cons_of_mem _ hm, hs⟩
  rcases hfold entries empty h with h | h
  · cases h
  · exact h

theorem eq_empty_iff {t : Table α} : t = empty ↔ ∀ name, t.contains name = false := by
  constructor
  · rintro rfl name
    rfl
  · intro h
    obtain ⟨_ | ⟨⟨key, a⟩, rest⟩⟩ := t
    · rfl
    · have hk := h key
      simp [contains, find?] at hk

/-- A table that has no key but those of an empty one is empty. -/
theorem eq_empty_of_contains {t u : Table α} (hu : u = empty)
    (h : ∀ name, t.contains name = true → u.contains name = true) : t = empty := by
  refine eq_empty_iff.mpr fun name => ?_
  rw [Bool.eq_false_iff]
  intro hc
  have hn := h name hc
  simp [hu] at hn

theorem insert_ne_empty (t : Table α) (name : Value) (a : α) : t.insert name a ≠ empty := by
  intro h
  have hc := eq_empty_iff.mp h name
  simp at hc

/-- A new key comes after all others. -/
theorem entries_insert_of_not_contains {t : Table α} {name : Value} (h : t.contains name = false)
    (a : α) : (t.insert name a).entries = t.entries ++ [(name, a)] := by
  obtain ⟨entries⟩ := t
  change insertEntry name a entries = entries ++ [(name, a)]
  induction entries with
  | nil => rfl
  | cons entry rest ih =>
    obtain ⟨key, b⟩ := entry
    cases hk : key.same name with
    | true => simp [contains, find?, hk] at h
    | false =>
      have hr : contains ⟨rest⟩ name = false := by
        simpa [contains, find?, hk] using h
      simp [insertEntry, hk, ih hr]

theorem pairwise_insertEntry {entries : List (Value × α)}
    (h : entries.Pairwise fun one other => one.1.same other.1 = false) (name : Value) (a : α) :
    (insertEntry name a entries).Pairwise fun one other => one.1.same other.1 = false := by
  induction entries with
  | nil => simp [insertEntry]
  | cons entry rest ih =>
    obtain ⟨key, b⟩ := entry
    obtain ⟨hkey, hrest⟩ := List.pairwise_cons.mp h
    rw [insertEntry]
    split
    · exact .cons hkey hrest
    · rename_i hk
      refine .cons (fun other hm => ?_) (ih hrest)
      rcases mem_insert (t := ⟨rest⟩) hm with hm | ⟨_, ⟨hn, _⟩ | ⟨hs, b, _, hm⟩⟩
      · exact hkey other hm
      · simpa [hn] using hk
      · exact hkey (other.1, b) hm

/-- An insertion brings no key twice. -/
theorem pairwise_insert {t : Table α}
    (h : t.entries.Pairwise fun one other => one.1.same other.1 = false) (name : Value) (a : α) :
    (t.insert name a).entries.Pairwise fun one other => one.1.same other.1 = false :=
  pairwise_insertEntry h name a

theorem insertEntry_append {name key : Value} (hk : key.same name = true) (a b : α)
    (after : List (Value × α)) {before : List (Value × α)}
    (h : ∀ entry ∈ before, entry.1.same name = false) :
    insertEntry name a (before ++ (key, b) :: after) = before ++ (key, a) :: after := by
  induction before with
  | nil => simp [insertEntry, hk]
  | cons entry rest ih =>
    obtain ⟨hentry, hrest⟩ := List.forall_mem_cons.mp h
    simp [insertEntry, hentry, ih hrest]

/-- A change of a value leaves all else in its place, or it brings a new key behind the others. -/
theorem alter_cases (t : Table α) (name : Value) (start : α) (f : α → α) :
    (∃ before key a after, t.entries = before ++ (key, a) :: after ∧ key.same name = true ∧
      (t.alter name start f).entries = before ++ (key, f a) :: after) ∨
    t.contains name = false ∧ (t.alter name start f).entries = t.entries ++ [(name, f start)] := by
  cases hc : t.entries.find? fun entry => entry.1.same name with
  | none =>
    have hf : t.find? name = none := by rw [find?, hc]; rfl
    have hn : t.contains name = false := by rw [contains, hf]; rfl
    right
    rw [alter, entries_insert_of_not_contains hn, hf]
    exact ⟨hn, rfl⟩
  | some entry =>
    obtain ⟨key, a⟩ := entry
    have hf : t.find? name = some a := by rw [find?, hc]; rfl
    obtain ⟨hk, before, after, he, hbefore⟩ := List.find?_eq_some_iff_append.mp hc
    refine Or.inl ⟨before, key, a, after, he, hk, ?_⟩
    rw [alter, hf]
    change insertEntry name (f a) t.entries = _
    rw [he]
    exact insertEntry_append hk _ _ _ fun entry hm => by simpa using hbefore entry hm

theorem contains_iff {t : Table α} {name : Value} :
    t.contains name = true ↔ ∃ entry ∈ t.entries, entry.1.same name = true := by
  simp [contains, find?]

theorem find?_map (t : Table α) {β : Type} (f : α → β) (name : Value) :
    (t.map fun _ => f).find? name = (t.find? name).map f := by
  simp only [find?, map, List.find?_map, Option.map_map]
  rfl

@[simp] theorem keys_map (t : Table α) {β : Type} (f : Value → α → β) :
    (t.map f).keys = t.keys := by
  simp [keys, map, Function.comp_def]

theorem exists_mem_of_find? {t : Table α} {name : Value} {a : α} (h : t.find? name = some a) :
    ∃ entry ∈ t.entries, entry.1.same name = true ∧ entry.2 = a := by
  obtain ⟨entry, hf, rfl⟩ := Option.map_eq_some_iff.mp h
  exact ⟨entry, List.mem_of_find?_eq_some hf, by simpa using List.find?_some hf, rfl⟩

theorem find?_of_mem {t : Table α}
    (hd : t.entries.Pairwise fun one other => one.1.same other.1 = false) {entry : Value × α}
    (h : entry ∈ t.entries) {name : Value} (hs : entry.1.same name = true) :
    t.find? name = some entry.2 := by
  obtain ⟨entries⟩ := t
  rw [← find?_congr _ hs]
  induction entries with
  | nil => cases h
  | cons first rest ih =>
    obtain ⟨hfirst, hrest⟩ := List.pairwise_cons.mp hd
    rcases List.mem_cons.mp h with rfl | hm
    · simp [find?, Value.same_self]
    · have hnext : find? ⟨first :: rest⟩ entry.1 = find? ⟨rest⟩ entry.1 := by
        simp [find?, hfirst entry hm]
      rw [hnext, ih hrest hm]

/-- In a table that has no key twice, the order of the entries does not matter. -/
theorem find?_of_perm {t u : Table α} (h : t.entries.Perm u.entries)
    (hd : t.entries.Pairwise fun one other => one.1.same other.1 = false) (name : Value) :
    u.find? name = t.find? name := by
  have hu : u.entries.Pairwise fun one other => one.1.same other.1 = false :=
    hd.perm h fun hs => (Value.same_comm _ _).trans hs
  refine Option.ext fun a => ⟨fun hf => ?_, fun hf => ?_⟩
  · obtain ⟨entry, hm, hs, rfl⟩ := exists_mem_of_find? hf
    exact find?_of_mem hd (h.mem_iff.mpr hm) hs
  · obtain ⟨entry, hm, hs, rfl⟩ := exists_mem_of_find? hf
    exact find?_of_mem hu (h.mem_iff.mp hm) hs

def insertAll (t : Table α) (entries : List (Value × α)) : Table α :=
  entries.foldl (fun t entry => t.insert entry.1 entry.2) t

theorem find?_insertAll {entries : List (Value × α)}
    (hd : entries.Pairwise fun one other => one.1.same other.1 = false) (t : Table α)
    (name : Value) :
    (t.insertAll entries).find? name = (find? ⟨entries⟩ name).or (t.find? name) := by
  induction entries generalizing t with
  | nil => rfl
  | cons first rest ih =>
    obtain ⟨hfirst, hrest⟩ := List.pairwise_cons.mp hd
    rw [insertAll, List.foldl_cons]
    refine (ih hrest (t.insert first.1 first.2)).trans ?_
    rw [find?_insert]
    cases hs : first.1.same name with
    | false => simp [find?, hs]
    | true =>
      have hnone : find? ⟨rest⟩ name = none := by
        rw [Option.eq_none_iff_forall_ne_some]
        intro a hf
        obtain ⟨entry, hm, hentry, _⟩ := exists_mem_of_find? hf
        have hno := hfirst entry hm
        rw [Value.same_congr hentry, hs] at hno
        cases hno
      rw [hnone]
      simp [find?, hs]

theorem pairwise_insertAll {t : Table α}
    (h : t.entries.Pairwise fun one other => one.1.same other.1 = false)
    (entries : List (Value × α)) :
    (t.insertAll entries).entries.Pairwise fun one other => one.1.same other.1 = false := by
  induction entries generalizing t with
  | nil => exact h
  | cons entry rest ih => exact ih (pairwise_insert h entry.1 entry.2)

end Table

end FormGuard
