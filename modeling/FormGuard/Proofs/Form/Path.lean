import FormGuard.Proofs.Form.Submission
import FormGuard.Proofs.Text.Position

/-! Bracketed names as paths: which keys a name holds, where they lead in what was submitted, and the
one thing that can go wrong on the way. -/
namespace FormGuard.Submission
variable {entries : List (Value × Value)} {name base : String} {text key : List Char}
  {keys : List (List Char)} {spells other : List Char → Nat → Prop} {value inner found : Value}
  {e : Error}

/-- The keys that a text holds: what stands between a bracket and the next closing one, and then the
same behind it. -/
inductive InBrackets : List Char → List (List Char) → Prop where
  | none {text : List Char}
      (free : ∀ before key after, text ≠ before ++ '[' :: (key ++ ']' :: after)) :
      InBrackets text []
  | pair {before key rest : List Char} {keys : List (List Char)} (first : '[' ∉ before)
      (inside : ']' ∉ key) (behind : InBrackets rest keys) :
      InBrackets (before ++ '[' :: (key ++ ']' :: rest)) (key :: keys)

/-- A step into a value: a mapping is entered by a key that it has, a list by a key that spells a
position within it. -/
inductive Enters (spells : List Char → Nat → Prop) : Value → List Char → Value → Prop where
  | key {entries : List (Value × Value)} {key : List Char} {inner : Value}
      (has : (Value.map entries).get? (String.ofList key) = some inner) :
      Enters spells (.map entries) key inner
  | position {items : List Value} {key : List Char} {n : Nat} {inner : Value}
      (number : spells key n) (within : items[n]? = some inner) :
      Enters spells (.list items) key inner

/-- Where keys lead, one step after the other. -/
inductive Leads (spells : List Char → Nat → Prop) : Value → List (List Char) → Value → Prop where
  | here (value : Value) : Leads spells value [] value
  | step {value inner found : Value} {key : List Char} {keys : List (List Char)}
      (enters : Enters spells value key inner) (behind : Leads spells inner keys found) :
      Leads spells value (key :: keys) found

/-- The keys of a name lead to a list, and the next one is misread. -/
inductive Misled (entries : List (Value × Value)) (name : String) : Prop where
  | intro {base rest key : List Char} {front behind : List (List Char)} {start : Value}
      {items : List Value} (flat : (Value.map entries).get? name = none) (first : '[' ∉ base)
      (cut : name.toList = base ++ '[' :: rest)
      (holds : InBrackets ('[' :: rest) (front ++ key :: behind))
      (has : (Value.map entries).get? (String.ofList base) = some start)
      (leads : Leads Text.Spells start front (.list items)) (misread : Text.Misread key) :
      Misled entries name

/-! The keys of a name. -/

theorem brackets_outside {before : List Char} (h : '[' ∉ before) (rest : List Char) :
    brackets none (before ++ rest) = brackets none rest := by
  induction before with
  | nil => rfl
  | cons c before ih =>
    obtain ⟨hc, hbefore⟩ := not_or.mp (List.mem_cons.not.mp h)
    rw [List.cons_append, brackets, if_neg (by simpa using Ne.symm hc), ih hbefore]

theorem brackets_unclosed (h : ']' ∉ text) (done : List Char) : brackets (some done) text = [] := by
  induction text generalizing done with
  | nil => rfl
  | cons c rest ih =>
    obtain ⟨hc, hrest⟩ := not_or.mp (List.mem_cons.not.mp h)
    rw [brackets, if_neg (by simpa using Ne.symm hc), ih hrest]

theorem brackets_pair {before rest : List Char} (first : '[' ∉ before) (inside : ']' ∉ key) :
    brackets none (before ++ '[' :: (key ++ ']' :: rest)) = key :: brackets none rest := by
  rw [brackets_outside first, brackets, if_pos (by decide), brackets_inside inside]
  rfl

/-- Behind the first bracket of all nothing is closed, so nothing is. -/
theorem free_of_unclosed {before rest : List Char} (first : '[' ∉ before) (h : ']' ∉ rest)
    (start key after : List Char) :
    before ++ '[' :: rest ≠ start ++ '[' :: (key ++ ']' :: after) := by
  intro he
  rcases List.append_eq_append_iff.mp he with ⟨more, rfl, hrest⟩ | ⟨more, rfl, hrest⟩
  · refine h ?_
    cases more with
    | nil =>
      obtain ⟨_, rfl⟩ := List.cons.inj hrest
      simp
    | cons c more =>
      obtain ⟨_, rfl⟩ := List.cons.inj hrest
      simp
  · cases more with
    | nil =>
      obtain ⟨_, rfl⟩ := List.cons.inj hrest
      exact h (by simp)
    | cons c more =>
      obtain ⟨rfl, _⟩ := List.cons.inj hrest
      exact first (by simp)

theorem inBrackets_brackets (text : List Char) : InBrackets text (brackets none text) := by
  -- behind the first closed pair the text is shorter
  induction hn : text.length using Nat.strongRecOn generalizing text with
  | ind n ih =>
    by_cases hopen : '[' ∈ text
    swap
    · have hnone : brackets none text = [] := by
        have ho := brackets_outside hopen []
        rwa [List.append_nil] at ho
      rw [hnone]
      refine .none fun before key after he => hopen ?_
      simp [he]
    obtain ⟨before, rest, rfl, first⟩ := List.eq_append_cons_of_mem hopen
    by_cases hclose : ']' ∈ rest
    · obtain ⟨key, after, rfl, inside⟩ := List.eq_append_cons_of_mem hclose
      rw [brackets_pair first inside]
      refine .pair first inside (ih after.length ?_ after rfl)
      simp only [List.length_append, List.length_cons] at hn
      omega
    · rw [brackets_outside first, brackets, if_pos (by decide), brackets_unclosed hclose]
      exact .none (free_of_unclosed first hclose)

/-- The decoder finds the keys that a text holds. -/
theorem brackets_eq_iff : brackets none text = keys ↔ InBrackets text keys := by
  constructor
  · rintro rfl
    exact inBrackets_brackets text
  · intro h
    induction h with
    | @none text free =>
      have hkeys := inBrackets_brackets text
      generalize brackets none text = keys at hkeys
      cases hkeys with
      | none _ => rfl
      | pair _ _ _ => exact absurd rfl (free _ _ _)
    | pair first inside _ ih => rw [brackets_pair first inside, ih]

theorem InBrackets.sublist (h : InBrackets text keys) (hm : key ∈ keys) : key.Sublist text := by
  induction h with
  | none _ => cases hm
  | @pair before own rest keys _ _ _ ih =>
    have hrest : (own ++ ']' :: rest).Sublist (before ++ '[' :: (own ++ ']' :: rest)) :=
      (List.sublist_cons_self _ _).trans (List.sublist_append_right _ _)
    refine List.Sublist.trans ?_ hrest
    rcases List.mem_cons.mp hm with rfl | hm
    · exact List.sublist_append_left _ _
    · exact (ih hm).trans ((List.sublist_cons_self _ _).trans (List.sublist_append_right _ _))

/-! One step. -/

theorem itemAt_of_spells {n : Nat} (h : Text.Spells key n) (items : List Value) :
    itemAt items key = .ok items[n]? := by
  rw [itemAt, if_pos h.isPosition, h.integer?]
  rfl

theorem itemAt_of_misread (h : Text.Misread key) (items : List Value) :
    itemAt items key = Value.misuse .value := by
  rw [itemAt, if_pos h.isPosition, h.integer?]

/-- What looks like a position spells a number or is misread as one; nothing else leads to an item. -/
theorem itemAt_cases (items : List Value) (key : List Char) :
    (∃ n, Text.Spells key n ∧ itemAt items key = .ok items[n]?) ∨
    Text.Misread key ∧ itemAt items key = Value.misuse .value ∨
    itemAt items key = .ok none := by
  by_cases hp : isPosition key = true
  · rcases Text.spells_or_misread hp with hs | hm
    · exact Or.inl ⟨_, hs, itemAt_of_spells hs items⟩
    · exact Or.inr (Or.inl ⟨hm, itemAt_of_misread hm items⟩)
  · exact Or.inr (Or.inr (if_neg hp))

theorem itemAt_eq_ok_some {items : List Value} :
    itemAt items key = .ok (some inner) ↔ ∃ n, Text.Spells key n ∧ items[n]? = some inner := by
  constructor
  · intro h
    rcases itemAt_cases items key with ⟨n, hs, hi⟩ | ⟨_, hi⟩ | hi
    · exact ⟨n, hs, Except.ok.inj (hi.symm.trans h)⟩
    · cases hi.symm.trans h
    · cases hi.symm.trans h
  · rintro ⟨n, hs, h⟩
    rw [itemAt_of_spells hs, h]

theorem itemAt_eq_error {items : List Value} :
    itemAt items key = .error e ↔ e = .misuse .value ∧ Text.Misread key := by
  constructor
  · intro h
    rcases itemAt_cases items key with ⟨_, _, hi⟩ | ⟨hm, hi⟩ | hi
    · cases hi.symm.trans h
    · exact ⟨(Except.error.inj (hi.symm.trans h)).symm, hm⟩
    · cases hi.symm.trans h
  · rintro ⟨rfl, hm⟩
    exact itemAt_of_misread hm items

theorem step_eq_ok_some : step value key = .ok (some inner) ↔ Enters Text.Spells value key inner := by
  constructor
  · intro h
    cases value with
    | map entries => exact .key (Except.ok.inj h)
    | list items =>
      obtain ⟨n, hn, hi⟩ := itemAt_eq_ok_some.mp h
      exact .position hn hi
    | _ => cases h
  · intro h
    cases h with
    | key has => exact congrArg Except.ok has
    | position number within => exact itemAt_eq_ok_some.mpr ⟨_, number, within⟩

theorem step_eq_error : step value key = .error e ↔
    e = .misuse .value ∧ (∃ items, value = .list items) ∧ Text.Misread key := by
  cases value with
  | list items =>
    change itemAt items key = .error e ↔ _
    rw [itemAt_eq_error]
    simp
  | _ => simp [step]

/-! A whole path. -/

theorem walk_cons_eq_ok_some : walk value (key :: keys) = .ok (some found) ↔
    ∃ inner, step value key = .ok (some inner) ∧ walk inner keys = .ok (some found) := by
  rw [walk]
  rcases step value key with e | _ | inner
  · constructor
    · rintro ⟨⟩
    · rintro ⟨_, ⟨⟩, _⟩
  · constructor
    · rintro ⟨⟩
    · rintro ⟨_, ⟨⟩, _⟩
  · constructor
    · exact fun h => ⟨inner, rfl, h⟩
    · rintro ⟨_, ⟨⟩, h⟩
      exact h

theorem walk_cons_eq_error : walk value (key :: keys) = .error e ↔
    step value key = .error e ∨
      ∃ inner, step value key = .ok (some inner) ∧ walk inner keys = .error e := by
  rw [walk]
  rcases step value key with f | _ | inner
  · constructor
    · exact fun h => Or.inl h
    · rintro (h | ⟨_, h, _⟩)
      · exact h
      · cases h
  · constructor
    · rintro ⟨⟩
    · rintro (h | ⟨_, h, _⟩) <;> cases h
  · constructor
    · exact fun h => Or.inr ⟨inner, rfl, h⟩
    · rintro (h | ⟨_, ⟨⟩, h⟩)
      · cases h
      · exact h

/-- Walking along keys finds what they lead to. -/
theorem walk_eq_ok_some : walk value keys = .ok (some found) ↔ Leads Text.Spells value keys found := by
  induction keys generalizing value with
  | nil =>
    constructor
    · intro h
      cases h
      exact .here _
    · intro h
      cases h
      rfl
  | cons key rest ih =>
    rw [walk_cons_eq_ok_some]
    constructor
    · rintro ⟨inner, hstep, hwalk⟩
      exact .step (step_eq_ok_some.mp hstep) (ih.mp hwalk)
    · intro h
      cases h with
      | step enters behind => exact ⟨_, step_eq_ok_some.mpr enters, ih.mpr behind⟩

/-- A walk fails where it comes to a list with a key that is misread, and nowhere else. -/
theorem walk_eq_error : walk value keys = .error e ↔
    e = .misuse .value ∧ ∃ front key behind items, keys = front ++ key :: behind ∧
      Leads Text.Spells value front (.list items) ∧ Text.Misread key := by
  induction keys generalizing value with
  | nil => simp [walk]
  | cons first rest ih =>
    rw [walk_cons_eq_error, step_eq_error]
    constructor
    · rintro (⟨rfl, ⟨items, rfl⟩, hm⟩ | ⟨inner, hstep, hwalk⟩)
      · exact ⟨rfl, [], first, rest, items, rfl, .here _, hm⟩
      · obtain ⟨rfl, front, key, behind, items, rfl, hleads, hm⟩ := ih.mp hwalk
        exact ⟨rfl, first :: front, key, behind, items, rfl, .step (step_eq_ok_some.mp hstep) hleads, hm⟩
    · rintro ⟨rfl, front, key, behind, items, hkeys, hleads, hm⟩
      cases hleads with
      | here _ =>
        obtain ⟨rfl, _⟩ := List.cons.inj hkeys
        exact Or.inl ⟨rfl, ⟨items, rfl⟩, hm⟩
      | step enters behind =>
        obtain ⟨rfl, rfl⟩ := List.cons.inj hkeys
        exact Or.inr ⟨_, step_eq_ok_some.mpr enters,
          ih.mpr ⟨rfl, _, key, _, items, rfl, behind, hm⟩⟩

/-- A path that reads the keys as numbers where it comes to a list can be read in another way that
agrees on those keys. -/
theorem Leads.mono (h : Leads spells value keys found)
    (hs : ∀ front key behind items, keys = front ++ key :: behind →
      Leads spells value front (.list items) → ∀ n, spells key n → other key n) :
    Leads other value keys found := by
  induction h with
  | here value => exact .here value
  | @step value inner found key keys enters _ ih =>
    refine .step ?_ (ih fun front next behind items hkeys leads => ?_)
    · cases enters with
      | key has => exact .key has
      | position number within => exact .position (hs [] key keys _ rfl (.here _) _ number) within
    · exact hs (key :: front) next behind items (by simp [hkeys]) (.step enters leads)

/-! The value under a name. -/

theorem map_eq_error {α β : Type} {x : Except Error α} {f : α → β} :
    x.map f = .error e ↔ x = .error e := by
  cases x <;> simp [Except.map]

theorem nested_eq_error : nested (.map entries) name = .error e ↔
    ∃ base rest start, '[' ∉ base ∧ name.toList = base ++ '[' :: rest ∧
      (Value.map entries).get? (String.ofList base) = some start ∧
      walk start (brackets none ('[' :: rest)) = .error e := by
  constructor
  · intro h
    by_cases hopen : '[' ∈ name.toList
    swap
    · rw [nested_of_no_cut fun parts hc => ?_] at h
      · cases h
      · rw [Text.cut?_eq_none hopen] at hc
        cases hc
    obtain ⟨base, rest, hname, first⟩ := List.eq_append_cons_of_mem hopen
    by_cases hrest : rest = []
    · subst hrest
      rw [nested_of_no_cut fun parts hc => ?_] at h
      · cases h
      · rw [hname, Text.cut?_of_not_mem first] at hc
        obtain rfl := Option.some.inj hc
        rfl
    have hb : '[' ∉ (String.ofList base).toList := by simpa using first
    rw [nested_of_cut hb hrest (by simpa using hname)] at h
    cases hg : (Value.map entries).get? (String.ofList base) with
    | none =>
      rw [hg] at h
      cases h
    | some start =>
      rw [hg] at h
      exact ⟨base, rest, start, first, hname, hg, map_eq_error.mp h⟩
  · rintro ⟨base, rest, start, first, hname, hg, hwalk⟩
    have hrest : rest ≠ [] := by
      rintro rfl
      cases hwalk
    have hb : '[' ∉ (String.ofList base).toList := by simpa using first
    rw [nested_of_cut hb hrest (by simpa using hname), hg]
    exact map_eq_error.mpr hwalk

/-- Looking a value up fails exactly where the keys of its name lead to a list and the next one is
misread. -/
theorem value_eq_error : Submission.value (.map entries) (.text name) = .error e ↔
    e = .misuse .value ∧ Misled entries name := by
  cases hflat : (Value.map entries).get? name with
  | some flat =>
    rw [value_of_key hflat]
    constructor
    · rintro ⟨⟩
    · rintro ⟨_, ⟨hno, _, _, _, _, _, _⟩⟩
      rw [hflat] at hno
      cases hno
  | none =>
    rw [value_of_no_key hflat, nested_eq_error]
    constructor
    · rintro ⟨base, rest, start, first, hname, hg, hwalk⟩
      obtain ⟨rfl, front, key, behind, items, hkeys, hleads, hm⟩ := walk_eq_error.mp hwalk
      exact ⟨rfl, .intro hflat first hname (brackets_eq_iff.mp hkeys) hg hleads hm⟩
    · rintro ⟨rfl, ⟨_, first, hname, holds, hg, hleads, hm⟩⟩
      have hkeys := brackets_eq_iff.mpr holds
      exact ⟨_, _, _, first, hname, hg, walk_eq_error.mpr ⟨rfl, _, _, _, _, hkeys, hleads, hm⟩⟩

/-- A name without digits that are not decimal, and not too long, misleads nobody. -/
theorem not_misled_of_decimal
    (hd : ∀ c ∈ name.toList, Unicode.isDigit c = true → Unicode.isDecimal c = true)
    (hl : name.length ≤ Text.maxDigits) : ¬ Misled entries name := by
  rintro @⟨_, _, key, _, _, _, _, _, _, cut, holds, _, _, misread⟩
  have hsub : key.Sublist name.toList := by
    rw [cut]
    exact (holds.sublist (by simp)).trans (List.sublist_append_right _ _)
  rcases misread.fault with ⟨c, hc, hno⟩ | hlong
  · rw [hd c (hsub.subset hc) (misread.digits c hc)] at hno
    cases hno
  · have hle := hsub.length_le
    rw [String.length_toList] at hle
    omega

/-- Looking up a value under a name fails exactly where the keys of the name lead to a list and the
next one consists of digits that spell no number, one of them being none of the decimal digits or
all of them too many. It never fails under a name without such digits. -/
theorem value_fails_iff (entries : List (Value × Value)) (name : String) :
    (∀ e, Submission.value (.map entries) (.text name) = .error e ↔
      e = .misuse .value ∧ Misled entries name) ∧
    ((∀ c ∈ name.toList, Unicode.isDigit c = true → Unicode.isDecimal c = true) →
      name.length ≤ Text.maxDigits →
      ∃ found, Submission.value (.map entries) (.text name) = .ok found) := by
  refine ⟨fun e => value_eq_error, fun hd hl => ?_⟩
  cases hv : Submission.value (.map entries) (.text name) with
  | ok found => exact ⟨found, rfl⟩
  | error e => exact absurd (value_eq_error.mp hv).2 (not_misled_of_decimal hd hl)

/-- A superscript two is a digit and no number. -/
theorem superscript_fails :
    Submission.value (.map [(.text "items", .list [.text "x"])]) (.text "items[²]") =
      .error (.misuse .value) := by
  decide +kernel

/-- What is under a base and keys in brackets, as long as no position that a list is asked for is too
long to be read: the value under the very name, or else the one to which the keys lead from the value
under the base, or nothing. -/
theorem value_of_path (hb : '[' ∉ base.toList) (hn : keys ≠ []) (hk : ∀ key ∈ keys, ']' ∉ key)
    (ha : ∀ key ∈ keys, ∀ c ∈ key, c.toNat < 128)
    (hname : name.toList = base.toList ++ bracketed keys) (entries : List (Value × Value))
    (hl : ∀ start front key behind items, (Value.map entries).get? base = some start →
      keys = front ++ key :: behind → Leads Text.Numeral start front (.list items) →
        (∀ c ∈ key, c.isDigit = true) → key.length ≤ Text.maxDigits) :
    (∀ flat, (Value.map entries).get? name = some flat →
      Submission.value (.map entries) (.text name) = .ok (flattened flat)) ∧
    ((Value.map entries).get? name = none →
      (∀ start found, (Value.map entries).get? base = some start →
        Leads Text.Numeral start keys found →
        Submission.value (.map entries) (.text name) = .ok (flattened found)) ∧
      ((∀ start found, (Value.map entries).get? base = some start →
        ¬ Leads Text.Numeral start keys found) →
        Submission.value (.map entries) (.text name) = .ok .null)) := by
  have hnumeral : ∀ key ∈ keys, ∀ n, Text.Spells key n → Text.Numeral key n :=
    fun key hm n h => h.numeral (ha key hm)
  refine ⟨fun flat hflat => value_of_key hflat, fun hflat => ?_⟩
  rw [value_of_no_key hflat, nested_of_keys hb hk hn hname]
  constructor
  · intro start found hstart hleads
    have hwalk : walk start keys = .ok (some found) :=
      walk_eq_ok_some.mpr (hleads.mono fun front key behind items hkeys leads n number =>
        number.spells (hl start front key behind items hstart hkeys leads number.digits))
    rw [hstart]
    dsimp only
    rw [hwalk]
    rfl
  · intro hno
    cases hstart : (Value.map entries).get? base with
    | none => rfl
    | some start =>
      dsimp only
      cases hwalk : walk start keys with
      | error e =>
        obtain ⟨_, front, key, behind, items, rfl, leads, misread⟩ := walk_eq_error.mp hwalk
        have hleads : Leads Text.Numeral start front (.list items) :=
          leads.mono fun _ other _ _ hfront _ => hnumeral other (by simp [hfront])
        exact absurd misread (Text.not_misread_of_ascii (ha key (by simp))
          (hl start front key behind items hstart rfl hleads))
      | ok end? =>
        cases end? with
        | none => rfl
        | some found =>
          have hleads : Leads Text.Numeral start keys found :=
            (walk_eq_ok_some.mp hwalk).mono fun _ key _ _ hkeys _ => hnumeral key (by simp [hkeys])
          exact absurd hleads (hno start found hstart)

/-- Two places under a key with a bracket in it. -/
def places : List (Value × Value) :=
  [(.text "order", .map [(.text "to[", .list [.text "Basel",
    .map [(.text "city", .text "Bern"), (.text "zip", .text "3000")]])])]

def keysToPlace : List (List Char) := ["to[".toList, "1".toList]

theorem value_of_path_places :
    '[' ∉ "order".toList ∧ keysToPlace ≠ [] ∧ (∀ key ∈ keysToPlace, ']' ∉ key) ∧
    (∀ key ∈ keysToPlace, ∀ c ∈ key, c.toNat < 128) ∧
    "order[to[][1]".toList = "order".toList ++ bracketed keysToPlace ∧
    (∀ start front key behind items, (Value.map places).get? "order" = some start →
      keysToPlace = front ++ key :: behind → Leads Text.Numeral start front (.list items) →
        (∀ c ∈ key, c.isDigit = true) → key.length ≤ Text.maxDigits) ∧
    Submission.value (.map places) (.text "order[to[][1]") =
      .ok (.list [.text "Bern", .text "3000"]) := by
  have hb : '[' ∉ "order".toList := by decide
  have hn : keysToPlace ≠ [] := by decide
  have hk : ∀ key ∈ keysToPlace, ']' ∉ key := by decide
  have ha : ∀ key ∈ keysToPlace, ∀ c ∈ key, c.toNat < 128 := by simp [keysToPlace]
  have hname : "order[to[][1]".toList = "order".toList ++ bracketed keysToPlace := rfl
  have hshort : ∀ key ∈ keysToPlace, key.length ≤ Text.maxDigits := by decide
  have hl : ∀ start front key behind items, (Value.map places).get? "order" = some start →
      keysToPlace = front ++ key :: behind → Leads Text.Numeral start front (.list items) →
        (∀ c ∈ key, c.isDigit = true) → key.length ≤ Text.maxDigits := by
    intro _ front key behind _ _ hkeys _ _
    refine hshort key ?_
    rw [hkeys]
    simp
  have hone : Text.Numeral "1".toList 1 := ⟨by decide, by simp, rfl⟩
  refine ⟨hb, hn, hk, ha, hname, hl, ?_⟩
  have hpath := ((value_of_path hb hn hk ha hname places hl).2 rfl).1
  exact hpath _ _ rfl (.step (.key rfl) (.step (.position hone rfl) (.here _)))

end FormGuard.Submission
