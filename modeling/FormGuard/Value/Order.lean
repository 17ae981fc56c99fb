import FormGuard.Value.Access

/-! The order of values: numbers by size, texts by code points, sequences item by item. -/
namespace FormGuard

namespace Double

/-- The whole number as a count of units. -/
def unitsOf (i : Int) : Int := i * one

/-- A whole number beside a double, exactly. -/
def intLess (i : Int) : Double → Bool
  | .nan => false
  | .infinite negative => !negative
  | .finite s n => decide (unitsOf i < if s then -(n : Int) else n)

def lessInt : Double → Int → Bool
  | .nan, _ => false
  | .infinite negative, _ => negative
  | .finite s n, i => decide ((if s then -(n : Int) else (n : Int)) < unitsOf i)

end Double

namespace Value

/-- The whole number a value is, truth values included. -/
def asInt? : Value → Option Int
  | .int i => some i
  | .bool b => some (if b then 1 else 0)
  | _ => none

def textLess (s t : String) : Bool := decide (s.toList < t.toList)

/-- Values that are neither sequences: numbers among numbers and texts among texts. -/
def lessPlain (v w : Value) : Except Error Bool :=
  match v.asInt?, v, w.asInt?, w with
  | some i, _, some j, _ => .ok (decide (i < j))
  | some i, _, none, .float d => .ok (d.intLess i)
  | none, .float d, some j, _ => .ok (d.lessInt j)
  | none, .float d, none, .float e => .ok (d.less e)
  | _, _, _, _ =>
    match v.asText?, w.asText? with
    | some s, some t => .ok (textLess s t)
    | _, _ => misuse .type

/-- Whether the items of one set are among another's, with one to spare. -/
def properlyWithin (xs ys : List Value) : Bool :=
  xs.all (fun x => ys.any x.same) && !ys.all (fun y => xs.any y.same)

mutual

/-- Whether one value comes before another; values of different sorts are not compared. -/
def less : Value → Value → Except Error Bool
  | .list xs, w =>
    match w with
    | .list ys => lessItems xs ys
    | _ => misuse .type
  | .tuple xs, w =>
    match w with
    | .tuple ys => lessItems xs ys
    | _ => misuse .type
  | .set xs, w =>
    match w with
    | .set ys => .ok (properlyWithin xs ys)
    | _ => misuse .type
  | v, w => lessPlain v w

/-- The first difference decides; without one the shorter sequence comes first. -/
def lessItems : List Value → List Value → Except Error Bool
  | [], ys => .ok (!ys.isEmpty)
  | _ :: _, [] => .ok false
  | x :: xs, y :: ys => if x.same y then lessItems xs ys else less x y

end

/-- Puts a value behind those that it does not come before. -/
def insertSorted (v : Value) : List Value → Except Error (List Value)
  | [] => .ok [v]
  | w :: rest => do
    if ← v.less w then return v :: w :: rest
    return w :: (← insertSorted v rest)

/-- The values in ascending order; equal ones keep theirs. -/
def sorted (vs : List Value) : Except Error (List Value) :=
  vs.foldlM (fun done v => insertSorted v done) []

theorem exists_insertSorted {v : Value} (hv : ∃ s, v = .text s) {done : List Value}
    (hd : ∀ w ∈ done, ∃ s, w = .text s) :
    ∃ ws, insertSorted v done = .ok ws ∧ ∀ w ∈ ws, ∃ s, w = .text s := by
  obtain ⟨s, rfl⟩ := hv
  induction done with
  | nil => exact ⟨[.text s], rfl, by simp⟩
  | cons w rest ih =>
    obtain ⟨t, rfl⟩ := hd w List.mem_cons_self
    obtain ⟨ws, hws, htexts⟩ := ih fun u hu => hd u (List.mem_cons_of_mem _ hu)
    have hl : less (.text s) (.text t) = .ok (textLess s t) := by
      simp [less, lessPlain, asInt?, asText?]
    rw [insertSorted, hl, hws]
    cases textLess s t with
    | true => exact ⟨_, rfl, List.forall_mem_cons.mpr ⟨⟨s, rfl⟩, hd⟩⟩
    | false => exact ⟨_, rfl, List.forall_mem_cons.mpr ⟨⟨t, rfl⟩, htexts⟩⟩

/-- Texts can be sorted. -/
theorem exists_sorted {vs : List Value} (h : ∀ v ∈ vs, ∃ s, v = .text s) :
    ∃ ws, sorted vs = .ok ws := by
  suffices hall : ∀ done : List Value, (∀ w ∈ done, ∃ s, w = .text s) →
      ∃ ws, vs.foldlM (fun done v => insertSorted v done) done = .ok ws from hall [] (by simp)
  induction vs with
  | nil => exact fun done _ => ⟨done, rfl⟩
  | cons v rest ih =>
    intro done hd
    obtain ⟨next, hn, ht⟩ := exists_insertSorted (h v List.mem_cons_self) hd
    rw [List.foldlM_cons, hn]
    exact ih (fun u hu => h u (List.mem_cons_of_mem _ hu)) next ht

end Value

end FormGuard
