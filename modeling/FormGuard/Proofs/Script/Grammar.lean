import FormGuard.Text.Occurrence
import Mathlib.Tactic.Common

/-! How the operators of browser code that bind loosest group what stands between them: the
productions from a conjunction up to a whole expression. -/
namespace FormGuard.Script

/-- An operator that may leave its right operand unasked: `&&`, `||` or `??`. -/
inductive Link where
  | both
  | either
  | otherwise
  deriving DecidableEq

inductive Mark where
  | link (l : Link)
  | comma
  | ask
  | colon
  /-- An assignment; one with an operator may leave the place as it is. -/
  | assign (l : Option Link)
  deriving DecidableEq

/-- Code between two of these operators, or one of them. -/
inductive Item where
  | operand (code : List Char)
  | mark (m : Mark)
  deriving DecidableEq

inductive Grouping where
  | operand (code : List Char)
  | link (l : Link) (left right : Grouping)
  | choice (test yes no : Grouping)
  | assign (l : Option Link) (place : List Char) (value : Grouping)
  | sequence (first last : Grouping)
  deriving DecidableEq

/-- What productions are for: a conjunction, a disjunction, what `??` may follow, what it makes, what a
choice may begin with, and so on up to an expression. -/
inductive Level where
  | operand
  | both
  | either
  | head
  | otherwise
  | short
  | choice
  | assignment
  | sequence

namespace Level

/-- The productions that pass something on as it is. -/
inductive Under : Level → Level → Prop where
  | both : Under operand both
  | either : Under both either
  | head : Under operand head
  | again : Under otherwise head
  | short : Under either short
  | coalescing : Under otherwise short
  | choice : Under short choice
  | assignment : Under choice assignment
  | sequence : Under assignment sequence

/-- Which operators may stand in something without brackets around them. -/
def allows : Level → Mark → Bool
  | operand, _ => false
  | both, m => m == .link .both
  | either, m => m == .link .both || m == .link .either
  | head, m | otherwise, m => m == .link .otherwise
  | short, .link _ => true
  | short, _ => false
  | choice, m | assignment, m => m != .comma
  | sequence, _ => true

end Level

inductive Derives : Level → List Item → Grouping → Prop where
  | operand {code : List Char} : Derives .operand [.operand code] (.operand code)
  | pass {l up : Level} {ts : List Item} {e : Grouping} (under : l.Under up) (h : Derives l ts e) :
    Derives up ts e
  | both {ls rs : List Item} {a b : Grouping} (left : Derives .both ls a)
    (right : Derives .operand rs b) :
    Derives .both (ls ++ .mark (.link .both) :: rs) (.link .both a b)
  | either {ls rs : List Item} {a b : Grouping} (left : Derives .either ls a)
    (right : Derives .both rs b) :
    Derives .either (ls ++ .mark (.link .either) :: rs) (.link .either a b)
  | otherwise {ls rs : List Item} {a b : Grouping} (left : Derives .head ls a)
    (right : Derives .operand rs b) :
    Derives .otherwise (ls ++ .mark (.link .otherwise) :: rs) (.link .otherwise a b)
  | choice {cs ys ns : List Item} {c y n : Grouping} (test : Derives .short cs c)
    (yes : Derives .assignment ys y) (no : Derives .assignment ns n) :
    Derives .choice (cs ++ .mark .ask :: (ys ++ .mark .colon :: ns)) (.choice c y n)
  | assign {l : Option Link} {place : List Char} {vs : List Item} {v : Grouping}
    (value : Derives .assignment vs v) :
    Derives .assignment (.operand place :: .mark (.assign l) :: vs) (.assign l place v)
  | sequence {ls rs : List Item} {a b : Grouping} (first : Derives .sequence ls a)
    (last : Derives .assignment rs b) :
    Derives .sequence (ls ++ .mark .comma :: rs) (.sequence a b)

variable {l up : Level} {ts us : List Item} {e c : Grouping} {m k : Mark}

theorem Level.allows_of_under (h : l.Under up) (hm : l.allows m = true) : up.allows m = true := by
  cases h <;> cases m with
  | link k => cases k <;> first | rfl | cases hm
  | _ => first | rfl | cases hm

theorem mark_mem_append_cons :
    .mark m ∈ us ++ .mark k :: ts ↔ .mark m ∈ us ∨ m = k ∨ .mark m ∈ ts := by simp

/-- Only what its level allows stands in something that is derived. -/
theorem Derives.allows (h : Derives l ts e) (hm : .mark m ∈ ts) : l.allows m = true := by
  induction h with
  | operand => simp at hm
  | pass under _ ih => exact Level.allows_of_under under (ih hm)
  | both _ _ ihl ihr =>
    rcases mark_mem_append_cons.mp hm with hm | rfl | hm
    · exact ihl hm
    · rfl
    · cases ihr hm
  | either _ _ ihl ihr =>
    rcases mark_mem_append_cons.mp hm with hm | rfl | hm
    · exact ihl hm
    · rfl
    · exact Level.allows_of_under .either (ihr hm)
  | otherwise _ _ ihl ihr =>
    rcases mark_mem_append_cons.mp hm with hm | rfl | hm
    · exact ihl hm
    · rfl
    · cases ihr hm
  | choice _ _ _ ihc ihy ihn =>
    rcases mark_mem_append_cons.mp hm with hm | rfl | hm
    · exact Level.allows_of_under .choice (ihc hm)
    · rfl
    · rcases mark_mem_append_cons.mp hm with hm | rfl | hm
      · exact ihy hm
      · rfl
      · exact ihn hm
  | assign _ ih =>
    simp only [List.mem_cons, reduceCtorEq, false_or] at hm
    rcases hm with hm | hm
    · cases hm
      rfl
    · exact ih hm
  | sequence => rfl

theorem Derives.not_mem (h : Derives l ts e) (hm : l.allows m = false) : .mark m ∉ ts := by
  intro hmem
  rw [h.allows hmem] at hm
  cases hm

/-! What is derived says by its operators which production is the last. -/

/-- The level at which something is made. -/
def Grouping.level : Grouping → Level
  | .operand _ => .operand
  | .link .both _ _ => .both
  | .link .either _ _ => .either
  | .link .otherwise _ _ => .otherwise
  | .choice _ _ _ => .choice
  | .assign _ _ _ => .assignment
  | .sequence _ _ => .sequence

def beginsWithAssign : List Item → Bool
  | .operand _ :: .mark (.assign _) :: _ => true
  | _ => false

def levelOf (ts : List Item) : Level :=
  if .mark .comma ∈ ts then .sequence
  else if beginsWithAssign ts then .assignment
  else if .mark .ask ∈ ts then .choice
  else if .mark (.link .otherwise) ∈ ts then .otherwise
  else if .mark (.link .either) ∈ ts then .either
  else if .mark (.link .both) ∈ ts then .both
  else .operand

/-- What comes behind another operator is not the first assignment. -/
theorem not_beginsWithAssign (h : ∀ k, .mark (.assign k) ∉ ts) (hm : ∀ k, m ≠ .assign k)
    (us : List Item) : ¬ beginsWithAssign (ts ++ .mark m :: us) = true := by
  intro hb
  unfold beginsWithAssign at hb
  split at hb
  case h_2 => cases hb
  case h_1 place k rest heq =>
    match ts with
    | [] => cases heq
    | [_] => exact hm k (Item.mark.inj (List.cons.inj (List.cons.inj heq).2).1)
    | _ :: u :: _ =>
      obtain rfl : u = .mark (.assign k) := (List.cons.inj (List.cons.inj heq).2).1
      exact h k (by simp)

theorem Derives.levelOf_eq (h : Derives l ts e) : levelOf ts = e.level := by
  have hlink : ∀ k j, Mark.link k ≠ .assign j := fun _ _ => Mark.noConfusion
  induction h with
  | operand => simp [levelOf, beginsWithAssign, Grouping.level]
  | pass _ _ ih => exact ih
  | both left right =>
    have h := Derives.both left right
    rw [levelOf, if_neg (h.not_mem rfl),
      if_neg (not_beginsWithAssign (fun _ => left.not_mem rfl) (hlink _) _), if_neg (h.not_mem rfl),
      if_neg (h.not_mem rfl), if_neg (h.not_mem rfl), if_pos (by simp)]
    rfl
  | either left right =>
    have h := Derives.either left right
    rw [levelOf, if_neg (h.not_mem rfl),
      if_neg (not_beginsWithAssign (fun _ => left.not_mem rfl) (hlink _) _), if_neg (h.not_mem rfl),
      if_neg (h.not_mem rfl), if_pos (by simp)]
    rfl
  | otherwise left right =>
    have h := Derives.otherwise left right
    rw [levelOf, if_neg (h.not_mem rfl),
      if_neg (not_beginsWithAssign (fun _ => left.not_mem rfl) (hlink _) _), if_neg (h.not_mem rfl),
      if_pos (by simp)]
    rfl
  | choice test yes no =>
    have h := Derives.choice test yes no
    rw [levelOf, if_neg (h.not_mem rfl),
      if_neg (not_beginsWithAssign (fun _ => test.not_mem rfl) (fun _ => Mark.noConfusion) _),
      if_pos (by simp)]
    rfl
  | @assign k place vs _ value =>
    have h : Derives .assignment (.operand place :: .mark (.assign k) :: vs) _ := .assign value
    rw [levelOf, if_neg (h.not_mem rfl), beginsWithAssign, if_pos rfl]
    rfl
  | sequence first last =>
    rw [levelOf, if_pos (by simp)]
    rfl

/-! A choice goes on, behind its `?`, up to the first `:` that no `?` in between claims. -/

/-- What comes behind the colon that is left over, with so many choices still open. -/
def behindColon : Nat → List Item → Option (List Item)
  | _, [] => none
  | n, .mark .colon :: ts => if n = 0 then some ts else behindColon (n - 1) ts
  | n, .mark .ask :: ts => behindColon (n + 1) ts
  | n, _ :: ts => behindColon n ts

theorem Derives.behindColon_append (h : Derives l ts e) (n : Nat) (us : List Item) :
    behindColon n (ts ++ us) = behindColon n us := by
  induction h generalizing n us with
  | operand => rfl
  | pass _ _ ih => exact ih n us
  | both _ _ ihl ihr | either _ _ ihl ihr | otherwise _ _ ihl ihr | sequence _ _ ihl ihr =>
    rw [List.append_assoc, ihl, List.cons_append, behindColon, ihr]
    all_goals simp
  | choice _ _ _ ihc ihy ihn =>
    rw [List.append_assoc, ihc, List.cons_append, behindColon, List.append_assoc, ihy,
      List.cons_append, behindColon, if_neg (Nat.succ_ne_zero n), ihn, Nat.add_sub_cancel]
  | assign _ ih => exact ih n us

/-- What the last production made something from. -/
def Produced (ts : List Item) : Grouping → Prop
  | .operand code => ts = [.operand code]
  | .link .both a b => ∃ ls rs, ts = ls ++ .mark (.link .both) :: rs ∧
    Derives .both ls a ∧ Derives .operand rs b
  | .link .either a b => ∃ ls rs, ts = ls ++ .mark (.link .either) :: rs ∧
    Derives .either ls a ∧ Derives .both rs b
  | .link .otherwise a b => ∃ ls rs, ts = ls ++ .mark (.link .otherwise) :: rs ∧
    Derives .head ls a ∧ Derives .operand rs b
  | .choice c y n => ∃ cs ys ns, ts = cs ++ .mark .ask :: (ys ++ .mark .colon :: ns) ∧
    Derives .short cs c ∧ Derives .assignment ys y ∧ Derives .assignment ns n
  | .assign k place v => ∃ vs, ts = .operand place :: .mark (.assign k) :: vs ∧
    Derives .assignment vs v
  | .sequence a b => ∃ ls rs, ts = ls ++ .mark .comma :: rs ∧
    Derives .sequence ls a ∧ Derives .assignment rs b

theorem Derives.produced (h : Derives l ts e) : Produced ts e := by
  induction h with
  | operand => rfl
  | pass _ _ ih => exact ih
  | both left right | either left right | otherwise left right | sequence left right =>
    exact ⟨_, _, rfl, left, right⟩
  | choice test yes no => exact ⟨_, _, _, rfl, test, yes, no⟩
  | assign value => exact ⟨_, rfl, value⟩

theorem Derives.level_eq {l' : Level} {e' : Grouping} (h : Derives l ts e) (h' : Derives l' ts e') :
    e.level = e'.level :=
  h.levelOf_eq.symm.trans h'.levelOf_eq

theorem Derives.eq_of_produced {e' : Grouping} (h : Derives l ts e) (hmade : Produced ts e')
    (hlevel : e.level = e'.level) : e = e' := by
  induction h generalizing e' with
  | pass _ _ ih => exact ih hmade hlevel
  | operand =>
    match e', hlevel, hmade with
    | .operand _, _, hts => rw [Item.operand.inj (List.cons.inj hts).1]
  | both left right ihl ihr =>
    match e', hlevel, hmade with
    | .link .both _ _, _, ⟨_, _, hts, hl, hr⟩ =>
      obtain ⟨rfl, rfl⟩ := (Text.append_cons_inj_last (right.not_mem rfl) (hr.not_mem rfl)).mp hts
      rw [ihl hl.produced (left.level_eq hl), ihr hr.produced (right.level_eq hr)]
  | either left right ihl ihr =>
    match e', hlevel, hmade with
    | .link .either _ _, _, ⟨_, _, hts, hl, hr⟩ =>
      obtain ⟨rfl, rfl⟩ := (Text.append_cons_inj_last (right.not_mem rfl) (hr.not_mem rfl)).mp hts
      rw [ihl hl.produced (left.level_eq hl), ihr hr.produced (right.level_eq hr)]
  | otherwise left right ihl ihr =>
    match e', hlevel, hmade with
    | .link .otherwise _ _, _, ⟨_, _, hts, hl, hr⟩ =>
      obtain ⟨rfl, rfl⟩ := (Text.append_cons_inj_last (right.not_mem rfl) (hr.not_mem rfl)).mp hts
      rw [ihl hl.produced (left.level_eq hl), ihr hr.produced (right.level_eq hr)]
  | choice test yes no ihc ihy ihn =>
    match e', hlevel, hmade with
    | .choice _ _ _, _, ⟨_, ys, ns, hts, hc, hy, hn⟩ =>
      obtain ⟨rfl, hrest⟩ := (Text.append_cons_inj (test.not_mem rfl) (hc.not_mem rfl)).mp hts
      have hbehind := congrArg (behindColon 0) hrest
      rw [yes.behindColon_append, hy.behindColon_append] at hbehind
      obtain rfl := Option.some.inj hbehind
      obtain rfl := List.append_cancel_right hrest
      rw [ihc hc.produced (test.level_eq hc), ihy hy.produced (yes.level_eq hy),
        ihn hn.produced (no.level_eq hn)]
  | assign value ih =>
    match e', hlevel, hmade with
    | .assign _ _ _, _, ⟨_, hts, hv⟩ =>
      simp only [List.cons.injEq, Item.operand.injEq, Item.mark.injEq, Mark.assign.injEq] at hts
      obtain ⟨rfl, rfl, rfl⟩ := hts
      rw [ih hv.produced (value.level_eq hv)]
  | sequence first last ihf ihl =>
    match e', hlevel, hmade with
    | .sequence _ _, _, ⟨_, _, hts, hf, hl⟩ =>
      obtain ⟨rfl, rfl⟩ := (Text.append_cons_inj_last (last.not_mem rfl) (hl.not_mem rfl)).mp hts
      rw [ihf hf.produced (first.level_eq hf), ihl hl.produced (last.level_eq hl)]

/-- Operators group what stands between them in one way. -/
theorem Derives.unique {l' : Level} {e' : Grouping} (h : Derives l ts e) (h' : Derives l' ts e') :
    e = e' :=
  h.eq_of_produced h'.produced (h.level_eq h')

/-! Another conjunct at the end goes to the last operand of a conjunction, wherever that stands. -/

variable {g : List Char}

/-- What comes of something with a conjunct behind it; `??` has no place for one. -/
def Grouping.guarded (g : List Char) : Grouping → Option Grouping
  | .operand code => some (.link .both (.operand code) (.operand g))
  | .link .both a b => some (.link .both (.link .both a b) (.operand g))
  | .link .either a b => (b.guarded g).map (.link .either a)
  | .link .otherwise _ _ => none
  | .choice c y n => (n.guarded g).map (.choice c y)
  | .assign k place v => (v.guarded g).map (.assign k place)
  | .sequence a b => (b.guarded g).map (.sequence a)

/-- The items of a conjunct behind something. -/
def conjunct (g : List Char) : List Item := [.mark (.link .both), .operand g]

namespace Level

/-- The level at which something stands that has got a conjunct. -/
def raised : Level → Level
  | operand | head | otherwise => both
  | l => l

end Level

theorem Derives.raise (under : l.Under up) (h : Derives l.raised ts c) :
    Derives up.raised ts c := by
  cases under with
  | both | head | again => exact h
  | either => exact .pass .either h
  | short => exact .pass .short h
  | coalescing => exact .pass .short (.pass .either h)
  | choice => exact .pass .choice h
  | assignment => exact .pass .assignment h
  | sequence => exact .pass .sequence h

theorem Derives.guarded (h : Derives l ts e) (hg : e.guarded g = some c) :
    Derives l.raised (ts ++ conjunct g) c := by
  induction h generalizing c with
  | operand =>
    cases hg
    exact .both (.pass .both .operand) .operand
  | pass under _ ih => exact .raise under (ih hg)
  | both left right =>
    cases hg
    exact .both (.both left right) .operand
  | either left _ _ ihr =>
    obtain ⟨b, hb, rfl⟩ := Option.map_eq_some_iff.mp hg
    rw [List.append_assoc]
    exact .either left (ihr hb)
  | otherwise => cases hg
  | choice test yes _ _ _ ihn =>
    obtain ⟨n, hn, rfl⟩ := Option.map_eq_some_iff.mp hg
    rw [List.append_assoc, List.cons_append, List.append_assoc]
    exact .choice test yes (ihn hn)
  | assign _ ih =>
    obtain ⟨v, hv, rfl⟩ := Option.map_eq_some_iff.mp hg
    exact .assign (ih hv)
  | sequence first _ _ ihl =>
    obtain ⟨b, hb, rfl⟩ := Option.map_eq_some_iff.mp hg
    rw [List.append_assoc]
    exact .sequence first (ihl hb)

theorem Derives.eq_operand (h : Derives .operand ts e) :
    ∃ code, ts = [.operand code] ∧ e = .operand code := by
  cases h with
  | operand => exact ⟨_, rfl, rfl⟩
  | pass under => cases under

/-- A conjunction takes the conjunct as it is. -/
theorem Derives.guarded_both (h : Derives .both ts e) :
    e.guarded g = some (.link .both e (.operand g)) := by
  cases h with
  | both => rfl
  | pass under h =>
    cases under
    obtain ⟨code, rfl, rfl⟩ := h.eq_operand
    rfl

theorem Derives.ne_nil (h : Derives l ts e) : ts ≠ [] := by
  induction h with
  | operand => exact List.cons_ne_nil _ _
  | pass _ _ ih => exact ih
  | assign => exact List.cons_ne_nil _ _
  | _ => exact List.append_ne_nil_of_right_ne_nil _ (List.cons_ne_nil _ _)

/-- A conjunct at the end belongs to what stands behind another operator. -/
theorem exists_of_append_conjunct {vs : List Item} (hm : m ≠ .link .both) (hv : vs ≠ [])
    (h : us ++ .mark m :: vs = ts ++ conjunct g) :
    ∃ ws, vs = ws ++ conjunct g ∧ ts = us ++ .mark m :: ws := by
  obtain ⟨as, hts, hrest⟩ | ⟨cs, hus, hrest⟩ := List.append_eq_append_iff.mp h
  · cases as with
    | nil => exact absurd (Item.mark.inj (List.cons.inj hrest).1) hm
    | cons a as =>
      obtain ⟨rfl, rfl⟩ := List.cons.inj hrest
      exact ⟨as, rfl, hts⟩
  · match cs with
    | [] => exact absurd (Item.mark.inj (List.cons.inj hrest).1).symm hm
    | [_] => cases (List.cons.inj (List.cons.inj hrest).2).1
    | _ :: _ :: cs => simp [conjunct] at hrest

theorem append_conjunct_ne (ts : List Item) (g : List Char) (t : Item) :
    ts ++ conjunct g ≠ [t] := by
  intro h
  have hlen := congrArg List.length h
  simp [conjunct] at hlen

/-- What is derived with a conjunct at the end comes of what is derived without it. -/
theorem Derives.of_guarded (h : Derives l (ts ++ conjunct g) c) :
    ∃ e, Derives l ts e ∧ e.guarded g = some c := by
  generalize hus : ts ++ conjunct g = us at h
  induction h generalizing ts with
  | operand => exact absurd hus (append_conjunct_ne _ _ _)
  | pass under _ ih =>
    obtain ⟨e, he, hg⟩ := ih hus
    exact ⟨e, .pass under he, hg⟩
  | both left right =>
    obtain ⟨code, rfl, rfl⟩ := right.eq_operand
    obtain ⟨rfl, htail⟩ := List.append_inj' hus rfl
    cases htail
    exact ⟨_, left, left.guarded_both⟩
  | either left right _ ihr =>
    obtain ⟨ws, rfl, rfl⟩ := exists_of_append_conjunct (by decide) right.ne_nil hus.symm
    obtain ⟨b, hb, hg⟩ := ihr rfl
    exact ⟨_, .either left hb, by rw [Grouping.guarded, hg]; rfl⟩
  | otherwise _ right =>
    obtain ⟨ws, hws, _⟩ := exists_of_append_conjunct (by decide) right.ne_nil hus.symm
    obtain ⟨code, rfl, _⟩ := right.eq_operand
    exact absurd hws.symm (append_conjunct_ne _ _ _)
  | @choice cs ys ns _ _ _ test yes no _ _ ihn =>
    have hcut : (cs ++ .mark .ask :: ys) ++ .mark .colon :: ns = ts ++ conjunct g := by
      rw [hus, List.append_assoc, List.cons_append]
    obtain ⟨ws, rfl, rfl⟩ := exists_of_append_conjunct (by decide) no.ne_nil hcut
    obtain ⟨n, hn, hg⟩ := ihn rfl
    rw [List.append_assoc, List.cons_append]
    exact ⟨_, .choice test yes hn, by rw [Grouping.guarded, hg]; rfl⟩
  | @assign k place vs _ value ih =>
    have hcut : [.operand place] ++ .mark (.assign k) :: vs = ts ++ conjunct g := hus.symm
    obtain ⟨ws, rfl, rfl⟩ := exists_of_append_conjunct Mark.noConfusion value.ne_nil hcut
    obtain ⟨v, hv, hg⟩ := ih rfl
    exact ⟨_, .assign hv, by rw [Grouping.guarded, hg]; rfl⟩
  | sequence first last _ ihl =>
    obtain ⟨ws, rfl, rfl⟩ := exists_of_append_conjunct (by decide) last.ne_nil hus.symm
    obtain ⟨b, hb, hg⟩ := ihl rfl
    exact ⟨_, .sequence first hb, by rw [Grouping.guarded, hg]; rfl⟩

/-- An expression and a conjunct are grouped in the way that `guarded` tells, or not at all. -/
theorem Derives.append_conjunct_iff (h : Derives .sequence ts e) :
    Derives .sequence (ts ++ conjunct g) c ↔ e.guarded g = some c := by
  constructor
  · intro hc
    obtain ⟨e', he', hg⟩ := hc.of_guarded
    rw [h.unique he', hg]
  · exact h.guarded

end FormGuard.Script
