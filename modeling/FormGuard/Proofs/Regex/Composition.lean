import FormGuard.Proofs.Regex.Reading

/-! What holds of every parser as soon as it holds of the parts: those of escapes, class members,
references and repetitions. -/
namespace FormGuard.Regex

open FormGuard.Regex.Parser

/-- What is said of parsers goes through their composition, and holds of those that take no bracket. -/
structure Composes (J : {α : Type} → Parser α → Prop) : Prop where
  pure {α : Type} (a : α) : J (pure a)
  malformed {α : Type} : J (malformed : Parser α)
  bind {α β : Type} {x : Parser α} {f : α → Parser β} (hx : J x) (hf : ∀ a, J (f a)) : J (x >>= f)
  get {β : Type} {f : ParseState → Parser β} (hf : ∀ s, J (f s)) : J (get >>= f)
  modify {g : ParseState → ParseState} (hrest : ∀ s, (g s).rest = s.rest)
    (hflags : ∀ s, (g s).flags = s.flags) : J (modify g)
  accept {ch : Char} (h : ch ≠ '[') : J (accept ch)
  takeWhile {kind : Char → Bool} (h : kind '[' = false) (count : Nat) : J (takeWhile kind count)

namespace Composes
variable {J : {α : Type} → Parser α → Prop}

section
variable {α β : Type} {p : Prop} [Decidable p]

theorem ite (_ : Composes J) {x y : Parser α} (hx : J x) (hy : J y) : J (if p then x else y) := by
  split
  · exact hx
  · exact hy

variable (h : Composes J)
include h

theorem guard {f : PUnit → Parser β} (hf : J (f ⟨⟩)) :
    J (if p then Parser.malformed >>= f else f ⟨⟩) :=
  h.ite (h.bind h.malformed fun _ => hf) hf

theorem require {f : PUnit → Parser β} (hf : J (f ⟨⟩)) :
    J (if p then f ⟨⟩ else Parser.malformed >>= f) :=
  h.ite hf (h.bind h.malformed fun _ => hf)

end

variable (h : Composes J)
include h

theorem expect {ch : Char} (hc : ch ≠ '[') : J (expect ch) :=
  h.bind (h.accept hc) fun _ => h.ite (h.pure _) h.malformed

theorem hexEscape (count : Nat) : J (hexEscape count) :=
  h.bind (h.takeWhile (by decide) count) fun _ => h.guard (h.pure _)

theorem codeEscape (c : Char) : J (codeEscape c) := by
  unfold FormGuard.Regex.codeEscape
  split
  · exact h.pure _
  · split
    · exact h.hexEscape 2
    · exact h.hexEscape 4
    · exact h.bind (h.hexEscape 8) fun _ => h.guard (h.pure _)
    · exact h.ite h.malformed (h.pure _)

theorem octalEscape (c : Char) : J (octalEscape c) :=
  h.bind (h.takeWhile (by decide) 2) fun _ => h.guard (h.pure _)

theorem classAtom (flags : Flags) (t : Token) : J (classAtom flags t) := by
  unfold FormGuard.Regex.classAtom
  split
  · exact h.pure _
  · exact h.pure _
  · split
    · exact h.pure _
    · exact h.ite (h.bind (h.octalEscape _) fun _ => h.pure _)
        (h.bind (h.codeEscape _) fun _ => h.pure _)
  · exact h.malformed

theorem checkReference (index : Nat) : J (checkReference index) := by
  refine h.get fun s => ?_
  cases s.behindFrom with
  | none => exact h.pure _
  | some start => exact h.ite (h.pure _) h.malformed

theorem groupReference (flags : Flags) (index : Nat) : J (groupReference flags index) := by
  refine h.get fun s => ?_
  split
  · exact h.bind (h.checkReference index) fun _ => h.pure _
  · exact h.malformed

theorem numberEscape (flags : Flags) (c : Char) : J (numberEscape flags c) := by
  refine h.ite (h.bind (h.takeWhile (by decide) 2) fun _ => h.pure _) ?_
  refine h.bind (h.takeWhile (by decide) 1) fun digits => ?_
  split
  · refine h.ite (h.bind (h.takeWhile (by decide) 1) fun more => ?_) (h.groupReference flags _)
    split
    · exact h.guard (h.pure _)
    · exact h.groupReference flags _
  · exact h.groupReference flags _

theorem escape (flags : Flags) (c : Char) : J (escape flags c) := by
  unfold FormGuard.Regex.escape
  split
  · exact h.pure _
  · exact h.pure _
  · exact h.ite (h.numberEscape flags c) (h.bind (h.codeEscape c) fun _ => h.pure _)

theorem eagerness : J eagerness := by
  refine h.bind (h.accept (by decide)) fun reluctant => h.ite (h.pure _) ?_
  exact h.bind (h.accept (by decide)) fun possessive => h.ite (h.pure _) (h.pure _)

theorem repeatLast (least : Nat) (most : Option Nat) (items : List (Expr × Standing)) :
    J (repeatLast least most items) := by
  unfold FormGuard.Regex.repeatLast
  split
  · exact h.bind h.eagerness fun _ =>
      h.bind (h.modify (fun _ => rfl) fun _ => rfl) fun _ => h.pure _
  · exact h.malformed

theorem closeGroup (index : Nat) (body : Expr) : J (closeGroup index body) :=
  h.modify (fun _ => rfl) fun _ => rfl

/-- A group is closed behind its branches. -/
theorem group {β : Type} {body : Parser Expr} {f : Expr → PUnit → Parser β} (hb : J body)
    (hf : ∀ e, J (f e ⟨⟩)) : J (body >>= fun e => Parser.expect ')' >>= f e) :=
  h.bind hb fun e => h.bind (h.expect (by decide)) fun _ => hf e

/-- Around what is looked back for it is noted which groups are behind, and at the end whether it may
take texts of several lengths. -/
theorem lookBehind {β : Type} {body : Parser Expr} {enter leave : ParseState → Parser PUnit}
    {loose : Parser PUnit} {wide : Expr → ParseState → Bool}
    {f : Expr → ParseState → PUnit → Parser β} (henter : ∀ u, J (enter u)) (hb : J body)
    (hleave : ∀ u, J (leave u)) (hloose : J loose) (hf : ∀ e v, J (f e v ⟨⟩)) :
    J (MonadState.get >>= fun u => enter u >>= fun _ => body >>= fun e => leave u >>= fun _ =>
      Parser.expect ')' >>= fun _ => MonadState.get >>= fun v =>
        if wide e v then loose >>= f e v else f e v ⟨⟩) := by
  refine h.get fun u => h.bind (henter u) fun _ => h.bind hb fun e => h.bind (hleave u) fun _ => ?_
  refine h.bind (h.expect (by decide)) fun _ => h.get fun v => h.ite ?_ (hf e v)
  exact h.bind hloose fun _ => hf e v

/-- Of two branches to choose from the second may be left out. -/
theorem choice {β : Type} {branch : Parser Expr} {absence : Expr}
    {f : Expr → Expr → PUnit → Parser β} (hb : J branch)
    (hf : ∀ present absent, J (f present absent ⟨⟩)) :
    J (branch >>= fun present => Parser.accept '|' >>= fun second =>
      if second then branch >>= fun absent => Parser.expect ')' >>= f present absent
      else Pure.pure absence >>= fun absent => Parser.expect ')' >>= f present absent) := by
  refine h.bind hb fun present => h.bind (h.accept (by decide)) fun second => ?_
  have hends : ∀ absent, J (Parser.expect ')' >>= f present absent) := fun absent =>
    h.bind (h.expect (by decide)) fun _ => hf present absent
  exact h.ite (h.bind hb hends) (h.bind (h.pure absence) hends)

theorem alternatives_succ {fuel : Nat}
    (halt : ∀ flags top first, J (alternatives fuel flags top first))
    (hseq : ∀ flags first items, J (sequence fuel flags first items))
    (flags : Flags) (top first : Bool) : J (alternatives (fuel + 1) flags top first) := by
  unfold alternatives
  refine h.bind (hseq _ _ _) fun left => ?_
  refine h.bind (h.accept (by decide)) fun more => h.ite ?_ (h.pure _)
  exact h.get fun s => h.bind (halt _ _ _) fun right => h.pure _

end Composes

end FormGuard.Regex
