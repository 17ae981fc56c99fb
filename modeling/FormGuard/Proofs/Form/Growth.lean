import FormGuard.Proofs.Form.Run
import Mathlib.Data.List.Infix

/-! Growth: what is declared later comes later. -/
namespace FormGuard.Form
variable {host : Host} {form next later : Form} {target : Value} {a : Application}

/-- Every target keeps its place, with its applications in their order; what is new stands behind. -/
inductive Extends : List (Value × List Application) → List (Value × List Application) → Prop where
  | nil (added : List (Value × List Application)) : Extends [] added
  | cons {target : Value} {earlier later : List Application}
      {rest more : List (Value × List Application)} (kept : earlier <+: later)
      (behind : Extends rest more) : Extends ((target, earlier) :: rest) ((target, later) :: more)

/-- One form has what another has, in the same order, and perhaps more behind it. -/
structure Continues (form next : Form) : Prop where
  rules : Extends form.rules.entries next.rules.entries
  formRules : form.formRules <+: next.formRules

theorem extends_refl (entries : List (Value × List Application)) : Extends entries entries := by
  induction entries with
  | nil => exact .nil []
  | cons entry rest ih => exact .cons (List.prefix_refl _) ih

theorem Extends.trans {entries more most : List (Value × List Application)}
    (h : Extends entries more) (k : Extends more most) : Extends entries most := by
  induction h generalizing most with
  | nil => exact .nil most
  | cons kept _ ih =>
    cases k with
    | cons longer behind => exact .cons (kept.trans longer) (ih behind)

theorem extends_append (entries added : List (Value × List Application)) :
    Extends entries (entries ++ added) := by
  induction entries with
  | nil => exact .nil added
  | cons entry rest ih => exact .cons (List.prefix_refl _) ih

theorem extends_alter (t : Table (List Application)) (target : Value) (a : Application) :
    Extends t.entries (t.alter target [] (· ++ [a])).entries := by
  rcases t.alter_cases target [] (· ++ [a]) with ⟨before, key, old, after, ht, _, hn⟩ | ⟨_, hn⟩
  · rw [ht, hn]
    clear ht hn
    induction before with
    | nil => exact .cons (List.prefix_append _ _) (extends_refl after)
    | cons entry rest ih => exact .cons (List.prefix_refl _) ih
  · rw [hn]
    exact extends_append _ _

theorem continues_refl (form : Form) : Continues form form :=
  ⟨extends_refl _, List.prefix_refl _⟩

theorem Continues.trans (h : Continues form next) (k : Continues next later) :
    Continues form later :=
  ⟨h.rules.trans k.rules, h.formRules.trans k.formRules⟩

theorem Change.continues (h : Change form next) : Continues form next := by
  cases h with
  | declare _ _ => exact ⟨extends_alter _ _ _, List.prefix_refl _⟩
  | formRule _ => exact ⟨extends_refl _, List.prefix_append _ _⟩
  | _ => exact ⟨extends_refl _, List.prefix_refl _⟩

theorem continues_of_changes (h : Relation.ReflTransGen Change form next) :
    Continues form next := by
  induction h with
  | refl => exact continues_refl form
  | tail _ hc ih => exact ih.trans hc.continues

/-- A run only adds, and only at the end. -/
theorem continues_run (host : Host) (ops : List Operation) (form : Form) :
    Continues form (run host ops form) :=
  continues_of_changes (changes_run host ops form)

/-- No target stands at two places. -/
def Distinct (form : Form) : Prop :=
  form.rules.entries.Pairwise fun one other => one.1.same other.1 = false

theorem Distinct.change (h : form.Distinct) (hc : Change form next) : next.Distinct := by
  cases hc with
  | declare _ _ => exact Table.pairwise_insert h _ _
  | _ => exact h

theorem Reachable.distinct (h : form.Reachable host) : form.Distinct := by
  obtain ⟨registry, elements, start, ops, _, hs, rfl⟩ := h
  have hstart : start.Distinct := by
    obtain ⟨_, _, hs⟩ := bind_eq_ok.mp hs
    cases hs
    exact .nil
  have hsteps := changes_run host ops start
  generalize run host ops start = form at hsteps
  induction hsteps with
  | refl => exact hstart
  | tail _ hc ih => exact ih.change hc

end FormGuard.Form
