import FormGuard.Proofs.Form.Acceptance
import FormGuard.Proofs.Form.Call

/-! Refused declarations: what a call that fails leaves of a form. A rule for elements, for a group as
a whole or for the form is refused before anything is done; rules for the children of a group are
applied one by one, and those before the first that is refused stay. -/
namespace FormGuard.Form
variable {host : Host} {form next : Form} {group : Value}

/-- What a call for the children of a group applies before it is refused: their rules up to the first
that is refused. -/
def begunFor (form : Form) (group : Value) (given : List (Value × Value)) :
    List (Value × Application) :=
  match form.elements.find? group with
  | some d =>
    if group.isKey && d.kind == .group then leading (eachSteps form.registry group d given) else []
  | none => []

namespace Operation

/-- Whether a call is for the children of a group one by one. -/
def ForChildren : Operation → Prop
  | .groupRule _ (.map _) .. => True
  | _ => False

/-- What a call applies before it is refused. -/
def begun (form : Form) : Operation → List (Value × Application)
  | .groupRule group (.map given) .. => form.begunFor group given
  | _ => []

theorem begun_of_not_forChildren {op : Operation} (h : ¬ op.ForChildren) : op.begun form = [] := by
  cases op with
  | groupRule group rules type format howmany mode reset =>
    cases rules with
    | map given => exact absurd trivial h
    | _ => rfl
  | _ => rfl

end Operation

/-- A declaration stores one application more. -/
theorem length_stored_declare (target : Value) (a : Application) (form : Form) :
    (form.declare target a).stored.length = form.stored.length + 1 := by
  unfold stored declare
  rcases Table.alter_cases form.rules target [] (· ++ [a]) with
    ⟨before, key, applications, after, he, _, ha⟩ | ⟨_, ha⟩
  · rw [ha, he]
    simp only [List.flatMap_append, List.flatMap_cons, List.length_append, List.length_map,
      List.length_singleton]
    omega
  · rw [ha]
    simp

theorem length_stored_declareAll (apps : List (Value × Application)) (form : Form) :
    (form.declareAll apps).stored.length = form.stored.length + apps.length := by
  induction apps generalizing form with
  | nil => rfl
  | cons entry rest ih =>
    have hrest := ih (form.declare entry.1 entry.2)
    rw [length_stored_declare] at hrest
    rw [List.length_cons]
    change (declareAll rest (form.declare entry.1 entry.2)).stored.length = _
    omega

/-- Only where nothing is declared do the rules stay what they were. -/
theorem rules_declareAll_eq_iff {apps : List (Value × Application)} :
    (form.declareAll apps).rules = form.rules ↔ apps = [] := by
  constructor
  · intro h
    have hlength := length_stored_declareAll apps form
    have hsame : (form.declareAll apps).stored = form.stored := by rw [stored, stored, h]
    rw [hsame] at hlength
    exact List.length_eq_zero_iff.mp (by omega)
  · rintro rfl
    rfl

theorem begunFor_eq (form : Form) (group : Value) (given : List (Value × Value)) :
    form.begunFor group given =
      match grouped form.elements group with
      | .ok d => leading (eachSteps form.registry group d given)
      | .error _ => [] := by
  unfold begunFor
  cases hg : grouped form.elements group with
  | ok d =>
    obtain ⟨hkey, hfound, hkind⟩ := grouped_eq_ok.mp hg
    simp [hfound, hkey, hkind]
  | error e =>
    cases hfound : form.elements.find? group with
    | none => rfl
    | some d =>
      refine if_neg fun hthere => ?_
      obtain ⟨hkey, hkind⟩ := (Bool.and_eq_true _ _).mp hthere
      cases hg.symm.trans (grouped_eq_ok.mpr ⟨hkey, hfound, by simpa using hkind⟩)

/-- A call for the children of a group that is refused has applied the rules before the refused one. -/
theorem addGroupRule_of_refused {given : List (Value × Value)}
    {type format howmany mode reset : Value} {e : Error}
    (h : outcome (addGroupRule group (.map given) type format howmany mode reset) form =
      (.error e, next)) : next = form.declareAll (form.begunFor group given) := by
  rw [outcome_addGroupRule] at h
  rw [begunFor_eq]
  cases hg : grouped form.elements group with
  | error f =>
    rw [hg] at h
    exact (congrArg Prod.snd h).symm
  | ok d =>
    rw [hg] at h
    change form.settleEach group d (.map given) = _ at h
    unfold settleEach at h
    dsimp only [Value.entries] at h
    cases hall : (eachSteps form.registry group d given).mapM id with
    | error f =>
      rw [hall] at h
      exact (congrArg Prod.snd h).symm
    | ok apps =>
      -- once all rules are applied nothing is left to refuse
      rw [hall] at h
      cases h

/-- Any other call for a group that is refused changes nothing. -/
theorem addGroupRule_of_refused_whole {rules type format howmany mode reset : Value} {e : Error}
    (hm : ¬ (Operation.groupRule group rules type format howmany mode reset).ForChildren)
    (h : outcome (addGroupRule group rules type format howmany mode reset) form = (.error e, next)) :
    next = form := by
  rw [outcome_addGroupRule] at h
  cases hg : grouped form.elements group with
  | error f =>
    rw [hg] at h
    exact (congrArg Prod.snd h).symm
  | ok d =>
    rw [hg] at h
    dsimp only at h
    by_cases ht : rules.asText?.isSome = true
    · rw [if_pos ht] at h
      exact (settle_eq_error.mp h).2
    · -- what is neither a text nor a mapping has no entries to apply
      have hentries : rules.entries = Value.misuse .attribute := by
        cases rules with
        | map given => exact absurd trivial hm
        | _ => rfl
      rw [if_neg ht, settleEach, hentries] at h
      exact (congrArg Prod.snd h).symm

/-- A call that is refused leaves a form as it was, unless it is for the children of a group: then the
rules before the refused one are applied. So everything is as before exactly where there are none. -/
theorem refused_keeps_iff {op : Operation} (hd : op.Declares ∨ ∃ rule, op = .formRule rule)
    {e : Error} (h : outcome (op.perform host) form = (.error e, next)) :
    next = form.declareAll (op.begun form) ∧ (¬ op.ForChildren → next = form) ∧
    ((next.rules = form.rules ∧ next.required = form.required ∧ next.formRules = form.formRules) ↔
      op.begun form = []) := by
  have hnext : next = form.declareAll (op.begun form) := by
    cases op with
    | elementRule element message type format mode reset =>
      rcases addRule_cases element message type format mode reset form with
        ⟨f, ho⟩ | ⟨_, _, _, _, _, _, _, ho⟩
      · exact congrArg Prod.snd (h.symm.trans ho)
      · cases h.symm.trans ho
    | groupRule group rules type format howmany mode reset =>
      by_cases hm : (Operation.groupRule group rules type format howmany mode reset).ForChildren
      · cases rules with
        | map given => exact addGroupRule_of_refused h
        | _ => cases hm
      · rw [Operation.begun_of_not_forChildren hm]
        exact addGroupRule_of_refused_whole hm h
    | formRule rule =>
      rcases addFormRule_cases rule form with ⟨f, ho⟩ | ⟨_, ho⟩
      · exact congrArg Prod.snd (h.symm.trans ho)
      · cases h.symm.trans ho
    | _ => simp [Operation.Declares] at hd
  refine ⟨hnext, ?_, ?_⟩
  · intro hm
    rw [hnext, Operation.begun_of_not_forChildren hm]
    rfl
  · rw [hnext]
    constructor
    · rintro ⟨hrules, _⟩
      exact rules_declareAll_eq_iff.mp hrules
    · intro hnil
      rw [hnil]
      exact ⟨rfl, rfl, rfl⟩

/-- A form with a group and no rules. -/
def unruledForm : Form :=
  ⟨plainRegistry, Table.ofList [(.text "phone", phoneGroup)], Table.empty, [], []⟩

theorem unruledForm_reachable : unruledForm.Reachable Host.bare :=
  ⟨plainRegistry, [phoneGroup], _, [], ⟨_, rfl⟩, rfl, rfl⟩

/-- A call for two children, of which the second is none of the group's. -/
def strayCall : Operation :=
  .groupRule (.text "phone")
    (.map [(.text "area", .list [.list [.text "No area", .text "required"]]),
      (.text "zip", .list [.list [.text "No code", .text "required"]])])
    .null .null .null .null .null

theorem refused_keeps_iff_stray : ∃ next,
    outcome (strayCall.perform Host.bare) unruledForm =
      (.error (.unknownElement (.text "phone[zip]")), next) ∧
    (strayCall.begun unruledForm).map (·.1) = [.text "phone[area]"] ∧
    ¬ (next.rules = unruledForm.rules ∧ next.required = unruledForm.required ∧
      next.formRules = unruledForm.formRules) := by
  have ho : outcome (strayCall.perform Host.bare) unruledForm =
      (.error (.unknownElement (.text "phone[zip]")),
        unruledForm.declareAll (strayCall.begun unruledForm)) := rfl
  have hbegun : (strayCall.begun unruledForm).map (·.1) = [.text "phone[area]"] := rfl
  refine ⟨_, ho, hbegun, fun hsame => ?_⟩
  have hdeclares : strayCall.Declares := trivial
  have hnil := (refused_keeps_iff (Or.inl hdeclares) ho).2.2.mp hsame
  rw [hnil] at hbegun
  cases hbegun

/-- A call is refused, and yet a rule of it is stored and makes a child mandatory. -/
theorem refused_call_leaves_rules :
    ∃ (form : Form) (op : Operation) (e : Error) (next : Form),
      form.Reachable Host.bare ∧ op.ForChildren ∧
      outcome (op.perform Host.bare) form = (.error e, next) ∧
      form.rules.keys = [] ∧ next.rules.keys = [.text "phone[area]"] ∧
      form.required = [] ∧ next.required = [.text "phone[area]"] :=
  ⟨unruledForm, strayCall, _, _, unruledForm_reachable, trivial, rfl, rfl, rfl, rfl, rfl⟩

end FormGuard.Form
