import FormGuard.Proofs.Loading.Config
import FormGuard.Proofs.Loading.Rule

/-! Reading configurations and forms from definitions: which definitions end in an error that is not the
library's own. -/
namespace FormGuard.Form
variable {host : Host} {r : Registry} {e : Error} {entries : List (Value × Value)} {v path : Value}
  {form : Form}

/-- What a definition lists under a key: nothing where there is no such key. -/
def listedIn (definition : Value) (key : String) : Value := (definition.get? key).getD (.list [])

/-- What is wrong with the path of a rule for a form: it is a misfit, or it leads to something that can
neither be called nor written. -/
inductive PathMisfit (host : Host) (path : Value) : Error → Prop where
  | path {e : Error} (misfit : ImportPath.Misfit path e) : PathMisfit host path e
  | uncallable {rule : Value} (found : ImportPath.resolve host path = .ok rule)
      (uncallable : rule.isCallable = false) (unwritable : rule.isWritable = false) :
      PathMisfit host path (.misuse .value)

/-- What is wrong with the definition of a form. Its elements come first: they stop the reading, or one
of them has a name that cannot be a key. Then come the rules for elements, in order, and then the paths
of the rules for the form; each list is gone through only where all before it went well. -/
inductive Misfit (host : Host) (r : Registry) (definition : Value) : Error → Prop where
  | element {e : Error} (misfits : Descriptor.Misfits (listedIn definition "elements") e) :
      Misfit host r definition e
  | name {elements : List Descriptor} {d : Descriptor}
      (read : Descriptor.ofItems (listedIn definition "elements") = .ok elements)
      (member : d ∈ elements) (noKey : d.name.isKey = false) :
      Misfit host r definition (.misuse .type)
  | rule {elements : List Descriptor} {start : Form} {e : Error}
      (read : Descriptor.ofItems (listedIn definition "elements") = .ok elements)
      (begun : ofElements r elements = .ok start)
      (stops : (listedIn definition "rules").Stops
        (fun rule => (outcome (readRule rule) start).1 = .ok ()) (RuleMisfit start) e) :
      Misfit host r definition e
  | formRule {elements : List Descriptor} {start : Form} {rules : List Value} {e : Error}
      (read : Descriptor.ofItems (listedIn definition "elements") = .ok elements)
      (begun : ofElements r elements = .ok start)
      (listed : (listedIn definition "rules").items = .ok rules)
      (declared : ∀ rule ∈ rules, (outcome (readRule rule) start).1 = .ok ())
      (stops : (listedIn definition "form_rules").Stops
        (fun path => ∃ rule, ImportPath.resolve host path = .ok rule ∧ rule.isCallable = true)
        (PathMisfit host) e) : Misfit host r definition e

/-- A fault of a descriptor becomes one of the definition; everything else stays what it is. -/
theorem readElements_cases (entries : List (Value × Value)) :
    readElements (.map entries) = Descriptor.ofItems (listedIn (.map entries) "elements") ∨
    ∃ fault, Descriptor.ofItems (listedIn (.map entries) "elements") = .error (.descriptor fault) ∧
      readElements (.map entries) = .error (.config (.element fault)) := by
  have hread : (Value.map entries).fieldOr "elements" (.list []) =
      .ok (listedIn (.map entries) "elements") := rfl
  unfold readElements
  rw [hread]
  dsimp only [bind, Except.bind]
  cases Descriptor.ofItems (listedIn (.map entries) "elements") with
  | ok elements => exact Or.inl rfl
  | error d =>
    cases d with
    | descriptor fault => exact Or.inr ⟨fault, rfl, rfl⟩
    | _ => exact Or.inl rfl

theorem foreign_readElements : Foreign (readElements (.map entries)) e ↔
    Descriptor.Misfits (listedIn (.map entries) "elements") e := by
  rw [← Descriptor.foreign_ofItems]
  rcases readElements_cases entries with h | ⟨fault, ho, h⟩
  · rw [h]
  · rw [h, ho]
    refine iff_of_false ?_ ?_
    · rintro ⟨⟨⟩, ⟨⟩⟩
    · rintro ⟨⟨⟩, ⟨⟩⟩

theorem readElements_eq_ok {elements : List Descriptor} : readElements (.map entries) = .ok elements ↔
    Descriptor.ofItems (listedIn (.map entries) "elements") = .ok elements := by
  rcases readElements_cases entries with h | ⟨fault, ho, h⟩
  · rw [h]
  · rw [h, ho]
    simp

theorem foreign_ofElements {elements : List Descriptor} : Foreign (ofElements r elements) e ↔
    (∃ d ∈ elements, d.name.isKey = false) ∧ e = .misuse .type := by
  have hkeys : ∀ d ∈ elements, d.name.needKey = .ok () ∨ d.name.isKey = false := by
    intro d _
    rw [Value.needKey_eq_ok]
    cases d.name.isKey <;> simp
  unfold ofElements
  rw [foreign_bind, foreign_forM]
  simp only [foreign_needKey, comesTo_and, comesTo_iff_exists hkeys]
  refine ⟨?_, Or.inl⟩
  rintro (h | ⟨_, _, h⟩)
  · exact h
  · exact absurd h (not_foreign_ok _ e)

theorem asksBase_addFormRule (rule : Value) : AsksBase (addFormRule rule) := by
  unfold addFormRule
  refine asksBase_of_answer (fun _ _ => if rule.isCallable then .ok () else
    Error.raise (.registration (.formRule rule))) ?_ ?_
  · intro form
    cases rule.isCallable <;> rfl
  · intro form
    cases rule.isCallable <;> exact ⟨rfl, rfl⟩

theorem asksBase_readFormRule (host : Host) (path : Value) : AsksBase (readFormRule host path) := by
  unfold readFormRule
  split
  · exact asksBase_throw _
  · exact asksBase_throw _
  · split
    · exact asksBase_addFormRule _
    · exact asksBase_throw _

/-- A path leads to a function to call, or fails as it may, or is reported. -/
theorem readFormRule_eq_ok : (outcome (readFormRule host path) form).1 = .ok () ↔
    ∃ rule, ImportPath.resolve host path = .ok rule ∧ rule.isCallable = true := by
  unfold readFormRule
  cases h : ImportPath.resolve host path with
  | error d =>
    refine iff_of_false ?_ (by simp)
    cases d with
    | _ => rintro ⟨⟩
  | ok rule =>
    dsimp only
    cases hc : rule.isCallable with
    | true => exact iff_of_true (by simp [addFormRule, hc]) ⟨rule, rfl, hc⟩
    | false =>
      refine iff_of_false ?_ ?_
      · rintro ⟨⟩
      · rintro ⟨_, ⟨⟩, hcall⟩
        exact absurd hcall (by simp [hc])

/-- A path that leads somewhere or is reported as not found is a text. -/
theorem isWritable_of_not_misfit (h : ∀ e, ¬ ImportPath.Misfit path e) : path.isWritable = true := by
  cases ht : path.asText? with
  | some s => exact Value.isWritable_of_asText? ht
  | none =>
    cases hi : path.items with
    | ok items => exact absurd (.collection ht hi) (h _)
    | error d =>
      refine absurd (.unlisted fun items hitems => ?_) (h (.misuse .type))
      cases hi.symm.trans hitems

/-! A path is a misfit, or is reported as not found, or leads somewhere. -/

theorem pathMisfit_iff_of_misfit {d : Error} (h : ImportPath.Misfit path d) :
    PathMisfit host path e ↔ e = d := by
  have hpath := ImportPath.resolve_of_misfit h host
  constructor
  · intro hm
    cases hm with
    | path misfit =>
      exact Except.error.inj ((ImportPath.resolve_of_misfit misfit host).symm.trans hpath)
    | uncallable found => cases hpath.symm.trans found
  · rintro rfl
    exact .path h

theorem not_pathMisfit_of_notFound {fault : ImportFault}
    (h : ImportPath.resolve host path = .error (.notFound fault)) : ¬ PathMisfit host path e := by
  intro hm
  cases hm with
  | path misfit =>
    obtain ⟨other, rfl⟩ := misfit.misuse
    cases h.symm.trans (ImportPath.resolve_of_misfit misfit host)
  | uncallable found => cases h.symm.trans found

theorem pathMisfit_iff_of_found {rule : Value} (h : ImportPath.resolve host path = .ok rule) :
    PathMisfit host path e ↔
      rule.isCallable = false ∧ rule.isWritable = false ∧ e = .misuse .value := by
  constructor
  · intro hm
    cases hm with
    | path misfit => cases h.symm.trans (ImportPath.resolve_of_misfit misfit host)
    | uncallable found uncallable unwritable =>
      obtain rfl := Except.ok.inj (h.symm.trans found)
      exact ⟨uncallable, unwritable, rfl⟩
  · rintro ⟨hc, hw, rfl⟩
    exact .uncallable h hc hw

theorem foreign_readFormRule :
    Foreign (outcome (readFormRule host path) form).1 e ↔ PathMisfit host path e := by
  unfold readFormRule
  by_cases hm : ∃ d, ImportPath.Misfit path d
  · obtain ⟨d, hm⟩ := hm
    rw [pathMisfit_iff_of_misfit hm, ImportPath.resolve_of_misfit hm host]
    obtain ⟨fault, rfl⟩ := hm.misuse
    constructor
    · rintro ⟨⟨⟩, _⟩
      rfl
    · rintro rfl
      exact ⟨rfl, rfl⟩
  have hw : path.isWritable = true := isWritable_of_not_misfit fun d hd => hm ⟨d, hd⟩
  cases h : ImportPath.resolve host path with
  | error d =>
    obtain ⟨fault, rfl⟩ := (ImportPath.resolve_eq_error h).resolve_right fun hd => hm ⟨_, hd⟩
    refine iff_of_false ?_ (not_pathMisfit_of_notFound h)
    change ¬ Foreign (Error.raise (.config (.formRuleImport path fault))) e
    rw [foreign_raise rfl]
    simp [ConfigFault.named, hw]
  | ok rule =>
    rw [pathMisfit_iff_of_found h]
    cases hc : rule.isCallable with
    | true => exact iff_of_false (by simp [addFormRule, hc]) (by simp)
    | false =>
      dsimp only
      rw [hc, if_neg Bool.false_ne_true]
      change Foreign (Error.raise (.config (.formRule path (.formRule rule)))) e ↔ _
      rw [foreign_raise rfl]
      simp [ConfigFault.named, RegistrationFault.named, hw]

section
variable {f : Value → Action Unit} (hf : ∀ item, AsksBase (f item))
include hf

/-- What several declarations of a list answer is what each answers at the start. -/
theorem fst_outcome_each : (outcome (Form.lift v.items >>= fun items => items.forM f) form).1 =
    v.items >>= fun items => items.forM fun item => (outcome (f item) form).1 := by
  rw [fst_outcome_bind, outcome_lift]
  simp only [fst_outcome_forM (fun item => (hf item).1) fun item => (hf item).2]

theorem foreign_outcome_each :
    Foreign (outcome (Form.lift v.items >>= fun items => items.forM f) form).1 e ↔
      v.Stops (fun item => (outcome (f item) form).1 = .ok ())
        (fun item => Foreign (outcome (f item) form).1) e := by
  rw [fst_outcome_each hf]
  exact Value.foreign_forM

theorem outcome_each_eq_ok {u : Unit} :
    (outcome (Form.lift v.items >>= fun items => items.forM f) form).1 = .ok u ↔
      ∃ items, v.items = .ok items ∧ ∀ item ∈ items, (outcome (f item) form).1 = .ok () := by
  rw [fst_outcome_each hf, bind_eq_ok]
  simp only [forM_eq_ok]

end

/-- The rules for elements are declared one by one, and then those for the form. -/
theorem foreign_readRules : Foreign (outcome (readRules host (.map entries)) form).1 e ↔
    (listedIn (.map entries) "rules").Stops (fun rule => (outcome (readRule rule) form).1 = .ok ())
      (RuleMisfit form) e ∨
    ∃ rules, (listedIn (.map entries) "rules").items = .ok rules ∧
      (∀ rule ∈ rules, (outcome (readRule rule) form).1 = .ok ()) ∧
      (listedIn (.map entries) "form_rules").Stops
        (fun path => ∃ rule, ImportPath.resolve host path = .ok rule ∧ rule.isCallable = true)
        (PathMisfit host) e := by
  have hread : readRules host (.map entries) =
      (Form.lift (listedIn (.map entries) "rules").items >>= fun rules => rules.forM readRule) >>=
        fun _ => Form.lift (listedIn (.map entries) "form_rules").items >>= fun paths =>
          paths.forM (readFormRule host) := by
    unfold readRules
    rw [bind_assoc]
    rfl
  rw [hread, fst_outcome_bind, foreign_bind, foreign_outcome_each asksBase_readRule]
  refine or_congr (Value.stops_congr (fun _ => Iff.rfl) fun _ => foreign_readRule) ?_
  simp only [outcome_each_eq_ok asksBase_readRule, foreign_outcome_each (asksBase_readFormRule host),
    readFormRule_eq_ok]
  rw [Value.stops_congr (fun _ => Iff.rfl) fun _ => foreign_readFormRule]
  constructor
  · rintro ⟨_, ⟨rules, hr, hall⟩, h⟩
    exact ⟨rules, hr, hall, h⟩
  · rintro ⟨rules, hr, hall, h⟩
    exact ⟨(), ⟨rules, hr, hall⟩, h⟩

/-- A form is made of its elements first, and then its rules are declared. -/
theorem foreign_ofValue {definition : Value} : Foreign (ofValue host r definition).1 e ↔
    Foreign (readElements definition >>= ofElements r) e ∨
      ∃ start, readElements definition >>= ofElements r = .ok start ∧
        Foreign (outcome (readRules host definition) start).1 e := by
  unfold ofValue
  cases readElements definition >>= ofElements r with
  | error d => simp
  | ok start =>
    rcases ho : outcome (readRules host definition) start with ⟨d | u, next⟩
    · have hrun : (readRules host definition).run.run start = (.error d, next) := ho
      dsimp only
      rw [hrun]
      simp [ho]
    · have hrun : (readRules host definition).run.run start = (.ok u, next) := ho
      dsimp only
      rw [hrun]
      simp [ho]

end FormGuard.Form
