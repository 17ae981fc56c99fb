import FormGuard.Form.Reader
import FormGuard.Proofs.Loading.Declaration

/-! Entries of the rules of a form: which end in an error that is not the library's own. What an entry
answers depends on the elements and the registry of the form alone, and no entry changes these. -/
namespace FormGuard.Form
variable {form : Form} {e : Error} {rule group : Value} {fields : List (Value × Value)}

/-- What is wrong with a rule in a list of rules for a child: it is no mapping, or one without a type. -/
inductive EntryMisfit (rule : Value) : Error → Prop where
  | shape (noMapping : ∀ fields, rule ≠ .map fields) : EntryMisfit rule (.misuse .attribute)
  | untyped {fields : List (Value × Value)} (mapping : rule = .map fields)
      (untyped : rule.get? "type" = none) : EntryMisfit rule (.misuse .key)

/-- The rules of a child as they are handed over. -/
def handed (rules : Value) : Except Error (List Value) :=
  rules.items >>= fun items => items.mapM childEntry

/-- The message of an entry. -/
def messageIn (rule : Value) : Value := (rule.get? "message").getD (.text "")

/-- What is wrong with an entry of the rules: there is nothing in it to go through, it is no mapping and
has the word for a group or an element in it, its rules for children cannot be handed over, it has no
type, or the call it stands for is a misfit; or it is for neither a group nor an element, and cannot be
written. -/
inductive RuleMisfit (form : Form) (rule : Value) : Error → Prop where
  | unlisted (unlisted : rule.Unlisted) : RuleMisfit form rule (.misuse .type)
  | listed (noMapping : ∀ fields, rule ≠ .map fields)
      (mentioned : rule.mentions "group" = .ok true ∨ rule.mentions "element" = .ok true) :
      RuleMisfit form rule (.misuse .type)
  | shape {rules : Value} (grouped : (rule.get? "group").isSome = true)
      (children : rule.get? "rules" = some rules) (noMapping : ∀ given, rules ≠ .map given) :
      RuleMisfit form rule (.misuse .attribute)
  | entry {given : List (Value × Value)} {e : Error} (grouped : (rule.get? "group").isSome = true)
      (children : rule.get? "rules" = some (.map given))
      (comes : ComesTo (fun entry => ∃ rules, handed entry.2 = .ok rules)
        (fun entry => entry.2.Stops (fun item => ∃ rule, childEntry item = .ok rule) EntryMisfit e)
        given) : RuleMisfit form rule e
  | children {group : Value} {given entries : List (Value × Value)} {e : Error}
      (grouped : rule.get? "group" = some group) (children : rule.get? "rules" = some (.map given))
      (read : childEntries given = .ok entries)
      (misfit : GroupMisfit form group (.map entries) .null e) : RuleMisfit form rule e
  | untyped (mapping : ∃ fields, rule = .map fields)
      (named : (rule.get? "group").isSome = true ∧ rule.get? "rules" = none ∨
        rule.get? "group" = none ∧ (rule.get? "element").isSome = true)
      (untyped : rule.get? "type" = none) : RuleMisfit form rule (.misuse .key)
  | whole {group type : Value} {e : Error} (grouped : rule.get? "group" = some group)
      (alone : rule.get? "rules" = none) (typed : rule.get? "type" = some type)
      (misfit : GroupMisfit form group (messageIn rule) type e) : RuleMisfit form rule e
  | element {element type : Value} {e : Error} (ungrouped : rule.get? "group" = none)
      (named : rule.get? "element" = some element) (typed : rule.get? "type" = some type)
      (misfit : ElementMisfit form element type e) : RuleMisfit form rule e
  | aimless (noGroup : rule.mentions "group" = .ok false)
      (noElement : rule.mentions "element" = .ok false) (unwritable : rule.isWritable = false) :
      RuleMisfit form rule (.misuse .value)

/-! What an action asks for. -/

/-- The elements and the registry are the same. -/
def SameBase (form other : Form) : Prop :=
  other.elements = form.elements ∧ other.registry = form.registry

instance : Std.Refl SameBase where
  refl _ := ⟨rfl, rfl⟩

instance : IsTrans Form SameBase where
  trans _ _ _ h k := ⟨k.1.trans h.1, k.2.trans h.2⟩

/-- An action that asks a form for nothing but its elements and its registry, and leaves these. -/
def AsksBase {α : Type} (x : Action α) : Prop := Moves SameBase x ∧ Respects SameBase x

section
variable {α β : Type} {x : Action α}

theorem asksBase_bind {f : α → Action β} (hx : AsksBase x) (hf : ∀ a, AsksBase (f a)) :
    AsksBase (x >>= f) :=
  ⟨moves_bind hx.1 fun a => (hf a).1, respects_bind hx.2 fun a => (hf a).2⟩

/-- An action whose answer is said by the elements and the registry. -/
theorem asksBase_of_answer (answer : Table Descriptor → Registry → Except Error α)
    (ha : ∀ form, (outcome x form).1 = answer form.elements form.registry)
    (hb : ∀ form, SameBase form (outcome x form).2) : AsksBase x := by
  refine ⟨hb, fun form other h => ⟨?_, ?_⟩⟩
  · rw [ha, ha, h.1, h.2]
  · exact ⟨(hb other).1.trans (h.1.trans (hb form).1.symm),
      (hb other).2.trans (h.2.trans (hb form).2.symm)⟩

theorem asksBase_lift (result : Except Error α) : AsksBase (Form.lift result) := by
  refine asksBase_of_answer (fun _ _ => result) ?_ ?_
  · intro form
    rw [outcome_lift]
  · intro form
    rw [outcome_lift]
    exact refl form

theorem asksBase_throw (e : Error) : AsksBase (throw e : Action α) := asksBase_lift (.error e)

end

theorem sameBase_settle (step : Except Error (Value × Application)) (form : Form) :
    SameBase form (form.settle step).2 := by
  cases step <;> exact ⟨rfl, rfl⟩

theorem sameBase_declareAll (apps : List (Value × Application)) (form : Form) :
    SameBase form (form.declareAll apps) :=
  ⟨elements_declareAll apps form, registry_declareAll apps form⟩

theorem sameBase_settleEach (group : Value) (d : Descriptor) (rules : Value) (form : Form) :
    SameBase form (form.settleEach group d rules).2 := by
  unfold settleEach
  cases rules.entries with
  | error e => exact refl form
  | ok given =>
    dsimp only
    cases (eachSteps form.registry group d given).mapM id with
    | error e => exact sameBase_declareAll _ form
    | ok apps => exact sameBase_declareAll apps form

theorem asksBase_addRule (element message type format mode reset : Value) :
    AsksBase (addRule element message type format mode reset) := by
  refine asksBase_of_answer (fun elements r =>
    (elementStep elements r element message type format mode reset).map fun _ => ()) ?_ ?_
  · intro form
    rw [outcome_addRule, fst_settle]
  · intro form
    rw [outcome_addRule]
    exact sameBase_settle _ form

theorem asksBase_addGroupRule (group rules type format howmany mode reset : Value) :
    AsksBase (addGroupRule group rules type format howmany mode reset) := by
  refine asksBase_of_answer (fun elements r => grouped elements group >>= fun d =>
      if rules.asText?.isSome then
        (wholeStep r group d rules type format howmany mode reset).map fun _ => ()
      else rules.entries >>= fun given => ((eachSteps r group d given).mapM id).map fun _ => ())
    (fst_addGroupRule group rules type format howmany mode reset) ?_
  intro form
  rw [outcome_addGroupRule]
  cases grouped form.elements group with
  | error e => exact refl form
  | ok d =>
    dsimp only
    split
    · exact sameBase_settle _ form
    · exact sameBase_settleEach group d rules form

/-- What an entry of the rules answers depends on the elements and the registry alone. -/
theorem asksBase_readRule (rule : Value) : AsksBase (readRule rule) := by
  refine asksBase_bind (asksBase_lift _) fun grouped => ?_
  split
  · refine asksBase_bind (asksBase_lift _) fun each => ?_
    split
    · refine asksBase_bind (asksBase_lift _) fun group => ?_
      exact asksBase_bind (asksBase_lift _) fun rules => asksBase_addGroupRule _ _ _ _ _ _ _
    · unfold readGroupRule
      iterate 7 refine asksBase_bind (asksBase_lift _) fun _ => ?_
      exact asksBase_addGroupRule _ _ _ _ _ _ _
  · refine asksBase_bind (asksBase_lift _) fun named => ?_
    split
    · unfold readElementRule
      iterate 6 refine asksBase_bind (asksBase_lift _) fun _ => ?_
      exact asksBase_addRule _ _ _ _ _ _
    · exact asksBase_throw _

/-! How an entry fails. -/

theorem field_map_eq_ok {name : String} {w : Value} :
    (Value.map fields).field name = .ok w ↔ (Value.map fields).get? name = some w := by
  unfold Value.field
  dsimp only
  cases (Value.map fields).get? name with
  | none => simp [Value.misuse]
  | some v => simp

theorem foreign_field_map {name : String} : Foreign ((Value.map fields).field name) e ↔
    (Value.map fields).get? name = none ∧ e = .misuse .key := by
  unfold Value.field
  dsimp only
  cases (Value.map fields).get? name with
  | none => simp [Value.misuse, Error.isOwn, eq_comm]
  | some v => simp

theorem foreign_childEntry : Foreign (childEntry rule) e ↔ EntryMisfit rule e := by
  by_cases hm : ∃ fields, rule = .map fields
  · obtain ⟨fields, rfl⟩ := hm
    have hread : childEntry (.map fields) = ((Value.map fields).field "type").map fun type =>
        .tuple [messageIn (.map fields), type, ((Value.map fields).get? "format").getD .null,
          ((Value.map fields).get? "validation").getD (.text Mode.server.word),
          ((Value.map fields).get? "reset").getD (.bool false)] := by
      unfold childEntry
      cases (Value.map fields).field "type" <;> rfl
    rw [hread, foreign_map, foreign_field_map]
    constructor
    · rintro ⟨hu, rfl⟩
      exact .untyped rfl hu
    · intro h
      cases h with
      | shape noMapping => exact absurd rfl (noMapping fields)
      | untyped _ untyped => exact ⟨untyped, rfl⟩
  · have hno : ∀ fields, rule ≠ .map fields := fun fields h => hm ⟨fields, h⟩
    have hread : childEntry rule = Value.misuse .attribute := by
      cases rule with
      | map fields => exact absurd rfl (hno fields)
      | _ => rfl
    rw [hread]
    constructor
    · rintro ⟨⟨⟩, _⟩
      exact .shape hno
    · intro h
      cases h with
      | shape _ => exact ⟨rfl, rfl⟩
      | untyped mapping _ => exact absurd mapping (hno _)

theorem foreign_handed {rules : Value} : Foreign (handed rules) e ↔
    rules.Stops (fun item => ∃ rule, childEntry item = .ok rule) EntryMisfit e :=
  Value.foreign_mapM.trans (Value.stops_congr (fun _ => Iff.rfl) fun _ => foreign_childEntry)

theorem foreign_childEntries {given : List (Value × Value)} : Foreign (childEntries given) e ↔
    ComesTo (fun entry => ∃ rules, handed entry.2 = .ok rules)
      (fun entry => entry.2.Stops (fun item => ∃ rule, childEntry item = .ok rule) EntryMisfit e)
      given := by
  induction given with
  | nil => exact iff_of_false (not_foreign_ok _ e) not_comesTo_nil
  | cons entry rest ih =>
    obtain ⟨address, rules⟩ := entry
    have hread : childEntries ((address, rules) :: rest) = handed rules >>= fun entries =>
        childEntries rest >>= fun more => pure ((address, .list entries) :: more) := by
      rw [childEntries, handed, bind_assoc]
    rw [hread, foreign_both, foreign_handed, comesTo_cons, ih]

/-- Rules for the children of a group, in an entry that names both. -/
theorem foreign_readChildRules {group rules : Value}
    (hg : (Value.map fields).get? "group" = some group)
    (hr : (Value.map fields).get? "rules" = some rules) :
    Foreign (outcome (readChildRules (.map fields)) form).1 e ↔
      RuleMisfit form (.map fields) e := by
  have hgroup := field_map_eq_ok.mpr hg
  have hrules := field_map_eq_ok.mpr hr
  have hread : (outcome (readChildRules (.map fields)) form).1 =
      (rules.entries >>= childEntries) >>= fun entries =>
        (outcome (addGroupRule group (.map entries) .null .null (.int 0) (.text Mode.server.word)
          (.bool false)) form).1 := by
    unfold readChildRules
    rw [hgroup, hrules, outcome_bind_of_ok (outcome_lift _ _), fst_outcome_bind, outcome_lift]
    rfl
  rw [hread, foreign_bind, foreign_bind]
  simp only [foreign_entries, foreign_childEntries, foreign_addGroupRule, bind_eq_ok, entries_eq_ok]
  constructor
  · rintro ((⟨hno, rfl⟩ | ⟨given, rfl, hcomes⟩) | ⟨entries, ⟨given, rfl, hentries⟩, hmisfit⟩)
    · exact .shape (by simp [hg]) hr hno
    · exact .entry (by simp [hg]) hr hcomes
    · exact .children hg hr hentries hmisfit
  · intro h
    cases h with
    | unlisted unlisted => exact absurd rfl (unlisted _)
    | listed noMapping => exact absurd rfl (noMapping fields)
    | shape _ children noMapping =>
      obtain rfl := Option.some.inj (hr.symm.trans children)
      exact Or.inl (Or.inl ⟨noMapping, rfl⟩)
    | entry _ children comes =>
      obtain rfl := Option.some.inj (hr.symm.trans children)
      exact Or.inl (Or.inr ⟨_, rfl, comes⟩)
    | children grouped children read misfit =>
      obtain rfl := Option.some.inj (hr.symm.trans children)
      obtain rfl := Option.some.inj (hg.symm.trans grouped)
      exact Or.inr ⟨_, ⟨_, rfl, read⟩, misfit⟩
    | untyped _ named _ =>
      rcases named with ⟨_, hnone⟩ | ⟨hnone, _⟩
      · cases hr.symm.trans hnone
      · cases hg.symm.trans hnone
    | whole _ alone => cases hr.symm.trans alone
    | element ungrouped => cases hg.symm.trans ungrouped
    | aimless noGroup => simp [Value.mentions, hg] at noGroup

theorem foreign_readGroupRule {group : Value} (hg : (Value.map fields).get? "group" = some group)
    (hr : (Value.map fields).get? "rules" = none) :
    Foreign (outcome (readGroupRule (.map fields)) form).1 e ↔ RuleMisfit form (.map fields) e := by
  have hgroup := field_map_eq_ok.mpr hg
  have hread : (outcome (readGroupRule (.map fields)) form).1 =
      (Value.map fields).field "type" >>= fun type =>
        (outcome (addGroupRule group (messageIn (.map fields)) type
          (((Value.map fields).get? "format").getD .null)
          (((Value.map fields).get? "howmany").getD (.int 0))
          (((Value.map fields).get? "validation").getD (.text Mode.server.word))
          (((Value.map fields).get? "reset").getD (.bool false))) form).1 := by
    unfold readGroupRule
    rw [hgroup, outcome_bind_of_ok (outcome_lift _ _)]
    cases (Value.map fields).field "type" <;> rfl
  rw [hread, foreign_bind, foreign_field_map]
  simp only [foreign_addGroupRule, field_map_eq_ok]
  constructor
  · rintro (⟨hu, rfl⟩ | ⟨type, ht, hmisfit⟩)
    · exact .untyped ⟨fields, rfl⟩ (Or.inl ⟨by simp [hg], hr⟩) hu
    · exact .whole hg hr ht hmisfit
  · intro h
    cases h with
    | unlisted unlisted => exact absurd rfl (unlisted _)
    | listed noMapping => exact absurd rfl (noMapping fields)
    | shape _ children | entry _ children | children _ children => cases hr.symm.trans children
    | untyped _ _ untyped => exact Or.inl ⟨untyped, rfl⟩
    | whole grouped _ typed misfit =>
      obtain rfl := Option.some.inj (hg.symm.trans grouped)
      exact Or.inr ⟨_, typed, misfit⟩
    | element ungrouped => cases hg.symm.trans ungrouped
    | aimless noGroup => simp [Value.mentions, hg] at noGroup

theorem foreign_readElementRule {element : Value} (hg : (Value.map fields).get? "group" = none)
    (he : (Value.map fields).get? "element" = some element) :
    Foreign (outcome (readElementRule (.map fields)) form).1 e ↔
      RuleMisfit form (.map fields) e := by
  have helement := field_map_eq_ok.mpr he
  have hread : (outcome (readElementRule (.map fields)) form).1 =
      (Value.map fields).field "type" >>= fun type =>
        (outcome (addRule element (messageIn (.map fields)) type
          (((Value.map fields).get? "format").getD .null)
          (((Value.map fields).get? "validation").getD (.text Mode.server.word))
          (((Value.map fields).get? "reset").getD (.bool false))) form).1 := by
    unfold readElementRule
    rw [helement, outcome_bind_of_ok (outcome_lift _ _)]
    cases (Value.map fields).field "type" <;> rfl
  rw [hread, foreign_bind, foreign_field_map]
  simp only [foreign_addRule, field_map_eq_ok]
  constructor
  · rintro (⟨hu, rfl⟩ | ⟨type, ht, hmisfit⟩)
    · exact .untyped ⟨fields, rfl⟩ (Or.inr ⟨hg, by simp [he]⟩) hu
    · exact .element hg he ht hmisfit
  · intro h
    cases h with
    | unlisted unlisted => exact absurd rfl (unlisted _)
    | listed noMapping => exact absurd rfl (noMapping fields)
    | shape grouped | entry grouped => simp [hg] at grouped
    | children grouped | whole grouped => cases hg.symm.trans grouped
    | untyped _ _ untyped => exact Or.inl ⟨untyped, rfl⟩
    | element _ named typed misfit =>
      obtain rfl := Option.some.inj (he.symm.trans named)
      exact Or.inr ⟨_, typed, misfit⟩
    | aimless _ noElement => simp [Value.mentions, he] at noElement

/-- Of what is wrong with entries only three things are about those that are no mapping. -/
theorem ruleMisfit_of_no_mapping (hno : ∀ fields, rule ≠ .map fields) :
    RuleMisfit form rule e ↔ e = .misuse .type ∧ (rule.Unlisted ∨
      rule.mentions "group" = .ok true ∨ rule.mentions "element" = .ok true) ∨
      e = .misuse .value ∧ rule.mentions "group" = .ok false ∧ rule.mentions "element" = .ok false ∧
        rule.isWritable = false := by
  have hget := Value.get?_of_no_mapping hno
  constructor
  · intro h
    cases h with
    | unlisted unlisted => exact Or.inl ⟨rfl, Or.inl unlisted⟩
    | listed _ mentioned => exact Or.inl ⟨rfl, Or.inr mentioned⟩
    | aimless noGroup noElement unwritable => exact Or.inr ⟨rfl, noGroup, noElement, unwritable⟩
    | shape _ children | entry _ children | children _ children =>
      cases (hget _).symm.trans children
    | untyped mapping =>
      obtain ⟨fields, hf⟩ := mapping
      exact absurd hf (hno fields)
    | whole grouped => cases (hget _).symm.trans grouped
    | element _ named => cases (hget _).symm.trans named
  · rintro (⟨rfl, hu | hm⟩ | ⟨rfl, hg, he, hw⟩)
    · exact .unlisted hu
    · exact .listed hno hm
    · exact .aimless hg he hw

/-- An entry that is no mapping has nothing under a word that it has in it. -/
theorem stopped_of_no_mapping (hno : ∀ fields, rule ≠ .map fields) (form : Form) :
    outcome (readChildRules rule) form = (.error (.misuse .type), form) ∧
    outcome (readGroupRule rule) form = (.error (.misuse .type), form) ∧
    outcome (readElementRule rule) form = (.error (.misuse .type), form) := by
  unfold readChildRules readGroupRule readElementRule
  simp only [Value.field_of_no_mapping hno]
  exact ⟨outcome_bind_of_error (outcome_lift _ _) _, outcome_bind_of_error (outcome_lift _ _) _,
    outcome_bind_of_error (outcome_lift _ _) _⟩

theorem foreign_readRule_of_no_mapping (hno : ∀ fields, rule ≠ .map fields) :
    Foreign (outcome (readRule rule) form).1 e ↔ RuleMisfit form rule e := by
  obtain ⟨hchildren, hwhole, helement⟩ := stopped_of_no_mapping hno form
  rw [ruleMisfit_of_no_mapping hno]
  unfold readRule
  rcases Value.mentions_cases "group" rule with ⟨hu, hg⟩ | ⟨hu, grouped, hg⟩
  · rw [hg, fst_outcome_bind, outcome_lift]
    simp [hu, foreign_bind, Value.misuse, Error.isOwn, eq_comm (a := e)]
  obtain ⟨each, hr⟩ := ((Value.mentions_cases "rules" rule).resolve_left fun h => hu h.1).2
  obtain ⟨named, hn⟩ := ((Value.mentions_cases "element" rule).resolve_left fun h => hu h.1).2
  rw [hg, hr, hn, outcome_bind_of_ok (outcome_lift _ _)]
  cases grouped with
  | true =>
    rw [if_pos rfl, outcome_bind_of_ok (outcome_lift _ _)]
    cases each with
    | true => simp [hchildren, Error.isOwn, eq_comm (a := e)]
    | false => simp [hwhole, Error.isOwn, eq_comm (a := e)]
  | false =>
    rw [if_neg (by decide), outcome_bind_of_ok (outcome_lift _ _)]
    cases named with
    | true => simp [helement, Error.isOwn, eq_comm (a := e)]
    | false =>
      rw [if_neg (by decide)]
      change Foreign (Error.raise (.config (.target rule))) e ↔ _
      rw [foreign_raise rfl]
      simp [hu, ConfigFault.named, and_comm]

theorem foreign_readRule_map :
    Foreign (outcome (readRule (.map fields)) form).1 e ↔ RuleMisfit form (.map fields) e := by
  have hmentions : ∀ word, (Value.map fields).mentions word =
      .ok ((Value.map fields).get? word).isSome := fun _ => rfl
  unfold readRule
  simp only [hmentions]
  rw [outcome_bind_of_ok (outcome_lift _ _)]
  cases hg : (Value.map fields).get? "group" with
  | some group =>
    rw [if_pos Option.isSome_some, outcome_bind_of_ok (outcome_lift _ _)]
    cases hr : (Value.map fields).get? "rules" with
    | some rules =>
      rw [if_pos Option.isSome_some]
      exact foreign_readChildRules hg hr
    | none =>
      rw [if_neg (by simp)]
      exact foreign_readGroupRule hg hr
  | none =>
    rw [if_neg (by simp), outcome_bind_of_ok (outcome_lift _ _)]
    cases he : (Value.map fields).get? "element" with
    | some element =>
      rw [if_pos Option.isSome_some]
      exact foreign_readElementRule hg he
    | none =>
      rw [if_neg (by simp)]
      change Foreign (Error.raise (.config (.target (.map fields)))) e ↔ _
      rw [foreign_raise rfl]
      constructor
      · rintro ⟨hw, rfl⟩
        refine .aimless (by simp [Value.mentions, hg]) (by simp [Value.mentions, he]) ?_
        simpa [ConfigFault.named] using hw
      · intro h
        cases h with
        | aimless _ _ unwritable =>
          exact ⟨by simp [ConfigFault.named, unwritable], rfl⟩
        | unlisted unlisted => exact absurd rfl (unlisted _)
        | listed noMapping => exact absurd rfl (noMapping fields)
        | shape grouped | entry grouped => simp [hg] at grouped
        | children grouped | whole grouped => cases hg.symm.trans grouped
        | untyped _ named _ => simp [hg, he] at named
        | element _ named => cases he.symm.trans named

/-- An entry of the rules fails with an error that is not the library's own just where it is a misfit. -/
theorem foreign_readRule : Foreign (outcome (readRule rule) form).1 e ↔ RuleMisfit form rule e := by
  by_cases hm : ∃ fields, rule = .map fields
  · obtain ⟨fields, rfl⟩ := hm
    exact foreign_readRule_map
  · exact foreign_readRule_of_no_mapping fun fields h => hm ⟨fields, h⟩

end FormGuard.Form
