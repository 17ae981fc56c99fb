import FormGuard.Proofs.Registry.Likeness
import FormGuard.Proofs.Registry.Offer

/-! Building: a registry built of bindings holds for each name what the binding of the name offers,
whichever other bindings there are. -/
namespace FormGuard

namespace Error

/-- Whether a name was to be bound to something else than before. -/
def isRebind : Error → Bool
  | .registration (.bound _ _ _) => true
  | _ => false

theorem isRebind_worded {e : Error} (h : e.isRebind = false) : e.worded.isRebind = false := by
  obtain hw | hw := e.worded_cases
  · rw [hw, h]
  · rw [hw]
    rfl

end Error

namespace Offer

def pattern? : Offer → Option Pattern
  | .pattern p => some p
  | _ => none

def callback? : Offer → Option Callback
  | .callback _ c => some c
  | _ => none

end Offer

def Binding.offer? (host : Host) (b : Binding) : Option Offer :=
  Registry.offer? host b.kind b.target b.owner

/-- What a configuration offers for a name. -/
def Config.offer? (host : Host) (config : Config) (name : Value) : Option Offer :=
  (config.find? name).bind (Binding.offer? host)

namespace Registry
variable {host : Host} {r s : Registry} {name other : Value} {o : Offer} {config : Config}
  {b : Binding}

/-- Whether a binding can be registered under a name that is free. -/
def Usable (host : Host) (name : Value) (b : Binding) : Prop :=
  name.isKey = true ∧ (b.offer? host).isSome = true

/-- What a registry built of a configuration holds: for each name what the binding of the name
offers, and else what a new registry has. -/
structure Built (host : Host) (config : Config) (r : Registry) : Prop where
  keyed : r.Keyed
  targets : ∀ name, r.targets.find? name = (config.offer? host name).map Offer.bindsTo
  kinds : ∀ name, r.kinds.find? name = (config.offer? host name).map Offer.kind
  pattern : ∀ name, r.patternOf? host name =
    ((config.offer? host name).bind Offer.pattern?).or (Patterns.initial.find? name)
  callback : ∀ name, r.callbackOf? host name = (config.offer? host name).bind Offer.callback?
  shared : ∀ cls, cls ≠ .regex → cls ≠ .callback → r.shared host cls = empty.shared host cls

theorem Built.congr (h : Built host config r) {more : Config}
    (hf : ∀ name, more.find? name = config.find? name) : Built host more r := by
  have ho : ∀ name, more.offer? host name = config.offer? host name := fun name =>
    congrArg (fun found => found.bind (Binding.offer? host)) (hf name)
  refine ⟨h.keyed, fun name => ?_, fun name => ?_, fun name => ?_, fun name => ?_, h.shared⟩
  · rw [ho, h.targets]
  · rw [ho, h.kinds]
  · rw [ho, h.pattern]
  · rw [ho, h.callback]

theorem built_empty (host : Host) : Built host Table.empty empty :=
  ⟨keyed_empty, fun _ => rfl, fun _ => rfl, fun _ => rfl, fun _ => rfl, fun _ _ _ => rfl⟩

theorem patternOf?_eq {patterns : Patterns} (h : r.shared host .regex = .ok (.regex patterns))
    (name : Value) : r.patternOf? host name = patterns.find? name := by
  rw [patternOf?, h]

theorem callbackOf?_eq {callbacks : Callbacks}
    (h : r.shared host .callback = .ok (.callback callbacks)) (name : Value) :
    r.callbackOf? host name = callbacks.find? name := by
  rw [callbackOf?, h]

/-- An offer of a pattern stores the pattern, and no other offer but an instance changes any. -/
theorem Taken.patternOf? (h : Taken host name o r s) (hr : r.Keyed)
    (ho : ∀ rule, o ≠ .object rule) (other : Value) :
    s.patternOf? host other =
      if name.same other then o.pattern?.or (r.patternOf? host other)
      else r.patternOf? host other := by
  obtain ⟨patterns, hp⟩ := shared_regex host hr
  have hs := (h.shared .regex).trans (congrArg _ hp)
  rw [patternOf?_eq hp]
  cases o with
  | pattern p =>
    rw [patternOf?_eq hs, Table.find?_insert]
    rfl
  | callback k c =>
    rw [patternOf?_eq hs]
    exact (ite_self _).symm
  | target t =>
    rw [patternOf?_eq hs]
    exact (ite_self _).symm
  | object rule => exact absurd rfl (ho rule)

theorem Taken.callbackOf? (h : Taken host name o r s) (hr : r.Keyed)
    (ho : ∀ rule, o ≠ .object rule) (other : Value) :
    s.callbackOf? host other =
      if name.same other then o.callback?.or (r.callbackOf? host other)
      else r.callbackOf? host other := by
  obtain ⟨callbacks, hc⟩ := shared_callback host hr
  have hs := (h.shared .callback).trans (congrArg _ hc)
  rw [callbackOf?_eq hc]
  cases o with
  | callback k c =>
    rw [callbackOf?_eq hs, Table.find?_insert]
    rfl
  | pattern p =>
    rw [callbackOf?_eq hs]
    exact (ite_self _).symm
  | target t =>
    rw [callbackOf?_eq hs]
    exact (ite_self _).symm
  | object rule => exact absurd rfl (ho rule)

theorem offer?_insert (host : Host) (config : Config) (name other : Value) (b : Binding) :
    Config.offer? host (config.insert name b) other =
      if name.same other then b.offer? host else config.offer? host other := by
  simp only [Config.offer?, Table.find?_insert]
  split <;> rfl

/-- An offer that is taken under a name without a binding is what the registry holds for it. -/
theorem Taken.built (ht : Taken host name o r s) (h : Built host config r)
    (hnew : config.contains name = false) (ho : ∀ rule, o ≠ .object rule)
    (hb : b.offer? host = some o) : Built host (config.insert name b) s := by
  have hnone : ∀ other, name.same other = true → config.offer? host other = none := by
    intro other hs
    have hn : config.find? name = none := by simpa [Table.contains] using hnew
    rw [Config.offer?, ← Table.find?_congr _ hs, hn]
    rfl
  refine ⟨ht.keyed, fun other => ?_, fun other => ?_, fun other => ?_, fun other => ?_,
    fun cls hregex hcallback => ?_⟩
  · rw [ht.targets, Table.find?_insert, offer?_insert, h.targets, hb]
    split <;> rfl
  · rw [ht.kinds, Table.find?_insert, offer?_insert, h.kinds, hb]
    split <;> rfl
  · rw [ht.patternOf? h.keyed ho, h.pattern, offer?_insert, hb]
    split
    · rename_i hs
      rw [hnone other hs]
      rfl
    · rfl
  · rw [ht.callbackOf? h.keyed ho, h.callback, offer?_insert, hb]
    split
    · rename_i hs
      rw [hnone other hs]
      cases o <;> rfl
    · rfl
  · rw [ht.shared, ← h.shared cls hregex hcallback]
    cases o with
    | pattern p =>
      have hne : (Offer.pattern p).bindsTo ≠ .ofClass cls := by
        simpa [Offer.bindsTo, eq_comm] using hregex
      exact Offer.serve_of_ne hne _ _
    | callback k c =>
      have hne : (Offer.callback k c).bindsTo ≠ .ofClass cls := by
        simpa [Offer.bindsTo, eq_comm] using hcallback
      exact Offer.serve_of_ne hne _ _
    | target t => rfl
    | object rule => exact absurd rfl (ho rule)

/-- Registries that hold the same for every name serve every name alike. -/
theorem Built.alike (hr : Built host config r) (hs : Built host config s) (name : Value)
    (cls : RuleClass) : ServedAlike name (r.shared host cls) (s.shared host cls) := by
  by_cases hregex : cls = .regex
  · subst hregex
    obtain ⟨patterns, hp⟩ := shared_regex host hr.keyed
    obtain ⟨others, hq⟩ := shared_regex host hs.keyed
    have hfind : others.find? name = patterns.find? name := by
      rw [← patternOf?_eq hq, ← patternOf?_eq hp, hr.pattern, hs.pattern]
    exact Or.inr ⟨_, _, hp, hq, .regex hfind⟩
  by_cases hcallback : cls = .callback
  · subst hcallback
    obtain ⟨callbacks, hp⟩ := shared_callback host hr.keyed
    obtain ⟨others, hq⟩ := shared_callback host hs.keyed
    have hfind : others.find? name = callbacks.find? name := by
      rw [← callbackOf?_eq hq, ← callbackOf?_eq hp, hr.callback, hs.callback]
    exact Or.inr ⟨_, _, hp, hq, .callback hfind⟩
  rw [hr.shared cls hregex hcallback, hs.shared cls hregex hcallback]
  exact ServedAlike.refl name _

theorem Built.verdict (hr : Built host config r) (hs : Built host config s)
    (name value format : Value) (whole : Bool) :
    (outcome (validate host name value format whole) s).1 =
      (outcome (validate host name value format whole) r).1 := by
  have hc : s.classOf? host name = r.classOf? host name := by
    rw [classOf?, classOf?, hr.targets, hs.targets]
  exact verdict_of_alike hr.keyed hs.keyed hc (fun cls _ => hr.alike hs name cls) value format whole

/-! What a registration under a free name fails with. -/

/-- Whatever fails does not fail because a name is bound to something else. -/
abbrev NoRebind {α : Type} (x : Except Error α) : Prop := FailsAs (fun e => e.isRebind = false) x

theorem noRebind_raise {α : Type} {e : Error} (h : e.isRebind = false) :
    NoRebind (Error.raise e : Except Error α) :=
  failsAs_error (Error.isRebind_worded h)

theorem noRebind_needKey (name : Value) : NoRebind name.needKey := by
  unfold Value.needKey
  split
  · exact failsAs_ok ()
  · exact failsAs_error rfl

theorem noRebind_spelled (v : Value) : NoRebind v.spelled := by
  unfold Value.spelled
  split
  · exact failsAs_ok _
  · exact failsAs_error rfl

theorem noRebind_add (host : Host) (rule : Rule) (name data owner : Value) :
    NoRebind (rule.add host name data owner) := by
  cases rule with
  | regex patterns =>
    have hread : NoRebind (Patterns.readable name data) := by
      unfold Patterns.readable
      split
      · exact noRebind_raise rfl
      · split
        · exact failsAs_ok _
        · exact noRebind_raise rfl
        · exact failsAs_error rfl
    have hadd : NoRebind (patterns.add name data) :=
      failsAs_bind hread fun _ => failsAs_bind (noRebind_needKey name) fun _ => failsAs_ok _
    exact failsAs_bind hadd fun _ => failsAs_ok _
  | callback callbacks =>
    have huse : NoRebind (Callbacks.usable host name ⟨data, owner⟩) := by
      unfold Callbacks.usable
      split
      · split
        · exact failsAs_ok _
        · exact noRebind_raise rfl
      · split
        · exact failsAs_ok _
        · split
          · exact failsAs_ok _
          · exact noRebind_raise rfl
    have hadd : NoRebind (callbacks.add host name data owner) :=
      failsAs_bind huse fun _ => failsAs_bind (noRebind_needKey name) fun _ => failsAs_ok _
    exact failsAs_bind hadd fun _ => failsAs_ok _
  | _ => exact failsAs_error rfl

theorem noRebind_shared (host : Host) (r : Registry) (cls : RuleClass) :
    NoRebind (r.shared host cls) := by
  unfold shared
  split
  · exact failsAs_ok _
  · split
    · exact failsAs_error rfl
    · exact failsAs_ok _

theorem noRebind_canBind (hfree : r.targets.find? name = none) (target : Target) :
    NoRebind (r.canBind name target) := by
  unfold canBind
  rw [hfree]
  exact failsAs_bind (noRebind_needKey name) fun _ => failsAs_ok _

theorem noRebind_registerData (hfree : r.targets.find? name = none) (cls : RuleClass)
    (k : RuleKind) (data owner : Value) :
    NoRebind (outcome (registerData host name cls k data owner) r).1 := by
  rw [registerData, fst_outcome_bind, outcome_checkRebind]
  refine failsAs_bind_of_ok (noRebind_canBind hfree _) fun _ hb => ?_
  rw [fst_outcome_bind, outcome_classInstance]
  refine failsAs_bind (noRebind_shared host r cls) fun rule => ?_
  rw [fst_outcome_bind, outcome_lift]
  refine failsAs_bind (noRebind_add host rule name data owner) fun stored => ?_
  have hnext := (canBind_congr (targets_classInstance host cls r) name (.ofClass cls)).trans hb
  rw [outcome_store hnext]
  exact failsAs_ok ()

theorem noRebind_registerTarget (hfree : r.targets.find? name = none) {data : Value}
    (hd : ∀ cls held, data ≠ .ruleObject cls held) :
    NoRebind (outcome (registerTarget name data) r).1 := by
  cases ht : targetOf? data with
  | some target =>
    rw [registerTarget_of_target ht, outcome_bindName]
    exact noRebind_canBind hfree target
  | none =>
    cases data with
    | ruleClass cls =>
      have hc : cls.isRule = false := by simpa [targetOf?] using ht
      simp only [registerTarget, hc]
      exact failsAs_error (Error.isRebind_worded rfl)
    | ruleObject cls held => exact absurd rfl (hd cls held)
    | text path | kind path | mode path => cases ht
    | _ => exact failsAs_error (Error.isRebind_worded rfl)

/-- A registration that brings no instance is not refused for what its name is bound to if the name
is free. -/
theorem noRebind_register (hfree : r.targets.find? name = none) {kind data owner : Value}
    (hi : ¬ (Operation.register name kind data owner).bringsInstance) :
    NoRebind (outcome (register host name kind data owner) r).1 := by
  rw [(outcome_register host name kind data owner r).1]
  cases hk : dataKind? kind with
  | some found =>
    rw [enter_of_data hk]
    exact noRebind_registerData hfree found.2 found.1 data owner
  | none =>
    have hword : NoRebind (kindWord kind) := by
      unfold kindWord
      split
      · exact failsAs_ok _
      · exact failsAs_map (noRebind_spelled _) _
    simp only [enter, hk]
    rw [fst_outcome_bind, outcome_lift]
    refine failsAs_bind hword fun _ => noRebind_registerTarget hfree fun cls held hd => hi ?_
    subst hd
    exact hk

theorem ne_object_of_offer? {kind data owner : Value}
    (h : Registry.offer? host kind data owner = some o)
    (hi : ¬ (Operation.register name kind data owner).bringsInstance) (rule : Rule) :
    o ≠ .object rule := by
  rintro rfl
  rcases offer?_cases h with ⟨_, _, _, he⟩ | ⟨_, _, _, _, he⟩ | ⟨_, _, _, _, he⟩ |
    ⟨hk, _, _, _, hrule, _⟩
  · cases he
  · cases he
  · cases he
  · obtain ⟨cls, held, rfl, _, _⟩ := object?_eq_some.mp hrule
    exact hi hk

/-- A binding registered under a new name: it cannot be used, or it is held from then on. -/
theorem register_cases (h : Built host config r) (hnew : config.contains name = false)
    (hi : ¬ (Operation.register name b.kind b.target b.owner).bringsInstance) :
    (∃ e, (outcome (register host name b.kind b.target b.owner) r).1 = .error e ∧
      e.isRebind = false ∧ ¬ Usable host name b) ∨
    (outcome (register host name b.kind b.target b.owner) r).1 = .ok () ∧ Usable host name b ∧
      Built host (config.insert name b)
        (outcome (register host name b.kind b.target b.owner) r).2 := by
  have hfree : r.targets.find? name = none := by
    have hn : config.find? name = none := by simpa [Table.contains] using hnew
    rw [h.targets, Config.offer?, hn]
    rfl
  rcases ha : (outcome (register host name b.kind b.target b.owner) r).1 with e | ⟨⟩
  · refine Or.inl ⟨e, rfl, noRebind_register hfree hi e ha, ?_⟩
    rintro ⟨hkey, hoffer⟩
    obtain ⟨o, ho⟩ := Option.isSome_iff_exists.mp hoffer
    have hok := (accepted_iff h.keyed).mpr ⟨o, ho, canBind_eq_ok.mpr ⟨hkey, by simp [hfree]⟩⟩
    rw [ha] at hok
    cases hok
  · obtain ⟨o, ho, ht⟩ := taken_of_accepted h.keyed ha
    have hsome : b.offer? host = some o := ho
    exact Or.inr ⟨rfl, ⟨isKey_of_canBind ht.canBind, by rw [hsome]; rfl⟩,
      ht.built h hnew (ne_object_of_offer? ho hi) hsome⟩

/-- Bindings registered under new names: one of them cannot be used, or all are held from then on. -/
theorem registerAll_cases {bindings : List (Value × Binding)} (h : Built host config r)
    (hd : bindings.Pairwise fun one other => one.1.same other.1 = false)
    (hnew : ∀ entry ∈ bindings, config.contains entry.1 = false)
    (hi : ∀ entry ∈ bindings,
      ¬ (Operation.register entry.1 entry.2.kind entry.2.target entry.2.owner).bringsInstance) :
    (∃ e, (outcome (registerAll host bindings) r).1 = .error e ∧ e.isRebind = false ∧
      ∃ entry ∈ bindings, ¬ Usable host entry.1 entry.2) ∨
    (outcome (registerAll host bindings) r).1 = .ok () ∧
      (∀ entry ∈ bindings, Usable host entry.1 entry.2) ∧
      Built host (config.insertAll bindings) (outcome (registerAll host bindings) r).2 := by
  induction bindings generalizing config r with
  | nil => exact Or.inr ⟨rfl, by simp, h⟩
  | cons first rest ih =>
    obtain ⟨name, b⟩ := first
    obtain ⟨hfirst, hrest⟩ := List.pairwise_cons.mp hd
    obtain ⟨hnow, hlater⟩ := List.forall_mem_cons.mp hnew
    obtain ⟨hone, hmore⟩ := List.forall_mem_cons.mp hi
    have hstep : registerAll host ((name, b) :: rest) =
      (register host name b.kind b.target b.owner >>= fun _ => registerAll host rest) := rfl
    rw [hstep]
    rcases register_cases h hnow hone with ⟨e, he, hrebind, hno⟩ | ⟨hok, huse, hbuilt⟩
    · rcases ho : outcome (register host name b.kind b.target b.owner) r with ⟨answer, t⟩
      rw [ho] at he
      obtain rfl : answer = .error e := he
      rw [outcome_bind_of_error ho]
      exact Or.inl ⟨e, rfl, hrebind, _, List.mem_cons_self, hno⟩
    · rcases ho : outcome (register host name b.kind b.target b.owner) r with ⟨answer, t⟩
      rw [ho] at hok hbuilt
      obtain rfl : answer = .ok () := hok
      rw [outcome_bind_of_ok ho]
      have hnewer : ∀ entry ∈ rest, (config.insert name b).contains entry.1 = false := by
        intro entry hm
        rw [Table.contains_insert, hfirst entry hm, hlater entry hm]
        rfl
      rcases ih hbuilt hrest hnewer hmore with ⟨e, he, hrebind, entry, hm, hno⟩ | ⟨hall, huses, hb⟩
      · exact Or.inl ⟨e, he, hrebind, entry, List.mem_cons_of_mem _ hm, hno⟩
      · exact Or.inr ⟨hall, List.forall_mem_cons.mpr ⟨huse, huses⟩, hb⟩

/-- A registry of a configuration that brings no instance is not built because a binding cannot be
used, and never because a name is bound; or else it holds what the configuration offers. -/
theorem ofConfig_cases
    (hd : config.entries.Pairwise fun one other => one.1.same other.1 = false)
    (hi : ∀ entry ∈ config.entries,
      ¬ (Operation.register entry.1 entry.2.kind entry.2.target entry.2.owner).bringsInstance) :
    (∃ e, (ofConfig host config).1 = .error e ∧ e.isRebind = false ∧
      ∃ entry ∈ config.entries, ¬ Usable host entry.1 entry.2) ∨
    ∃ r, (ofConfig host config).1 = .ok r ∧
      (∀ entry ∈ config.entries, Usable host entry.1 entry.2) ∧ Built host config r := by
  rw [fst_ofConfig]
  rcases registerAll_cases (built_empty host) hd (fun _ _ => rfl) hi with
    ⟨e, he, hno⟩ | ⟨hok, huse, hb⟩
  · exact Or.inl ⟨e, by rw [he]; rfl, hno⟩
  · refine Or.inr ⟨_, by rw [hok]; rfl, huse, hb.congr fun name => ?_⟩
    rw [Table.find?_insertAll hd, Table.find?_empty, Option.or_none]

/-- Whether a configuration can be built does not depend on the order of its bindings. -/
theorem usable_congr {more : Config}
    (hd : more.entries.Pairwise fun one other => one.1.same other.1 = false)
    (hf : ∀ name, more.find? name = config.find? name)
    (h : ∀ entry ∈ config.entries, Usable host entry.1 entry.2) :
    ∀ entry ∈ more.entries, Usable host entry.1 entry.2 := by
  intro entry hm
  have hfind := (hf entry.1).symm.trans (Table.find?_of_mem hd hm (Value.same_self entry.1))
  obtain ⟨found, hfound, hs, he⟩ := Table.exists_mem_of_find? hfind
  obtain ⟨hkey, hoffer⟩ := h found hfound
  rw [Value.isKey_congr hs] at hkey
  exact ⟨hkey, he ▸ hoffer⟩

end Registry

end FormGuard
