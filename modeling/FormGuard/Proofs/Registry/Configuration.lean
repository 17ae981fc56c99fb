import FormGuard.Proofs.Registry.Building
import FormGuard.Proofs.Registry.Kind

/-! Configurations: a registry comes out the same in whichever order the definitions are given. -/
namespace FormGuard

theorem exists_mem_of_forall₂ {α β : Type} {R : α → β → Prop} {as : List α} {bs : List β}
    (h : List.Forall₂ R as bs) {a : α} (ha : a ∈ as) : ∃ b ∈ bs, R a b := by
  induction h with
  | nil => cases ha
  | cons hab _ ih =>
    rcases List.mem_cons.mp ha with rfl | ha
    · exact ⟨_, List.mem_cons_self, hab⟩
    · obtain ⟨b, hb, hab⟩ := ih ha
      exact ⟨b, List.mem_cons_of_mem _ hb, hab⟩

namespace Config
variable {host : Host} {name definition data : Value} {b : Binding} {config : Config}
  {entries reordered : List (Value × Value)} {added : List (Value × Binding)} {defaults : Bool}

/-- The kind that a definition declares. -/
def declared? (definition : Value) : Option RuleKind :=
  (definition.get? "type").bind fun type => RuleKind.ofWord? (Unicode.lowerText type.plain)

theorem required_eq_ok {key : String} {missing : ConfigFault} {v : Value} :
    required definition key missing = .ok v ↔ definition.get? key = some v := by
  unfold required
  cases definition.get? key with
  | none => simp [fault]
  | some found => simp

/-- A binding is of the kind that its definition declares, and a rule class is the one it names. -/
theorem binding_facts (h : binding host name definition = .ok b) :
    ∃ k, declared? definition = some k ∧ k ≠ .custom ∧ b.kind = .kind k ∧
      (k = .ofClass → definition.get? "class" = some b.target) := by
  obtain ⟨type, htype, h⟩ := bind_eq_ok.mp h
  have hdeclared : declared? definition = RuleKind.ofWord? (Unicode.lowerText type.plain) := by
    rw [declared?, required_eq_ok.mp htype]
    rfl
  obtain ⟨word, htext, h⟩ := bind_eq_ok.mp h
  obtain ⟨_, rfl⟩ := Value.spelled_eq_ok.mp htext
  rw [hdeclared]
  split at h
  · cases h
  · rename_i hword
    obtain ⟨_, _, h⟩ := bind_eq_ok.mp h
    cases h
    exact ⟨.regex, hword, by simp, rfl, by simp⟩
  · rename_i hword
    obtain ⟨_, _, h⟩ := bind_eq_ok.mp h
    obtain ⟨_, _, h⟩ := bind_eq_ok.mp h
    cases h
    exact ⟨.callback, hword, by simp, rfl, by simp⟩
  · rename_i hword
    obtain ⟨_, _, h⟩ := bind_eq_ok.mp h
    obtain ⟨_, _, h⟩ := bind_eq_ok.mp h
    cases h
    exact ⟨.function, hword, by simp, rfl, by simp⟩
  · rename_i hword
    obtain ⟨target, htarget, h⟩ := bind_eq_ok.mp h
    cases h
    exact ⟨.ofClass, hword, by simp, rfl, fun _ => required_eq_ok.mp htarget⟩
  · cases h

theorem bindings_eq_ok : bindings host entries = .ok added ↔
    List.Forall₂ (fun entry read => read.1 = entry.1 ∧ binding host entry.1 entry.2 = .ok read.2)
      entries added := by
  induction entries generalizing added with
  | nil =>
    rw [List.forall₂_nil_left_iff]
    exact ⟨fun h => (Except.ok.inj h).symm, fun h => h ▸ rfl⟩
  | cons entry rest ih =>
    obtain ⟨name, definition⟩ := entry
    rw [List.forall₂_cons_left_iff]
    constructor
    · intro h
      obtain ⟨b, hb, h⟩ := bind_eq_ok.mp h
      obtain ⟨more, hmore, h⟩ := bind_eq_ok.mp h
      cases h
      exact ⟨(name, b), more, ⟨rfl, hb⟩, ih.mp hmore, rfl⟩
    · rintro ⟨⟨_, b⟩, more, ⟨rfl, hb⟩, hmore, rfl⟩
      exact bind_eq_ok.mpr ⟨b, hb, bind_eq_ok.mpr ⟨more, ih.mpr hmore, rfl⟩⟩

/-- Definitions are read one by one, so that another order gives the bindings in that order. -/
theorem bindings_of_perm (h : bindings host entries = .ok added) (hp : entries.Perm reordered) :
    ∃ more, bindings host reordered = .ok more ∧ added.Perm more := by
  obtain ⟨more, hmore, hperm⟩ := List.perm_comp_forall₂ hp.symm (bindings_eq_ok.mp h)
  exact ⟨more, bindings_eq_ok.mpr hmore, hperm.symm⟩

theorem names_of_bindings (h : bindings host entries = .ok added) :
    added.map Prod.fst = entries.map Prod.fst := by
  rw [← List.forall₂_eq_eq_eq, List.forall₂_map_left_iff, List.forall₂_map_right_iff]
  exact (bindings_eq_ok.mp h).flip.imp fun _ _ hone => hone.1

/-- The rules that a configuration starts from. -/
def start (defaults : Bool) : Config := if defaults then default else Table.empty

theorem ofValue_of_rules (h : data.fieldOr "rules" .null = .ok (.map entries)) :
    ofValue host data defaults =
      bindings host entries >>= fun added => .ok ((start defaults).insertAll added) := by
  unfold ofValue
  rw [h]
  cases entries <;> rfl

theorem ofValue_eq_ok (h : data.fieldOr "rules" .null = .ok (.map entries)) :
    ofValue host data defaults = .ok config ↔
      ∃ added, bindings host entries = .ok added ∧ (start defaults).insertAll added = config := by
  rw [ofValue_of_rules h, bind_eq_ok]
  constructor
  · rintro ⟨added, hadded, hconfig⟩
    exact ⟨added, hadded, Except.ok.inj hconfig⟩
  · rintro ⟨added, hadded, rfl⟩
    exact ⟨added, hadded, rfl⟩

theorem distinct_start (defaults : Bool) :
    (start defaults).entries.Pairwise fun one other => one.1.same other.1 = false := by
  cases defaults with
  | false => exact .nil
  | true => exact Table.pairwise_insertAll .nil _

theorem distinct_bindings (h : bindings host entries = .ok added)
    (hd : entries.Pairwise fun one other => one.1.same other.1 = false) :
    added.Pairwise fun one other => one.1.same other.1 = false := by
  have hp := (List.pairwise_map (f := Prod.fst) (R := fun v w : Value => v.same w = false)).mpr hd
  rw [← names_of_bindings h] at hp
  exact List.pairwise_map.mp hp

theorem not_bringsInstance_of_start {entry : Value × Binding}
    (h : entry ∈ (start defaults).entries) (name : Value) :
    ¬ (Registry.Operation.register name entry.2.kind entry.2.target entry.2.owner).bringsInstance := by
  cases defaults with
  | false => cases h
  | true =>
    obtain ⟨key, bound⟩ := entry
    obtain ⟨_, hm, _⟩ := Table.mem_ofList h
    rcases List.mem_append.mp hm with hm | hm
    · obtain ⟨⟨_, b⟩, hb, he⟩ := List.mem_map.mp hm
      obtain ⟨_, rfl⟩ := Prod.mk.inj he
      fin_cases hb <;> exact fun hno => hno
    · obtain ⟨⟨_, p⟩, _, he⟩ := List.mem_map.mp hm
      rw [← (Prod.mk.inj he).2]
      exact fun hno => hno

/-- No binding brings an instance if no definition of a class does. -/
theorem not_bringsInstance_of_binding (h : binding host name definition = .ok b)
    (hd : ∀ cls held, definition.get? "class" ≠ some (.ruleObject cls held))
    (other : Value) :
    ¬ (Registry.Operation.register other b.kind b.target b.owner).bringsInstance := by
  obtain ⟨k, _, hk, hkind, hclass⟩ := binding_facts h
  rw [hkind]
  intro hno
  cases ht : b.target with
  | ruleObject cls held =>
    rw [ht] at hno hclass
    cases k with
    | regex => cases hno
    | callback => cases hno
    | function => cases hno
    | ofClass => exact hd cls held (hclass rfl)
    | custom => exact hk rfl
  | _ =>
    rw [ht] at hno
    exact hno

section
variable (hadded : bindings host entries = .ok added)
  (hd : entries.Pairwise fun one other => one.1.same other.1 = false)
include hadded hd

theorem find?_of_entry {entry : Value × Value} (h : entry ∈ entries) (defaults : Bool) :
    ∃ b, binding host entry.1 entry.2 = .ok b ∧
      ((start defaults).insertAll added).find? entry.1 = some b := by
  have hdistinct := distinct_bindings hadded hd
  obtain ⟨read, hm, hname, hb⟩ := exists_mem_of_forall₂ (bindings_eq_ok.mp hadded) h
  have hfound := Table.find?_of_mem (t := ⟨added⟩) hdistinct hm (Value.same_self read.1)
  refine ⟨read.2, hb, ?_⟩
  rw [Table.find?_insertAll hdistinct, ← hname, hfound, Option.some_or]

theorem contains_iff (defaults : Bool) (name : Value) :
    ((start defaults).insertAll added).contains name = true ↔
      (start defaults).contains name = true ∨ ∃ entry ∈ entries, entry.1.same name = true := by
  have hnames : (∃ entry ∈ entries, entry.1.same name = true) ↔
      ∃ key ∈ entries.map Prod.fst, key.same name = true := by simp
  have hfound : Table.contains ⟨added⟩ name = true ↔
      ∃ key ∈ added.map Prod.fst, key.same name = true := by simp [Table.contains_iff]
  rw [hnames, ← names_of_bindings hadded, ← hfound, Table.contains,
    Table.find?_insertAll (distinct_bindings hadded hd), Option.isSome_or, Bool.or_eq_true, or_comm]
  rfl

/-- Another order of the definitions gives another order of the same bindings. -/
theorem find?_of_reordered (hp : entries.Perm reordered) (defaults : Bool) :
    ∃ more, bindings host reordered = .ok more ∧ ∀ name,
      ((start defaults).insertAll more).find? name =
        ((start defaults).insertAll added).find? name := by
  have hdistinct := distinct_bindings hadded hd
  obtain ⟨more, hmore, hperm⟩ := bindings_of_perm hadded hp
  refine ⟨more, hmore, fun name => ?_⟩
  rw [Table.find?_insertAll hdistinct,
    Table.find?_insertAll (hdistinct.perm hperm fun h => (Value.same_comm _ _).trans h),
    Table.find?_of_perm (t := ⟨added⟩) (u := ⟨more⟩) hperm hdistinct]

theorem not_bringsInstance_of_plain
    (hplain : ∀ entry ∈ entries, ∀ cls held,
      entry.2.get? "class" ≠ some (.ruleObject cls held))
    {entry : Value × Binding} (h : entry ∈ ((start defaults).insertAll added).entries)
    (name : Value) :
    ¬ (Registry.Operation.register name entry.2.kind entry.2.target entry.2.owner).bringsInstance := by
  have hfound := Table.find?_of_mem (Table.pairwise_insertAll (distinct_start defaults) added) h
    (Value.same_self entry.1)
  rw [Table.find?_insertAll (distinct_bindings hadded hd), Option.or_eq_some_iff] at hfound
  rcases hfound with hfound | ⟨_, hfound⟩
  · obtain ⟨read, hm, _, he⟩ := Table.exists_mem_of_find? hfound
    obtain ⟨one, hone, _, hb⟩ := exists_mem_of_forall₂ (bindings_eq_ok.mp hadded).flip hm
    exact not_bringsInstance_of_binding (he ▸ hb) (hplain one hone) name
  · obtain ⟨read, hm, _, he⟩ := Table.exists_mem_of_find? hfound
    rw [← he]
    exact not_bringsInstance_of_start hm name

end

end Config

/-- The registry of the rules that come with the library. -/
def defaultRegistry : Registry :=
  (outcome (Registry.registerAll Host.bare Config.default.entries) Registry.empty).2

theorem ofConfig_default : (Registry.ofConfig Host.bare Config.default).1 = .ok defaultRegistry := by
  have hok : (outcome (Registry.registerAll Host.bare Config.default.entries) Registry.empty).1 =
      .ok () := by
    decide +kernel
  rw [Registry.fst_ofConfig, hok]
  rfl

namespace Registry
variable {host : Host} {r : Registry} {name data owner : Value} {o : Offer} {config : Config}
  {b : Binding} {k : RuleKind}

theorem kind_of_offer? (h : offer? host (.kind k) data owner = some o) (hk : k ≠ .custom)
    (ho : ∀ rule, o ≠ .object rule) : o.kind = k := by
  have hword : (kindWord (.kind k)).toOption.bind RuleKind.ofWord? = some k :=
    RuleKind.ofWord?_word k
  rcases offer?_cases h with ⟨hd, _, _, rfl⟩ | ⟨_, _, hd, _, rfl⟩ | ⟨hd, _, _, _, rfl⟩ |
    ⟨_, _, _, rule, _, rfl⟩
  · rw [dataKind?, hword] at hd
    cases k <;> cases hd
    rfl
  · rw [dataKind?, hword] at hd
    cases k <;> cases hd <;> rfl
  · rw [dataKind?, hword] at hd
    cases k with
    | ofClass => rfl
    | custom => exact absurd rfl hk
    | _ => cases hd
  · exact absurd rfl (ho rule)

/-- The names of a registry built of a configuration are those that the configuration binds. -/
theorem Built.isRegistered_iff (h : Built host config r)
    (huse : ∀ entry ∈ config.entries, Usable host entry.1 entry.2) (name : Value) :
    (outcome (isRegistered name) r).1 = .ok true ↔ config.contains name = true := by
  rw [isRegistered_eq_true, Table.contains, h.targets, Option.isSome_map, Config.offer?]
  cases hf : config.find? name with
  | none => simp [Table.contains, hf]
  | some b =>
    obtain ⟨entry, hm, hs, rfl⟩ := Table.exists_mem_of_find? hf
    obtain ⟨hkey, hoffer⟩ := huse entry hm
    rw [Value.isKey_congr hs] at hkey
    simp [Table.contains, hf, hkey, hoffer]

/-- A name that a configuration binds is of the kind of the binding. -/
theorem Built.kind (h : Built host config r) (hf : config.find? name = some b)
    (huse : Usable host name b) (hb : b.kind = .kind k) (hk : k ≠ .custom)
    (hi : ¬ (Operation.register name b.kind b.target b.owner).bringsInstance) :
    (outcome (Registry.kind name) r).1 = .ok k := by
  obtain ⟨o, ho⟩ := Option.isSome_iff_exists.mp huse.2
  have hobject := ne_object_of_offer? ho hi
  have hkind : o.kind = k := by
    rw [Binding.offer?, hb] at ho
    exact kind_of_offer? ho hk hobject
  rw [kind_eq_ok_iff, h.kinds, Config.offer?, hf, Option.bind_some, ho]
  exact ⟨huse.1, congrArg some hkind⟩

/-- A registry built of definitions has the names that it starts from and those that are defined,
and each of these is of the kind that its definition declares. -/
theorem Built.as_defined {entries : List (Value × Value)} {added : List (Value × Binding)}
    {defaults : Bool} (hadded : Config.bindings host entries = .ok added)
    (hkeys : entries.Pairwise fun one other => one.1.same other.1 = false)
    (hplain : ∀ entry ∈ entries, ∀ cls held,
      entry.2.get? "class" ≠ some (.ruleObject cls held))
    (huse : ∀ entry ∈ ((Config.start defaults).insertAll added).entries,
      Usable host entry.1 entry.2)
    (h : Built host ((Config.start defaults).insertAll added) r) :
    (∀ name, (outcome (isRegistered name) r).1 = .ok true ↔
      (Config.start defaults).contains name = true ∨
        ∃ entry ∈ entries, entry.1.same name = true) ∧
    ∀ entry ∈ entries, ∃ k, Config.declared? entry.2 = some k ∧
      (outcome (Registry.kind entry.1) r).1 = .ok k := by
  refine ⟨fun name => ?_, fun entry hm => ?_⟩
  · rw [h.isRegistered_iff huse, Config.contains_iff hadded hkeys]
  · obtain ⟨b, hb, hfound⟩ := Config.find?_of_entry hadded hkeys hm defaults
    obtain ⟨k, hdeclared, hk, hkind, _⟩ := Config.binding_facts hb
    obtain ⟨found, hfm, hs, rfl⟩ := Table.exists_mem_of_find? hfound
    obtain ⟨hkey, hoffer⟩ := huse found hfm
    rw [Value.isKey_congr hs] at hkey
    exact ⟨k, hdeclared, h.kind hfound ⟨hkey, hoffer⟩ hkind hk
      (Config.not_bringsInstance_of_binding hb (hplain entry hm) entry.1)⟩

theorem ofConfig_of_plain {entries : List (Value × Value)} {added : List (Value × Binding)}
    (hadded : Config.bindings host entries = .ok added)
    (hkeys : entries.Pairwise fun one other => one.1.same other.1 = false)
    (hplain : ∀ entry ∈ entries, ∀ cls held,
      entry.2.get? "class" ≠ some (.ruleObject cls held)) (defaults : Bool) :
    let config := (Config.start defaults).insertAll added
    (∃ e, (ofConfig host config).1 = .error e ∧ e.isRebind = false ∧
      ∃ entry ∈ config.entries, ¬ Usable host entry.1 entry.2) ∨
    ∃ r, (ofConfig host config).1 = .ok r ∧
      (∀ entry ∈ config.entries, Usable host entry.1 entry.2) ∧ Built host config r :=
  ofConfig_cases (Table.pairwise_insertAll (Config.distinct_start defaults) added)
    fun entry hm => Config.not_bringsInstance_of_plain hadded hkeys hplain hm entry.1

/-- Building a registry of definitions that bring no instance never fails because a name is bound
already, also where they define names of the library anew. If it succeeds it does so in any other
order of the definitions, and either way the registry has the names that it starts from and those
that are defined, each of these is of the kind that its definition declares, and all verdicts are
the same. -/
theorem same_in_any_order (host : Host) {data reordered : Value}
    {entries others : List (Value × Value)} {defaults : Bool} {config : Config}
    (hd : data.fieldOr "rules" .null = .ok (.map entries))
    (hr : reordered.fieldOr "rules" .null = .ok (.map others)) (hp : entries.Perm others)
    (hkeys : entries.Pairwise fun one other => one.1.same other.1 = false)
    (hplain : ∀ entry ∈ entries, ∀ cls held,
      entry.2.get? "class" ≠ some (.ruleObject cls held))
    (hc : Config.ofValue host data defaults = .ok config) :
    (∀ e, (ofConfig host config).1 = .error e → e.isRebind = false) ∧
    ∀ r, (ofConfig host config).1 = .ok r →
      ∃ other s, Config.ofValue host reordered defaults = .ok other ∧
        (ofConfig host other).1 = .ok s ∧
        (∀ t ∈ [r, s],
          (∀ name, (outcome (isRegistered name) t).1 = .ok true ↔
            (Config.start defaults).contains name = true ∨
              ∃ entry ∈ entries, entry.1.same name = true) ∧
          ∀ entry ∈ entries, ∃ k, Config.declared? entry.2 = some k ∧
            (outcome (Registry.kind entry.1) t).1 = .ok k) ∧
        ∀ name value format whole,
          (outcome (validate host name value format whole) s).1 =
            (outcome (validate host name value format whole) r).1 := by
  obtain ⟨added, hadded, rfl⟩ := (Config.ofValue_eq_ok hd).mp hc
  obtain ⟨more, hmore, hfind⟩ := Config.find?_of_reordered hadded hkeys hp defaults
  rcases ofConfig_of_plain hadded hkeys hplain defaults with ⟨e, he, hrebind, _⟩ | ⟨r, hok, huse, hbuilt⟩
  · rw [he]
    refine ⟨?_, ?_⟩
    · rintro _ ⟨⟩
      exact hrebind
    · rintro r ⟨⟩
  · rw [hok]
    refine ⟨?_, ?_⟩
    · rintro e ⟨⟩
    rintro _ ⟨⟩
    have huses := usable_congr
      (Table.pairwise_insertAll (Config.distinct_start defaults) more) hfind huse
    have hdistinct := hkeys.perm hp fun hs => (Value.same_comm _ _).trans hs
    rcases ofConfig_of_plain hmore hdistinct (fun entry hm => hplain entry (hp.mem_iff.mpr hm))
        defaults with ⟨_, _, _, entry, hm, hno⟩ | ⟨s, hsok, _, hother⟩
    · exact absurd (huses entry hm) hno
    have hsbuilt := hother.congr fun name => (hfind name).symm
    refine ⟨_, s, (Config.ofValue_eq_ok hr).mpr ⟨more, hmore, rfl⟩, hsok, ?_, ?_⟩
    · intro t ht
      have htbuilt : Built host ((Config.start defaults).insertAll added) t := by
        rcases List.mem_pair.mp ht with rfl | rfl
        · exact hbuilt
        · exact hsbuilt
      exact htbuilt.as_defined hadded hkeys hplain huse
    · exact fun name value format whole => hbuilt.verdict hsbuilt name value format whole

/-- A name for a class becomes one for a pattern, and a name for a pattern one for a class. -/
def redefined : List (Value × Value) :=
  [(.text "required", .map [(.text "type", .text "regex"), (.text "pattern", .text "^x$")]),
    (.text "lettersonly", .map [(.text "type", .text "Class"),
      (.text "class", .text "formrule.rules.builtin:RequiredRule")])]

def redefinedConfig : Config :=
  (Config.start true).insertAll
    [(.text "required", ⟨.kind .regex, .text "^x$", .null⟩),
      (.text "lettersonly", ⟨.kind .ofClass, .text "formrule.rules.builtin:RequiredRule", .null⟩)]

theorem same_in_any_order_redefined :
    ∃ r other s, (ofConfig Host.bare redefinedConfig).1 = .ok r ∧
      Config.ofValue Host.bare (.map [(.text "rules", .map redefined.reverse)]) true = .ok other ∧
      (ofConfig Host.bare other).1 = .ok s ∧
      (outcome (Registry.kind (.text "required")) s).1 = .ok .regex ∧
      (outcome (Registry.kind (.text "lettersonly")) s).1 = .ok .ofClass ∧
      (outcome (isRegistered (.text "email")) s).1 = .ok true ∧
      ∀ name value format whole,
        (outcome (validate Host.bare name value format whole) s).1 =
          (outcome (validate Host.bare name value format whole) r).1 := by
  obtain ⟨r, hr⟩ : ∃ r, (ofConfig Host.bare redefinedConfig).1 = .ok r := by
    have hok : (ofConfig Host.bare redefinedConfig).1.isOk = true := by decide +kernel
    cases h : (ofConfig Host.bare redefinedConfig).1 with
    | ok r => exact ⟨r, rfl⟩
    | error e =>
      rw [h] at hok
      cases hok
  have hrules : (Value.map [(.text "rules", .map redefined)]).fieldOr "rules" .null =
      .ok (.map redefined) := rfl
  have hreversed : (Value.map [(.text "rules", .map redefined.reverse)]).fieldOr "rules" .null =
      .ok (.map redefined.reverse) := rfl
  have hplain : ∀ entry ∈ redefined, ∀ cls held,
      entry.2.get? "class" ≠ some (.ruleObject cls held) := by
    intro entry hm
    fin_cases hm <;> rintro cls held ⟨⟩
  have hconfig : Config.ofValue Host.bare (.map [(.text "rules", .map redefined)]) true =
      .ok redefinedConfig := rfl
  obtain ⟨_, hsame⟩ := same_in_any_order Host.bare hrules hreversed
    (List.reverse_perm redefined).symm (by decide +kernel) hplain hconfig
  obtain ⟨other, s, hother, hs, hall, hverdict⟩ := hsame r hr
  obtain ⟨hnames, hkinds⟩ := hall s (by simp)
  obtain ⟨one, hone, hrequired⟩ := hkinds redefined[0] List.mem_cons_self
  obtain ⟨two, htwo, hletters⟩ := hkinds redefined[1] (List.mem_cons_of_mem _ List.mem_cons_self)
  have hregex : Config.declared? redefined[0].2 = some .regex := by decide +kernel
  have hclass : Config.declared? redefined[1].2 = some .ofClass := by decide +kernel
  obtain rfl : .regex = one := Option.some.inj (hregex.symm.trans hone)
  obtain rfl : .ofClass = two := Option.some.inj (hclass.symm.trans htwo)
  exact ⟨r, other, s, hr, hother, hs, hrequired, hletters,
    (hnames (.text "email")).mpr (Or.inl (by decide +kernel)), hverdict⟩

end Registry

end FormGuard
