import FormGuard.Proofs.Loading.Element
import FormGuard.Proofs.Registry.Configuration
import FormGuard.Proofs.Registry.Escape

/-! Reading configurations: which end in an error that is not the library's own. -/
namespace FormGuard
variable {host : Host} {e : Error}

namespace ImportPath
variable {path : Value}

/-- What is wrong with an import path: it is no text, or one whose module begins with a point. -/
inductive Misfit : Value → Error → Prop where
  | collection {path : Value} {items : List Value} (noText : path.asText? = none)
      (listed : path.items = .ok items) : Misfit path (.misuse .attribute)
  | unlisted {path : Value} (unlisted : path.Unlisted) : Misfit path (.misuse .type)
  | relative {path : Value} {text : String} (given : path.asText? = some text)
      (relative : Relative text) : Misfit path (.misuse .type)

theorem resolve_eq_error (h : resolve host path = .error e) :
    (∃ fault, e = .notFound fault) ∨ Misfit path e := by
  unfold resolve at h
  cases ht : path.asText? with
  | some text =>
    rw [ht] at h
    rcases resolveText_eq_error h with hfault | ⟨hrel, rfl⟩
    · exact Or.inl hfault
    · exact Or.inr (.relative ht hrel)
  | none =>
    rw [ht] at h
    refine Or.inr ?_
    cases path with
    | list items | tuple items | set items | map entries =>
      cases h
      exact .collection ht rfl
    | text s | kind k | mode m => cases ht
    | _ =>
      cases h
      exact .unlisted fun items hi => nomatch hi

theorem resolve_of_misfit (h : Misfit path e) (host : Host) : resolve host path = .error e := by
  cases h with
  | collection noText listed =>
    unfold resolve
    rw [noText]
    cases path with
    | list items | tuple items | set items | map entries => rfl
    | text s | kind k | mode m => cases noText
    | _ => cases listed
  | unlisted unlisted =>
    cases path with
    | list items | tuple items | set items | map entries | text s | kind k | mode m =>
      exact absurd rfl (unlisted _)
    | _ => rfl
  | relative given relative =>
    unfold resolve
    rw [given]
    exact resolveText_of_relative relative host

theorem Misfit.misuse (h : Misfit path e) : ∃ fault, e = .misuse fault := by
  cases h <;> exact ⟨_, rfl⟩

end ImportPath

namespace Config
variable {name definition path data : Value} {defaults : Bool}

/-- A fault of a configuration that names the name of a rule escapes where that cannot be written. -/
theorem foreign_fault {α : Type} {f : ConfigFault} (h : f.named = [name]) :
    Foreign (fault f : Except Error α) e ↔ name.isWritable = false ∧ e = .misuse .value := by
  rw [fault, foreign_raise rfl]
  simp [h]

theorem foreign_function : Foreign (function host name path) e ↔ ImportPath.Misfit path e ∨
    (∃ fault, ImportPath.resolve host path = .error (.notFound fault)) ∧ name.isWritable = false ∧
      e = .misuse .value := by
  unfold function
  split
  · rename_i f hf
    rw [foreign_fault rfl]
    refine ⟨fun h => Or.inr ⟨⟨f, hf⟩, h⟩, ?_⟩
    rintro (hm | ⟨_, h⟩)
    · obtain ⟨fault, rfl⟩ := hm.misuse
      cases hf.symm.trans (ImportPath.resolve_of_misfit hm host)
    · exact h
  · rename_i hno
    constructor
    · rintro ⟨he, hown⟩
      rcases ImportPath.resolve_eq_error he with ⟨fault, rfl⟩ | hm
      · exact absurd he (hno fault)
      · exact Or.inl hm
    · rintro (hm | ⟨⟨f, hf⟩, _⟩)
      · rw [ImportPath.resolve_of_misfit hm host]
        obtain ⟨fault, rfl⟩ := hm.misuse
        exact ⟨rfl, rfl⟩
      · exact absurd hf (hno f)

/-- What the definition of a rule has to give besides its kind. -/
def part? : RuleKind → Option String
  | .regex => some "pattern"
  | .callback | .function => some "callback"
  | .ofClass => some "class"
  | .custom => none

/-- A rule of this kind is a function. -/
def IsFunction (k : RuleKind) : Prop := k = .callback ∨ k = .function

/-- A definition says of which kind its rule is, or something that is no kind. -/
def Declares (definition : Value) (k : Option RuleKind) : Prop :=
  ∃ type, definition.get? "type" = some type ∧ type.isWritable = true ∧
    RuleKind.ofWord? (Unicode.lowerText type.plain) = k

/-- What a definition that says this of its kind lacks: a kind there is, one for files, its part, or a
function at the path. -/
inductive Lacks (host : Host) (definition : Value) : Option RuleKind → Prop where
  | kind : Lacks host definition none
  | custom : Lacks host definition (some .custom)
  | part {k : RuleKind} {key : String} (needed : part? k = some key)
      (absent : definition.get? key = none) : Lacks host definition (some k)
  | function {k : RuleKind} {path : Value} {fault : ImportFault} (called : IsFunction k)
      (given : definition.get? "callback" = some path)
      (lost : ImportPath.resolve host path = .error (.notFound fault)) :
      Lacks host definition (some k)

/-- What is wrong with the definition of a rule: it is of a function, and the path to that is a misfit;
or its kind cannot be written, or its name cannot and it lacks something. -/
inductive MisfitDefinition (host : Host) (name definition : Value) : Error → Prop where
  | path {k : RuleKind} {path : Value} {e : Error} (declared : Declares definition (some k))
      (called : IsFunction k) (given : definition.get? "callback" = some path)
      (misfit : ImportPath.Misfit path e) : MisfitDefinition host name definition e
  | type {type : Value} (typed : definition.get? "type" = some type)
      (unwritable : type.isWritable = false) : MisfitDefinition host name definition (.misuse .value)
  | untyped (untyped : definition.get? "type" = none) (unwritable : name.isWritable = false) :
      MisfitDefinition host name definition (.misuse .value)
  | lacks {k : Option RuleKind} (declared : Declares definition k) (lacks : Lacks host definition k)
      (unwritable : name.isWritable = false) : MisfitDefinition host name definition (.misuse .value)

/-- What is wrong with a configuration: the first definition that gives no binding is a misfit. -/
def Misfit (host : Host) (data : Value) (e : Error) : Prop :=
  ∃ entries, data.get? "rules" = some (.map entries) ∧
    ComesTo (fun entry => ∃ b, binding host entry.1 entry.2 = .ok b)
      (fun entry => MisfitDefinition host entry.1 entry.2 e) entries

theorem foreign_required {key : String} {missing : ConfigFault} (h : missing.named = [name]) :
    Foreign (required definition key missing) e ↔
      definition.get? key = none ∧ name.isWritable = false ∧ e = .misuse .value := by
  unfold required
  cases definition.get? key with
  | some v => simp
  | none => simp [foreign_fault h]

/-- A definition that declares one thing declares nothing else. -/
theorem Declares.unique {k l : Option RuleKind} (h : Declares definition k)
    (hl : Declares definition l) : k = l := by
  obtain ⟨type, ht, _, rfl⟩ := h
  obtain ⟨other, ho, _, rfl⟩ := hl
  obtain rfl := Option.some.inj (ht.symm.trans ho)
  rfl

theorem misfit_iff_of_declares {k : Option RuleKind} (h : Declares definition k) :
    MisfitDefinition host name definition e ↔
      (∃ l path, k = some l ∧ IsFunction l ∧ definition.get? "callback" = some path ∧
        ImportPath.Misfit path e) ∨
      Lacks host definition k ∧ name.isWritable = false ∧ e = .misuse .value := by
  constructor
  · intro hm
    cases hm with
    | path declared called given misfit =>
      exact Or.inl ⟨_, _, h.unique declared, called, given, misfit⟩
    | type typed unwritable =>
      obtain ⟨type, ht, hw, _⟩ := h
      obtain rfl := Option.some.inj (ht.symm.trans typed)
      cases hw.symm.trans unwritable
    | untyped untyped =>
      obtain ⟨type, ht, _⟩ := h
      cases ht.symm.trans untyped
    | lacks declared lacks unwritable =>
      obtain rfl := h.unique declared
      exact Or.inr ⟨lacks, unwritable, rfl⟩
  · rintro (⟨l, path, rfl, called, given, misfit⟩ | ⟨lacks, unwritable, rfl⟩)
    · exact .path h called given misfit
    · exact .lacks h lacks unwritable

/-- A binding that takes nothing but a value from its definition. -/
theorem foreign_part {k : RuleKind} {key : String} {missing : ConfigFault} {f : Value → Binding}
    (h : Declares definition (some k)) (hk : ¬ IsFunction k) (hp : part? k = some key)
    (hm : missing.named = [name]) :
    Foreign (required definition key missing >>= fun v => pure (f v)) e ↔
      MisfitDefinition host name definition e := by
  rw [foreign_bind_pure, foreign_required hm, misfit_iff_of_declares h]
  constructor
  · rintro ⟨ha, hw, rfl⟩
    exact Or.inr ⟨.part hp ha, hw, rfl⟩
  · rintro (⟨l, path, ⟨⟩, hcalled, _⟩ | ⟨hlacks, hw, rfl⟩)
    · exact absurd hcalled hk
    · cases hlacks with
      | custom => cases hp
      | part needed absent =>
        obtain rfl := Option.some.inj (hp.symm.trans needed)
        exact ⟨absent, hw, rfl⟩
      | function called => exact absurd called hk

theorem foreign_callback_binding {k : RuleKind} {f : Value → Binding} {missing : ConfigFault}
    (h : Declares definition (some k)) (hk : IsFunction k) (hm : missing.named = [name]) :
    Foreign (required definition "callback" missing >>= fun path =>
      function host name path >>= fun g => pure (f g)) e ↔
      MisfitDefinition host name definition e := by
  have hp : part? k = some "callback" := by
    obtain rfl | rfl := hk
    · rfl
    · rfl
  rw [foreign_bind, foreign_required hm, misfit_iff_of_declares h]
  simp only [foreign_bind_pure, foreign_function, required_eq_ok]
  constructor
  · rintro (⟨ha, hw, rfl⟩ | ⟨path, hpath, hmisfit | ⟨⟨fault, hf⟩, hw, rfl⟩⟩)
    · exact Or.inr ⟨.part hp ha, hw, rfl⟩
    · exact Or.inl ⟨k, path, rfl, hk, hpath, hmisfit⟩
    · exact Or.inr ⟨.function hk hpath hf, hw, rfl⟩
  · rintro (⟨l, path, _, _, hpath, hmisfit⟩ | ⟨hlacks, hw, rfl⟩)
    · exact Or.inr ⟨path, hpath, Or.inl hmisfit⟩
    · cases hlacks with
      | custom =>
        cases hp
      | part needed absent =>
        obtain rfl := Option.some.inj (hp.symm.trans needed)
        exact Or.inl ⟨absent, hw, rfl⟩
      | function _ given lost => exact Or.inr ⟨_, given, Or.inr ⟨⟨_, lost⟩, hw, rfl⟩⟩

theorem foreign_binding_of_writable {type : Value} (ht : definition.get? "type" = some type)
    (hw : type.isWritable = true) :
    Foreign (binding host name definition) e ↔ MisfitDefinition host name definition e := by
  have hdeclares : Declares definition (RuleKind.ofWord? (Unicode.lowerText type.plain)) :=
    ⟨type, ht, hw, rfl⟩
  unfold binding
  rw [required_eq_ok.mpr ht]
  change Foreign (type.spelled >>= fun word => _) e ↔ _
  rw [foreign_bind, Value.spelled_eq_ok.mpr ⟨hw, rfl⟩]
  simp only [not_foreign_ok, false_or, Except.ok.injEq, exists_eq_left']
  generalize RuleKind.ofWord? (Unicode.lowerText type.plain) = declared at hdeclares ⊢
  cases declared with
  | none =>
    dsimp only
    rw [fault, foreign_raise rfl, misfit_iff_of_declares hdeclares]
    simp [ConfigFault.named, hw, Lacks.kind]
  | some k =>
    cases k with
    | regex => exact foreign_part hdeclares (by simp [IsFunction]) rfl rfl
    | callback => exact foreign_callback_binding hdeclares (Or.inl rfl) rfl
    | function => exact foreign_callback_binding hdeclares (Or.inr rfl) rfl
    | ofClass => exact foreign_part hdeclares (by simp [IsFunction]) rfl rfl
    | custom =>
      dsimp only
      rw [foreign_fault rfl, misfit_iff_of_declares hdeclares]
      simp [IsFunction, Lacks.custom]

/-- A definition fails with an error that is not the library's own just where it is a misfit. -/
theorem foreign_binding :
    Foreign (binding host name definition) e ↔ MisfitDefinition host name definition e := by
  cases ht : definition.get? "type" with
  | none =>
    have hb : binding host name definition = fault (.noType name) := by
      unfold binding required
      rw [ht]
      rfl
    rw [hb, foreign_fault rfl]
    constructor
    · rintro ⟨hw, rfl⟩
      exact .untyped ht hw
    · intro h
      cases h with
      | path declared | lacks declared =>
        obtain ⟨_, hd, _⟩ := declared
        cases ht.symm.trans hd
      | type typed => cases ht.symm.trans typed
      | untyped _ unwritable => exact ⟨unwritable, rfl⟩
  | some type =>
    cases hw : type.isWritable with
    | false =>
      have hb : binding host name definition = Value.misuse .value := by
        unfold binding
        rw [required_eq_ok.mpr ht]
        change (type.spelled >>= fun word => _) = _
        rw [Value.spelled, hw, if_neg Bool.false_ne_true]
        rfl
      rw [hb]
      constructor
      · rintro ⟨⟨⟩, _⟩
        exact .type ht hw
      · intro h
        cases h with
        | path declared =>
          obtain ⟨_, hd, hwritable, _⟩ := declared
          obtain rfl := Option.some.inj (ht.symm.trans hd)
          cases hw.symm.trans hwritable
        | type | untyped | lacks => exact ⟨rfl, rfl⟩
    | true => exact foreign_binding_of_writable ht hw

theorem foreign_bindings {entries : List (Value × Value)} : Foreign (bindings host entries) e ↔
    ComesTo (fun entry => ∃ b, binding host entry.1 entry.2 = .ok b)
      (fun entry => MisfitDefinition host entry.1 entry.2 e) entries := by
  induction entries with
  | nil => exact iff_of_false (not_foreign_ok _ e) not_comesTo_nil
  | cons entry rest ih =>
    obtain ⟨name, definition⟩ := entry
    rw [bindings, foreign_both, comesTo_cons, foreign_binding, ih]

/-- A configuration fails with an error that is not the library's own just where it is a misfit. -/
theorem foreign_ofValue {entries : List (Value × Value)} :
    Foreign (ofValue host (.map entries) defaults) e ↔ Misfit host (.map entries) e := by
  unfold Misfit
  cases hr : (Value.map entries).get? "rules" with
  | none =>
    refine iff_of_false ?_ (by simp)
    have hread : (Value.map entries).fieldOr "rules" .null = .ok .null := by
      rw [Value.fieldOr, hr]
      rfl
    unfold ofValue
    rw [hread]
    exact not_foreign_ok _ e
  | some rules =>
    have hread : (Value.map entries).fieldOr "rules" .null = .ok rules := by
      rw [Value.fieldOr, hr]
      rfl
    by_cases hm : ∃ given, rules = .map given
    · obtain ⟨given, rfl⟩ := hm
      rw [ofValue_of_rules hread, foreign_bind, foreign_bindings]
      simp
    · refine iff_of_false ?_ ?_
      · unfold ofValue
        rw [hread]
        dsimp only [bind, Except.bind]
        cases ht : rules.truthy with
        | false =>
          have hempty : rules.orElse (.map []) = .map [] := by simp [Value.orElse, ht]
          rw [hempty]
          exact not_foreign_ok _ e
        | true =>
          have hsame : rules.orElse (.map []) = rules := by simp [Value.orElse, ht]
          rw [hsame]
          split
          · exact absurd ⟨_, rfl⟩ hm
          · rintro ⟨⟨⟩, ⟨⟩⟩
      · rintro ⟨given, ⟨⟩, _⟩
        exact hm ⟨given, rfl⟩

end Config

end FormGuard
