import FormGuard.Proofs.Registry.Binding
import FormGuard.Proofs.Registry.Settling

/-! Kinds: a name is of the kind of its last accepted registration. Nothing but the class it is bound
to stands in the way of a registration under another kind. -/
namespace FormGuard

/-- The rule that serves a name has what the offer brings. -/
def Offer.InForce (host : Host) (name : Value) (s : Registry) : Offer → Prop
  | .pattern p =>
    ∃ patterns, s.ruleOf host name = .ok (.regex patterns) ∧ patterns.find? name = some p
  | .callback _ c =>
    ∃ callbacks, s.ruleOf host name = .ok (.callback callbacks) ∧ callbacks.find? name = some c
  | .target t => s.targets.find? name = some t
  | .object rule => s.ruleOf host name = .ok rule

namespace Registry
variable {host : Host} {r s : Registry} {name other kind data owner : Value} {k : RuleKind}
  {o : Offer}

theorem Taken.inForce (h : Taken host name o r s) (hr : r.Keyed) : o.InForce host name s := by
  have hkey := isKey_of_canBind h.canBind
  have hf : s.targets.find? name = some o.bindsTo := by rw [h.targets, Table.find?_insert_self]
  have hserved : ∀ cls rule, o.bindsTo = .ofClass cls →
      o.serve name cls (r.shared host cls) = .ok rule → s.ruleOf host name = .ok rule := by
    intro cls rule hb hs
    refine ruleOf_eq_ok.mpr ⟨hkey, cls, ?_, (h.shared cls).trans hs⟩
    rw [classOf?, hf, hb]
    rfl
  cases o with
  | pattern p =>
    obtain ⟨patterns, hs⟩ := shared_regex host hr
    exact ⟨patterns.insert name p, hserved .regex _ rfl (by rw [hs]; rfl),
      Table.find?_insert_self _ _ _⟩
  | callback k c =>
    obtain ⟨callbacks, hs⟩ := shared_callback host hr
    exact ⟨callbacks.insert name c, hserved .callback _ rfl (by rw [hs]; rfl),
      Table.find?_insert_self _ _ _⟩
  | target t => exact hf
  | object rule => exact hserved rule.cls rule rfl (if_pos rfl)

/-- What a name of a kind can be bound to. -/
def Fits : RuleKind → Target → Prop
  | .regex, t => t = .ofClass .regex
  | .callback, t | .function, t => t = .ofClass .callback
  | .ofClass, _ | .custom, _ => True

theorem fits_of_offer (h : offer? host kind data owner = some o) : Fits o.kind o.bindsTo := by
  rcases offer?_cases h with ⟨_, _, _, rfl⟩ | ⟨k, hk, _, _, rfl⟩ | ⟨_, _, _, _, rfl⟩ |
    ⟨_, _, _, _, _, rfl⟩
  · rfl
  · rcases hk with rfl | rfl <;> rfl
  · trivial
  · trivial

theorem Fits.ofClass {cls : RuleClass} {path : String} (h : Fits k (.path path)) :
    Fits k (.ofClass cls) := by
  cases k with
  | regex => cases h
  | callback => cases h
  | function => cases h
  | ofClass => trivial
  | custom => trivial

/-- Whatever is of a kind with data of its own is bound to one class. -/
theorem Fits.unique {one two : Target} (h : Fits k one) (h' : Fits k two) (hc : k ≠ .ofClass)
    (hi : k ≠ .custom) : one = two := by
  cases k with
  | regex => exact h.trans h'.symm
  | callback => exact h.trans h'.symm
  | function => exact h.trans h'.symm
  | ofClass => exact absurd rfl hc
  | custom => exact absurd rfl hi

/-- Every name that has a kind is bound to something that fits it. -/
def Kinded (r : Registry) : Prop :=
  ∀ name k, r.kinds.find? name = some k → ∃ t, r.targets.find? name = some t ∧ Fits k t

theorem Taken.kinded (h : Taken host name o r s) (hf : Fits o.kind o.bindsTo) (hr : r.Kinded) :
    s.Kinded := by
  intro other k
  rw [h.kinds, h.targets, Table.find?_insert, Table.find?_insert]
  split
  · rintro ⟨⟩
    exact ⟨_, rfl, hf⟩
  · exact hr other k

theorem kinds_lookup (hr : r.Keyed) (host : Host) {op : Operation}
    (h : op.isRegistration = false) : (op.next host r).kinds = r.kinds := by
  have hlook : Looks host (Rule.KeepsState host) r (op.next host r) :=
    looks_next (by rintro _ _ _ _ rfl; cases h) r
  exact (hlook hr).kinds

theorem Kinded.next (h : r.Kinded) (hr : r.Keyed) (host : Host) (op : Operation) :
    (op.next host r).Kinded := by
  cases hop : op.isRegistration with
  | true =>
    obtain ⟨name, kind, data, owner, rfl⟩ := Operation.exists_register hop
    rw [Operation.next, Operation.perform]
    rcases ha : (outcome (register host name kind data owner) r).1 with e | ⟨⟩
    · rw [Kinded, (alike_of_refused hr ha).agree.kinds, targets_of_refused hr ha]
      exact h
    · obtain ⟨o, ho, ht⟩ := taken_of_accepted hr ha
      exact ht.kinded (fits_of_offer ho) h
  | false =>
    intro name k hk
    rw [kinds_lookup hr host hop] at hk
    obtain ⟨t, ht, hf⟩ := h name k hk
    rcases settles_lookup host hop r name with hs | ⟨path, cls, hp, _, hs⟩
    · exact ⟨t, hs.trans ht, hf⟩
    · obtain rfl : .path path = t := by simpa [hp] using ht
      exact ⟨_, hs, hf.ofClass⟩

theorem Kinded.run (h : r.Kinded) (hr : r.Keyed) (host : Host) (ops : List Operation) :
    (run host ops r).Kinded := by
  induction ops generalizing r with
  | nil => exact h
  | cons op ops ih => exact ih (h.next hr host op) (keyed_next op hr)

/-- The kind of what a registration brings. -/
def Registration.kind? (host : Host) (g : Registration) : Option RuleKind :=
  (offer? host g.kind g.data g.owner).map Offer.kind

theorem kinds_next (hr : r.Keyed) (host : Host) (op : Operation) (name : Value) :
    (op.next host r).kinds.find? name =
      match op.registration? host name r with
      | some g => g.kind? host
      | none => r.kinds.find? name := by
  cases hop : op.isRegistration with
  | false =>
    have hnone : op.registration? host name r = none := by
      cases op with
      | register other kind data owner => cases hop
      | _ => rfl
    rw [hnone, kinds_lookup hr host hop]
  | true =>
    obtain ⟨other, kind, data, owner, rfl⟩ := Operation.exists_register hop
    rw [Operation.next, Operation.perform]
    rcases ha : (outcome (register host other kind data owner) r).1 with e | ⟨⟩
    · have hno : (Operation.register other kind data owner).accepted host r = false := by
        rw [Bool.eq_false_iff, Ne, accepted_eq_true, ha]
        simp
      rw [Operation.registration?, hno, Bool.and_false, (alike_of_refused hr ha).agree.kinds]
      rfl
    · have hacc := accepted_eq_true.mpr ha
      obtain ⟨o, ho, ht⟩ := taken_of_accepted hr ha
      have hkind : Registration.kind? host ⟨kind, data, owner⟩ = some o.kind := by
        rw [Registration.kind?, ho]
        rfl
      rw [Operation.registration?, hacc, Bool.and_true, ht.kinds, Table.find?_insert]
      split
      · exact hkind.symm
      · rfl

/-- The kind of a name after a run is that of its last accepted registration. -/
theorem kinds_run (hr : r.Keyed) (host : Host) (ops : List Operation) (name : Value) :
    (run host ops r).kinds.find? name =
      match lastAccepted host name ops r with
      | some g => g.kind? host
      | none => r.kinds.find? name := by
  induction ops generalizing r with
  | nil => rfl
  | cons op ops ih =>
    rw [run, lastAccepted, ih (keyed_next op hr), kinds_next hr]
    cases lastAccepted host name ops (op.next host r) <;> rfl

/-- A name that is bound takes what is for the very thing it is bound to, of whatever kind, and
nothing else. -/
theorem accepted_iff_of_bound (hr : r.Keyed) (hk : name.isKey = true) {current : Target}
    (hc : r.targets.find? name = some current) :
    (outcome (register host name kind data owner) r).1 = .ok () ↔
      ∃ o, offer? host kind data owner = some o ∧ o.bindsTo = current := by
  rw [accepted_iff hr]
  constructor
  · rintro ⟨o, ho, hb⟩
    exact ⟨o, ho, (find?_of_canBind hb hc).symm⟩
  · rintro ⟨o, ho, rfl⟩
    exact ⟨o, ho, canBind_eq_ok.mpr ⟨hk, fun found hf => Option.some.inj (hf.symm.trans hc)⟩⟩

theorem kind_run_iff (hr : r.Keyed) (hk : (outcome (Registry.kind name) r).1 = .ok k)
    (ops : List Operation) : (outcome (Registry.kind name) (run host ops r)).1 = .ok k ↔
      ∀ g, lastAccepted host name ops r = some g → g.kind? host = some k := by
  obtain ⟨hkey, hkind⟩ := kind_eq_ok_iff.mp hk
  rw [kind_eq_ok_iff, kinds_run hr]
  cases lastAccepted host name ops r with
  | none => simp [hkey, hkind]
  | some g => simp [hkey]

/-- A name that has a kind is bound from then on. -/
theorem exists_find?_run (hr : r.Keyed) (h : r.Kinded) (hk : r.kinds.find? name = some k)
    (host : Host) (ops : List Operation) :
    ∃ current, (run host ops r).targets.find? name = some current := by
  obtain ⟨t, ht, _⟩ := h name k hk
  have hc : r.classOf? host name = some (targetClass host t) := by
    rw [classOf?, ht]
    rfl
  obtain ⟨current, hcurrent, _⟩ := Option.map_eq_some_iff.mp (classOf?_run hr hc ops)
  exact ⟨current, hcurrent⟩

theorem kind_of_accepted (hr : r.Keyed) (ho : offer? host kind data owner = some o)
    (ha : (outcome (register host name kind data owner) r).1 = .ok ()) :
    let s := (outcome (register host name kind data owner) r).2
    (outcome (Registry.kind name) s).1 = .ok o.kind ∧ o.InForce host name s := by
  intro s
  obtain ⟨taken, htaken, ht⟩ := taken_of_accepted hr ha
  obtain rfl : o = taken := by simpa [ho] using htaken
  refine ⟨kind_eq_ok_iff.mpr ⟨isKey_of_canBind ht.canBind, ?_⟩, ht.inForce hr⟩
  rw [ht.kinds, Table.find?_insert_self]

/-- Data of the kind that a name has is accepted, since only one class takes it. -/
theorem accepted_of_kind (hr : r.Keyed) (h : r.Kinded)
    (ho : offer? host kind data owner = some o)
    (hk : (outcome (Registry.kind name) r).1 = .ok o.kind) (hclass : o.kind ≠ .ofClass)
    (hcustom : o.kind ≠ .custom) :
    (outcome (register host name kind data owner) r).1 = .ok () := by
  obtain ⟨hkey, hkind⟩ := kind_eq_ok_iff.mp hk
  obtain ⟨t, ht, hfits⟩ := h name o.kind hkind
  exact (accepted_iff_of_bound hr hkey ht).mpr
    ⟨o, ho, (fits_of_offer ho).unique hfits hclass hcustom⟩

/-- A name that has a kind keeps it exactly if the last registration of it that was accepted, if there
is one, is of that kind. A registration of the name is accepted exactly if it brings something for
the very class or path that the name is bound to, whatever its kind, and one that is for anything
else is refused, with a report where the name can be written. What is accepted replaces what the name had, its kind included. Patterns and
functions of the kind that a name has are always accepted. -/
theorem kind_kept_iff (host : Host) (before after : List Operation) (name : Value) (k : RuleKind)
    (hk : (outcome (Registry.kind name) (run host before empty)).1 = .ok k) :
    let r := run host before empty
    let s := run host after r
    ((outcome (Registry.kind name) s).1 = .ok k ↔
      ∀ g, lastAccepted host name after r = some g → g.kind? host = some k) ∧
    ∃ current, s.targets.find? name = some current ∧
      ∀ kind data owner,
        let t := outcome (register host name kind data owner) s
        (t.1 = .ok () ↔ ∃ o, offer? host kind data owner = some o ∧ o.bindsTo = current) ∧
        (∀ target, aim? kind data = some target → target ≠ current →
          ∃ e, t.1 = .error e ∧ (name.isWritable = true → ∃ f, e = .registration f)) ∧
        ∀ o, offer? host kind data owner = some o →
          (t.1 = .ok () →
            (outcome (Registry.kind name) t.2).1 = .ok o.kind ∧ o.InForce host name t.2) ∧
          ((outcome (Registry.kind name) s).1 = .ok o.kind → o.kind ≠ .ofClass → o.kind ≠ .custom →
            t.1 = .ok ()) := by
  intro r s
  have hr : r.Keyed := keyed_run keyed_empty
  have hs : s.Keyed := keyed_run hr
  have hkinded : r.Kinded := Kinded.run (fun _ _ h => by cases h) keyed_empty host before
  obtain ⟨hkey, hkr⟩ := kind_eq_ok_iff.mp hk
  obtain ⟨current, hcurrent⟩ := exists_find?_run hr hkinded hkr host after
  refine ⟨kind_run_iff hr hk after, current, hcurrent, fun kind data owner => ⟨?_, ?_, ?_⟩⟩
  · exact accepted_iff_of_bound hs hkey hcurrent
  · intro target ha hne
    exact refused_of_bound hkey hcurrent ha hne host owner
  · intro o ho
    exact ⟨kind_of_accepted hs ho, accepted_of_kind hs (hkinded.run hr host after) ho⟩

/-- A pattern, one that does not compile in its place, and one that does. -/
def zipRuns : List Operation × List Operation :=
  ([.register (.text "zip") (.kind .regex) (.text "^[0-9]+$") .null],
    [.register (.text "zip") (.kind .regex) (.text "(") .null,
      .register (.text "zip") (.kind .regex) (.text "^[0-9]*$") .null])

theorem kind_kept_iff_zip :
    (outcome (Registry.kind (.text "zip")) (run Host.bare zipRuns.1 empty)).1 = .ok .regex ∧
    let s := run Host.bare zipRuns.2 (run Host.bare zipRuns.1 empty)
    (outcome (Registry.kind (.text "zip")) s).1 = .ok .regex ∧
      ∀ path, ∃ f,
        (outcome (register Host.bare (.text "zip") (.kind .ofClass) (.text path) .null) s).1 =
          .error (.registration f) := by
  have hk : (outcome (Registry.kind (.text "zip")) (run Host.bare zipRuns.1 empty)).1 =
      .ok .regex := by decide +kernel
  have hlast : lastAccepted Host.bare (.text "zip") zipRuns.2 (run Host.bare zipRuns.1 empty) =
      some ⟨.kind .regex, .text "^[0-9]*$", .null⟩ := by decide +kernel
  obtain ⟨hkept, current, hcurrent, hregister⟩ :=
    kind_kept_iff Host.bare zipRuns.1 zipRuns.2 (.text "zip") .regex hk
  have hbound : (run Host.bare zipRuns.2 (run Host.bare zipRuns.1 empty)).targets.find?
      (.text "zip") = some (.ofClass .regex) := by decide +kernel
  obtain rfl : .ofClass .regex = current := Option.some.inj (hbound.symm.trans hcurrent)
  refine ⟨hk, hkept.mpr ?_, fun path => ?_⟩
  · rw [hlast]
    rintro _ ⟨⟩
    decide +kernel
  · obtain ⟨_, hother, _⟩ := hregister (.kind .ofClass) (.text path) .null
    obtain ⟨e, he, hreport⟩ := hother (.path path) rfl (by simp)
    obtain ⟨f, rfl⟩ := hreport (Value.isWritable_text "zip")
    exact ⟨f, he⟩

/-- A name that stands for the class of patterns is taken over by a pattern. -/
theorem class_becomes_pattern :
    let r := run Host.bare [.register (.text "regex") (.kind .ofClass) (.ruleClass .regex) .null] empty
    let t := outcome (register Host.bare (.text "regex") (.kind .regex) (.text "^x$") .null) r
    (outcome (Registry.kind (.text "regex")) r).1 = .ok .ofClass ∧ t.1 = .ok () ∧
      (outcome (Registry.kind (.text "regex")) t.2).1 = .ok .regex := by
  decide +kernel

end Registry

end FormGuard
