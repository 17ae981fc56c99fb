import FormGuard.Proofs.Registry.Binding
import FormGuard.Proofs.Registry.StoredData

/-! Sharing: a class is served by one instance, which is made once and never replaced. -/
namespace FormGuard

namespace Rule
variable {host : Host} {rule after later : Rule}

/-- What happens to an instance while it serves: it is asked, or it is given data. -/
inductive Step (host : Host) : Rule → Rule → Prop where
  | asked (rule : Rule) (name value format : Value) :
    Step host rule (rule.validate host name value format).2
  | given {rule after : Rule} {name data owner : Value} {notes : List Note}
    (h : rule.add host name data owner = .ok (after, notes)) : Step host rule after

theorem Step.cls_eq (h : Step host rule after) : after.cls = rule.cls := by
  cases h with
  | asked name value format => exact cls_validate host rule name value format
  | given h => exact Registry.cls_of_add h

/-- One instance at two times. -/
def Becomes (host : Host) : Rule → Rule → Prop := Relation.ReflTransGen (Step host)

end Rule

/-- What is noted when an instance is made. -/
def constructed (cls : RuleClass) : Note :=
  ⟨.debug, .registry, "Instantiated rule class " ++ cls.name⟩

def Note.isConstruction (note : Note) : Bool :=
  note.topic == .registry && "Instantiated rule class ".toList.isPrefixOf note.message.toList

theorem isConstruction_constructed (cls : RuleClass) : (constructed cls).isConstruction = true := by
  simp [Note.isConstruction, constructed, List.isPrefixOf]

namespace ImportPath

/-- Two paths that are cut alike lead to the same. -/
theorem resolveText_congr {host : Host} {path other : String} (h : split path = split other)
    {v : Value} (hv : resolveText host path = .ok v) : resolveText host other = .ok v := by
  unfold resolveText at hv ⊢
  rw [← h]
  cases hs : split path with
  | none =>
    rw [hs] at hv
    cases hv
  | some ends =>
    rw [hs] at hv
    exact hv

theorem split_colon_eq_point {home member : List Char} (hh : ':' ∉ home) (hm : ':' ∉ member)
    (hp : '.' ∉ member) :
    split (String.ofList (home ++ ':' :: member)) =
      split (String.ofList (home ++ '.' :: member)) := by
  have hcolon : (home ++ ':' :: member).contains ':' = true := by simp
  have hpoint : (home ++ '.' :: member).contains ':' = false := by simp [hh, hm]
  unfold split
  simp only [String.toList_ofList, hcolon, hpoint, Text.cut?_of_not_mem hh,
    Text.cutLast?_of_not_mem hp]
  rfl

end ImportPath

namespace Registry
variable {host : Host} {r s : Registry} {name other : Value} {cls : RuleClass} {rule : Rule}
  {classes : List RuleClass}

theorem mem_about {level : Level} {topic : Topic} {before behind : String} {v : Value} {note : Note}
    (h : note ∈ Note.about level topic before v behind) :
    note = ⟨level, topic, before ++ v.plain ++ behind⟩ := by
  unfold Note.about at h
  split at h
  · exact List.mem_singleton.mp h
  · cases h

theorem isConstruction_registered {kind : Value} {note : Note} (h : note ∈ registered name kind) :
    note.isConstruction = false := by
  rw [mem_about h]
  simp [Note.isConstruction, List.isPrefixOf]

/-- Data that is stored is noted as such or not at all. -/
theorem isConstruction_of_add {after : Rule} {data owner : Value} {notes : List Note}
    (h : rule.add host name data owner = .ok (after, notes)) :
    ∀ note ∈ notes, note.isConstruction = false := by
  cases rule with
  | regex patterns =>
    obtain ⟨⟨stored, _⟩, hs, h⟩ := bind_eq_ok.mp h
    obtain ⟨p, _, hs⟩ := bind_eq_ok.mp hs
    obtain ⟨_, _, hs⟩ := bind_eq_ok.mp hs
    cases h
    cases hs
    intro note hnote
    split at hnote
    · split at hnote
      · cases hnote
      · rw [mem_about hnote]
        rfl
    · cases hnote
  | callback callbacks =>
    obtain ⟨⟨stored, _⟩, hs, h⟩ := bind_eq_ok.mp h
    obtain ⟨_, _, hs⟩ := bind_eq_ok.mp hs
    obtain ⟨_, _, hs⟩ := bind_eq_ok.mp hs
    cases h
    cases hs
    intro note hnote
    split at hnote
    · rw [mem_about hnote]
      rfl
    · cases hnote
  | _ => cases h

/-- What the parts of an operation do to the instances and the journal: nothing but notes of other
things, a first instance of a class, or an instance changed in its place. -/
inductive Work (host : Host) : Registry → Registry → Prop where
  | noted {r s : Registry} (notes : List Note) (h : ∀ note ∈ notes, note.isConstruction = false)
    (hi : s.instances = r.instances) (hn : s.notes = r.notes ++ notes) : Work host r s
  | made {r : Registry} {cls : RuleClass} {rule : Rule} (hi : r.instance? cls = none)
    (hm : Rule.make host cls [] = .ok rule) :
    Work host r { r.put rule with notes := r.notes ++ [constructed cls] }
  | changed {r : Registry} {rule after : Rule} (hi : r.instance? rule.cls = some rule)
    (h : rule.Step host after) : Work host r (r.put after)

theorem keyed_work (h : Work host r s) (hr : r.Keyed) : s.Keyed := by
  cases h with
  | noted notes _ hi _ =>
    intro cls rule hrule
    rw [instance?, hi] at hrule
    exact hr cls rule hrule
  | made _ _ => exact keyed_put hr _
  | changed _ _ => exact keyed_put hr _

/-- Work done one after the other. -/
def Works (host : Host) (r s : Registry) : Prop :=
  r.Keyed → s.Keyed ∧ Relation.ReflTransGen (Work host) r s

instance : Std.Refl (Works host) where
  refl _ hr := ⟨hr, .refl⟩

instance : IsTrans Registry (Works host) where
  trans _ _ _ hrs hst hr := by
    obtain ⟨hs, hone⟩ := hrs hr
    obtain ⟨ht, htwo⟩ := hst hs
    exact ⟨ht, hone.trans htwo⟩

theorem works_of_work (h : Work host r s) : Works host r s :=
  fun hr => ⟨keyed_work h hr, .single h⟩

theorem works_of_eq (hi : s.instances = r.instances) (hn : s.notes = r.notes) :
    Works host r s :=
  works_of_work (.noted [] (by simp) hi (by simp [hn]))

section
variable (host)

theorem works_resolve (target : Target) : Moves (Works host) (resolve host target) := by
  intro r
  refine works_of_eq (instances_resolve host target r) ?_
  cases target with
  | ofClass cls => rfl
  | path path =>
    rw [resolve, outcome_resolvePath]
    cases classAt host path <;> rfl

theorem works_classInstance (cls : RuleClass) : Moves (Works host) (classInstance host cls) := by
  intro r
  obtain ⟨rule, -, ho⟩ | ⟨e, -, -, ho⟩ | ⟨rule, hi, hm, ho⟩ := classInstance_cases host cls r
  · exact ho ▸ refl r
  · exact ho ▸ refl r
  · exact ho ▸ works_of_work (.made hi hm)

theorem instance?_of_classInstance {t : Registry}
    (h : outcome (classInstance host cls) r = (.ok rule, t)) : t.instance? cls = some rule := by
  obtain ⟨found, hi, ho⟩ | ⟨e, -, -, ho⟩ | ⟨made, -, hm, ho⟩ := classInstance_cases host cls r
  · cases ho.symm.trans h
    exact hi
  · cases ho.symm.trans h
  · cases ho.symm.trans h
    exact (instance?_put rule r cls).trans (if_pos (Rule.cls_of_make hm).symm)

theorem works_passes (cls : RuleClass) (name value format : Value) :
    Moves (Works host) (passes host cls name value format) := by
  intro r hr
  have hw := works_classInstance host cls r hr
  unfold passes
  rcases h : outcome (classInstance host cls) r with ⟨e | rule, t⟩
  · rw [outcome_bind_of_error h]
    rwa [h] at hw
  · have hi := instance?_of_classInstance host h
    rw [h] at hw
    rw [outcome_bind_of_ok h, bind_pure_comp, outcome_map, outcome_ask]
    obtain rfl := hw.1 cls rule hi
    have hs : Works host t (t.put (rule.validate host name value format).2) :=
      works_of_work (.changed hi (.asked rule name value format))
    exact IsTrans.trans (r := Works host) r t _ (fun _ => hw) hs hr

theorem works_getRule (name : Value) : Moves (Works host) (getRule host name) :=
  moves_getRule_of host (works_resolve host) (works_classInstance host) name

theorem works_registerData (name : Value) (cls : RuleClass) (kind : RuleKind)
    (data owner : Value) : Moves (Works host) (registerData host name cls kind data owner) := by
  intro r hr
  have hw := works_classInstance host cls r hr
  rcases outcome_registerData host hr name cls kind data owner with
    ⟨e, ho⟩ | ⟨e, ho⟩ | ⟨before, after, notes, t, _, hi, ha, hc, ho⟩
  · rw [ho]
    exact refl (r := Works host) r hr
  · rw [ho]
    exact hw
  · rw [ho]
    rw [hi] at hw
    have hinst : t.instance? before.cls = some before := by
      rw [← cls_of_add ha, hc]
      exact instance?_of_classInstance host hi
    have hput : Works host t (t.put after) := works_of_work (.changed hinst (.given ha))
    have hnote : Works host (t.put after) (({ t.put after with notes := t.notes ++ notes } :
        Registry).bound name (.ofClass cls) kind) :=
      works_of_work (.noted notes (isConstruction_of_add ha) rfl rfl)
    exact IsTrans.trans (r := Works host) r t _ (fun _ => hw) (IsTrans.trans _ _ _ hput hnote) hr

/-- A registration that is accepted without bringing an instance, or refused, works as any other
operation does. -/
theorem works_register {kind data owner : Value}
    (hi : (Operation.register name kind data owner).bringsInstance →
      (Operation.register name kind data owner).accepted host r = false) :
    Works host r (outcome (register host name kind data owner) r).2 := by
  have hfst := (outcome_register host name kind data owner r).1
  rw [Operation.accepted, Operation.perform, hfst] at hi
  have henter : Works host r (outcome (enter host name kind data owner) r).2 := by
    cases hk : dataKind? kind with
    | some found =>
      obtain ⟨k, cls⟩ := found
      rw [enter_of_data hk]
      exact works_registerData host name cls k data owner r
    | none =>
      rcases enter_target_cases hk host name data owner r with
        ⟨e, ho⟩ | ⟨target, _, _, _, ho⟩ | ⟨cls, held, _, rfl, _, _, ho⟩
      · rw [ho]
        exact refl (r := Works host) r
      · rw [ho]
        exact works_of_eq rfl rfl
      · have hi := hi hk
        rw [ho] at hi
        cases hi
  rw [register_eq, FormGuard.outcome_bind]
  rcases ho : outcome (enter host name kind data owner) r with ⟨e | u, t⟩
  all_goals rw [ho] at henter
  · exact henter
  · exact IsTrans.trans (r := Works host) r t _ henter
      (works_of_work (.noted _ (fun _ => isConstruction_registered) rfl rfl))

theorem works_next {op : Operation} (hi : op.bringsInstance → op.accepted host r = false) :
    Works host r (op.next host r) := by
  cases op with
  | register name kind data owner => exact works_register host hi
  | get name => exact moves_discard (works_getRule host name) r
  | validate name value format whole =>
    exact moves_discard (moves_validate_of host (works_getRule host) (works_passes host)
      name value format whole) r
  | block source name a =>
    exact moves_discard (moves_block_of host (works_getRule host) source name a) r

theorem works_run {ops : List Operation} (hi : InstanceFree host ops r) :
    Works host r (run host ops r) := by
  induction ops generalizing r with
  | nil => exact refl (r := Works host) r
  | cons op ops ih => exact IsTrans.trans (r := Works host) r _ _ (works_next host hi.1) (ih hi.2)

theorem instanceFree_append {ops more : List Operation} :
    InstanceFree host (ops ++ more) r ↔
      InstanceFree host ops r ∧ InstanceFree host more (run host ops r) := by
  induction ops generalizing r with
  | nil => exact ⟨fun h => ⟨trivial, h⟩, fun h => h.2⟩
  | cons op ops ih =>
    change _ ∧ InstanceFree host (ops ++ more) _ ↔ (_ ∧ _) ∧ _
    rw [ih, and_assoc]
    rfl

end

/-- The journal tells which classes have an instance: each was made once, in this order. -/
structure Journaled (r : Registry) (classes : List RuleClass) : Prop where
  nodup : classes.Nodup
  notes : r.notes.filter Note.isConstruction = classes.map constructed
  mem : ∀ cls, cls ∈ classes ↔ (r.instance? cls).isSome = true

theorem journaled_empty : Registry.empty.Journaled [] :=
  ⟨List.nodup_nil, rfl, fun _ => by simp [instance?, empty]⟩

theorem journaled_work (h : Work host r s) (hj : r.Journaled classes) :
    ∃ more, s.Journaled (classes ++ more) := by
  cases h with
  | noted notes hnotes hi hn =>
    have hnone : notes.filter Note.isConstruction = [] :=
      List.filter_eq_nil_iff.mpr (by simpa using hnotes)
    refine ⟨[], by simpa using hj.nodup, ?_, fun cls => ?_⟩
    · rw [hn, List.filter_append, hnone, hj.notes, List.append_nil, List.append_nil]
    · rw [List.append_nil, hj.mem, instance?, instance?, hi]
  | @made cls rule hi hm =>
    have hcls := Rule.cls_of_make hm
    -- the only note of this kind, and the class had no instance and hence no note before
    have hnew : cls ∉ classes := by
      rw [hj.mem, hi]
      simp
    refine ⟨[cls], ?_, ?_, fun other => ?_⟩
    · exact List.nodup_append.mpr ⟨hj.nodup, List.nodup_singleton cls, by
        rintro a ha b hb rfl
        exact hnew (List.mem_singleton.mp hb ▸ ha)⟩
    · change (r.notes ++ [constructed cls]).filter _ = _
      rw [List.filter_append, hj.notes, List.map_append]
      simp [isConstruction_constructed]
    · change _ ↔ ((r.put rule).instance? other).isSome = true
      rw [List.mem_append, hj.mem, instance?_put, hcls, List.mem_singleton]
      by_cases ho : other = cls <;> simp [ho]
  | @changed rule after hi hstep =>
    have hcls := hstep.cls_eq
    refine ⟨[], by simpa using hj.nodup, by rw [List.append_nil]; exact hj.notes, fun other => ?_⟩
    rw [List.append_nil, hj.mem, instance?_put, hcls]
    by_cases ho : other = rule.cls <;> simp [ho, hi]

/-- Every instance that one registry has, another one has too, whatever became of it. -/
def Continues (host : Host) (r s : Registry) : Prop :=
  ∀ cls rule, r.instance? cls = some rule →
    ∃ later, s.instance? cls = some later ∧ rule.Becomes host later

theorem continues_work (h : Work host r s) : Continues host r s := by
  intro cls rule hrule
  cases h with
  | noted notes _ hi _ =>
    rw [instance?, ← hi] at hrule
    exact ⟨rule, hrule, .refl⟩
  | @made c made hi hm =>
    have hne : cls ≠ made.cls := by
      rintro rfl
      rw [Rule.cls_of_make hm, hi] at hrule
      cases hrule
    refine ⟨rule, ?_, .refl⟩
    change (r.put made).instance? cls = _
    rw [instance?_put, if_neg hne, hrule]
  | @changed before after hi hstep =>
    rw [instance?_put, hstep.cls_eq]
    by_cases hc : cls = before.cls
    · obtain rfl : before = rule := by
        rw [hc, hi] at hrule
        exact Option.some.inj hrule
      exact ⟨after, if_pos hc, .single hstep⟩
    · exact ⟨rule, (if_neg hc).trans hrule, .refl⟩

theorem journaled_works (h : Relation.ReflTransGen (Work host) r s) (hj : r.Journaled classes) :
    ∃ more, s.Journaled (classes ++ more) := by
  induction h with
  | refl => exact ⟨[], by simpa using hj⟩
  | tail _ hw ih =>
    obtain ⟨more, hm⟩ := ih
    obtain ⟨last, hl⟩ := journaled_work hw hm
    exact ⟨more ++ last, by rwa [← List.append_assoc]⟩

theorem continues_works (h : Relation.ReflTransGen (Work host) r s) : Continues host r s := by
  induction h with
  | refl => exact fun cls rule hrule => ⟨rule, hrule, .refl⟩
  | tail _ hw ih =>
    intro cls rule hrule
    obtain ⟨later, hlater, hone⟩ := ih cls rule hrule
    obtain ⟨last, hlast, htwo⟩ := continues_work hw cls later hlater
    exact ⟨last, hlast, hone.trans htwo⟩

theorem getRule_of_classOf? (hk : name.isKey = true) (hc : r.classOf? host name = some (.ok cls)) :
    (outcome (getRule host name) r).1 = r.shared host cls := by
  rw [outcome_getRule, ruleOf, Value.needKey_eq_ok (u := ()).mpr hk, hc]
  rfl

/-- Looking a name up makes at most the instance of its class, which is there afterwards. -/
theorem instances_getRule {t : Registry} (hc : r.classOf? host name = some (.ok cls))
    (h : outcome (getRule host name) r = (.ok rule, t)) :
    t.instance? cls = some rule ∧ (r.instance? cls = some rule → t.instances = r.instances) := by
  obtain ⟨target, htarget, hcls⟩ := Option.map_eq_some_iff.mp hc
  obtain ⟨_, _, hn, h⟩ := outcome_bind_eq_ok.mp h
  rw [outcome_lift] at hn
  obtain rfl := congrArg Prod.snd hn
  rw [outcome_bind_of_ok (outcome_get r), htarget] at h
  obtain ⟨c, u, hresolve, hclass⟩ := outcome_bind_eq_ok.mp h
  have hfst := outcome_resolve host target r
  have hinst := instances_resolve host target r
  rw [hresolve] at hfst hinst
  rw [hcls] at hfst
  cases hfst
  refine ⟨instance?_of_classInstance host hclass, fun hi => ?_⟩
  have hu : u.instance? cls = some rule := by
    rw [instance?, hinst]
    exact hi
  rw [classInstance, outcome_bind_of_ok (outcome_get u), hu] at hclass
  cases hclass
  exact hinst

theorem classAt_eq_ok {path : String} : classAt host path = .ok cls ↔
    ImportPath.resolveText host path = .ok (.ruleClass cls) ∧ cls.isRule = true := by
  unfold classAt
  cases ImportPath.resolveText host path with
  | error e => cases e <;> simp
  | ok v =>
    cases v with
    | ruleClass c =>
      constructor
      · intro h
        cases hc : c.isRule with
        | false => simp [hc] at h
        | true =>
          obtain rfl : c = cls := by simpa [hc] using h
          exact ⟨rfl, hc⟩
      · rintro ⟨⟨⟩, hc⟩
        simp [hc]
    | _ => simp

/-- A class of a module is the same one whether its path has a colon or a point before its name. -/
theorem classAt_colon_iff_point {home member : List Char} (hh : ':' ∉ home) (hm : ':' ∉ member)
    (hp : '.' ∉ member) :
    classAt host (String.ofList (home ++ ':' :: member)) = .ok cls ↔
      classAt host (String.ofList (home ++ '.' :: member)) = .ok cls := by
  have h := ImportPath.split_colon_eq_point hh hm hp
  rw [classAt_eq_ok, classAt_eq_ok]
  exact and_congr_left fun _ =>
    ⟨ImportPath.resolveText_congr h, ImportPath.resolveText_congr h.symm⟩

/-- As long as no instance is brought along, all names for one class, by whichever registration they
came to be that, are served by the instance that is kept for it, at every point of a run; what is
kept at one point is kept, asked and given data, at every later one; and the journal has each class
that was ever made exactly once. -/
theorem one_instance_for_each {before after : List Operation}
    (hi : InstanceFree host (before ++ after) empty) :
    let r := run host before empty
    let s := run host after r
    (∀ earlier name kind data owner later cls,
      before = earlier ++ .register name kind data owner :: later →
      (outcome (register host name kind data owner) (run host earlier empty)).1 = .ok () →
      implementation? host kind data = some cls → r.classOf? host name = some (.ok cls)) ∧
    (∀ name cls, name.isKey = true → r.classOf? host name = some (.ok cls) →
      (outcome (getRule host name) r).1 = r.shared host cls ∧
      ∀ rule t, outcome (getRule host name) r = (.ok rule, t) →
        t.instance? cls = some rule ∧
        ∀ other, other.isKey = true → r.classOf? host other = some (.ok cls) →
          ∃ u, outcome (getRule host other) t = (.ok rule, u) ∧ u.instances = t.instances) ∧
    (∀ cls rule, r.instance? cls = some rule →
      ∃ later, s.instance? cls = some later ∧ rule.Becomes host later) ∧
    ∃ classes more, r.Journaled classes ∧ s.Journaled (classes ++ more) := by
  intro r s
  obtain ⟨hbefore, hafter⟩ := (instanceFree_append host).mp hi
  obtain ⟨hr, hone⟩ := works_run host hbefore keyed_empty
  obtain ⟨_, htwo⟩ := works_run host hafter hr
  refine ⟨?_, ?_, continues_works htwo, ?_⟩
  · rintro earlier name kind data owner later cls rfl haccepted hclass
    exact classOf?_of_registered host haccepted hclass
  · intro name cls hname hc
    refine ⟨getRule_of_classOf? hname hc, fun rule t ht => ?_⟩
    obtain ⟨hinst, _⟩ := instances_getRule hc ht
    refine ⟨hinst, fun other hother ho => ?_⟩
    have ha := moves_getRule (K := fun _ => True) host name r hr
    rw [ht] at ha
    have hot : t.classOf? host other = some (.ok cls) := (ha.classOf other).trans ho
    have hfst := getRule_of_classOf? hother hot
    rw [shared, hinst] at hfst
    have hu : outcome (getRule host other) t = (.ok rule, (outcome (getRule host other) t).2) :=
      Prod.ext hfst rfl
    exact ⟨_, hu, (instances_getRule hot hu).2 hinst⟩
  · obtain ⟨classes, hclasses⟩ := journaled_works hone journaled_empty
    obtain ⟨more, hmore⟩ := journaled_works htwo hclasses
    exact ⟨classes, more, hclasses, hmore⟩

/-- Three names for one class: by the class itself and by both ways of writing its path. -/
def mailNames : List Operation :=
  [.register (.text "mail") .null (.ruleClass .email) .null,
    .register (.text "post") .null (.text "formrule.rules.builtin:EmailRule") .null,
    .register (.text "letter") .null (.text "formrule.rules.builtin.EmailRule") .null,
    .get (.text "post")]

theorem one_instance_for_each_mail :
    let r := run Host.bare mailNames empty
    let s := run Host.bare [.get (.text "letter"), .get (.text "mail")] r
    InstanceFree Host.bare (mailNames ++ [.get (.text "letter"), .get (.text "mail")]) empty ∧
    r.targets.find? (.text "letter") = some (.path "formrule.rules.builtin.EmailRule") ∧
    (outcome (getRule Host.bare (.text "letter")) r).1 =
      (outcome (getRule Host.bare (.text "mail")) r).1 ∧
    (∃ later, s.instance? .email = some later ∧ Rule.email.Becomes Host.bare later) ∧
    s.notes.filter Note.isConstruction = [constructed .email] := by
  intro r s
  have hi : InstanceFree Host.bare (mailNames ++ [.get (.text "letter"), .get (.text "mail")])
      empty := by
    simp [mailNames, InstanceFree, Operation.bringsInstance]
  have hmail : r.classOf? Host.bare (.text "mail") = some (.ok .email) := rfl
  have hletter : r.classOf? Host.bare (.text "letter") = some (.ok .email) := rfl
  obtain ⟨_, hserved, hkept, _⟩ := one_instance_for_each hi
  have hsame := (hserved (.text "letter") .email rfl hletter).1.trans
    (hserved (.text "mail") .email rfl hmail).1.symm
  exact ⟨hi, rfl, hsame, hkept .email .email rfl, rfl⟩

end Registry

end FormGuard
