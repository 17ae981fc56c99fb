import FormGuard.Proofs.Form.Acceptance
import FormGuard.Proofs.Form.Blocks
import FormGuard.Proofs.Form.Stepwise
import FormGuard.Proofs.Script.Page
import Mathlib.Data.List.Pairwise

/-! Agreement with the browser: the keys and messages that validating reports are those that the
blocks of the script report. -/
namespace FormGuard.Form
variable {host : Host} {form : Form} {submitted target : Value} {a b : Application}
  {report out : Report} {r t : Registry} {page : Script.Page} {block : Script.Block}
  {holds : Script.Block → Bool}

/-- The names of the elements, each followed by those of its children. -/
def names (form : Form) : List Value :=
  form.elements.entries.flatMap fun entry => entry.1 :: entry.2.childNames

/-- A form that the browser checks as a whole: every application is for the browser as well and reads
nothing frozen, targets, groups and messages are texts, all names are different, and no rule is for
the submission as a whole. -/
structure Browsable (form : Form) : Prop where
  client : ∀ target a, (target, a) ∈ form.stored → a.isClient = true
  unfrozen : ∀ target a, (target, a) ∈ form.stored →
    ∀ d, Reads form target a d → d.isFrozen = false
  texts : ∀ target a, (target, a) ∈ form.stored → (∃ s, target = .text s) ∧
    (a.group = .null ∨ ∃ s, a.group = .text s) ∧ ∃ s, a.message = .text s
  distinct : form.names.Pairwise fun name other => name.same other = false
  whole : form.formRules = []

/-! Where applications report. -/

/-- Names that count as the same belong to one element. -/
theorem entry_eq_of_same
    (h : form.names.Pairwise fun name other => name.same other = false)
    {first second : Value × Descriptor} (hf : first ∈ form.elements.entries)
    (hs : second ∈ form.elements.entries) {name other : Value}
    (hn : name ∈ first.1 :: first.2.childNames) (ho : other ∈ second.1 :: second.2.childNames)
    (hsame : name.same other = true) : first = second := by
  by_contra hne
  have hsymm : Std.Symm fun one two : Value × Descriptor =>
      ∀ x ∈ one.1 :: one.2.childNames, ∀ y ∈ two.1 :: two.2.childNames, x.same y = false :=
    ⟨fun _ _ hxy y hy x hx => (Value.same_comm y x).trans (hxy x hx y hy)⟩
  have hapart := (List.pairwise_flatMap.mp h).2.forall hf hs hne
  rw [hapart name hn other ho] at hsame
  cases hsame

/-- A child is no element of the form itself. -/
theorem not_contains_of_child
    (h : form.names.Pairwise fun name other => name.same other = false)
    {entry : Value × Descriptor} (he : entry ∈ form.elements.entries) {name : Value}
    (hn : name ∈ entry.2.childNames) (hsame : target.same name = true) :
    form.elements.contains target = false := by
  rw [Bool.eq_false_iff]
  intro hc
  obtain ⟨top, htop, hst⟩ := Table.contains_iff.mp hc
  have hsn : top.1.same name = true := (Value.same_congr hsame top.1) ▸ hst
  obtain rfl := entry_eq_of_same h htop he List.mem_cons_self (List.mem_cons_of_mem _ hn) hsn
  have hinner := (List.pairwise_flatMap.mp h).1 top htop
  rw [List.rel_of_pairwise_cons hinner hn] at hsn
  cases hsn

/-- An application is for an element, or for a child of its group. -/
inductive Place (form : Form) (target : Value) (a : Application) : Prop where
  | element (known : form.elements.contains target = true) (group : a.group = .null)
  | child {entry : Value × Descriptor} {name : Value} (here : entry ∈ form.elements.entries)
    (group : entry.1.same a.group = true) (member : name ∈ entry.2.childNames)
    (same : target.same name = true)

theorem Declared.place (h : form.Declared) (hm : (target, a) ∈ form.stored) :
    Place form target a := by
  obtain ⟨applications, hentry, ha⟩ := mem_stored.mp hm
  obtain ⟨name, hname, hd⟩ := h _ hentry a ha
  have htop : form.elements.contains name = true → form.elements.contains target = true := by
    intro hc
    rw [Table.contains, form.elements.find?_congr hname]
    exact hc
  cases hd with
  | element known group _ => exact .element (htop (known name List.mem_cons_self).2) group
  | whole _ found _ group _ _ =>
    refine .element (htop ?_) group
    rw [Table.contains, found]
    rfl
  | child _ _ found _ member _ _ =>
    obtain ⟨entry, hfind, rfl⟩ := Option.map_eq_some_iff.mp found
    exact .child (List.mem_of_find?_eq_some hfind)
      (by simpa using List.find?_some hfind) (List.of_mem_zip member).1 hname

theorem eq_of_same_texts {v w : Value} (hv : v = .null ∨ ∃ s, v = .text s)
    (hw : w = .null ∨ ∃ s, w = .text s) (h : v.same w = true) : v = w := by
  rcases hv with rfl | ⟨s, rfl⟩ <;> rcases hw with rfl | ⟨u, rfl⟩
  · rfl
  · simp [Value.same, Value.key, BEq.beq, Value.beq] at h
  · simp [Value.same, Value.key, BEq.beq, Value.beq] at h
  · obtain rfl : s = u := by simpa [Value.same_text] using h
    rfl

/-- The applications of a target all report together. -/
theorem group_eq_of_stored (h : form.Browsable) (hd : form.Declared)
    (ha : (target, a) ∈ form.stored) (hb : (target, b) ∈ form.stored) : b.group = a.group := by
  have hag := (h.texts target a ha).2.1
  have hbg := (h.texts target b hb).2.1
  cases hd.place ha with
  | element known group =>
    cases hd.place hb with
    | element _ other => rw [group, other]
    | child here _ member same =>
      rw [not_contains_of_child h.distinct here member same] at known
      cases known
  | child here group member same =>
    cases hd.place hb with
    | element known _ =>
      rw [not_contains_of_child h.distinct here member same] at known
      cases known
    | child there other child same' =>
      -- one name is a child of one element only, so both groups are that element
      have hsame := same
      rw [Value.same_comm] at hsame
      obtain rfl := entry_eq_of_same h.distinct here there (List.mem_cons_of_mem _ member)
        (List.mem_cons_of_mem _ child) ((Value.same_congr same' _) ▸ hsame)
      rw [Value.same_comm] at other
      exact eq_of_same_texts hbg hag ((Value.same_congr group _) ▸ other)

/-- Where an application reports: under the name of an element, which for a child is that of its
group and not its own. -/
structure Reports (form : Form) (target : Value) (a : Application) : Prop where
  key : ∃ s, a.reportKey target = .text s
  element : form.elements.contains (a.reportKey target) = true
  child : a.group.truthy = true → form.elements.contains target = false

/-- What has a block reports under the name of an element. -/
theorem reports_of_shows (h : form.Browsable) (hd : form.Declared) (hm : (target, a) ∈ form.stored)
    (hb : Shows form target a block) : Reports form target a := by
  obtain ⟨⟨s, rfl⟩, hgroup, _⟩ := h.texts target a hm
  cases hd.place hm with
  | element known group =>
    have hkey : a.reportKey (.text s) = .text s := by
      rw [Application.reportKey, group]
      rfl
    exact ⟨⟨s, hkey⟩, by rw [hkey]; exact known, by simp [group, Value.truthy]⟩
  | child here group member same =>
    have hnot := not_contains_of_child h.distinct here member same
    cases ht : a.group.truthy with
    | false =>
      obtain ⟨source, hs⟩ := hb.source
      rw [contains_of_source? ht hs] at hnot
      cases hnot
    | true =>
      have hkey : a.reportKey (.text s) = a.group := by
        rw [Application.reportKey, Value.orElse, if_pos ht]
      refine ⟨?_, ?_, fun _ => hnot⟩
      · rw [hkey]
        exact hgroup.resolve_left fun hn => by simp [hn, Value.truthy] at ht
      · rw [hkey]
        exact Table.contains_iff.mpr ⟨_, here, group⟩

/-- All that is reported is reported under texts that are names of elements. -/
def Tidy (form : Form) (report : Report) : Prop :=
  ∀ entry ∈ report.entries, (∃ s, entry.1 = .text s) ∧ form.elements.contains entry.1 = true

theorem isSettled_eq (hp : Reports form target a) (ht : form.Tidy report) :
    isSettled report target a = .ok (report.contains (a.reportKey target)) := by
  unfold isSettled
  obtain ⟨s, hkey⟩ := hp.key
  cases hg : a.group.truthy with
  | false =>
    have hown : a.reportKey target = target := by
      rw [Application.reportKey, Value.orElse, if_neg (by simp [hg])]
    rw [hown]
    cases report.contains target <;> rfl
  | true =>
    have hgroup : a.reportKey target = a.group := by
      rw [Application.reportKey, Value.orElse, if_pos hg]
    have hno : report.contains target = false := by
      rw [Bool.eq_false_iff]
      intro hc
      obtain ⟨entry, he, hs⟩ := Table.contains_iff.mp hc
      have hname := (ht entry he).2
      rw [Table.contains, form.elements.find?_congr hs, ← Table.contains, hp.child hg] at hname
      cases hname
    rw [hgroup] at hkey ⊢
    rw [hno, hkey, Value.needKey_eq_ok (u := ()).mpr (Value.isKey_text s)]
    rfl

/-- A step of the pass reports under names of elements. -/
theorem Tidy.checkOne (ht : form.Tidy report) (hp : Reports form target a)
    (h : outcome (checkOne host form submitted target a report) r = (.ok out, t)) :
    form.Tidy out := by
  rcases checkOne_cases (isSettled_eq hp ht) h with ⟨_, rfl⟩ | ⟨hc, ⟨_, rfl⟩ | ⟨_, rfl⟩⟩
  · exact ht
  · exact ht
  · intro entry he
    rw [Table.entries_insert_of_not_contains hc, List.mem_append, List.mem_singleton] at he
    rcases he with he | rfl
    · exact ht entry he
    · exact ⟨hp.key, hp.element⟩

/-! What the page shows. -/

/-- What a page has flagged, as a report. -/
def ofPage (page : Script.Page) : Report :=
  ⟨page.map fun (key, message) => (.text key, .text message)⟩

theorem contains_ofPage (page : Script.Page) (key : String) :
    (ofPage page).contains (.text key) = page.isFlagged key := by
  rw [Bool.eq_iff_iff, Table.contains_iff]
  simp [ofPage, Script.Page.isFlagged, Value.same_text]

/-- A page that shows what is reported goes on to do so: the block of an application does what the
pass does with it. -/
theorem fire_step (ht : form.Tidy (ofPage page)) (hp : Reports form target a)
    (hb : Shows form target a block) (hm : ∃ s, a.message = .text s)
    (h : outcome (checkOne host form submitted target a (ofPage page)) r = (.ok out, t))
    (hholds : holds block = true ↔ Fails host form submitted target a r) :
    ∃ next, block.fire holds page = some next ∧ ofPage next = out := by
  obtain ⟨key, hkey⟩ := hp.key
  obtain ⟨message, hmessage⟩ := hm
  have hshown : block.message = Script.escape message := by
    have hworded := hb.message
    rw [hmessage] at hworded
    exact (Except.ok.inj hworded).symm
  obtain rfl : key = block.key := by
    have hkeyed := hb.key
    rw [hkey, Value.spelled_text] at hkeyed
    exact Except.ok.inj hkeyed
  rw [Script.Block.fire_of_escaped hshown]
  rcases checkOne_cases (isSettled_eq hp ht) h with ⟨hc, rfl⟩ | ⟨hc, hcases⟩
  all_goals rw [hkey, contains_ofPage] at hc
  · exact ⟨page, by simp [hc], rfl⟩
  rcases hcases with ⟨hf, rfl⟩ | ⟨hf, rfl⟩
  · have hno : holds block = false := by
      rw [Bool.eq_false_iff]
      exact fun hh => hf (hholds.mp hh)
    exact ⟨page, by simp [hno], rfl⟩
  · refine ⟨page ++ [(block.key, message)], by simp [hholds.mpr hf, hc], ?_⟩
    have hentries : ((ofPage page).insert (.text block.key) (.text message)).entries =
        (ofPage page).entries ++ [(.text block.key, .text message)] :=
      Table.entries_insert_of_not_contains (by rw [contains_ofPage, hc]) _
    rw [hkey, hmessage]
    cases hi : (ofPage page).insert (.text block.key) (.text message)
    rw [hi] at hentries
    subst hentries
    simp [ofPage]

/-- The tests of the blocks hold where their applications fail, each on the registry given for what
comes before it. -/
def TestsFail (host : Host) (form : Form) (submitted : Value) (blocks : List Script.Block)
    (holds : Script.Block → Bool) (applications : List (Value × Application))
    (registry : List (Value × Application) → Registry) : Prop :=
  ∀ before target a rest block, applications = before ++ (target, a) :: rest →
    blocks[before.length]? = some block →
    (holds block = true ↔ Fails host form submitted target a (registry before))

/-- On one registry the tests are compared application by application. -/
theorem testsFail_of_zip {applications : List (Value × Application)} {blocks : List Script.Block}
    (h : ∀ pair ∈ applications.zip blocks, (holds pair.2 = true ↔
      Fails host form submitted pair.1.1 pair.1.2 r)) :
    TestsFail host form submitted blocks holds applications fun _ => r := by
  rintro before target a rest block rfl hblock
  refine h ((target, a), block) (List.mem_of_getElem? (List.getElem?_zip_eq_some.mpr ⟨?_, hblock⟩))
  simp

theorem fire_run {applications : List (Value × Application)} {blocks : List Script.Block}
    (hall : List.Forall₂ (fun entry b => Shows form entry.1 entry.2 b) applications blocks)
    (hp : ∀ entry ∈ applications, Reports form entry.1 entry.2 ∧ ∃ s, entry.2.message = .text s)
    (ht : form.Tidy (ofPage page))
    (h : outcome (checkEach host form submitted applications (ofPage page)) r = (.ok out, t))
    (hholds : TestsFail host form submitted blocks holds applications fun before =>
      (outcome (checkEach host form submitted before (ofPage page)) r).2) :
    ∃ next, blocks.foldlM (Script.Block.fire holds) page = some next ∧ ofPage next = out := by
  -- on the blocks along with their applications: after each of them the page shows the report
  induction hall generalizing page r with
  | nil =>
    cases h
    exact ⟨page, rfl, rfl⟩
  | @cons entry block rest blocks hb _ ih =>
    obtain ⟨target, a⟩ := entry
    obtain ⟨hreports, hmessage⟩ := hp _ List.mem_cons_self
    obtain ⟨found, s, hone, h⟩ := outcome_bind_eq_ok.mp h
    obtain ⟨next, hfire, rfl⟩ := fire_step ht hreports hb hmessage hone
      (hholds [] target a rest block rfl rfl)
    obtain ⟨last, hrun, hlast⟩ := ih (fun e he => hp e (List.mem_cons_of_mem _ he))
      (ht.checkOne hreports hone) h fun before other b more c heq hc => by
        have hlater := hholds ((target, a) :: before) other b more c (by rw [heq]; rfl) hc
        dsimp only at hlater
        rwa [outcome_checkEach_cons hone] at hlater
    exact ⟨last, by rw [List.foldlM_cons, hfire]; exact hrun, hlast⟩

/-- Applications that all fail or are satisfied are got through. -/
theorem exists_checkEach {applications : List (Value × Application)}
    (hp : ∀ entry ∈ applications, Reports form entry.1 entry.2) (ht : form.Tidy report)
    (hd : ∀ before target a rest, applications = before ++ (target, a) :: rest →
      let s := (outcome (checkEach host form submitted before report) r).2
      Fails host form submitted target a s ∨ Satisfied host form submitted target a s) :
    ∃ out t, outcome (checkEach host form submitted applications report) r = (.ok out, t) ∧
      form.Tidy out := by
  induction applications generalizing report r with
  | nil => exact ⟨report, r, rfl, ht⟩
  | cons entry rest ih =>
    obtain ⟨target, a⟩ := entry
    have hreports : Reports form target a := hp _ List.mem_cons_self
    obtain ⟨s, hkey⟩ := hreports.key
    obtain ⟨found, u, hone⟩ := exists_checkOne (isSettled_eq hreports ht)
      (by rw [hkey]; exact Value.isKey_text s) (hd [] target a rest rfl)
    change outcome (checkOne host form submitted target a report) r = _ at hone
    rw [outcome_checkEach_cons hone]
    refine ih (fun e he => hp e (List.mem_cons_of_mem _ he)) (ht.checkOne hreports hone) ?_
    intro before other b more heq
    have hlater := hd ((target, a) :: before) other b more (by rw [heq]; rfl)
    rwa [outcome_checkEach_cons hone] at hlater

/-! The whole form. -/

/-- Without form rules, validating reports what the pass over the targets finds. -/
theorem checkTargets_of_validate (hw : form.formRules = [])
    (h : (outcome (validate host submitted) form).1 = .ok report) :
    ∃ t, outcome (checkTargets host form submitted form.rules.entries Table.empty) form.registry =
      (.ok report, t) := by
  unfold validate at h
  rw [outcome_bind_of_ok (outcome_get form), outcome_onRegistry] at h
  obtain ⟨found, t, hf, h⟩ := outcome_bind_eq_ok.mp (Prod.ext h rfl)
  obtain ⟨whole, u, hr, h⟩ := outcome_bind_eq_ok.mp h
  obtain ⟨_, _, _, h⟩ := outcome_bind_eq_ok.mp h
  obtain rfl : whole = report := by
    cases h
    rfl
  rw [Registry.outcome_lift, hw, Prod.mk.injEq] at hr
  obtain rfl : found = whole := by
    obtain ⟨hr, _⟩ := hr
    cases hr
    rfl
  exact ⟨t, hf⟩

theorem validate_of_checkTargets (hw : form.formRules = []) (ht : form.Tidy report)
    (h : outcome (checkTargets host form submitted form.rules.entries Table.empty) form.registry =
      (.ok report, t)) : (outcome (validate host submitted) form).1 = .ok report := by
  have hkeys : ∀ key ∈ Table.keys report, ∃ s, key = .text s := by
    intro key hk
    obtain ⟨entry, he, rfl⟩ := List.mem_map.mp hk
    exact (ht entry he).1
  obtain ⟨names, hnames⟩ := Value.exists_sorted hkeys
  unfold validate
  rw [outcome_bind_of_ok (outcome_get form), outcome_onRegistry, outcome_bind_of_ok h,
    outcome_bind_of_ok (by rw [Registry.outcome_lift, hw]; rfl)]
  unfold noteFailure
  cases report.entries.isEmpty with
  | true => rfl
  | false =>
    simp only [Bool.not_false, if_true]
    rw [FormGuard.outcome_bind, FormGuard.outcome_bind, Registry.outcome_lift, hnames]
    rfl

theorem outcome_script {blocks : List Script.Block}
    (h : (outcome (Form.blocks host form form.rules.entries) form.registry).1 = .ok blocks)
    (formId heading closing : String) :
    (outcome (script host formId heading closing) form).1 =
      .ok (Script.function formId (blocks.map (·.text)) heading closing) := by
  rw [fst_outcome_script, h]
  rfl

/-- The function around some blocks holds their texts in order; around none there is no function. -/
theorem function_holds (blocks : List Script.Block) (formId heading closing : String) :
    ∃ front back, Script.function formId (blocks.map (·.text)) heading closing =
      if blocks = [] then "" else front ++ String.intercalate "\n" (blocks.map (·.text)) ++ back := by
  refine ⟨Script.Piece.join (Script.opening formId), Script.Piece.join (Script.ending heading closing),
    ?_⟩
  cases blocks with
  | nil => rfl
  | cons b rest => rfl

theorem looks_reached (h : form.Sound) (host : Host) (submitted : Value)
    (before : List (Value × Application)) :
    Registry.Agree host (Rule.KeepsState host) form.registry (reached host form submitted before) :=
  moves_checkEach host form submitted before Table.empty form.registry h.keyed

/-- The browser agrees with the server on a form that it checks as a whole. The script is the function
that holds the texts of the blocks, one behind the other, and there is one block for each application.
Where the test of each block holds exactly if its application fails when the pass
comes to it, the blocks report the keys and messages that validating reports, in the same order; and
where classes of the using program keep nothing between two questions, it does not matter when the
application is looked at. Validating does report where no application is in the way. -/
theorem browser_reports_same (h : form.Reachable host) (hb : form.Browsable) (submitted : Value)
    {blocks : List Script.Block} (holds : Script.Block → Bool)
    (hs : (outcome (Form.blocks host form form.rules.entries) form.registry).1 = .ok blocks) :
    (∀ formId heading closing, (outcome (script host formId heading closing) form).1 =
      .ok (Script.function formId (blocks.map (·.text)) heading closing)) ∧
    (∀ formId heading closing, ∃ front back,
      Script.function formId (blocks.map (·.text)) heading closing =
        if blocks = [] then ""
        else front ++ String.intercalate "\n" (blocks.map (·.text)) ++ back) ∧
    blocks.length = form.stored.length ∧
    (∀ report, (outcome (validate host submitted) form).1 = .ok report →
      (TestsFail host form submitted blocks holds form.stored (reached host form submitted) ∨
        host.Stateless ∧
          TestsFail host form submitted blocks holds form.stored fun _ => form.registry) →
      (Script.run holds blocks).map ofPage = some report) ∧
    ((∀ before target a rest, form.stored = before ++ (target, a) :: rest →
        Fails host form submitted target a (reached host form submitted before) ∨
          Satisfied host form submitted target a (reached host form submitted before)) →
      ∃ report, (outcome (validate host submitted) form).1 = .ok report) := by
  have hsound := h.sound
  have hmem : ∀ entry ∈ form.rules.entries, ∀ a ∈ entry.2, (entry.1, a) ∈ form.stored :=
    fun entry he a ha => mem_stored.mpr ⟨entry.2, he, ha⟩
  have hall : List.Forall₂ (fun entry b => Shows form entry.1 entry.2 b) form.stored blocks :=
    shows_of_blocks (fun entry he a ha => hb.client _ _ (hmem entry he a ha))
      (fun entry he a ha => hb.unfrozen _ _ (hmem entry he a ha)) (Prod.ext hs rfl)
  have hreports : ∀ entry ∈ form.stored, Reports form entry.1 entry.2 := by
    intro entry he
    obtain ⟨b, hshows⟩ := exists_shows hall he
    exact reports_of_shows hb h.declared he hshows
  have heach := fun report r => @checkTargets_eq_checkEach host form submitted form.rules.entries
    (fun entry he => (hsound.applied entry he).1)
    (fun entry he a ha b hb' =>
      group_eq_of_stored hb h.declared (hmem entry he a ha) (hmem entry he b hb')) report r
  have hempty : form.Tidy (ofPage []) := fun _ he => by cases he
  refine ⟨outcome_script hs, function_holds blocks, hall.length_eq.symm, fun report hv htests => ?_, fun hd => ?_⟩
  · obtain ⟨t, hfound⟩ := checkTargets_of_validate hb.whole hv
    rw [heach] at hfound
    have hfails : TestsFail host form submitted blocks holds form.stored
        (reached host form submitted) := by
      rcases htests with htests | ⟨hstate, htests⟩
      · exact htests
      · intro before target a rest block heq hblock
        rw [htests before target a rest block heq hblock]
        exact (fails_congr hstate hsound.keyed (looks_reached hsound host submitted before)).symm
    obtain ⟨page, hrun, rfl⟩ := fire_run hall
      (fun entry he => ⟨hreports entry he, (hb.texts _ _ he).2.2⟩) hempty hfound hfails
    rw [Script.run, hrun]
    rfl
  · obtain ⟨report, t, hfound, htidy⟩ := exists_checkEach hreports hempty hd
    exact ⟨report, validate_of_checkTargets hb.whole htidy ((heach _ _).trans hfound)⟩

/-- A form with a mandatory element, two that have to agree, and a group with a rule of its own and
one for a child. -/
def signupForm : Form :=
  run Host.bare
    [.elementRule (.text "name") (.text "Needed") (.text "required") .null (.mode .client) .null,
      .elementRule (.list [.text "name", .text "again"]) (.text "Differ") (.text "compare") .null
        (.mode .client) .null,
      .groupRule (.text "phone") (.text "Long") (.text "maxlength") (.int 3) (.int 1)
        (.mode .client) .null,
      .groupRule (.text "phone")
        (.map [(.text "area", .list [.list [.text "No area", .text "required", .null,
          .mode .client]])]) .null .null .null .null .null]
    ⟨plainRegistry, Table.ofList ([textField "name", textField "again", phoneGroup].map fun d =>
      (d.name, d)), Table.empty, [], []⟩

theorem stored_signupForm : signupForm.stored =
    [(.text "name", ⟨.text "required", .text "Needed", .null, .null, .null, .null, .client, []⟩),
      (.text "name", ⟨.text "compare", .text "Differ", .null, .null, .null, .null, .client,
        [.text "again"]⟩),
      (.text "phone", ⟨.text "maxlength", .text "Long", .int 3, .null, .null, .int 1, .client, []⟩),
      (.text "phone[area]", ⟨.text "required", .text "No area", .null, .text "phone", .bool false,
        .null, .client, []⟩)] := by
  decide +kernel

theorem browsable_signupForm : signupForm.Browsable := by
  refine ⟨fun target a hm => ?_, fun target a _ d => unfrozen_of_elements (by decide +kernel),
    fun target a hm => ?_, by decide +kernel, rfl⟩
  all_goals
    rw [stored_signupForm] at hm
    simp only [List.mem_cons, Prod.mk.injEq, List.not_mem_nil, or_false] at hm
  · rcases hm with ⟨_, rfl⟩ | ⟨_, rfl⟩ | ⟨_, rfl⟩ | ⟨_, rfl⟩ <;> rfl
  · rcases hm with ⟨rfl, rfl⟩ | ⟨rfl, rfl⟩ | ⟨rfl, rfl⟩ | ⟨rfl, rfl⟩ <;> simp

/-- Nothing under the name, and no area of the phone number. -/
def signup : Value :=
  .map [(.text "name", .text ""), (.text "again", .text "Ann"),
    (.text "phone", .map [(.text "area", .text ""), (.text "number", .text "5550")])]

def signupBlocks : List Script.Block :=
  match (outcome (blocks Host.bare signupForm signupForm.rules.entries) signupForm.registry).1 with
  | .ok blocks => blocks
  | .error _ => []

/-- A page on which every test holds but that of the length. -/
def signupPage (block : Script.Block) : Bool := block.message != "Long"

theorem browser_reports_same_signup :
    signupForm.Reachable Host.bare ∧ signupForm.Browsable ∧
    (outcome (blocks Host.bare signupForm signupForm.rules.entries) signupForm.registry).1 =
      .ok signupBlocks ∧
    TestsFail Host.bare signupForm signup signupBlocks signupPage signupForm.stored
      (fun _ => signupForm.registry) ∧
    (Script.run signupPage signupBlocks).map ofPage =
      some ⟨[(.text "name", .text "Needed"), (.text "phone", .text "No area")]⟩ := by
  have hr : signupForm.Reachable Host.bare :=
    ⟨plainRegistry, [textField "name", textField "again", phoneGroup], _, _, ⟨_, rfl⟩, rfl, rfl⟩
  have hblocks : (outcome (blocks Host.bare signupForm signupForm.rules.entries)
      signupForm.registry).1 = .ok signupBlocks := by
    have hok : (outcome (blocks Host.bare signupForm signupForm.rules.entries)
        signupForm.registry).1.isOk = true := by decide +kernel
    unfold signupBlocks
    cases h : (outcome (blocks Host.bare signupForm signupForm.rules.entries)
        signupForm.registry).1 with
    | error e =>
      rw [h] at hok
      cases hok
    | ok found => rfl
  have htests : TestsFail Host.bare signupForm signup signupBlocks signupPage signupForm.stored
      (fun _ => signupForm.registry) := testsFail_of_zip (by decide +kernel)
  have hreport : (outcome (validate Host.bare signup) signupForm).1 =
      .ok ⟨[(.text "name", .text "Needed"), (.text "phone", .text "No area")]⟩ := by
    decide +kernel
  obtain ⟨_, _, _, hsame, _⟩ := browser_reports_same hr browsable_signupForm signup signupPage hblocks
  exact ⟨hr, browsable_signupForm, hblocks, htests,
    hsame _ hreport (Or.inr ⟨bare_stateless, htests⟩)⟩

end FormGuard.Form
