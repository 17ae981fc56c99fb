import FormGuard.Proofs.Action
import FormGuard.Proofs.Script.Closing
import FormGuard.Script.Block

/-! The code for an element: it is made of quiet code of the library's own, and it names exactly the
element's controls. -/
namespace FormGuard
open Script

/-- The names under which the browser finds the controls of an element: its own one, and in a group
those of the members. -/
inductive Descriptor.Controls (d : Descriptor) (name : Value) : String → Prop where
  | own {s : String} (named : Extraction.memberName (name, d) = .ok s) : Controls d name s
  | member {m : Value × Descriptor} {s : String} (isGroup : d.kind = .group) (here : m ∈ d.members)
    (named : Extraction.memberName m = .ok s) : Controls d name s

namespace Script
variable {d : Descriptor} {ds : List Descriptor} {name index : Value} {place s : String}
  {reset : Bool} {e : Extraction} {Named : String → Prop} {p : Piece}

/-- The names of the controls that a source reads; several elements are read by their own names. -/
inductive Source.Controls (name : Value) : Source → String → Prop where
  | one {d : Descriptor} {s : String} (control : d.Controls name s) : Controls name (.one d) s
  | several {ds : List Descriptor} {d : Descriptor} {s : String} (here : d ∈ ds)
    (control : d.Controls d.name s) : Controls name (.several ds) s

/-- Where values go: to no place of their own, or to a position of an array. -/
def IsPlace (place : String) : Prop := place = "" ∨ ∃ i : Int, place = "[" ++ toString i ++ "]"

/-- What the code for an element is made of: quiet code of the library's own, positions, and names. -/
inductive Own (Named : String → Prop) : Piece → Prop where
  | code {text : List Char} (quiet : isQuiet text = true) : Own Named (.code (String.ofList text))
  | place {place : String} (position : IsPlace place) : Own Named (.place place)
  | name {s : String} (named : Named s) : Own Named (.name s)

theorem Own.imp {Other : String → Prop} (h : Own Named p) (hi : ∀ s, Named s → Other s) :
    Own Other p := by
  cases h with
  | code quiet => exact .code quiet
  | place position => exact .place position
  | name named => exact .name (hi _ named)

/-- The code for each shape of one control: how it is read, and how its default is restored. -/
inductive ControlCode (place name : String) : List Piece → List Piece → Prop where
  | field : ControlCode place name (readField place name) restoreField
  | checkbox : ControlCode place name (readCheckbox place name) restoreCheckbox
  | advcheckbox : ControlCode place name (readAdvcheckbox place name) restoreAdvcheckbox
  | radio : ControlCode place name (readRadio place name) restoreRadio
  | select : ControlCode place name (readSelect place name) restoreSelect
  | multiple : ControlCode place name (readMultiple place name) restoreSelect

/-- An element is read as one control under its name, or as a group with its members. -/
inductive ElementCode (d : Descriptor) (name : Value) (reset : Bool) (place : String) :
    Extraction → Prop where
  | control {s : String} {reading restoring : List Piece} (single : d.kind ≠ .group)
    (named : Extraction.memberName (name, d) = .ok s)
    (code : ControlCode place s reading restoring) :
    ElementCode d name reset place ⟨reading, if reset then fieldOf s ++ restoring else []⟩
  | group {s : String} {members : List String} (several : d.kind = .group)
    (own : Extraction.memberName (name, d) = .ok s)
    (named : d.members.mapM Extraction.memberName = .ok members) :
    ElementCode d name reset place ⟨declareGroup s members ++ readGroup place s,
      if reset then restoreGroup s else []⟩

/-- A control that holds one value goes by the name of its element. -/
theorem memberName_of_single (h : (d.kind.isSelect && d.isMultiple) = false) :
    Extraction.memberName (name, d) = name.spelled := by
  simp only [Extraction.memberName, h]
  rfl

theorem code_of_placed (h : Extraction.placed d name reset place = .ok e) :
    ElementCode d name reset place e := by
  unfold Extraction.placed at h
  have hcode {v : Value} {reading : String → List Piece} {restoring : List Piece}
      (hk : d.kind ≠ .group) (hv : Extraction.memberName (name, d) = v.spelled)
      (code : ∀ s, ControlCode place s (reading s) restoring)
      (h : Extraction.single v reset reading restoring = .ok e) :
      ElementCode d name reset place e := by
    obtain ⟨s, hs, h⟩ := bind_eq_ok.mp h
    cases h
    exact .control hk (hv.trans hs) (code s)
  have hplain (hs : d.kind.isSelect = false) : Extraction.memberName (name, d) = name.spelled :=
    memberName_of_single (by simp [hs])
  have hselect (hs : d.kind.isSelect = true) (hg : d.kind ≠ .group)
      (h : (if d.isMultiple then do
          Extraction.single (← multipleName name) reset (readMultiple place) restoreSelect
        else Extraction.single name reset (readSelect place) restoreSelect) = .ok e) :
      ElementCode d name reset place e := by
    cases hm : d.isMultiple with
    | true =>
      rw [hm] at h
      obtain ⟨v, hv, h⟩ := bind_eq_ok.mp h
      refine hcode hg ?_ (fun _ => .multiple) h
      simp only [Extraction.memberName, hs, hm, hv]
      rfl
    | false =>
      rw [hm] at h
      exact hcode hg (memberName_of_single (by simp [hm])) (fun _ => .select) h
  cases hk : d.kind with
  | field =>
    rw [hk] at h
    exact hcode (by simp [hk]) (hplain (by rw [hk]; rfl)) (fun _ => .field) h
  | checkbox =>
    rw [hk] at h
    exact hcode (by simp [hk]) (hplain (by rw [hk]; rfl)) (fun _ => .checkbox) h
  | advcheckbox =>
    rw [hk] at h
    exact hcode (by simp [hk]) (hplain (by rw [hk]; rfl)) (fun _ => .advcheckbox) h
  | radio =>
    rw [hk] at h
    exact hcode (by simp [hk]) (hplain (by rw [hk]; rfl)) (fun _ => .radio) h
  | select =>
    rw [hk] at h
    exact hselect (by rw [hk]; rfl) (by simp [hk]) h
  | autocomplete =>
    rw [hk] at h
    exact hselect (by rw [hk]; rfl) (by simp [hk]) h
  | group =>
    rw [hk] at h
    obtain ⟨members, hm, h⟩ := bind_eq_ok.mp h
    obtain ⟨s, hs, h⟩ := bind_eq_ok.mp h
    cases h
    exact .group hk ((hplain (by rw [hk]; rfl)).trans hs) hm

/-! The library's own code in them, and the names. -/

/-- A list of pieces that is all there: the gaps are names and positions. -/
theorem own_controlCode {reading restoring : List Piece} (h : ControlCode place s reading restoring)
    (hn : Named s) (hp : IsPlace place) :
    ∀ p ∈ reading ++ (fieldOf s ++ restoring), Own Named p := by
  cases h
  all_goals
    simp only [readField, readCheckbox, readAdvcheckbox, readRadio, readSelect, readMultiple, fieldOf,
      restoreField, restoreCheckbox, restoreAdvcheckbox, restoreRadio, restoreSelect, lines,
      List.flatMap_cons, List.flatMap_nil, List.cons_append, List.nil_append, List.append_nil,
      List.forall_mem_cons]
    and_intros
  all_goals first
    | exact .code rfl
    | exact .name hn
    | exact .place hp
    | exact fun _ h => absurd h List.not_mem_nil

theorem own_groupCode (hn : Named s) (hp : IsPlace place) :
    ∀ p ∈ readGroup place s ++ restoreGroup s, Own Named p := by
  simp only [readGroup, readMember, restoreGroup, lines, List.flatMap_cons, List.flatMap_nil,
    List.cons_append, List.nil_append, List.append_nil, List.forall_mem_cons]
  and_intros
  all_goals first
    | exact .code rfl
    | exact .name hn
    | exact .place hp
    | exact fun _ h => absurd h List.not_mem_nil

theorem own_memberList {members : List String} (h : ∀ m ∈ members, Named m) :
    ∀ p ∈ memberList members, Own Named p := by
  fun_induction memberList members with
  | case1 => simp
  | case2 member =>
    rw [List.forall_mem_singleton] at h
    rw [List.forall_mem_cons, List.forall_mem_singleton]
    exact ⟨.name h, .code rfl⟩
  | case3 member rest _ ih =>
    obtain ⟨hm, hrest⟩ := List.forall_mem_cons.mp h
    rw [List.forall_mem_cons, List.forall_mem_cons, List.forall_mem_cons]
    exact ⟨.name hm, .code rfl, .code rfl, ih hrest⟩

theorem own_declareGroup {members : List String} (hn : Named s) (h : ∀ m ∈ members, Named m) :
    ∀ p ∈ declareGroup s members, Own Named p := by
  simp only [declareGroup, lines, List.flatMap_cons, List.flatMap_nil, List.cons_append,
    List.append_nil, List.forall_mem_cons, List.forall_mem_append]
  exact ⟨.code rfl, .name hn, .code rfl,
    ⟨own_memberList h, .code rfl, by simp⟩, .code rfl, by simp⟩

theorem mem_memberList {members : List String} (h : s ∈ members) : .name s ∈ memberList members := by
  fun_induction memberList members with
  | case1 => cases h
  | case2 member => simpa using h
  | case3 member rest _ ih =>
    rcases List.mem_cons.mp h with rfl | h
    · exact List.mem_cons_self
    · exact List.mem_cons_of_mem _ (List.mem_cons_of_mem _ (List.mem_cons_of_mem _ (ih h)))

theorem mem_declareGroup {own : String} {members : List String} (h : s = own ∨ s ∈ members) :
    .name s ∈ declareGroup own members := by
  simp only [declareGroup, lines, List.flatMap_cons, List.cons_append, List.mem_cons,
    List.mem_append]
  rcases h with rfl | h
  · exact Or.inr (Or.inl rfl)
  · exact Or.inr (Or.inr (Or.inr (Or.inl (Or.inl (Or.inl (mem_memberList h))))))

/-- What the code for an element reads and restores goes by the names of its controls. -/
theorem own_placed (h : Extraction.placed d name reset place = .ok e) (hp : IsPlace place) :
    ∀ p ∈ e.reading ++ e.restoring, Own (d.Controls name) p := by
  cases code_of_placed h with
  | control single named code =>
    have hall := own_controlCode code (.own named : d.Controls name _) hp
    cases reset with
    | false => simpa using (List.forall_mem_append.mp hall).1
    | true => exact hall
  | @group own members several hown named =>
    have hc : d.Controls name own := .own hown
    have hmembers : ∀ s ∈ members, d.Controls name s := fun s hs => by
      obtain ⟨m, here, hm⟩ := (mem_mapM named).mp hs
      exact .member several here hm
    obtain ⟨hreading, hrestoring⟩ := List.forall_mem_append.mp (own_groupCode hc hp)
    rw [List.forall_mem_append, List.forall_mem_append]
    refine ⟨⟨own_declareGroup hc hmembers, hreading⟩, ?_⟩
    cases reset with
    | false => simp
    | true => exact hrestoring

theorem mem_controlCode {reading restoring : List Piece}
    (h : ControlCode place s reading restoring) : .name s ∈ reading := by
  cases h
  all_goals
    simp only [readField, readCheckbox, readAdvcheckbox, readRadio, readSelect, readMultiple, lines,
      List.flatMap_cons, List.flatMap_nil, List.cons_append, List.nil_append, List.mem_cons, true_or,
      or_true]

/-- Every control of an element is read by its name. -/
theorem mem_reading_of_controls (h : Extraction.placed d name reset place = .ok e)
    (hs : d.Controls name s) : .name s ∈ e.reading := by
  cases code_of_placed h with
  | control single named code =>
    cases hs with
    | own other =>
      cases named.symm.trans other
      exact mem_controlCode code
    | member isGroup _ _ => exact absurd isGroup single
  | @group own members several hown named =>
    cases hs with
    | own other =>
      cases hown.symm.trans other
      exact List.mem_append_left _ (mem_declareGroup (Or.inl rfl))
    | member _ here other =>
      have hm : s ∈ members := (mem_mapM named).mpr ⟨_, here, other⟩
      exact List.mem_append_left _ (mem_declareGroup (Or.inr hm))

theorem isPlace_of_placeOf (h : Extraction.placeOf index = .ok place)
    (hi : index = .null ∨ ∃ i, index = .int i) : IsPlace place := by
  rcases hi with rfl | ⟨i, rfl⟩
  · cases h
    exact Or.inl rfl
  · obtain ⟨text, ht, h⟩ := bind_eq_ok.mp h
    obtain ⟨_, rfl⟩ := Value.spelled_eq_ok.mp ht
    cases h
    exact Or.inr ⟨i, rfl⟩

/-! Several elements together. -/

theorem own_ofElementsFrom {position : Nat}
    (h : Extraction.ofElementsFrom position reset ds = .ok e) :
    (∀ p ∈ e.reading ++ e.restoring, Own (fun s => ∃ d ∈ ds, d.Controls d.name s) p) ∧
      ∀ d ∈ ds, ∀ s, d.Controls d.name s → .name s ∈ e.reading := by
  induction ds generalizing position e with
  | nil =>
    cases h
    simp
  | cons d rest ih =>
    obtain ⟨first, hf, h⟩ := bind_eq_ok.mp h
    obtain ⟨others, ho, h⟩ := bind_eq_ok.mp h
    cases h
    obtain ⟨hown, hnames⟩ := ih ho
    obtain ⟨place, hplace, hf⟩ := bind_eq_ok.mp hf
    have hfirst := own_placed hf (isPlace_of_placeOf hplace (Or.inr ⟨position, rfl⟩))
    simp only [List.forall_mem_append, List.forall_mem_cons, List.cons_append] at hown hfirst ⊢
    have hhere {p : Piece} (hp : Own (d.Controls d.name) p) :
        Own (fun s => ∃ x ∈ d :: rest, x.Controls x.name s) p :=
      hp.imp fun s hs => ⟨d, List.mem_cons_self, hs⟩
    have hlater {p : Piece} (hp : Own (fun s => ∃ x ∈ rest, x.Controls x.name s) p) :
        Own (fun s => ∃ x ∈ d :: rest, x.Controls x.name s) p :=
      hp.imp fun s ⟨x, hx, hs⟩ => ⟨x, List.mem_cons_of_mem _ hx, hs⟩
    refine ⟨⟨.code rfl, ⟨fun p hp => hhere (hfirst.1 p hp),
      fun p hp => hlater (hown.1 p hp)⟩, fun p hp => hhere (hfirst.2 p hp),
      fun p hp => hlater (hown.2 p hp)⟩, fun s hs => ?_, fun x hx s hs => ?_⟩
    · have hmem := mem_reading_of_controls hf hs
      simp [hmem]
    · have hmem := hnames x hx s hs
      simp [hmem]

theorem own_extraction {source : Source} (h : source.extraction name reset = .ok e) :
    (∀ p ∈ e.reading ++ e.restoring, Own (source.Controls name) p) ∧
      ∀ s, source.Controls name s → .name s ∈ e.reading := by
  cases source with
  | one d =>
    obtain ⟨place, hplace, h⟩ := bind_eq_ok.mp h
    have hp := isPlace_of_placeOf hplace (Or.inl rfl)
    refine ⟨fun p hm => (own_placed h hp p hm).imp fun s hs => .one hs, ?_⟩
    rintro s ⟨hs⟩
    exact mem_reading_of_controls h hs
  | several ds =>
    obtain ⟨each, he, h⟩ := bind_eq_ok.mp h
    cases h
    obtain ⟨hown, hnames⟩ := own_ofElementsFrom he
    rw [List.append_assoc, List.forall_mem_append]
    refine ⟨⟨?_, fun p hp => (hown p hp).imp fun s ⟨d, hd, hs⟩ => .several hd hs⟩, ?_⟩
    · simp only [lines, List.flatMap_cons, List.flatMap_nil, List.cons_append, List.nil_append,
        List.append_nil, List.forall_mem_cons]
      exact ⟨.code rfl, .code rfl, by simp⟩
    · rintro s (_ | ⟨hd, hs⟩)
      exact List.mem_append_right _ (hnames _ hd s hs)

end Script

end FormGuard
