import FormGuard.Proofs.Form.Testless
import FormGuard.Proofs.Script.Evaluation
import FormGuard.Proofs.Script.Reader

/-! The condition of a block: how it is read, and whether the guard of the key guards all of the test. -/
namespace FormGuard.Script
variable {expects : List Char → Bool} {c e : Grouping} {code after : List Char} {text : String}

namespace Grouping

/-- No conjunct may follow what `??` makes. -/
def takesConjunct : Grouping → Bool
  | .operand _ | .link .both _ _ => true
  | .link .either _ b => b.takesConjunct
  | .link .otherwise _ _ => false
  | .choice _ _ n => n.takesConjunct
  | .assign _ _ v => v.takesConjunct
  | .sequence _ b => b.takesConjunct

theorem isSome_guarded (e : Grouping) (g : List Char) : (e.guarded g).isSome = e.takesConjunct := by
  induction e with
  | operand => rfl
  | link l a b _ ihb =>
    cases l with
    | both => rfl
    | either => rw [guarded, Option.isSome_map, ihb, takesConjunct]
    | otherwise => rfl
  | choice _ _ n _ _ ihn => rw [guarded, Option.isSome_map, ihn, takesConjunct]
  | assign _ _ v ih => rw [guarded, Option.isSome_map, ih, takesConjunct]
  | sequence _ b _ ihb => rw [guarded, Option.isSome_map, ihb, takesConjunct]

/-- What cannot come true without what stands at its end. -/
def isSteady : Grouping → Bool
  | .operand _ | .link .both _ _ => true
  | .assign none _ v | .assign (some .both) _ v => v.isSteady
  | .sequence _ b => b.isSteady
  | _ => false

end Grouping

theorem Meaning.not_early {State Place Val : Type} (M : Meaning State Place Val) (h : e.isSteady = true)
    (s : State) : ¬ M.Early e s := by
  induction e generalizing s with
  | operand => exact id
  | link l a b =>
    cases l with
    | both => exact id
    | either | otherwise => cases h
  | choice => cases h
  | assign l code v ih =>
    cases l with
    | none =>
      rintro ⟨_, t, _, hearly⟩
      exact ih h t hearly
    | some l =>
      cases l with
      | both =>
        rintro ⟨_, _, _, old, u, _, hearly⟩
        by_cases hold : M.goesOn .both old = true
        · rw [if_pos hold] at hearly
          exact ih h u hearly
        · rw [if_neg hold] at hearly
          exact hold hearly
      | either | otherwise => cases h
  | sequence a b _ ihb =>
    rintro ⟨_, t, _, hearly⟩
    exact ihb h t hearly

/-- Code behind an opening parenthesis is a condition, and this follows the closing one. -/
def IsCondition (expects : List Char → Bool) (code : List Char) (e : Grouping) (after : List Char) :
    Prop :=
  ∃ ts, Reader.start.read expects code = some (ts, after) ∧ Derives .sequence ts e

/-- A text is an expression: in parentheses it is all of what stands between them. -/
def IsExpression (expects : List Char → Bool) (text : String) (e : Grouping) : Prop :=
  IsCondition expects (text.toList ++ [' ', ')']) e []

/-- A condition is read in one way. -/
theorem IsCondition.unique {d : Grouping} {behind : List Char} (h : IsCondition expects code c after)
    (h' : IsCondition expects code d behind) : c = d ∧ after = behind := by
  obtain ⟨ts, hread, hc⟩ := h
  obtain ⟨us, hread', hd⟩ := h'
  cases hread.symm.trans hread'
  exact ⟨hc.unique hd, rfl⟩

/-- Behind an expression the guard is one conjunct more. -/
theorem isCondition_guard_iff {key : List Char} (hkey : ∀ c ∈ key, isVerbatim c = true)
    (he : IsExpression expects text e) (after : List Char) :
    IsCondition expects (text.toList ++ ' ' :: (['&', '&'] ++ (flagCode key ++ ')' :: after))) c after ↔
      e.guarded (flagCode key) = some c := by
  obtain ⟨ts, hread, hderives⟩ := he
  have hsplit : text.toList ++ [' ', ')'] = (text.toList ++ [' ']) ++ [')'] := by simp
  rw [hsplit] at hread
  obtain ⟨r, hrun, hcloses, hfinish⟩ := Reader.exists_run_of_read hread
  obtain ⟨hinside, hclosers⟩ := Reader.rested_of_run_blank hrun hcloses
  have hguard : r.read expects (['&', '&'] ++ (flagCode key ++ ')' :: after)) = _ :=
    Reader.read_guard hkey hinside hclosers hfinish after
  rw [← Reader.read_append hrun, List.append_assoc, List.singleton_append] at hguard
  rw [IsCondition, hguard, ← hderives.append_conjunct_iff]
  constructor
  · rintro ⟨us, hus, hc⟩
    cases hus
    exact hc
  · exact fun hc => ⟨_, rfl, hc⟩

theorem toList_guard (key : String) : (guard key).toList =
    ' ' :: (['&', '&'] ++ (flagCode key.toList ++ ')' ::
      (" \x7b\n    errFlag['" ++ key ++ "'] = true;\n").toList)) := by
  unfold guard
  simp [flagCode, String.toList_append]

namespace Block
variable {source : Source} {name : Value} {a : Application} {check : Check} {b : Block}

theorem condition_of_make (hb : make source name a check = .ok b) (hm : a.howmany.isNull = true) :
    b.condition = .fails (check.bind "value") ∧ b.key = (a.reportKey name).plain := by
  obtain ⟨extraction, _, hb⟩ := bind_eq_ok.mp hb
  obtain ⟨condition, hcondition, hb⟩ := bind_eq_ok.mp hb
  obtain ⟨key, hkey, hb⟩ := bind_eq_ok.mp hb
  obtain ⟨message, _, hb⟩ := bind_eq_ok.mp hb
  cases hb
  rw [conditionOf, if_pos hm] at hcondition
  exact ⟨(Except.ok.inj hcondition).symm, (Value.spelled_eq_ok.mp hkey).2.symm⟩

/-- The text of a block up to its condition, and from there on. -/
theorem toList_text_of_make (hb : make source name a check = .ok b) (hm : a.howmany.isNull = true) :
    ∃ rest, b.text.toList = (b.before ++ "  if (").toList ++ ((check.bind "value").toList ++ ' ' ::
      (['&', '&'] ++ (flagCode (a.reportKey name).plain.toList ++ ')' ::
        ((" \x7b\n    errFlag['" ++ (a.reportKey name).plain ++ "'] = true;\n").toList ++ rest)))) := by
  obtain ⟨hcondition, hkey⟩ := condition_of_make hb hm
  obtain ⟨after, htext⟩ := b.text_eq_test
  refine ⟨after.toList, ?_⟩
  rw [htext, hcondition, Condition.lead, Condition.test, Condition.trail, hkey, String.toList_append,
    String.toList_append, toList_guard, String.toList_append]
  simp only [List.append_assoc, List.cons_append]

/-- A block reports behind its condition. For a test that is an expression the condition has one reading,
if any, and it comes true when the test does and the flag is not set, exactly when a conjunct can follow
the test and a flag that is set meets no test that comes true early. -/
theorem condition_guards_iff (hb : make source name a check = .ok b) (hm : a.howmany.isNull = true)
    (hkey : ∀ ch ∈ (a.reportKey name).plain.toList, isVerbatim ch = true)
    (he : IsExpression expects (check.bind "value") e) :
    ∃ code after, b.text.toList = (b.before ++ "  if (").toList ++ code ∧
      (" \x7b\n    errFlag['" ++ (a.reportKey name).plain ++ "'] = true;\n").toList <+: after ∧
      ∀ {State Place Val : Type} (M : Meaning State Place Val) (s : State) (flagged : Bool),
        M.AsksUnset (flagCode (a.reportKey name).plain.toList) flagged →
          ((∃ c, IsCondition expects code c after ∧
              (∀ d behind, IsCondition expects code d behind → d = c ∧ behind = after) ∧
              (M.Holds c s ↔ M.Holds e s ∧ flagged = false)) ↔
            e.takesConjunct = true ∧ ¬ (flagged = true ∧ M.Early e s)) := by
  obtain ⟨rest, htext⟩ := toList_text_of_make hb hm
  refine ⟨_, _, htext, List.prefix_append _ rest, fun M s flagged hflag => ?_⟩
  rw [← Grouping.isSome_guarded e (flagCode (a.reportKey name).plain.toList), Option.isSome_iff_exists]
  constructor
  · rintro ⟨c, hc, _, hholds⟩
    have hguarded := (isCondition_guard_iff hkey he _).mp hc
    rw [Meaning.holds_guarded_iff hflag hguarded] at hholds
    refine ⟨⟨c, hguarded⟩, ?_⟩
    rintro ⟨rfl, hearly⟩
    cases (hholds.mp hearly).2
  · rintro ⟨⟨c, hguarded⟩, hlate⟩
    refine ⟨c, (isCondition_guard_iff hkey he _).mpr hguarded, fun d behind hd =>
      hd.unique ((isCondition_guard_iff hkey he _).mpr hguarded), ?_⟩
    rw [Meaning.holds_guarded_iff hflag hguarded]
    cases flagged with
    | false => simp
    | true => simpa using hlate

end Block

/-- Code that does nothing, with operands that are true or not. -/
def Meaning.given (holds : List Char → Bool) : Meaning Unit Unit Bool where
  truthy := id
  nullish _ := false
  operand code _ := some (holds code, ())
  place _ _ := some ((), ())
  load _ _ := some (false, ())
  store _ _ _ := ()

theorem Meaning.asksUnset_given {holds : List Char → Bool} {g : List Char} {flagged : Bool}
    (h : holds g = !flagged) : (Meaning.given holds).AsksUnset g flagged :=
  fun _ => ⟨holds g, rfl, h⟩

theorem Derives.of_either {ts : List Item} (h : Derives .either ts e) : Derives .sequence ts e :=
  .pass .sequence (.pass .assignment (.pass .choice (.pass .short h)))

/-- An application with nothing but a name for its rule and a message. -/
def plainApplication : Application :=
  ⟨.text "t", .text "m", .null, .null, .null, .null, .client, []⟩

/-- Without a slash there is nothing to tell about slashes. -/
abbrev noSlashes : List Char → Bool := fun _ => false

/-- A conjunction is guarded, whether the flag is set or not. -/
theorem conjunction_guarded : ∃ b code after,
    Block.make (.one (Form.textField "x")) (.text "x") plainApplication
        ⟨"", "\x7bjsVar\x7d != '' && !f(\x7bjsVar\x7d)"⟩ = .ok b ∧
      b.text.toList = (b.before ++ "  if (").toList ++ code ∧
      ∀ flagged, ∃ c, IsCondition noSlashes code c after ∧
        ((Meaning.given fun g => g != flagCode ['x'] || !flagged).Holds c () ↔ flagged = false) := by
  have he : IsExpression noSlashes "value != '' && !f(value)"
      (.link .both (.operand "value != '' ".toList) (.operand " !f(value) ".toList)) :=
    ⟨_, rfl, .of_either (.pass .either (.both (.pass .both .operand) .operand))⟩
  have hb : ∃ b, Block.make (.one (Form.textField "x")) (.text "x") plainApplication
      ⟨"", "\x7bjsVar\x7d != '' && !f(\x7bjsVar\x7d)"⟩ = .ok b := ⟨_, rfl⟩
  obtain ⟨b, hb⟩ := hb
  have hkey : ∀ ch ∈ ['x'], isVerbatim ch = true := List.all_eq_true.mp rfl
  obtain ⟨code, after, htext, _, hall⟩ := Block.condition_guards_iff hb rfl hkey he
  refine ⟨b, code, after, hb, htext, fun flagged => ?_⟩
  have hask : (Meaning.given fun g => g != flagCode ['x'] || !flagged).AsksUnset (flagCode ['x'])
      flagged := Meaning.asksUnset_given (by simp)
  obtain ⟨c, hc, _, hholds⟩ := (hall _ () flagged hask).mpr
    ⟨rfl, fun h => Meaning.not_early _ rfl () h.2⟩
  refine ⟨c, hc, hholds.trans (and_iff_right ?_)⟩
  cases flagged <;> exact ⟨true, (), rfl, rfl⟩

/-- Of a disjunction only the last part is guarded: with the flag set, the condition still comes true. -/
theorem disjunction_unguarded : ∃ b code after c,
    IsExpression noSlashes "a || b" (.link .either (.operand "a ".toList) (.operand " b ".toList)) ∧
      Block.make (.one (Form.textField "x")) (.text "x") plainApplication ⟨"", "a || b"⟩ = .ok b ∧
      b.text.toList = (b.before ++ "  if (").toList ++ code ∧
      IsCondition noSlashes code c after ∧
      (∀ d behind, IsCondition noSlashes code d behind → d = c ∧ behind = after) ∧
      (Meaning.given (· != flagCode ['x'])).AsksUnset (flagCode ['x']) true ∧
      (Meaning.given (· != flagCode ['x'])).Holds c () := by
  have he : IsExpression noSlashes "a || b"
      (.link .either (.operand "a ".toList) (.operand " b ".toList)) :=
    ⟨_, rfl, .of_either (.either (.pass .either (.pass .both .operand)) (.pass .both .operand))⟩
  have hb : ∃ b, Block.make (.one (Form.textField "x")) (.text "x") plainApplication
      ⟨"", "a || b"⟩ = .ok b := ⟨_, rfl⟩
  obtain ⟨b, hb⟩ := hb
  have hkey : ∀ ch ∈ ['x'], isVerbatim ch = true := List.all_eq_true.mp rfl
  obtain ⟨rest, htext⟩ := Block.toList_text_of_make hb rfl
  have hc := fun after => (isCondition_guard_iff hkey he after).mpr rfl
  exact ⟨b, _, _, _, he, hb, htext, hc _, fun d behind hd => hd.unique (hc _),
    Meaning.asksUnset_given (by simp), true, (), rfl, rfl⟩

end FormGuard.Script
