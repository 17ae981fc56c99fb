import FormGuard.Form.Submission
import FormGuard.Proofs.Action
import FormGuard.Rule

/-! What computations on values, submissions and rules fail with: never with a name or a key that was
looked up and is not there. -/
namespace FormGuard

namespace Error

/-- Whether something was looked up that is not there. -/
def isLookup : Error → Bool
  | .unknownRule _ | .unknownElement _ | .noChild _ _ | .misuse .key => true
  | _ => false

theorem isLookup_worded {e : Error} (h : e.isLookup = false) : e.worded.isLookup = false := by
  obtain hw | hw := e.worded_cases
  · rw [hw, h]
  · rw [hw]
    rfl

end Error

/-- Nothing is looked up that is not there. -/
abbrev Finds {α : Type} (x : Except Error α) : Prop := FailsAs (fun e => e.isLookup = false) x

variable {α : Type} {x : Except Error α}

theorem finds_misuse {fault : Misuse} (h : fault ≠ .key) :
    Finds (Value.misuse fault : Except Error α) := by
  refine failsAs_error ?_
  cases fault with
  | key => exact absurd rfl h
  | _ => rfl

theorem finds_raise {e : Error} (h : e.isLookup = false) : Finds (Error.raise e : Except Error α) :=
  failsAs_error (Error.isLookup_worded h)

/-! Values. -/

namespace Value

theorem finds_needKey (v : Value) : Finds v.needKey := by
  unfold needKey
  split
  · exact failsAs_ok ()
  · exact finds_misuse (by decide)

theorem finds_written (v : Value) : Finds v.written := by
  unfold written
  split
  · exact failsAs_ok _
  · exact finds_misuse (by decide)

theorem finds_spelled (v : Value) : Finds v.spelled := by
  unfold spelled
  split
  · exact failsAs_ok _
  · exact finds_misuse (by decide)

theorem finds_items (v : Value) : Finds v.items := by
  unfold items
  split
  iterate 4 exact failsAs_ok _
  split
  · exact failsAs_ok _
  · exact finds_misuse (by decide)

theorem finds_pair (v : Value) : Finds v.pair := by
  refine failsAs_bind (finds_items v) fun items => ?_
  split
  · exact failsAs_ok _
  · exact finds_misuse (by decide)

theorem finds_toInt (v : Value) : Finds v.toInt := by
  unfold toInt
  split
  · exact failsAs_ok _
  · exact failsAs_ok _
  · exact finds_misuse (by decide)
  · exact finds_misuse (by decide)
  · exact failsAs_ok _
  · split
    · split
      · exact failsAs_ok _
      · exact finds_misuse (by decide)
    · exact finds_misuse (by decide)

theorem finds_toNumber (v : Value) : Finds v.toNumber := by
  unfold toNumber
  split
  · exact failsAs_ok _
  · exact failsAs_elim (finds_misuse (by decide)) _
  · exact failsAs_ok _
  · refine failsAs_bind (finds_written _) fun text => ?_
    split
    · exact failsAs_ok _
    · exact failsAs_elim (finds_misuse (by decide)) _

theorem finds_lessPlain (v w : Value) : Finds (lessPlain v w) := by
  unfold lessPlain
  split
  iterate 4 exact failsAs_ok _
  split
  · exact failsAs_ok _
  · exact finds_misuse (by decide)

mutual

theorem finds_less : ∀ v w : Value, Finds (less v w)
  | .list xs, w => by
    unfold less
    split
    · exact finds_lessItems xs _
    · exact finds_misuse (by decide)
  | .tuple xs, w => by
    unfold less
    split
    · exact finds_lessItems xs _
    · exact finds_misuse (by decide)
  | .set xs, w => by
    unfold less
    split
    · exact failsAs_ok _
    · exact finds_misuse (by decide)
  | .null, w | .bool _, w | .int _, w | .float _, w | .text _, w | .map _, w | .compiled _, w
  | .pattern _, w | .kind _, w | .mode _, w | .ruleClass _, w | .ruleObject _ _, w
  | .external _, w => by
    unfold less
    exact finds_lessPlain _ w

theorem finds_lessItems : ∀ xs ys : List Value, Finds (lessItems xs ys)
  | [], ys => by
    unfold lessItems
    exact failsAs_ok _
  | _ :: _, [] => by
    unfold lessItems
    exact failsAs_ok _
  | x :: xs, y :: ys => by
    unfold lessItems
    split
    · exact finds_lessItems xs ys
    · exact finds_less x y

end

theorem finds_insertSorted (v : Value) (ws : List Value) :
    Finds (insertSorted v ws) := by
  induction ws with
  | nil => exact failsAs_ok _
  | cons w rest ih =>
    rw [insertSorted]
    refine failsAs_bind (finds_less v w) fun before => ?_
    split
    · exact failsAs_ok _
    · exact failsAs_bind ih fun _ => failsAs_ok _

theorem finds_sorted (vs : List Value) : Finds (sorted vs) :=
  failsAs_foldlM (fun done v => finds_insertSorted v done) vs []

theorem finds_mentions (word : String) (v : Value) : Finds (v.mentions word) := by
  unfold mentions
  split
  iterate 4 exact failsAs_ok _
  split
  · exact failsAs_ok _
  · exact finds_misuse (by decide)

/-- A key that a mapping mentions is there. -/
theorem finds_field {v : Value} {name : String} (h : v.mentions name = .ok true) :
    Finds (v.field name) := by
  cases v with
  | map entries =>
    have hsome : ((Value.map entries).get? name).isSome = true := Except.ok.inj h
    obtain ⟨w, hw⟩ := Option.isSome_iff_exists.mp hsome
    unfold field
    rw [hw]
    exact failsAs_ok w
  | _ => exact finds_misuse (by decide)

end Value

/-! Submissions. -/

namespace Submission

theorem finds_walk (value : Value) (keys : List (List Char)) :
    Finds (walk value keys) := by
  have hstep : ∀ (value : Value) (key : List Char), Finds (step value key) := by
    intro value key
    unfold step itemAt
    split
    · exact failsAs_ok _
    · split
      · split
        · exact failsAs_ok _
        · exact finds_misuse (by decide)
      · exact failsAs_ok _
    · exact failsAs_ok _
  induction keys generalizing value with
  | nil => exact failsAs_ok _
  | cons key rest ih =>
    rw [walk]
    refine failsAs_bind (hstep value key) fun inner => ?_
    split
    · exact ih _
    · exact failsAs_ok _

theorem finds_nested (submitted : Value) (name : String) :
    Finds (nested submitted name) := by
  unfold nested
  split
  · refine failsAs_bind_of_ok (Value.finds_mentions _ _) fun there hm => ?_
    split
    · rename_i ht
      refine failsAs_bind (Value.finds_field (ht ▸ hm)) fun start => ?_
      refine failsAs_bind (finds_walk start _) fun found => ?_
      split <;> exact failsAs_ok _
    · exact failsAs_ok _
  · exact failsAs_ok _

theorem finds_value (submitted name : Value) :
    Finds (Submission.value submitted name) := by
  have hhas : Finds (has submitted name) := by
    unfold has
    split
    · exact failsAs_bind (Value.finds_needKey name) fun _ => failsAs_ok _
    · exact failsAs_bind (Value.finds_needKey name) fun _ => failsAs_ok _
    · exact failsAs_ok _
    · exact failsAs_ok _
    · split
      · exact failsAs_ok _
      · exact finds_misuse (by decide)
  have hitem : ∀ items : List Value, Finds (itemFrom items name) := by
    intro items
    unfold itemFrom
    split
    · exact finds_misuse (by decide)
    · dsimp only
      split
      · exact failsAs_ok _
      · exact finds_misuse (by decide)
  have hunder : Finds (under submitted name) := by
    unfold under
    split
    · exact failsAs_ok _
    · exact hitem _
    · exact hitem _
    · exact finds_misuse (by decide)
  unfold Submission.value
  refine failsAs_bind hhas fun there => ?_
  split
  · exact failsAs_bind hunder fun _ => failsAs_ok _
  · split
    · exact finds_nested submitted _
    · exact finds_misuse (by decide)

end Submission

/-! The using program, and the rules that ask it. -/

theorem finds_resolveText (host : Host) (path : String) :
    Finds (ImportPath.resolveText host path) := by
  unfold ImportPath.resolveText
  split
  · exact failsAs_error rfl
  · split
    · exact finds_misuse (by decide)
    · split
      · exact failsAs_error rfl
      · dsimp only
        split
        · exact failsAs_ok _
        · exact failsAs_error rfl

/-- The using program fails with an error when it is called or when one of its classes is asked. -/
inductive Host.Raises (host : Host) (e : Error) : Prop where
  | called {f : Value} {arguments : List Value} (failed : host.call f arguments = .error e)
  | asked {cls : ExternalClass} {state name value format : Value}
    (failed : (host.validate cls state name value format).1 = .error e)

/-- Nothing is looked up that is not there, apart from what the using program looks up. -/
abbrev FindsOwn (host : Host) (x : Except Error α) : Prop :=
  FailsAs (fun e => e.isLookup = true → host.Raises e) x

theorem findsOwn_of_finds (host : Host) (h : Finds x) : FindsOwn host x :=
  h.imp fun e he hl => absurd (he.symm.trans hl) (by decide)

theorem findsOwn_apply (host : Host) (f : Value) (arguments : List Value) :
    FindsOwn host (host.apply f arguments) := by
  have hcall : ∀ g : Value, FindsOwn host (host.call g arguments) :=
    fun g e he _ => .called he
  have hmisuse : FindsOwn host (Value.misuse .type : Except Error Value) :=
    findsOwn_of_finds host (finds_misuse (by decide))
  unfold Host.apply
  split
  · split
    · exact hcall _
    · exact hmisuse
  · exact hcall _
  · split
    · exact failsAs_ok _
    · exact hmisuse
  · exact hmisuse

namespace Rule

theorem finds_isPresent (value : Value) : Finds (isPresent value) := by
  unfold isPresent
  split
  iterate 4 exact failsAs_ok _
  exact failsAs_bind (Value.finds_spelled _) fun _ => failsAs_ok _

theorem finds_matchesPattern (p : Pattern) (value : Value) : Finds (matchesPattern p value) := by
  have hlift : ∀ result : Except Regex.Fault Bool, Finds (liftFault result) := by
    intro result
    cases result with
    | ok matched => exact failsAs_ok matched
    | error fault => exact failsAs_error rfl
  exact failsAs_map (failsAs_bind (Value.finds_written value) fun _ => hlift _) _

theorem finds_patternFor (patterns : Patterns) (name format : Value) :
    Finds (patterns.patternFor name format) := by
  refine failsAs_bind (Value.finds_needKey name) fun _ => ?_
  cases patterns.find? name with
  | some p => exact failsAs_ok p
  | none =>
    cases format.isNull with
    | true => exact finds_raise rfl
    | false =>
      dsimp only
      cases patternOf? format with
      | some p => exact failsAs_ok p
      | none => exact finds_raise rfl

theorem finds_bounds (name format : Value) : Finds (Length.bounds name format) := by
  have hread : Finds (Length.readBounds name format) := by
    unfold Length.readBounds
    split
    · exact failsAs_map (Value.finds_toInt format) _
    · split
      · exact failsAs_map (Value.finds_toInt format) _
      · refine failsAs_bind (Value.finds_pair format) fun ends => ?_
        refine failsAs_bind (Value.finds_toInt ends.1) fun low => ?_
        exact failsAs_bind (Value.finds_toInt ends.2) fun high => failsAs_ok _
  unfold Length.bounds Length.report
  split
  · exact finds_raise rfl
  · exact finds_raise rfl
  · exact hread

theorem finds_compare (name value format : Value) :
    Finds (Comparison.validate name value format) := by
  have hoperands : Finds (Comparison.operands name value) := by
    unfold Comparison.operands
    split
    · exact failsAs_ok _
    · exact failsAs_ok _
    · exact finds_raise rfl
  have hoperator : Finds (Operator.ofValue format) := by
    unfold Operator.ofValue
    split
    · exact failsAs_ok _
    · exact failsAs_bind (Value.finds_needKey format) fun _ => failsAs_ok _
  refine failsAs_bind hoperands fun pair => failsAs_bind hoperator fun op => ?_
  refine failsAs_bind ?_ fun _ => failsAs_ok _
  have htexts : ∀ test : String → String → Bool, Finds (pair.1.written >>= fun left =>
      pair.2.written >>= fun right => pure (test left right)) := fun _ =>
    failsAs_bind (Value.finds_written pair.1) fun _ =>
      failsAs_bind (Value.finds_written pair.2) fun _ => failsAs_ok _
  unfold Operator.holds
  split
  · exact htexts _
  · exact htexts _
  · refine failsAs_bind (Value.finds_toNumber pair.1) fun left => ?_
    exact failsAs_bind (Value.finds_toNumber pair.2) fun right => failsAs_ok _

theorem findsOwn_callback (host : Host) (callbacks : Callbacks) (name value format : Value) :
    FindsOwn host (callbacks.validate host name value format) := by
  have hverdict : ∀ (f : Value) (arguments : List Value),
      FindsOwn host (Callbacks.verdict (host.apply f arguments)) :=
    fun f arguments => failsAs_map (findsOwn_apply host f arguments) _
  have hresolve : ∀ c : Callback, Finds (c.resolve host) := by
    intro c
    unfold Callback.resolve
    split
    · exact failsAs_ok _
    · split
      · exact failsAs_ok _
      · exact finds_misuse (by decide)
  have hnamed : Finds (Callbacks.named host name format) := by
    unfold Callbacks.named
    split
    · exact failsAs_ok _
    · exact failsAs_ok _
    · split
      · exact failsAs_ok _
      · split
        · exact finds_raise rfl
        · exact finds_resolveText host _
  have hformat : Finds (Callbacks.fromFormat host name format) := by
    unfold Callbacks.fromFormat
    split
    · exact failsAs_ok _
    · refine failsAs_bind hnamed fun f => ?_
      split
      · exact failsAs_ok _
      · exact finds_raise rfl
  refine failsAs_bind (findsOwn_of_finds host (Value.finds_needKey name)) fun _ => ?_
  split
  · exact failsAs_bind (findsOwn_of_finds host (hresolve _)) fun f => hverdict f _
  · exact failsAs_bind (findsOwn_of_finds host hformat) fun f => hverdict f _

theorem findsOwn_validate (host : Host) (rule : Rule) (name value format : Value) :
    FindsOwn host (rule.validate host name value format).1 := by
  cases rule with
  | base => exact failsAs_ok _
  | required => exact findsOwn_of_finds host (failsAs_map (finds_isPresent value) _)
  | regex patterns =>
    exact findsOwn_of_finds host
      (failsAs_bind (finds_patternFor patterns name format) fun p => finds_matchesPattern p value)
  | email => exact findsOwn_of_finds host (finds_matchesPattern Pattern.email value)
  | callback callbacks => exact findsOwn_callback host callbacks name value format
  | length =>
    exact findsOwn_of_finds host (failsAs_bind (Value.finds_written value) fun _ =>
      failsAs_bind (finds_bounds name format) fun _ => failsAs_ok _)
  | compare => exact findsOwn_of_finds host (finds_compare name value format)
  | external cls state => exact fun e he _ => .asked he

end Rule

end FormGuard
