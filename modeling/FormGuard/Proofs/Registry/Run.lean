import FormGuard.Proofs.Registry.Registration

/-! Runs of registry operations, failed ones included. -/
namespace FormGuard.Registry

inductive Operation where
  | register (name kind data owner : Value)
  | get (name : Value)
  | validate (name value format : Value) (whole : Bool)
  | block (source : Script.Source) (name : Value) (a : Application)

namespace Operation
variable (host : Host)

def perform : Operation → Action Unit
  | .register name kind data owner => Registry.register host name kind data owner
  | .get name => discard (getRule host name)
  | .validate name value format whole => discard (Registry.validate host name value format whole)
  | .block source name a => discard (Registry.block host source name a)

/-- Whether an operation succeeds. -/
def accepted (op : Operation) (r : Registry) : Bool := (outcome (op.perform host) r).1.isOk

/-- The registry after an operation, whether it succeeds or not. -/
def next (op : Operation) (r : Registry) : Registry := (outcome (op.perform host) r).2

/-- Whether an operation brings an instance to put in the place of the shared one. -/
def bringsInstance : Operation → Prop
  | .register _ kind (.ruleObject _ _) _ => dataKind? kind = none
  | _ => False

end Operation

def run (host : Host) : List Operation → Registry → Registry
  | [], r => r
  | op :: ops, r => run host ops (op.next host r)

/-- The registries that runs lead to. -/
def Reachable (host : Host) (r : Registry) : Prop := ∃ ops, run host ops empty = r

variable {host : Host} {r s : Registry} {name : Value} {K : RuleClass → Prop}

/-- Every operation but a registration is a look-up. -/
theorem looks_next {op : Operation} (h : ∀ name kind data owner, op ≠ .register name kind data owner)
    (r : Registry) : Looks host (Rule.KeepsState host) r (op.next host r) := by
  cases op with
  | register name kind data owner => exact absurd rfl (h name kind data owner)
  | get name => exact moves_discard (moves_getRule host name) r
  | validate name value format whole =>
    exact moves_discard (moves_validate host name value format whole) r
  | block source name a => exact moves_discard (moves_block host source name a) r

theorem keyed_next (op : Operation) (hr : r.Keyed) : (op.next host r).Keyed := by
  cases op with
  | register name kind data owner => exact keyed_register hr host name kind data owner
  | _ => exact (looks_next (by simp) r hr).keyed

theorem keyed_empty : Registry.empty.Keyed := by
  intro cls rule h
  cases h

theorem keyed_run {ops : List Operation} (hr : r.Keyed) : (run host ops r).Keyed := by
  induction ops generalizing r with
  | nil => exact hr
  | cons op ops ih => exact ih (keyed_next op hr)

theorem keyed_of_reachable (h : r.Reachable host) : r.Keyed := by
  obtain ⟨ops, rfl⟩ := h
  exact keyed_run keyed_empty

theorem run_append (ops more : List Operation) (r : Registry) :
    run host (ops ++ more) r = run host more (run host ops r) := by
  induction ops generalizing r with
  | nil => rfl
  | cons op ops ih => exact ih (op.next host r)

theorem Reachable.next (h : r.Reachable host) (op : Operation) :
    (op.next host r).Reachable host := by
  obtain ⟨ops, rfl⟩ := h
  exact ⟨ops ++ [op], run_append ops [op] empty⟩

/-- A configuration is registered binding by binding. -/
theorem reachable_of_registerAll (bindings : List (Value × Binding)) (h : r.Reachable host) :
    (outcome (registerAll host bindings) r).2.Reachable host := by
  induction bindings generalizing r with
  | nil => exact h
  | cons entry rest ih =>
    obtain ⟨name, b⟩ := entry
    have hn := h.next (.register name b.kind b.target b.owner)
    change (outcome (register host name b.kind b.target b.owner >>= fun _ =>
      registerAll host rest) r).2.Reachable host
    rw [FormGuard.outcome_bind]
    rcases ho : outcome (register host name b.kind b.target b.owner) r with ⟨e | u, t⟩
    all_goals
      rw [Operation.next, Operation.perform, ho] at hn
    · exact hn
    · exact ih hn

/-- What a configuration gives is the registry after the last binding, unless one is refused. -/
theorem fst_ofConfig (host : Host) (config : Config) :
    (ofConfig host config).1 = (outcome (registerAll host config.entries) empty).1.map
      fun _ => (outcome (registerAll host config.entries) empty).2 := by
  unfold ofConfig
  change (match outcome (registerAll host config.entries) empty with
    | (.ok _, r) => (Except.ok r, r.notes)
    | (.error e, r) => (.error e, r.notes)).1 = _
  rcases outcome (registerAll host config.entries) empty with ⟨e | u, t⟩ <;> rfl

/-- The registry of a configuration comes from a run. -/
theorem reachable_of_config {config : Config} (h : (ofConfig host config).1 = .ok r) :
    r.Reachable host := by
  have hr : (outcome (registerAll host config.entries) empty).2.Reachable host :=
    reachable_of_registerAll config.entries ⟨[], rfl⟩
  rw [fst_ofConfig] at h
  rcases ho : outcome (registerAll host config.entries) empty with ⟨e | u, t⟩
  · rw [ho] at h
    cases h
  · rw [ho] at h hr
    obtain rfl : t = r := Except.ok.inj h
    exact hr

end FormGuard.Registry
