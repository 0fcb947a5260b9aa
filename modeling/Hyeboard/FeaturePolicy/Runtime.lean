import Hyeboard.FeaturePolicy.Policy
import Hyeboard.FeaturePolicy.Stores
/-!
# The policy runtime

`FeaturePolicyRuntime` of `apps/worker/src/policy/feature-policy-store.ts`: what
it does before it calls the store and with what the store answers. Between the
two other calls may run.
-/

namespace Hyeboard.FeaturePolicy

def featurePolicyUnavailable : PolicyError :=
  .hyeboard "FEATURE_POLICY_UNAVAILABLE" "Feature policy is unavailable." 503 []

def revisionNotFound : PolicyError :=
  .hyeboard "ADMIN_POLICY_REVISION_NOT_FOUND" "Feature policy revision was not found." 404 []

/-- `if (error instanceof HyeboardError) throw error; throw featurePolicyUnavailable()`. -/
def rethrown : PolicyError → PolicyError
  | .error _ => featurePolicyUnavailable
  | .hyeboard code message status details => .hyeboard code message status details

def validateSnapshot (snapshot : FeaturePolicySnapshot) : Except PolicyError FeaturePolicySnapshot := do
  let parsed ← parseSnapshot snapshot
  let policy ← validatePolicy parsed.toFeaturePolicyContent listUniversities .empty
  parseSnapshot { policy with revision := parsed.revision }

/-! ## Publication -/

/-- `publish` up to the call of the store. -/
def preparePublication (input : PublishFeaturePolicyInput) : Except PolicyError PublishFeaturePolicyInput := do
  let policy ← validatePolicy input.policy listUniversities .empty
  parsePublication { input with policy }

/-- The entry `publish` makes of the store's answer. -/
def receiveEntry (answer : Except PolicyError FeaturePolicyAuditEntry) : Except PolicyError FeaturePolicyAuditEntry :=
  (do parseAuditEntry (← answer)).mapError rethrown

/-- A rollback that has read its target. -/
structure PreparedRollback where
  targetRevision : Nat
  publication : PublishFeaturePolicyInput
deriving DecidableEq

/-- `rollback` from the store's answer about the target to its call of `publish`. -/
def prepareRollback (parsed : RollbackFeaturePolicyInput)
    (answer : Except PolicyError (Option FeaturePolicyAuditEntry)) : Except PolicyError PreparedRollback := do
  match ← answer.mapError rethrown with
  | none => .error revisionNotFound
  | some storedTarget =>
    let target ← parseAuditEntry storedTarget
    let snapshot ← validateSnapshot target.snapshot
    return {
      targetRevision := parsed.targetRevision
      publication := {
        baseRevision := parsed.baseRevision, policy := snapshot.toFeaturePolicyContent
        reason := parsed.reason, actor := parsed.actor } }

/-! ## The cache -/

structure Runtime where
  cached : Option FeaturePolicySnapshot
  highestNotifiedRevision : Nat
deriving DecidableEq

namespace Runtime

def init : Runtime := { cached := none, highestNotifiedRevision := 0 }

def invalidate (runtime : Runtime) (revision : Nat) : Runtime :=
  if !revisionOk revision then runtime
  else
    { cached := if runtime.cached.any (·.revision < revision) then none else runtime.cached
      highestNotifiedRevision := max runtime.highestNotifiedRevision revision }

/-- Both the reads and `publish` keep a snapshot no notification is ahead of. -/
def cache (runtime : Runtime) (revision : Nat) (snapshot : FeaturePolicySnapshot) : Runtime :=
  if runtime.highestNotifiedRevision ≤ revision then { runtime with cached := some snapshot } else runtime

/-- `readCurrent` from the store's answer on. -/
def receiveCurrent (runtime : Runtime) (answer : Except PolicyError FeaturePolicySnapshot) :
    Except PolicyError FeaturePolicySnapshot × Runtime :=
  match (do validateSnapshot (← answer)) with
  | .error error => (.error error, runtime)
  | .ok snapshot => (.ok snapshot, runtime.cache snapshot.revision snapshot)

/-- `current` from the store's answer on. -/
def current (runtime : Runtime) (answer : Except PolicyError FeaturePolicySnapshot) :
    Except PolicyError FeaturePolicySnapshot × Runtime :=
  match runtime.receiveCurrent answer with
  | (.ok snapshot, runtime) => (.ok snapshot, runtime)
  | (.error _, runtime) =>
    match runtime.cached with
    | some snapshot => (.ok snapshot, runtime)
    | none => (.error featurePolicyUnavailable, runtime)

/-- `currentAuthoritative` from the store's answer on. -/
def currentAuthoritative (runtime : Runtime) (answer : Except PolicyError FeaturePolicySnapshot) :
    Except PolicyError FeaturePolicySnapshot × Runtime :=
  match runtime.receiveCurrent answer with
  | (.ok snapshot, runtime) => (.ok snapshot, runtime)
  | (.error _, runtime) => (.error featurePolicyUnavailable, runtime)

/-- `publish` from the store's answer up to the notification. -/
def publish (runtime : Runtime) (answer : Except PolicyError FeaturePolicyAuditEntry) :
    Except PolicyError FeaturePolicyAuditEntry × Runtime :=
  match receiveEntry answer with
  | .error error => (.error error, runtime)
  | .ok entry => (.ok entry, runtime.cache entry.revision entry.snapshot)

end Runtime

/-! ## What the runtime lets through -/

section
variable {snapshot result : FeaturePolicySnapshot}

theorem validateSnapshot_eq_ok (h : validateSnapshot snapshot = .ok result) : result = snapshot := by
  simp only [validateSnapshot, parseSnapshot, bind_eq_ok, require_eq_ok, pure_eq_ok] at h
  obtain ⟨_, ⟨_, -, rfl⟩, policy, hpolicy, _, -, rfl⟩ := h
  obtain ⟨rfl, -⟩ := validatePolicy_eq_ok hpolicy
  rfl

theorem preparePublication_eq_ok {input parsed : PublishFeaturePolicyInput} (h : preparePublication input = .ok parsed) :
    parsePublication input = .ok parsed := by
  simp only [preparePublication, bind_eq_ok] at h
  obtain ⟨policy, hpolicy, hparsed⟩ := h
  obtain ⟨rfl, -⟩ := validatePolicy_eq_ok hpolicy
  exact hparsed

theorem parseRollback_revisions {input parsed : RollbackFeaturePolicyInput} (h : parseRollback input = .ok parsed) :
    parsed.targetRevision = input.targetRevision ∧ parsed.baseRevision = input.baseRevision := by
  simp only [parseRollback, bind_eq_ok, pure_eq_ok] at h
  obtain ⟨-, -, reason, -, -, -, rfl⟩ := h
  exact ⟨rfl, rfl⟩

theorem prepareRollback_eq_ok {parsed : RollbackFeaturePolicyInput}
    {answer : Except PolicyError (Option FeaturePolicyAuditEntry)} {prepared : PreparedRollback}
    (h : prepareRollback parsed answer = .ok prepared) :
    prepared.targetRevision = parsed.targetRevision ∧ prepared.publication.baseRevision = parsed.baseRevision ∧
      ∃ target, answer = .ok (some target) ∧
        prepared.publication.policy = target.snapshot.toFeaturePolicyContent := by
  cases answer with
  | error error => cases h
  | ok stored =>
    cases stored with
    | none => cases h
    | some target =>
      simp only [prepareRollback, Except.mapError, bind_eq_ok] at h
      obtain ⟨_, heq, hrest⟩ := h
      cases heq
      simp only [bind_eq_ok, pure_eq_ok, parseAuditEntry, parseSnapshot, require_eq_ok] at hrest
      obtain ⟨_, ⟨_, -, _, -, reason, -, _, ⟨_, -, rfl⟩, rfl⟩, snapshot, hsnapshot, rfl⟩ := hrest
      refine ⟨rfl, rfl, target, rfl, ?_⟩
      rw [validateSnapshot_eq_ok hsnapshot]

end

end Hyeboard.FeaturePolicy
