import Hyeboard.Lib.JsString
import Hyeboard.Lib.JsValue
/-!
# Feature policies

`packages/schemas/src/feature-policy.ts` and `capabilities.ts`: what a policy
holds, and the checks of its schemas. Values have the types of the schemas (a
value of another shape is refused like one that fails a check), numbers in a
policy are natural, and `publishedAt` is the time its ISO string stands for.
-/

namespace Hyeboard.FeaturePolicy

def capabilityKeys : List String :=
  ["profile", "terms", "timetable", "courses", "assignments", "grades", "exams", "attendance", "notifications",
    "documents", "tuition", "news", "trainingPoints", "requests", "classLookup", "crossLookup"]

def operationalLimitKeys : List String :=
  ["crossLookup.bulkMaxTargets", "crossLookup.bulkDirectChunkMaxTargets",
    "crossLookup.bulkModeMaxTargets.stdid-to-code", "crossLookup.bulkModeMaxTargets.stdid-to-transcript",
    "crossLookup.bulkModeMaxTargets.code-to-stdid", "crossLookup.crossDetail.maxTargets",
    "crossLookup.crossDetail.maxRows", "crossLookup.crossDetail.concurrency"]

/-- `capabilities[key].enabled`, and `limits[key]`, which may be `null`. -/
structure GlobalPolicy where
  capabilities : Record Bool
  limits : Record (Option Nat)
deriving DecidableEq

structure UniversityPolicy where
  capabilities : Record Bool
  limits : Record Nat
deriving DecidableEq

structure FeaturePolicyContent where
  global : GlobalPolicy
  universities : Record UniversityPolicy
deriving DecidableEq

structure FeaturePolicySnapshot extends FeaturePolicyContent where
  revision : Nat
deriving DecidableEq

inductive AdminMethod where
  | password
  | github
  | discord
deriving DecidableEq, Repr

structure AdminActor where
  method : AdminMethod
  subject : String
  label : Option String
deriving DecidableEq, Repr

structure FeaturePolicyAuditEntry where
  revision : Nat
  baseRevision : Nat
  actor : AdminActor
  reason : String
  publishedAt : Nat
  snapshot : FeaturePolicySnapshot
deriving DecidableEq

structure PublishFeaturePolicyInput where
  baseRevision : Nat
  policy : FeaturePolicyContent
  reason : String
  actor : AdminActor
deriving DecidableEq

structure RollbackFeaturePolicyInput where
  baseRevision : Nat
  targetRevision : Nat
  reason : String
  actor : AdminActor
deriving DecidableEq

inductive Detail where
  | number (n : Nat)
  | text (s : String)
deriving DecidableEq, Repr

/-- What the code throws. -/
inductive PolicyError where
  | error (message : String)
  | hyeboard (code message : String) (status : Nat) (details : List (String × Detail))
deriving DecidableEq, Repr

def zodError : PolicyError := .error "ZodError"

def emptyPolicy : FeaturePolicyContent :=
  { global := { capabilities := .empty, limits := .empty }, universities := .empty }

/-! ## The schemas -/

def capabilityKeyOk (key : String) : Bool := capabilityKeys.contains key

def limitKeyOk (key : String) : Bool := operationalLimitKeys.contains key

def UniversityPolicy.ok (policy : UniversityPolicy) : Bool :=
  policy.capabilities.entries.all (fun e => capabilityKeyOk e.1 && !e.2) &&
    policy.limits.entries.all (fun e => limitKeyOk e.1 && decide (PositiveSafe e.2))

def GlobalPolicy.ok (policy : GlobalPolicy) : Bool :=
  policy.capabilities.entries.all (fun e => capabilityKeyOk e.1) &&
    policy.limits.entries.all (fun e => limitKeyOk e.1 && e.2.all fun limit => decide (PositiveSafe limit))

/-- `featurePolicyContentSchema`. -/
def FeaturePolicyContent.ok (policy : FeaturePolicyContent) : Bool :=
  policy.global.ok && policy.universities.entries.all fun e => e.1 != "" && e.2.ok

/-- `z.number().int().nonnegative()`. -/
def revisionOk (revision : Nat) : Bool := revision ≤ maxSafeInteger

/-- `featurePolicySnapshotSchema`. -/
def FeaturePolicySnapshot.ok (snapshot : FeaturePolicySnapshot) : Bool :=
  snapshot.toFeaturePolicyContent.ok && revisionOk snapshot.revision

def nameOk (name : String) : Bool := 1 ≤ jsLength name && jsLength name ≤ 128

/-- `adminActorSchema`. -/
def AdminActor.ok (actor : AdminActor) : Bool := nameOk actor.subject && actor.label.all nameOk

/-- `z.string().trim().min(1).max(500)`. -/
def parseReason (reason : String) : Except PolicyError String := do
  require zodError (1 ≤ jsLength (jsTrim reason) && jsLength (jsTrim reason) ≤ 500)
  return jsTrim reason

def parseSnapshot (snapshot : FeaturePolicySnapshot) : Except PolicyError FeaturePolicySnapshot := do
  require zodError snapshot.ok
  return snapshot

/-- `featurePolicyAuditEntrySchema.parse`. -/
def parseAuditEntry (entry : FeaturePolicyAuditEntry) : Except PolicyError FeaturePolicyAuditEntry := do
  require zodError (revisionOk entry.revision && 0 < entry.revision && revisionOk entry.baseRevision)
  require zodError entry.actor.ok
  let reason ← parseReason entry.reason
  let snapshot ← parseSnapshot entry.snapshot
  return { entry with reason, snapshot }

/-- `storePublicationSchema.parse`, `publicationSchema.parse`. -/
def parsePublication (input : PublishFeaturePolicyInput) : Except PolicyError PublishFeaturePolicyInput := do
  require zodError (revisionOk input.baseRevision)
  require zodError input.policy.ok
  let reason ← parseReason input.reason
  require zodError input.actor.ok
  return { input with reason }

/-- `storeRollbackSchema.parse`. -/
def parseRollback (input : RollbackFeaturePolicyInput) : Except PolicyError RollbackFeaturePolicyInput := do
  require zodError (revisionOk input.baseRevision && revisionOk input.targetRevision && 0 < input.targetRevision)
  let reason ← parseReason input.reason
  require zodError input.actor.ok
  return { input with reason }

theorem parseReason_eq_ok {reason result : String} :
    parseReason reason = .ok result ↔
      result = jsTrim reason ∧ 1 ≤ jsLength result ∧ jsLength result ≤ 500 := by
  simp only [parseReason, bind_eq_ok, require_eq_ok, pure_eq_ok, Bool.and_eq_true, decide_eq_true_eq]
  constructor
  · rintro ⟨_, hlength, rfl⟩
    exact ⟨rfl, hlength⟩
  · rintro ⟨rfl, hlength⟩
    exact ⟨(), hlength, rfl⟩

/-- A reason that was parsed once is left as it is. -/
theorem parseReason_parsed {reason result : String} (h : parseReason reason = .ok result) :
    parseReason result = .ok result := by
  obtain ⟨rfl, hlength⟩ := parseReason_eq_ok.1 h
  exact parseReason_eq_ok.2 ⟨(jsTrim_jsTrim reason).symm, hlength⟩

end Hyeboard.FeaturePolicy
