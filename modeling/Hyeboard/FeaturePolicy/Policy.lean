import Hyeboard.FeaturePolicy.Schema
/-!
# Effective policies

`apps/worker/src/policy/feature-policy.ts`: the check of a policy against the
universities, and the university a policy leaves of a native one. The adapters'
universities are those of `packages/university-adapters`; their names and
themes, which no policy touches, are left out.
-/

namespace Hyeboard.FeaturePolicy

structure CrossDetailLimits where
  maxTargets : Nat
  maxRows : Nat
  concurrency : Nat
deriving DecidableEq, Repr

structure CrossLookupLimits where
  bulkMaxTargets : Nat
  bulkDirectChunkMaxTargets : Option Nat
  bulkModeMaxTargets : Option (Record Nat)
  crossDetail : Option CrossDetailLimits
deriving DecidableEq

structure UniversityLimits where
  crossLookup : Option CrossLookupLimits
deriving DecidableEq

structure University where
  id : String
  capabilities : Record Bool
  limits : Option UniversityLimits
deriving DecidableEq

/-! ## The adapters -/

def mockUniversity : University :=
  { id := "mock"
    capabilities :=
      ⟨[("profile", true), ("terms", true), ("timetable", true), ("courses", true), ("assignments", true), ("grades", true),
        ("exams", true), ("attendance", true), ("notifications", true), ("documents", true), ("tuition", true),
        ("news", true), ("trainingPoints", true), ("requests", true), ("classLookup", false), ("crossLookup", false)],
        by decide⟩
    limits := none }

def uetUniversity : University :=
  { id := "uet"
    capabilities :=
      ⟨[("profile", true), ("terms", true), ("timetable", true), ("courses", true), ("assignments", true), ("grades", true),
        ("exams", true), ("attendance", false), ("notifications", true), ("documents", false), ("tuition", true),
        ("news", true), ("trainingPoints", true), ("requests", true), ("classLookup", false), ("crossLookup", false)],
        by decide⟩
    limits := none }

def vnuUniversity : University :=
  { id := "vnu"
    capabilities :=
      ⟨[("profile", true), ("terms", true), ("timetable", false), ("courses", false), ("assignments", false),
        ("grades", true), ("exams", true), ("attendance", false), ("notifications", false), ("documents", true),
        ("tuition", false), ("news", false), ("trainingPoints", true), ("requests", false), ("classLookup", true),
        ("crossLookup", true)], by decide⟩
    limits := none }

def listUniversities : List University := [mockUniversity, uetUniversity, vnuUniversity]

/-! ## Checks -/

def safeSegment (segment : String) : String :=
  if limitKeyOk segment then segment
  else if segment != "" && segment.toList.all (fun c => c.isAlphanum || c == '_' || c == '-') then
    String.ofList (segment.toList.take 64)
  else "?"

def formatPath (path : List String) : String :=
  if path.isEmpty then "$" else String.ofList ((".".intercalate (path.map safeSegment)).toList.take 256)

def invalidPolicy (path : String) : PolicyError :=
  .hyeboard "ADMIN_POLICY_INVALID" "Feature policy is invalid." 400 [("path", .text path)]

def isSafeCeiling (value : Nat) : Bool := value ≤ maxSafeInteger

def isSafeLimit (value : Nat) : Bool := isSafeCeiling value && 0 < value

/-- The path of the first issue the schema finds with the entries of a record. -/
def entriesIssue {α : Type} (ok : String → α → Bool) (path : List String) (r : Record α) : Option (List String) :=
  (r.entries.find? fun e => !ok e.1 e.2).map fun e => path ++ [e.1]

def universityIssue (e : String × UniversityPolicy) : Option (List String) :=
  if e.1 == "" then some ["universities", e.1]
  else
    (entriesIssue (fun key enabled => capabilityKeyOk key && !enabled) ["universities", e.1, "capabilities"]
      e.2.capabilities).or
      (entriesIssue (fun key limit => limitKeyOk key && decide (PositiveSafe limit)) ["universities", e.1, "limits"]
        e.2.limits)

/-- The path of the first issue `featurePolicyContentSchema` finds. -/
def policyIssue (policy : FeaturePolicyContent) : Option (List String) :=
  ((entriesIssue (fun key _ => capabilityKeyOk key) ["global", "capabilities"] policy.global.capabilities).or
    (entriesIssue (fun key limit => limitKeyOk key && limit.all fun limit => decide (PositiveSafe limit))
      ["global", "limits"] policy.global.limits)).or
    (policy.universities.entries.findSome? universityIssue)

def validateHardLimits (hardLimits : Record Nat) : Except PolicyError Unit :=
  hardLimits.entries.forM fun e => do
    require (invalidPolicy ("hardLimits." ++ safeSegment e.1)) (limitKeyOk e.1)
    require (invalidPolicy ("hardLimits." ++ e.1)) (isSafeCeiling e.2)

def validatePolicy (policy : FeaturePolicyContent) (universities : List University) (hardLimits : Record Nat) :
    Except PolicyError FeaturePolicyContent := do
  match policyIssue policy with
  | some path => .error (invalidPolicy (formatPath path))
  | none =>
    policy.universities.keys.forM fun universityId =>
      require (invalidPolicy ("universities." ++ safeSegment universityId))
        ((universities.map (·.id)).contains universityId)
    validateHardLimits hardLimits
    return policy

/-! ## Resolution -/

inductive PolicySource where
  | adapter
  | native
  | global
  | university
deriving DecidableEq, Repr

structure EffectiveCapability where
  enabled : Bool
  locked : Bool
  source : PolicySource
deriving DecidableEq, Repr

structure EffectiveLimit where
  value : Nat
  configured : Option Nat
  source : PolicySource
  clamped : Bool
deriving DecidableEq, Repr

def resolveCapability (adapterSupported : Bool) (policy : FeaturePolicyContent) (universityId capability : String) :
    EffectiveCapability :=
  if !adapterSupported then { enabled := false, locked := true, source := .adapter }
  else if policy.global.capabilities.get? capability = some false then
    { enabled := false, locked := false, source := .global }
  else if (policy.universities.get? universityId).bind (·.capabilities.get? capability) = some false then
    { enabled := false, locked := false, source := .university }
  else { enabled := true, locked := false, source := .adapter }

def resolveLimit (policy : FeaturePolicyContent) (universityId key : String) (hardCeiling : Nat) :
    Except PolicyError EffectiveLimit := do
  require (invalidPolicy ("hardLimits." ++ key)) (isSafeCeiling hardCeiling)
  let university := (policy.universities.get? universityId).bind (·.limits.get? key)
  let global := policy.global.limits.get? key
  require (invalidPolicy ("universities." ++ safeSegment universityId ++ ".limits." ++ key)) (university.all isSafeLimit)
  require (invalidPolicy ("global.limits." ++ key)) (global.join.all isSafeLimit)
  let configured := university.or global.join
  let source := if university.isNone then if global.isNone then .native else .global else .university
  return {
    value := (configured.map (min · hardCeiling)).getD hardCeiling
    configured
    source
    clamped := configured.any (hardCeiling < ·) }

/-- The entries of `flattenLimits(university)` that are not undefined. -/
def flattenLimits (university : University) : Record Nat :=
  match university.limits.bind (·.crossLookup) with
  | none => .empty
  | some crossLookup =>
    let mode (name : String) := crossLookup.bulkModeMaxTargets.bind (·.get? name)
    .ofList ([("crossLookup.bulkMaxTargets", some crossLookup.bulkMaxTargets),
      ("crossLookup.bulkDirectChunkMaxTargets", crossLookup.bulkDirectChunkMaxTargets),
      ("crossLookup.bulkModeMaxTargets.stdid-to-code", mode "stdid-to-code"),
      ("crossLookup.bulkModeMaxTargets.stdid-to-transcript", mode "stdid-to-transcript"),
      ("crossLookup.bulkModeMaxTargets.code-to-stdid", mode "code-to-stdid"),
      ("crossLookup.crossDetail.maxTargets", crossLookup.crossDetail.map (·.maxTargets)),
      ("crossLookup.crossDetail.maxRows", crossLookup.crossDetail.map (·.maxRows)),
      ("crossLookup.crossDetail.concurrency", crossLookup.crossDetail.map (·.concurrency))].filterMap
        fun e => e.2.map (e.1, ·))

/-- The `crossDetail` of `projectLimits`: all three limits or nothing. -/
def projectCrossDetail (limits : Record Nat) : Option CrossDetailLimits := do
  let maxTargets ← limits.get? "crossLookup.crossDetail.maxTargets"
  let maxRows ← limits.get? "crossLookup.crossDetail.maxRows"
  let concurrency ← limits.get? "crossLookup.crossDetail.concurrency"
  return { maxTargets, maxRows, concurrency }

def projectLimits (limits : Record Nat) : Option UniversityLimits :=
  match limits.get? "crossLookup.bulkMaxTargets" with
  | none => none
  | some bulkMaxTargets =>
    let bulkModeMaxTargets : Record Nat := .ofList
      ([("stdid-to-code", limits.get? "crossLookup.bulkModeMaxTargets.stdid-to-code"),
        ("stdid-to-transcript", limits.get? "crossLookup.bulkModeMaxTargets.stdid-to-transcript"),
        ("code-to-stdid", limits.get? "crossLookup.bulkModeMaxTargets.code-to-stdid")].filterMap
          fun e => e.2.map (e.1, ·))
    some {
      crossLookup := some {
        bulkMaxTargets
        bulkDirectChunkMaxTargets := limits.get? "crossLookup.bulkDirectChunkMaxTargets"
        bulkModeMaxTargets := if bulkModeMaxTargets.size = 0 then none else some bulkModeMaxTargets
        crossDetail := projectCrossDetail limits } }

/-- The ceiling of a key: the least safe one of the native and the hard limit. -/
def ceiling? (nativeLimits hardLimits : Record Nat) (key : String) : Option Nat :=
  ([nativeLimits.get? key, hardLimits.get? key].filterMap fun limit => limit.filter isSafeCeiling).min?

/-- One turn of the loop over `operationalLimitKeys`. -/
def projectLimit (policy : FeaturePolicyContent) (universityId : String) (nativeLimits hardLimits : Record Nat)
    (projectedLimits : Record Nat) (key : String) : Except PolicyError (Record Nat) :=
  match ceiling? nativeLimits hardLimits key with
  | none | some 0 => return projectedLimits
  | some ceiling => do
    let limit ← resolveLimit policy universityId key ceiling
    return projectedLimits.set key limit.value

def effectiveUniversity (university : University) (policy : FeaturePolicyContent) (hardLimits : Record Nat) :
    Except PolicyError University := do
  validateHardLimits hardLimits
  let capabilities := university.capabilities.mapValues fun key supported =>
    (resolveCapability supported policy university.id key).enabled
  let nativeLimits := flattenLimits university
  let projectedLimits ← operationalLimitKeys.foldlM (projectLimit policy university.id nativeLimits hardLimits) .empty
  let bulkMaxTargets := projectedLimits.get? "crossLookup.bulkMaxTargets"
  let capabilities := if bulkMaxTargets.isNone then capabilities.set "crossLookup" false else capabilities
  return { university with
    capabilities
    limits :=
      if capabilities.get? "crossLookup" = some true ∧ bulkMaxTargets.isSome then projectLimits projectedLimits else none }

/-! ## Accepted policies -/

section
variable {policy result : FeaturePolicyContent} {universities : List University} {hardLimits : Record Nat}

theorem entriesIssue_eq_none {α : Type} {ok : String → α → Bool} {path : List String} {r : Record α} :
    entriesIssue ok path r = none ↔ r.entries.all (fun e => ok e.1 e.2) = true := by
  simp [entriesIssue]

theorem universityIssue_eq_none {e : String × UniversityPolicy} :
    universityIssue e = none ↔ (e.1 != "" && e.2.ok) = true := by
  unfold universityIssue
  by_cases hempty : e.1 = ""
  · simp [hempty]
  · simp only [hempty, beq_iff_eq, if_false, Option.or_eq_none_iff, entriesIssue_eq_none, UniversityPolicy.ok,
      Bool.and_eq_true, bne_iff_ne, ne_eq, not_false_eq_true, true_and]

/-- The schema refuses exactly the policies it finds an issue with. -/
theorem policyIssue_eq_none : policyIssue policy = none ↔ policy.ok = true := by
  simp only [policyIssue, Option.or_eq_none_iff, entriesIssue_eq_none, List.findSome?_eq_none_iff,
    universityIssue_eq_none, FeaturePolicyContent.ok, GlobalPolicy.ok, Bool.and_eq_true, List.all_eq_true]

theorem validatePolicy_eq_ok (h : validatePolicy policy universities hardLimits = .ok result) :
    result = policy ∧ policy.ok = true ∧ ∀ id ∈ policy.universities.keys, id ∈ universities.map (·.id) := by
  unfold validatePolicy at h
  cases hissue : policyIssue policy with
  | some path =>
    rw [hissue] at h
    cases h
  | none =>
    rw [hissue] at h
    simp only [bind_eq_ok, pure_eq_ok, forM_eq_ok, require_eq_ok] at h
    obtain ⟨_, hknown, _, -, rfl⟩ := h
    refine ⟨rfl, policyIssue_eq_none.1 hissue, ?_⟩
    intro id hid
    have hcontains := hknown id hid
    rwa [List.contains_iff_mem] at hcontains

end

end Hyeboard.FeaturePolicy
