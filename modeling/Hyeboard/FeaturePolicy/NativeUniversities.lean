import Hyeboard.FeaturePolicy.Policy
/-!
# Native universities

`apps/worker/src/vnu/vnu-runtime-config.ts`, and the part of `app.ts` that puts
its limits on the adapters' universities. Settings are strings of the
environment; what is not a canonical safe integer falls back, or disables.
-/

namespace Hyeboard.FeaturePolicy

structure EffectiveVnuRuntimeConfig where
  codeLookupConcurrency : Nat
  crossLookupBulkMaxTargets : Nat
  crossLookupDirectChunkMaxTargets : Nat
  codeLookupBulkTargetConcurrency : Nat
  crossLookupRequestTimeoutMs : Nat
  crossDetailMaxTargets : Nat
  crossDetailMaxRows : Nat
  crossDetailConcurrency : Nat
  crossDetailBudget : Nat
  crossDetailWindowSeconds : Nat
  crossDetailPermitTtlSeconds : Nat
  crossDetailExportMode : Option String
  crossDetailEnabled : Bool
deriving DecidableEq, Repr

structure VnuRuntimeConfigInput where
  codeLookupConcurrency : Option String
  crossLookupBulkMaxTargets : Option String
  crossLookupDirectChunkMaxTargets : Option String
  codeLookupBulkTargetConcurrency : Option String
  crossLookupRequestTimeoutMs : Option String
  crossDetailMaxTargets : Option String
  crossDetailMaxRows : Option String
  crossDetailConcurrency : Option String
  crossDetailBudget : Option String
  crossDetailWindowSeconds : Option String
  crossDetailPermitTtlSeconds : Option String
  crossDetailExportMode : Option String
deriving DecidableEq, Repr

namespace VnuRuntimeConfigInput

/-! ## Parsing -/

def parseSafeInteger (value : Option String) : Option Nat :=
  (value.bind canonicalInteger).filter (decide <| · ≤ maxSafeInteger)

/-- A setting that falls back, also when it is out of range. -/
def parseRanged (value : Option String) (fallback least greatest : Nat) : Nat :=
  ((parseSafeInteger value).filter fun n => decide (least ≤ n ∧ n ≤ greatest)).getD fallback

def parseCrossDetailBound (value : Option String) (fallback : Nat) : Nat :=
  if value.isNone then fallback else (parseSafeInteger value).getD 0

def parseCrossDetailRanged (value : Option String) (fallback least greatest : Nat) : Nat :=
  if value.isNone then fallback
  else ((parseSafeInteger value).filter fun n => decide (least ≤ n ∧ n ≤ greatest)).getD 0

variable (input : VnuRuntimeConfigInput)

def parsedConcurrency : Option Nat :=
  if input.codeLookupConcurrency.isNone then some 16 else parseSafeInteger input.codeLookupConcurrency

def parsedBulkMaximum : Option Nat :=
  if input.crossLookupBulkMaxTargets.isNone then some 500 else parseSafeInteger input.crossLookupBulkMaxTargets

def exportMode : Option String :=
  if input.crossDetailExportMode.all (· == "selected") then some "selected" else none

def parseVnuRuntimeConfig : EffectiveVnuRuntimeConfig :=
  let crossDetailMaxTargets := parseCrossDetailBound input.crossDetailMaxTargets 50
  let crossDetailMaxRows := parseCrossDetailBound input.crossDetailMaxRows 200
  let crossDetailConcurrency := parseCrossDetailRanged input.crossDetailConcurrency 6 1 16
  let crossDetailBudget := parseCrossDetailBound input.crossDetailBudget 300
  let crossDetailWindowSeconds := parseCrossDetailRanged input.crossDetailWindowSeconds 600 1 86400
  let crossDetailPermitTtlSeconds := parseCrossDetailRanged input.crossDetailPermitTtlSeconds 1200 1 1200
  { codeLookupConcurrency := (input.parsedConcurrency.filter (0 < ·)).getD 1
    crossLookupBulkMaxTargets := input.parsedBulkMaximum.getD 0
    crossLookupDirectChunkMaxTargets := parseRanged input.crossLookupDirectChunkMaxTargets 32 1 300
    codeLookupBulkTargetConcurrency := parseRanged input.codeLookupBulkTargetConcurrency 3 1 3
    crossLookupRequestTimeoutMs := parseRanged input.crossLookupRequestTimeoutMs 60000 1 120000
    crossDetailMaxTargets, crossDetailMaxRows, crossDetailConcurrency, crossDetailBudget, crossDetailWindowSeconds
    crossDetailPermitTtlSeconds
    crossDetailExportMode := input.exportMode
    crossDetailEnabled := 0 < crossDetailMaxTargets && 0 < crossDetailMaxRows && 0 < crossDetailConcurrency &&
      0 < crossDetailBudget && 0 < crossDetailWindowSeconds && 0 < crossDetailPermitTtlSeconds &&
      input.exportMode == some "selected" }

/-- What `warn` is called with, in order. -/
def warnings : List (String × Nat) :=
  let config := input.parseVnuRuntimeConfig
  -- the fallback is in force though the setting does not say so
  let fellBack (value : Option String) (effective fallback : Nat) :=
    value.isSome && effective == fallback && value != some (toString fallback)
  let malformed (value : Option String) := value.isSome && (parseSafeInteger value).isNone
  ([(fellBack input.codeLookupConcurrency config.codeLookupConcurrency 1, "VNU_CODE_LOOKUP_CONCURRENCY", 1),
    (malformed input.crossLookupBulkMaxTargets, "VNU_CROSS_LOOKUP_BULK_MAX_TARGETS", 0),
    (fellBack input.crossLookupDirectChunkMaxTargets config.crossLookupDirectChunkMaxTargets 32,
      "VNU_CROSS_LOOKUP_DIRECT_CHUNK_MAX_TARGETS", 32),
    (fellBack input.codeLookupBulkTargetConcurrency config.codeLookupBulkTargetConcurrency 3,
      "VNU_CODE_LOOKUP_BULK_TARGET_CONCURRENCY", 3),
    (fellBack input.crossLookupRequestTimeoutMs config.crossLookupRequestTimeoutMs 60000,
      "VNU_CROSS_LOOKUP_REQUEST_TIMEOUT_MS", 60000),
    (malformed input.crossDetailMaxTargets, "VNU_CROSS_DETAIL_MAX_TARGETS", 0),
    (malformed input.crossDetailMaxRows, "VNU_CROSS_DETAIL_MAX_ROWS", 0),
    (malformed input.crossDetailConcurrency, "VNU_CROSS_DETAIL_CONCURRENCY", 0),
    (malformed input.crossDetailBudget, "VNU_CROSS_DETAIL_BUDGET", 0),
    (malformed input.crossDetailWindowSeconds, "VNU_CROSS_DETAIL_WINDOW_SECONDS", 0),
    (malformed input.crossDetailPermitTtlSeconds, "VNU_CROSS_DETAIL_PERMIT_TTL_SECONDS", 0),
    (input.crossDetailExportMode.isSome && input.exportMode.isNone, "VNU_CROSS_DETAIL_EXPORT_MODE", 0)].filter (·.1)).map (·.2)

end VnuRuntimeConfigInput

/-! ## Serialization -/

/-- `VNU_STUDENT_ID_RESOLVER_MAX_PROBES`: a student id and 16 on each side. -/
def vnuStudentIdResolverMaxProbes : Nat := 1 + 16 * 2

section
variable (probeBudgetCoordinatorInstalled : Bool) (config : EffectiveVnuRuntimeConfig)

def vnuCrossLookupLimits : CrossLookupLimits :=
  let bulkMaxTargets := config.crossLookupBulkMaxTargets
  { bulkMaxTargets
    bulkDirectChunkMaxTargets := some config.crossLookupDirectChunkMaxTargets
    bulkModeMaxTargets := some <| .ofList
      [("stdid-to-code", bulkMaxTargets), ("stdid-to-transcript", bulkMaxTargets),
        ("code-to-stdid", min bulkMaxTargets (300 / vnuStudentIdResolverMaxProbes))]
    crossDetail :=
      if config.crossDetailEnabled then
        some {
          maxTargets := config.crossDetailMaxTargets
          maxRows := config.crossDetailMaxRows
          concurrency := config.crossDetailConcurrency }
      else none }

def serializeNativeUniversity (university : University) : University :=
  if !probeBudgetCoordinatorInstalled && university.capabilities.get? "crossLookup" == some true then
    { university with limits := none, capabilities := university.capabilities.set "crossLookup" false }
  else if probeBudgetCoordinatorInstalled && university.id == "vnu" &&
      university.capabilities.get? "crossLookup" == some true then
    { university with limits := some { crossLookup := some (vnuCrossLookupLimits config) } }
  else university

def serializeNativeUniversities : List University :=
  listUniversities.map (serializeNativeUniversity probeBudgetCoordinatorInstalled config)

def effectiveHardLimits : Record Nat :=
  let vnu := (serializeNativeUniversities probeBudgetCoordinatorInstalled config).find? (·.id == "vnu")
  match (vnu.bind (·.limits)).bind (·.crossLookup) with
  | none => .empty
  | some crossLookup =>
    let mode (name : String) := crossLookup.bulkModeMaxTargets.bind (·.get? name)
    let entries : List (String × Option Nat) :=
      [("crossLookup.bulkMaxTargets", some crossLookup.bulkMaxTargets),
        ("crossLookup.bulkDirectChunkMaxTargets", crossLookup.bulkDirectChunkMaxTargets),
        ("crossLookup.bulkModeMaxTargets.stdid-to-code", mode "stdid-to-code"),
        ("crossLookup.bulkModeMaxTargets.stdid-to-transcript", mode "stdid-to-transcript"),
        ("crossLookup.bulkModeMaxTargets.code-to-stdid", mode "code-to-stdid")]
    let crossDetail := match crossLookup.crossDetail with
      | none => []
      | some crossDetail =>
        [("crossLookup.crossDetail.maxTargets", crossDetail.maxTargets),
          ("crossLookup.crossDetail.maxRows", crossDetail.maxRows),
          ("crossLookup.crossDetail.concurrency", crossDetail.concurrency)]
    .ofList (entries.filterMap (fun e => e.2.map (e.1, ·)) ++ crossDetail)

end

end Hyeboard.FeaturePolicy
