import Hyeboard.BulkLookup.Acceptance
import Hyeboard.CrossLookup.Requests
import Hyeboard.ProbeBudget.Coordinators
/-!
# What a bulk request is charged

The bound of 300 units is nowhere compared with a body: it comes of the chunk
limit of the configuration, the limit of resolver targets in `app.ts`, and that a
policy lowers a limit but drops none that is positive.
-/

namespace Hyeboard.CrossLookup
open FeaturePolicy BulkLookup

/-! ## Limits that are served -/

section
variable {policy : FeaturePolicyContent} {effective : University} {input : VnuRuntimeConfigInput}

/-- The native limits are the ceilings. -/
theorem ceiling?_native {key : String} {native : Nat}
    (h : (flattenLimits (nativeVnu input.parseVnuRuntimeConfig)).get? key = some native) :
    ceiling? (flattenLimits (nativeVnu input.parseVnuRuntimeConfig))
      (effectiveHardLimits true input.parseVnuRuntimeConfig) key = some native := by
  have hsafe : (some native).filter isSafeCeiling = some native :=
    Option.filter_some_pos (decide_eq_true (nativeVnu_safe input h).2)
  rw [effectiveHardLimits_installed, ceiling?, h]
  simp only [List.filterMap_cons, List.filterMap_nil, hsafe, List.min?_cons', List.foldl_cons, List.foldl_nil, Nat.min_self]

/-- A positive limit stays, at most as great. -/
theorem served_native (hok : policy.ok = true)
    (h : Effective (nativeVnu input.parseVnuRuntimeConfig) policy (effectiveHardLimits true input.parseVnuRuntimeConfig) effective)
    (henabled : effective.capabilities.get? "crossLookup" = some true) {key : String} {native : Nat}
    (hkey : key ∈ operationalLimitKeys) (hdetail : key ∉ crossDetailKeys)
    (hnative : (flattenLimits (nativeVnu input.parseVnuRuntimeConfig)).get? key = some native) (hpos : 0 < native) :
    ∃ limit, (flattenLimits effective).get? key = some limit ∧ 0 < limit ∧ limit ≤ native := by
  obtain ⟨limits, hget, -, hserved⟩ := h.get?_limits henabled
  refine ⟨restrict native (policy.configuredLimit (nativeVnu input.parseVnuRuntimeConfig).id key), ?_,
    restrict_pos hpos fun configured hconfigured => (configuredLimit_positive hok hconfigured).1, restrict_le _ _⟩
  rw [hserved, served, if_neg (fun hboth => hdetail hboth.1), if_pos hkey, hget, if_pos hkey]
  exact projectedLimit?_eq_some.2 ⟨native, ceiling?_native hnative, hpos, rfl⟩

/-- What is served of the limits of bulk lookups. -/
structure Served (crossLookup : CrossLookupLimits) : Prop where
  bulk : 0 < crossLookup.bulkMaxTargets
  direct : ∃ direct, crossLookup.bulkDirectChunkMaxTargets = some direct ∧ 0 < direct ∧ direct ≤ 300
  mode : ∀ mode : VnuBulkLookupMode, ∃ limit, crossLookup.bulkModeMaxTargets.bind (·.get? mode.name) = some limit ∧ 0 < limit ∧
    (mode = .codeToStdid → limit ≤ 300 / vnuStudentIdResolverMaxProbes)

theorem native_limits (input : VnuRuntimeConfigInput) :
    let config := input.parseVnuRuntimeConfig
    (flattenLimits (nativeVnu config)).get? "crossLookup.bulkMaxTargets" = some config.crossLookupBulkMaxTargets ∧
    (flattenLimits (nativeVnu config)).get? "crossLookup.bulkDirectChunkMaxTargets" =
      some config.crossLookupDirectChunkMaxTargets ∧
    ∀ mode : VnuBulkLookupMode, (flattenLimits (nativeVnu config)).get? ("crossLookup.bulkModeMaxTargets." ++ mode.name) =
      some (if mode = .codeToStdid then min config.crossLookupBulkMaxTargets (300 / vnuStudentIdResolverMaxProbes)
        else config.crossLookupBulkMaxTargets) := by
  intro config
  have hlimits : (nativeVnu config).limits = some { crossLookup := some (vnuCrossLookupLimits config) } := rfl
  refine ⟨?_, ?_, fun mode => ?_⟩
  · rw [get?_flattenLimits hlimits]
    rfl
  · rw [get?_flattenLimits hlimits]
    rfl
  · rw [get?_flattenLimits hlimits]
    cases mode <;> rfl

theorem directChunk_range (input : VnuRuntimeConfigInput) :
    0 < input.parseVnuRuntimeConfig.crossLookupDirectChunkMaxTargets ∧
      input.parseVnuRuntimeConfig.crossLookupDirectChunkMaxTargets ≤ 300 := by
  refine ⟨?_, getD_filter_le (by decide)⟩
  change 0 < VnuRuntimeConfigInput.parseRanged input.crossLookupDirectChunkMaxTargets 32 1 300
  unfold VnuRuntimeConfigInput.parseRanged
  cases hfilter : (VnuRuntimeConfigInput.parseSafeInteger input.crossLookupDirectChunkMaxTargets).filter
      fun n => decide (1 ≤ n ∧ n ≤ 300) with
  | none => decide
  | some n => exact (of_decide_eq_true (Option.filter_eq_some_iff.1 hfilter).2).1

/-- A university with `crossLookup` is served all of them. -/
theorem effective_served {installed : Bool} {university : University} (hok : policy.ok = true)
    (hmem : university ∈ serializeNativeUniversities installed input.parseVnuRuntimeConfig)
    (h : Effective university policy (effectiveHardLimits installed input.parseVnuRuntimeConfig) effective)
    (henabled : effective.capabilities.get? "crossLookup" = some true) :
    ∃ crossLookup, effective.limits = some { crossLookup := some crossLookup } ∧ Served crossLookup := by
  rcases native_cases hmem with ⟨-, hnone⟩ | ⟨rfl, rfl⟩
  · rw [h.supported henabled] at hnone
    cases hnone
  obtain ⟨hnativeBulk, hnativeDirect, hnativeMode⟩ := native_limits input
  -- the limits are there, with a positive `bulkMaxTargets`
  obtain ⟨crossLookup, hlimits⟩ : ∃ crossLookup, effective.limits = some { crossLookup := some crossLookup } := by
    obtain ⟨limits, -, hlimits, -⟩ := h.get?_limits henabled
    obtain ⟨served, hserved⟩ := Option.isSome_iff_exists.1 (h.present.2 henabled)
    rw [hserved] at hlimits ⊢
    unfold projectLimits at hlimits
    split at hlimits
    · cases hlimits
    · exact ⟨_, hlimits⟩
  have hbulk : 0 < input.parseVnuRuntimeConfig.crossLookupBulkMaxTargets := by
    obtain ⟨limit, hlimit⟩ := Option.isSome_iff_exists.1 (h.crossLookup.1 henabled).2
    obtain ⟨ceiling, hceiling, hpos, -⟩ := projectedLimit?_eq_some.1 hlimit
    rw [ceiling?_native hnativeBulk] at hceiling
    cases hceiling
    exact hpos
  have hget := get?_flattenLimits hlimits
  refine ⟨crossLookup, hlimits, ?_, ?_, fun mode => ?_⟩
  · obtain ⟨limit, hlimit, hpos, -⟩ := served_native hok h henabled (by decide) (by decide) hnativeBulk hbulk
    rw [hget] at hlimit
    obtain rfl : crossLookup.bulkMaxTargets = limit := Option.some.inj hlimit
    exact hpos
  · obtain ⟨hpos, hle⟩ := directChunk_range input
    obtain ⟨limit, hlimit, hlimitPos, hlimitLe⟩ := served_native hok h henabled (by decide) (by decide) hnativeDirect hpos
    rw [hget] at hlimit
    exact ⟨limit, hlimit, hlimitPos, Nat.le_trans hlimitLe hle⟩
  · have hkeys : "crossLookup.bulkModeMaxTargets." ++ mode.name ∈ operationalLimitKeys ∧
        "crossLookup.bulkModeMaxTargets." ++ mode.name ∉ crossDetailKeys := by
      cases mode <;> decide
    have hpos : 0 < if mode = .codeToStdid then
        min input.parseVnuRuntimeConfig.crossLookupBulkMaxTargets (300 / vnuStudentIdResolverMaxProbes)
        else input.parseVnuRuntimeConfig.crossLookupBulkMaxTargets := by
      split
      · exact Nat.lt_min.2 ⟨hbulk, by decide⟩
      · exact hbulk
    obtain ⟨limit, hlimit, hlimitPos, hlimitLe⟩ := served_native hok h henabled hkeys.1 hkeys.2 (hnativeMode mode) hpos
    rw [hget] at hlimit
    refine ⟨limit, ?_, hlimitPos, fun hmode => ?_⟩
    · cases mode <;> exact hlimit
    · rw [if_pos hmode] at hlimitLe
      exact Nat.le_trans hlimitLe (Nat.min_le_right _ _)

end

/-! ## Charges -/

/-- The limit of a mode, as served. -/
theorem Served.modeLimit {crossLookup : CrossLookupLimits} (h : Served crossLookup) (mode : VnuBulkLookupMode) :
    0 < vnuBulkModeLimit mode (some { crossLookup := some crossLookup }) ∧
      vnuBulkModeLimit mode (some { crossLookup := some crossLookup }) *
        (if mode = .codeToStdid then vnuStudentIdResolverMaxProbes else 1) ≤ 300 := by
  obtain ⟨direct, hdirect, hdirectPos, hdirectLe⟩ := h.direct
  obtain ⟨limit, hlimit, hlimitPos, hlimitLe⟩ := h.mode mode
  have hbulk := h.bulk
  have hmin : vnuBulkModeLimit mode (some { crossLookup := some crossLookup }) =
      min crossLookup.bulkMaxTargets (min direct limit) := by
    simp only [vnuBulkModeLimit, Option.bind_some, hdirect, hlimit, Option.getD_some]
  rw [hmin]
  refine ⟨by omega, ?_⟩
  split
  case isTrue hmode =>
    have hprobes : vnuStudentIdResolverMaxProbes = 33 := rfl
    have hnine := hlimitLe hmode
    rw [hprobes] at hnine ⊢
    omega
  case isFalse => omega

theorem parse_modeLimit {value : JsValue} {limits : Option UniversityLimits} {body : VnuBulkLookupBody}
    (h : parseVnuBulkLookupBody value limits = .ok body) :
    0 < body.targets.length ∧ body.targets.length ≤ vnuBulkModeLimit body.mode limits := by
  unfold parseVnuBulkLookupBody at h
  split at h
  case h_2 => cases h
  split at h
  case h_2 => cases h
  split at h
  · cases h
  split at h
  case h_2 => cases h
  split at h
  · cases h
  case isFalse hfits =>
    cases h
    exact ⟨by simp, Nat.not_lt.1 hfits⟩

theorem mode_of_requestBody {mode : VnuBulkLookupMode} {targets : List String} {limits : Option UniversityLimits}
    {body : VnuBulkLookupBody} (h : parseVnuBulkLookupBody (requestBody mode targets) limits = .ok body) : body.mode = mode := by
  cases targets with
  | nil => simp [parseVnuBulkLookupBody, requestBody, JsValue.field, parseMode_name] at h
  | cons target rest =>
    simp [parseVnuBulkLookupBody, requestBody, JsValue.field, parseMode_name] at h
    split at h
    · cases h
    · cases h
      rfl

/-- Every bulk body that is accepted can be charged, and while `crossLookup` is served every mode accepts some body. -/
theorem bulk_bodies_chargeable (installed : Bool) (input : VnuRuntimeConfigInput) {university effective : University}
    (hmem : university ∈ serializeNativeUniversities installed input.parseVnuRuntimeConfig)
    {content policy : FeaturePolicyContent} {universities : List University} {hardLimits : Record Nat}
    (hpolicy : validatePolicy content universities hardLimits = .ok policy)
    (heffective : effectiveUniversity university policy (effectiveHardLimits installed input.parseVnuRuntimeConfig) = .ok effective) :
    (∀ value body, parseVnuBulkLookupBody value effective.limits = .ok body →
      1 ≤ vnuBulkReservationUnits body ∧ vnuBulkReservationUnits body ≤ 300 ∧
        ProbeBudget.assertValidConsumeAmount (vnuBulkReservationUnits body) = .ok ()) ∧
    (effective.capabilities.get? "crossLookup" = some true → ∀ mode, ∃ value body,
      parseVnuBulkLookupBody value effective.limits = .ok body ∧ body.mode = mode ∧ body.targets ≠ []) := by
  obtain ⟨rfl, hok, -⟩ := validatePolicy_eq_ok hpolicy
  obtain ⟨_, heq, hspec⟩ := effectiveUniversity_eq university hok (hardLimits_ok installed input)
  rw [heffective] at heq
  cases heq
  refine ⟨fun value body hbody => ?_, fun henabled mode => ?_⟩
  · obtain ⟨hpos, hfits⟩ := parse_modeLimit hbody
    -- without limits no body fits
    have henabled : effective.capabilities.get? "crossLookup" = some true := by
      apply hspec.present.1
      cases hlimits : effective.limits with
      | some _ => rfl
      | none =>
        rw [hlimits] at hfits
        exact absurd (Nat.lt_of_lt_of_le hpos hfits) (Nat.lt_irrefl 0)
    obtain ⟨crossLookup, hlimits, hserved⟩ := effective_served hok hmem hspec henabled
    rw [hlimits] at hfits
    have hlower : 1 ≤ vnuBulkReservationUnits body := by
      unfold vnuBulkReservationUnits
      split
      · exact Nat.mul_pos hpos (by decide)
      · exact Nat.mul_pos hpos (by decide)
    have hupper : vnuBulkReservationUnits body ≤ 300 :=
      Nat.le_trans (Nat.mul_le_mul_right _ hfits) (hserved.modeLimit body.mode).2
    refine ⟨hlower, hupper, ?_⟩
    rw [ProbeBudget.assertValidConsumeAmount, require_eq_ok]
    have hsafe : vnuBulkReservationUnits body ≤ maxSafeInteger := Nat.le_trans hupper (by decide)
    have hpos : 0 < vnuBulkReservationUnits body := hlower
    simp [ProbeBudget.isPositiveSafe, ProbeBudget.isSafe, ProbeBudget.vnuProbeBudgetLimit, hpos, hupper, hsafe]
  · obtain ⟨crossLookup, hlimits, hserved⟩ := effective_served hok hmem hspec henabled
    have hfits : ["1"].length ≤ vnuBulkModeLimit mode effective.limits := hlimits ▸ (hserved.modeLimit mode).1
    have htarget : ["1"] ≠ [] := by simp
    obtain ⟨body, hbody⟩ := (parse_requestBody htarget effective.limits).2 hfits
    refine ⟨requestBody mode ["1"], body, hbody, ?_, ?_⟩
    · exact mode_of_requestBody hbody
    · exact List.ne_nil_of_length_pos (parse_modeLimit hbody).1

theorem bulk_bodies_chargeable_default :
    (∀ value body, parseVnuBulkLookupBody value (defaultUniversity 500).limits = .ok body →
      1 ≤ vnuBulkReservationUnits body ∧ vnuBulkReservationUnits body ≤ 300 ∧
        ProbeBudget.assertValidConsumeAmount (vnuBulkReservationUnits body) = .ok ()) ∧
    ((defaultUniversity 500).capabilities.get? "crossLookup" = some true → ∀ mode, ∃ value body,
      parseVnuBulkLookupBody value (defaultUniversity 500).limits = .ok body ∧ body.mode = mode ∧ body.targets ≠ []) := by
  have hpolicy : validatePolicy emptyPolicy listUniversities .empty = .ok emptyPolicy := rfl
  have heffective : effectiveUniversity (nativeVnu defaultInput.parseVnuRuntimeConfig) emptyPolicy
      (effectiveHardLimits true defaultInput.parseVnuRuntimeConfig) = .ok (defaultUniversity 500) := by
    decide +kernel
  exact bulk_bodies_chargeable true defaultInput (nativeVnu_mem _) hpolicy heffective

end Hyeboard.CrossLookup
