import Hyeboard.BulkLookup.Request
import Hyeboard.FeaturePolicy.Restriction
/-!
# Whether the worker takes the client's chunks

The client bounds a whole run by the limit of its mode and cuts it at a size of
its own; the worker bounds every chunk by the least of three limits.
`ChunksFit` is what of that the client leaves to chance.
-/

namespace Hyeboard.BulkLookup
open FeaturePolicy

/-- The longest chunk of `count` targets is within `bulkMaxTargets` and, where the
chunk size is not the served one, within `bulkDirectChunkMaxTargets`. -/
def ChunksFit (mode : VnuBulkLookupMode) (limits : CrossLookupLimits) (count : Nat) : Prop :=
  if mode = .codeToStdid then
    min 3 count ≤ limits.bulkMaxTargets ∧ ∀ direct ∈ limits.bulkDirectChunkMaxTargets, min 3 count ≤ direct
  else min (limits.bulkDirectChunkMaxTargets.getD 5) count ≤ limits.bulkMaxTargets

section
variable {mode : VnuBulkLookupMode} {limits : CrossLookupLimits}

theorem parseMode_name (mode : VnuBulkLookupMode) : parseMode (.string mode.name) = some mode := by
  cases mode <;> rfl

/-- The worker takes a body of the client exactly when it is not too long. -/
theorem parse_requestBody {targets : List String} (h : targets ≠ []) (served : Option UniversityLimits) :
    (∃ body, parseVnuBulkLookupBody (requestBody mode targets) served = .ok body) ↔
      targets.length ≤ vnuBulkModeLimit mode served := by
  cases targets with
  | nil => exact absurd rfl h
  | cons target rest =>
    have hfields : parseVnuBulkLookupBody (requestBody mode (target :: rest)) served =
        if vnuBulkModeLimit mode served < ((target :: rest).map JsValue.string).length then .error chunkTooLarge
        else .ok { mode, targets := (target :: rest).map JsValue.string } := by
      simp [parseVnuBulkLookupBody, requestBody, JsValue.field, parseMode_name]
    rw [hfields, List.length_map]
    split
    · rename_i hlong
      constructor
      · rintro ⟨_, herror⟩
        cases herror
      · intro hle
        exact absurd hlong (Nat.not_lt.2 hle)
    · rename_i hshort
      exact iff_of_true ⟨_, rfl⟩ (Nat.not_lt.1 hshort)

theorem parseBulkTargets_accepted {raw : String} {maximum : Option Nat} {targets : List String}
    (h : parseBulkTargets raw maximum = { targets, error := none }) :
    targets ≠ [] ∧ ∃ bound, maximum = some bound ∧ targets.length ≤ bound := by
  unfold parseBulkTargets at h
  split at h
  · cases h
  · rename_i bound hbound
    rw [Option.filter_eq_some_iff] at hbound
    dsimp only at h
    split at h
    · cases h
    · rename_i hempty
      split at h
      · cases h
      · rename_i hlong
        obtain rfl : typedTargets raw = targets := congrArg ParsedBulkTargets.targets h
        refine ⟨fun hnil => hempty (List.isEmpty_iff.2 hnil), bound, hbound.1, Nat.not_lt.1 hlong⟩

theorem activeMaximum_eq (limits : CrossLookupLimits) (mode : VnuBulkLookupMode) :
    activeMaximum limits mode =
      some ((limits.bulkModeMaxTargets.bind (·.get? mode.name)).getD limits.bulkMaxTargets) := by
  unfold activeMaximum
  cases limits.bulkModeMaxTargets.bind (·.get? mode.name) <;> rfl

theorem servedLimits_eq_some {university : University} (h : servedLimits university = some limits) :
    university.limits = some { crossLookup := some limits } := by
  unfold servedLimits at h
  split at h
  · rw [Option.bind_eq_some_iff] at h
    obtain ⟨⟨crossLookup⟩, hlimits, hcross⟩ := h
    dsimp only at hcross
    rw [hlimits, hcross]
  · cases h

/-- A run within the limit of its mode, chunk by chunk. -/
theorem chunks_fit_iff {count : Nat} (hdirect : ∀ direct ∈ limits.bulkDirectChunkMaxTargets, PositiveSafe direct)
    (hcount : count ≤ (limits.bulkModeMaxTargets.bind (·.get? mode.name)).getD limits.bulkMaxTargets) :
    min (chunkSize mode limits.bulkDirectChunkMaxTargets) count ≤
        vnuBulkModeLimit mode (some { crossLookup := some limits }) ↔ ChunksFit mode limits count := by
  have hvalid : validChunkMaximum limits.bulkDirectChunkMaxTargets = limits.bulkDirectChunkMaxTargets := by
    cases hserved : limits.bulkDirectChunkMaxTargets with
    | none => rfl
    | some direct => exact Option.filter_some_pos (decide_eq_true (hdirect direct hserved))
  rw [chunkSize, hvalid]
  simp only [vnuBulkModeLimit, Option.bind_some, ChunksFit, Nat.le_min]
  split
  · -- the size is 3, whatever was served
    cases hserved : limits.bulkDirectChunkMaxTargets with
    | none => simp; omega
    | some direct => simp; omega
  · cases hserved : limits.bulkDirectChunkMaxTargets with
    | none => simp; omega
    | some direct => simp; omega

end

/-- The worker takes every chunk of a run the client accepts, exactly when the
chunks fit the limits the client did not compare them with. -/
theorem chunks_accepted_iff (installed : Bool) (input : VnuRuntimeConfigInput) {university effective : University}
    (hmem : university ∈ serializeNativeUniversities installed input.parseVnuRuntimeConfig)
    {content policy : FeaturePolicyContent} {universities : List University} {hardLimits : Record Nat}
    (hpolicy : validatePolicy content universities hardLimits = .ok policy)
    (heffective : effectiveUniversity university policy (effectiveHardLimits installed input.parseVnuRuntimeConfig) = .ok effective)
    {limits : CrossLookupLimits} (hserved : servedLimits effective = some limits) (mode : VnuBulkLookupMode) (raw : String)
    {targets : List String} (hparsed : parseBulkTargets raw (activeMaximum limits mode) = { targets, error := none }) :
    (∀ chunk ∈ chunkBulkTargets mode targets limits.bulkDirectChunkMaxTargets,
        ∃ body, parseVnuBulkLookupBody (requestBody mode chunk) effective.limits = .ok body) ↔
      ChunksFit mode limits targets.length := by
  have hlimits := servedLimits_eq_some hserved
  obtain ⟨hne, bound, hbound, hcount⟩ := parseBulkTargets_accepted hparsed
  rw [activeMaximum_eq, Option.some_inj] at hbound
  -- what is served is positive
  obtain ⟨rfl, hok, -⟩ := validatePolicy_eq_ok hpolicy
  obtain ⟨_, heq, hspec⟩ := effectiveUniversity_eq university hok (hardLimits_ok installed input)
  rw [heffective] at heq
  cases heq
  have hdirect : ∀ direct ∈ limits.bulkDirectChunkMaxTargets, PositiveSafe direct := by
    intro direct hsome
    apply (hspec.restricts hok hmem).positive "crossLookup.bulkDirectChunkMaxTargets"
    rw [get?_flattenLimits hlimits]
    exact hsome
  rw [← chunks_fit_iff hdirect (hbound ▸ hcount), ← hlimits, ← forall_chunks_length_le hne]
  constructor
  · intro hall chunk hchunk
    exact (parse_requestBody (ne_nil_of_mem_chunks (chunkSize_pos _ _) hchunk) _).1 (hall chunk hchunk)
  · intro hall chunk hchunk
    exact (parse_requestBody (ne_nil_of_mem_chunks (chunkSize_pos _ _) hchunk) _).2 (hall chunk hchunk)

/-- The limits a policy leaves of the default configuration, if it lowers
`bulkMaxTargets` at most. -/
def defaultLimits (bulkMaxTargets : Nat) : CrossLookupLimits :=
  { bulkMaxTargets
    bulkDirectChunkMaxTargets := some 32
    bulkModeMaxTargets := some <| .ofList [("stdid-to-code", 500), ("stdid-to-transcript", 500), ("code-to-stdid", 9)]
    crossDetail := some { maxTargets := 50, maxRows := 200, concurrency := 6 } }

def defaultUniversity (bulkMaxTargets : Nat) : University :=
  { vnuUniversity with limits := some { crossLookup := some (defaultLimits bulkMaxTargets) } }

def twoTargets : FeaturePolicyContent :=
  { emptyPolicy with global := { capabilities := .empty, limits := .ofList [("crossLookup.bulkMaxTargets", some 2)] } }

theorem nativeVnu_mem (input : VnuRuntimeConfigInput) :
    nativeVnu input.parseVnuRuntimeConfig ∈ serializeNativeUniversities true input.parseVnuRuntimeConfig := by
  simp [serializeNativeUniversities_installed]

theorem chunks_accepted_iff_sample :
    (∀ chunk ∈ chunkBulkTargets .stdidToCode ["1", "2"] (some 32),
        ∃ body, parseVnuBulkLookupBody (requestBody .stdidToCode chunk) (defaultUniversity 500).limits = .ok body) ↔
      ChunksFit .stdidToCode (defaultLimits 500) 2 := by
  have hpolicy : validatePolicy emptyPolicy listUniversities .empty = .ok emptyPolicy := rfl
  have heffective : effectiveUniversity (nativeVnu defaultInput.parseVnuRuntimeConfig) emptyPolicy
      (effectiveHardLimits true defaultInput.parseVnuRuntimeConfig) = .ok (defaultUniversity 500) := by
    decide +kernel
  have hserved : servedLimits (defaultUniversity 500) = some (defaultLimits 500) := by decide +kernel
  have hparsed : parseBulkTargets "1\n2" (activeMaximum (defaultLimits 500) .stdidToCode) =
      { targets := ["1", "2"], error := none } := by
    decide +kernel
  exact chunks_accepted_iff true defaultInput (nativeVnu_mem _) hpolicy heffective hserved .stdidToCode "1\n2" hparsed

/-- A policy allows two targets, the client accepts three and sends them at once. -/
theorem chunk_refused : ¬ ∀ (installed : Bool) (input : VnuRuntimeConfigInput) (university effective : University),
    university ∈ serializeNativeUniversities installed input.parseVnuRuntimeConfig →
    ∀ (content policy : FeaturePolicyContent) (universities : List University) (hardLimits : Record Nat),
    validatePolicy content universities hardLimits = .ok policy →
    effectiveUniversity university policy (effectiveHardLimits installed input.parseVnuRuntimeConfig) = .ok effective →
    ∀ limits, servedLimits effective = some limits → ∀ mode raw targets,
    parseBulkTargets raw (activeMaximum limits mode) = { targets, error := none } →
    ∀ chunk ∈ chunkBulkTargets mode targets limits.bulkDirectChunkMaxTargets,
      ∃ body, parseVnuBulkLookupBody (requestBody mode chunk) effective.limits = .ok body := by
  intro hall
  have hpolicy : validatePolicy twoTargets listUniversities .empty = .ok twoTargets := by decide +kernel
  have heffective : effectiveUniversity (nativeVnu defaultInput.parseVnuRuntimeConfig) twoTargets
      (effectiveHardLimits true defaultInput.parseVnuRuntimeConfig) = .ok (defaultUniversity 2) := by
    decide +kernel
  have hserved : servedLimits (defaultUniversity 2) = some (defaultLimits 2) := by decide +kernel
  have hparsed : parseBulkTargets "1\n2\n3" (activeMaximum (defaultLimits 2) .codeToStdid) =
      { targets := ["1", "2", "3"], error := none } := by
    decide +kernel
  have hchunk : ["1", "2", "3"] ∈ chunkBulkTargets .codeToStdid ["1", "2", "3"] (some 32) := by decide +kernel
  obtain ⟨body, hbody⟩ := hall true defaultInput _ _ (nativeVnu_mem _) _ _ _ _ hpolicy heffective _ hserved .codeToStdid _ _
    hparsed _ hchunk
  cases hbody

end Hyeboard.BulkLookup
