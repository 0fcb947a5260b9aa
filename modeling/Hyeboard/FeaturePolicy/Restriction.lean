import Hyeboard.FeaturePolicy.NativeUniversities
/-!
# A policy only restricts

What `effectiveUniversity` makes of a native university lies within it
(`University.Within`), and a tighter policy leaves a university that lies within
what the looser one leaves.
-/

namespace Hyeboard.FeaturePolicy

/-! ## Limits -/

section
variable (policy : FeaturePolicyContent) (universityId key : String)

def FeaturePolicyContent.globalLimit : Option Nat := (policy.global.limits.get? key).join

def FeaturePolicyContent.universityLimit : Option Nat :=
  (policy.universities.get? universityId).bind (·.limits.get? key)

/-- The limit that is in force, unless it is the native one. -/
def FeaturePolicyContent.configuredLimit : Option Nat :=
  (policy.universityLimit universityId key).or (policy.globalLimit key)

def FeaturePolicyContent.universityCapability : Option Bool :=
  (policy.universities.get? universityId).bind (·.capabilities.get? key)

end

/-- What is left of a ceiling. -/
def restrict (ceiling : Nat) (configured : Option Nat) : Nat := (configured.map (min · ceiling)).getD ceiling

theorem restrict_le (ceiling : Nat) (configured : Option Nat) : restrict ceiling configured ≤ ceiling := by
  cases configured with
  | none => exact Nat.le_refl _
  | some limit => exact Nat.min_le_right _ _

theorem restrict_pos {ceiling : Nat} {configured : Option Nat} (hceiling : 0 < ceiling)
    (hconfigured : ∀ limit ∈ configured, 0 < limit) : 0 < restrict ceiling configured := by
  cases configured with
  | none => exact hceiling
  | some limit => exact Nat.lt_min.2 ⟨hconfigured limit rfl, hceiling⟩

/-- A lower limit, or one where there was none, leaves no more. -/
theorem restrict_mono {ceiling : Nat} {configured tighter : Option Nat}
    (h : ∀ limit ∈ configured, ∃ lower ∈ tighter, lower ≤ limit) : restrict ceiling tighter ≤ restrict ceiling configured := by
  cases configured with
  | none => exact restrict_le ceiling tighter
  | some limit =>
    obtain ⟨lower, hlower, hle⟩ := h limit rfl
    cases hlower
    exact Nat.le_min.2 ⟨Nat.le_trans (Nat.min_le_left _ _) hle, Nat.min_le_right _ _⟩

section
variable {policy : FeaturePolicyContent}

theorem globalLimit_positive (h : policy.ok = true) {key : String} {limit : Nat} (hlimit : policy.globalLimit key = some limit) :
    PositiveSafe limit := by
  simp only [FeaturePolicyContent.ok, GlobalPolicy.ok, Bool.and_eq_true, List.all_eq_true] at h
  rw [FeaturePolicyContent.globalLimit, Option.join_eq_some_iff, Record.get?_eq_some] at hlimit
  simpa using (h.1.2 _ hlimit).2

theorem universityLimit_positive (h : policy.ok = true) {universityId key : String} {limit : Nat}
    (hlimit : policy.universityLimit universityId key = some limit) : PositiveSafe limit := by
  simp only [FeaturePolicyContent.ok, Bool.and_eq_true, List.all_eq_true] at h
  rw [FeaturePolicyContent.universityLimit, Option.bind_eq_some_iff] at hlimit
  obtain ⟨university, huniversity, hlimit⟩ := hlimit
  have hok := (h.2 _ (Record.get?_eq_some.1 huniversity)).2
  simp only [UniversityPolicy.ok, Bool.and_eq_true, List.all_eq_true] at hok
  simpa using (hok.2 _ (Record.get?_eq_some.1 hlimit)).2

theorem configuredLimit_positive (h : policy.ok = true) {universityId key : String} {limit : Nat}
    (hlimit : policy.configuredLimit universityId key = some limit) : PositiveSafe limit := by
  rw [FeaturePolicyContent.configuredLimit, Option.or_eq_some_iff] at hlimit
  rcases hlimit with huniversity | ⟨-, hglobal⟩
  · exact universityLimit_positive h huniversity
  · exact globalLimit_positive h hglobal

theorem positiveSafe_iff {limit : Nat} : isSafeLimit limit = true ↔ PositiveSafe limit := by
  simp [isSafeLimit, isSafeCeiling, PositiveSafe, and_comm]

/-- A valid policy resolves every limit. -/
theorem resolveLimit_eq (h : policy.ok = true) (universityId key : String) {ceiling : Nat} (hceiling : ceiling ≤ maxSafeInteger) :
    ∃ limit, resolveLimit policy universityId key ceiling = .ok limit ∧
      limit.value = restrict ceiling (policy.configuredLimit universityId key) := by
  have huniversity : (policy.universityLimit universityId key).all isSafeLimit = true := by
    rw [Option.all_eq_true]
    exact fun limit hlimit => positiveSafe_iff.2 (universityLimit_positive h hlimit)
  have hglobal : (policy.globalLimit key).all isSafeLimit = true := by
    rw [Option.all_eq_true]
    exact fun limit hlimit => positiveSafe_iff.2 (globalLimit_positive h hlimit)
  simp only [FeaturePolicyContent.universityLimit] at huniversity
  simp only [FeaturePolicyContent.globalLimit] at hglobal
  have hsafe : isSafeCeiling ceiling = true := decide_eq_true hceiling
  simp only [resolveLimit, hsafe, huniversity, hglobal]
  exact ⟨_, rfl, rfl⟩

end

/-! ## Projection -/

section
variable {policy : FeaturePolicyContent} {universityId : String} {nativeLimits hardLimits : Record Nat}

/-- What `projectedLimits` has for a key. -/
def projectedLimit? (policy : FeaturePolicyContent) (universityId : String) (nativeLimits hardLimits : Record Nat)
    (key : String) : Option Nat :=
  ((ceiling? nativeLimits hardLimits key).filter (0 < ·)).map (restrict · (policy.configuredLimit universityId key))

theorem ceiling?_spec {key : String} {ceiling : Nat} (h : ceiling? nativeLimits hardLimits key = some ceiling) :
    ceiling ≤ maxSafeInteger ∧ (∀ limit ∈ nativeLimits.get? key, limit ≤ maxSafeInteger → ceiling ≤ limit) ∧
      ∀ limit ∈ hardLimits.get? key, limit ≤ maxSafeInteger → ceiling ≤ limit := by
  rw [ceiling?, List.min?_eq_some_iff] at h
  obtain ⟨hmem, hleast⟩ := h
  have hsafe : ∀ limit ceiling, ceiling = limit → isSafeCeiling limit = true → ceiling ≤ maxSafeInteger := by
    intro limit ceiling heq hsafe
    exact heq ▸ of_decide_eq_true hsafe
  refine ⟨?_, ?_, ?_⟩
  · obtain ⟨limit, -, hfilter⟩ := List.mem_filterMap.1 hmem
    rw [Option.filter_eq_some_iff] at hfilter
    exact of_decide_eq_true hfilter.2
  · intro limit hlimit hle
    apply hleast
    rw [List.mem_filterMap]
    refine ⟨some limit, ?_, ?_⟩
    · rw [← Option.mem_def.1 hlimit]
      exact List.mem_cons_self
    · rw [Option.filter_eq_some_iff]
      exact ⟨rfl, decide_eq_true hle⟩
  · intro limit hlimit hle
    apply hleast
    rw [List.mem_filterMap]
    refine ⟨some limit, ?_, ?_⟩
    · rw [← Option.mem_def.1 hlimit]
      exact List.mem_cons_of_mem _ List.mem_cons_self
    · rw [Option.filter_eq_some_iff]
      exact ⟨rfl, decide_eq_true hle⟩

/-- One turn of the loop. -/
theorem projectLimit_eq (h : policy.ok = true) (projectedLimits : Record Nat) (key : String) :
    ∃ next, projectLimit policy universityId nativeLimits hardLimits projectedLimits key = .ok next ∧
      ∀ k, next.get? k =
        if k = key then (projectedLimit? policy universityId nativeLimits hardLimits key).or (projectedLimits.get? key)
        else projectedLimits.get? k := by
  have hidle : projectedLimit? policy universityId nativeLimits hardLimits key = none → ∀ k, projectedLimits.get? k =
      if k = key then (projectedLimit? policy universityId nativeLimits hardLimits key).or (projectedLimits.get? key)
      else projectedLimits.get? k := by
    intro hnone k
    rw [hnone, Option.none_or]
    split
    · rename_i heq
      rw [heq]
    · rfl
  cases hceiling : ceiling? nativeLimits hardLimits key with
  | none =>
    have hnone : projectedLimit? policy universityId nativeLimits hardLimits key = none := by
      simp [projectedLimit?, hceiling]
    exact ⟨projectedLimits, by simp [projectLimit, hceiling], hidle hnone⟩
  | some ceiling =>
    cases ceiling with
    | zero =>
      have hnone : projectedLimit? policy universityId nativeLimits hardLimits key = none := by
        simp [projectedLimit?, hceiling]
      exact ⟨projectedLimits, by simp [projectLimit, hceiling], hidle hnone⟩
    | succ n =>
      obtain ⟨limit, hlimit, hvalue⟩ := resolveLimit_eq h universityId key (ceiling?_spec hceiling).1
      refine ⟨projectedLimits.set key limit.value, ?_, ?_⟩
      · simp only [projectLimit, hceiling, hlimit]
        rfl
      · intro k
        have hsome : projectedLimit? policy universityId nativeLimits hardLimits key = some limit.value := by
          simp [projectedLimit?, hceiling, hvalue]
        rw [Record.get?_set, hsome, Option.some_or]

/-- The whole loop. -/
theorem projectLimits_eq (h : policy.ok = true) (keys : List String) (projectedLimits : Record Nat) :
    ∃ next, keys.foldlM (projectLimit policy universityId nativeLimits hardLimits) projectedLimits = .ok next ∧
      ∀ k, next.get? k =
        if k ∈ keys then (projectedLimit? policy universityId nativeLimits hardLimits k).or (projectedLimits.get? k)
        else projectedLimits.get? k := by
  induction keys generalizing projectedLimits with
  | nil => exact ⟨projectedLimits, rfl, fun k => by simp⟩
  | cons key rest ih =>
    obtain ⟨first, hfirst, hget⟩ := projectLimit_eq h projectedLimits key
    obtain ⟨next, hnext, hrest⟩ := ih first
    refine ⟨next, ?_, ?_⟩
    · rw [List.foldlM_cons, hfirst]
      exact hnext
    · intro k
      rw [hrest, hget]
      by_cases heq : k = key
      · subst heq
        simp only [if_true, List.mem_cons_self]
        split
        · rw [← Option.or_assoc, Option.or_self]
        · rfl
      · simp only [heq, if_false, List.mem_cons, false_or]

end

/-! ## The effective university -/

def crossDetailKeys : List String :=
  ["crossLookup.crossDetail.maxTargets", "crossLookup.crossDetail.maxRows", "crossLookup.crossDetail.concurrency"]

/-- The limits of `crossDetail` are served together or not at all. -/
def served (limits : Record Nat) (key : String) : Option Nat :=
  if key ∈ crossDetailKeys ∧ (projectCrossDetail limits).isNone then none
  else if key ∈ operationalLimitKeys then limits.get? key
  else none

theorem bind_get?_nonempty {α : Type} (r : Record α) (key : String) :
    (if r.size = 0 then none else some r).bind (·.get? key) = r.get? key := by
  split
  · rename_i hempty
    rw [Record.size, List.length_eq_zero_iff] at hempty
    rw [Record.get?, hempty]
    rfl
  · rfl

theorem projectCrossDetail_eq_some {limits : Record Nat} {crossDetail : CrossDetailLimits} :
    projectCrossDetail limits = some crossDetail ↔
      limits.get? "crossLookup.crossDetail.maxTargets" = some crossDetail.maxTargets ∧
        limits.get? "crossLookup.crossDetail.maxRows" = some crossDetail.maxRows ∧
        limits.get? "crossLookup.crossDetail.concurrency" = some crossDetail.concurrency := by
  simp only [projectCrossDetail, Option.bind_eq_bind, Option.bind_eq_some_iff, Option.pure_def, Option.some_inj]
  constructor
  · rintro ⟨maxTargets, htargets, maxRows, hrows, concurrency, hconcurrency, rfl⟩
    exact ⟨htargets, hrows, hconcurrency⟩
  · rintro ⟨htargets, hrows, hconcurrency⟩
    exact ⟨_, htargets, _, hrows, _, hconcurrency, rfl⟩

theorem operationalLimitKeys_nodup : operationalLimitKeys.Nodup := by decide

/-- The keys `flattenLimits` reads, with what it reads. -/
def CrossLookupLimits.flat (crossLookup : CrossLookupLimits) : List (String × Option Nat) :=
  let mode (name : String) := crossLookup.bulkModeMaxTargets.bind (·.get? name)
  [("crossLookup.bulkMaxTargets", some crossLookup.bulkMaxTargets),
    ("crossLookup.bulkDirectChunkMaxTargets", crossLookup.bulkDirectChunkMaxTargets),
    ("crossLookup.bulkModeMaxTargets.stdid-to-code", mode "stdid-to-code"),
    ("crossLookup.bulkModeMaxTargets.stdid-to-transcript", mode "stdid-to-transcript"),
    ("crossLookup.bulkModeMaxTargets.code-to-stdid", mode "code-to-stdid"),
    ("crossLookup.crossDetail.maxTargets", crossLookup.crossDetail.map (·.maxTargets)),
    ("crossLookup.crossDetail.maxRows", crossLookup.crossDetail.map (·.maxRows)),
    ("crossLookup.crossDetail.concurrency", crossLookup.crossDetail.map (·.concurrency))]

theorem get?_flattenLimits {university : University} {crossLookup : CrossLookupLimits}
    (h : university.limits = some { crossLookup := some crossLookup }) (key : String) :
    (flattenLimits university).get? key = (crossLookup.flat.find? (fun e => e.1 = key)).bind (·.2) := by
  have hkeys : (crossLookup.flat.map Prod.fst).Nodup := operationalLimitKeys_nodup
  rw [← Record.get?_ofDefined hkeys, flattenLimits, h]
  rfl

/-- Reading the projected limits of a university back. -/
theorem flattenLimits_projectLimits (university : University) {limits : Record Nat} {bulkMaxTargets : Nat}
    (hbulk : limits.get? "crossLookup.bulkMaxTargets" = some bulkMaxTargets) (key : String) :
    (flattenLimits { university with limits := projectLimits limits }).get? key = served limits key := by
  let modes : List (String × Option Nat) :=
    [("stdid-to-code", limits.get? "crossLookup.bulkModeMaxTargets.stdid-to-code"),
      ("stdid-to-transcript", limits.get? "crossLookup.bulkModeMaxTargets.stdid-to-transcript"),
      ("code-to-stdid", limits.get? "crossLookup.bulkModeMaxTargets.code-to-stdid")]
  have hmodes : ∀ name, (Record.ofDefined modes).get? name = (modes.find? (fun e => e.1 = name)).bind (·.2) := by
    intro name
    apply Record.get?_ofDefined
    change ["stdid-to-code", "stdid-to-transcript", "code-to-stdid"].Nodup
    decide
  have hlimits : projectLimits limits = some {
      crossLookup := some {
        bulkMaxTargets
        bulkDirectChunkMaxTargets := limits.get? "crossLookup.bulkDirectChunkMaxTargets"
        bulkModeMaxTargets := if (Record.ofDefined modes).size = 0 then none else some (Record.ofDefined modes)
        crossDetail := projectCrossDetail limits } } := by
    rw [projectLimits, hbulk]
    rfl
  rw [get?_flattenLimits hlimits]
  simp only [CrossLookupLimits.flat, bind_get?_nonempty, hmodes]
  by_cases hkey : key ∈ operationalLimitKeys
  · simp only [operationalLimitKeys, List.mem_cons, List.not_mem_nil, or_false] at hkey
    cases hdetail : projectCrossDetail limits with
    | none =>
      rcases hkey with rfl | rfl | rfl | rfl | rfl | rfl | rfl | rfl <;>
        simp [served, modes, hdetail, hbulk, operationalLimitKeys, crossDetailKeys]
    | some crossDetail =>
      obtain ⟨htargets, hrows, hconcurrency⟩ := projectCrossDetail_eq_some.1 hdetail
      rcases hkey with rfl | rfl | rfl | rfl | rfl | rfl | rfl | rfl <;>
        simp [served, modes, hdetail, htargets, hrows, hconcurrency, hbulk, operationalLimitKeys]
  · have hserved : served limits key = none := by simp [served, hkey]
    rw [hserved, List.find?_eq_none.2]
    · rfl
    · intro e hmem heq
      have hnames : e.1 ∈ operationalLimitKeys := List.mem_map_of_mem hmem
      exact hkey (of_decide_eq_true heq ▸ hnames)

/-- Hard limits that `validateHardLimits` accepts. -/
def HardLimitsOk (hardLimits : Record Nat) : Prop :=
  ∀ e ∈ hardLimits.entries, limitKeyOk e.1 = true ∧ isSafeCeiling e.2 = true

theorem validateHardLimits_eq {hardLimits : Record Nat} (h : HardLimitsOk hardLimits) :
    validateHardLimits hardLimits = .ok () := by
  rw [validateHardLimits, forM_eq_ok]
  intro e hmem
  obtain ⟨hkey, hsafe⟩ := h e hmem
  simp only [bind_eq_ok, require_eq_ok]
  exact ⟨(), hkey, hsafe⟩

/-- What `effectiveUniversity` makes of a university, from the limits it
projects. -/
structure Effective (university : University) (policy : FeaturePolicyContent) (hardLimits : Record Nat)
    (effective : University) : Prop where
  id : effective.id = university.id
  capability : ∀ key, key ≠ "crossLookup" → effective.capabilities.get? key =
    (university.capabilities.get? key).map fun supported => (resolveCapability supported policy university.id key).enabled
  crossLookup : effective.capabilities.get? "crossLookup" = some true ↔
    (university.capabilities.get? "crossLookup").map
        (fun supported => (resolveCapability supported policy university.id "crossLookup").enabled) = some true ∧
      (projectedLimit? policy university.id (flattenLimits university) hardLimits "crossLookup.bulkMaxTargets").isSome
  limits : ∃ limits : Record Nat,
    (∀ key, limits.get? key =
      if key ∈ operationalLimitKeys then projectedLimit? policy university.id (flattenLimits university) hardLimits key
      else none) ∧
    effective.limits = if effective.capabilities.get? "crossLookup" = some true then projectLimits limits else none

theorem effectiveUniversity_eq (university : University) {policy : FeaturePolicyContent} {hardLimits : Record Nat}
    (h : policy.ok = true) (hhard : HardLimitsOk hardLimits) :
    ∃ effective, effectiveUniversity university policy hardLimits = .ok effective ∧
      Effective university policy hardLimits effective := by
  have hloop : ∃ limits, operationalLimitKeys.foldlM
      (projectLimit policy university.id (flattenLimits university) hardLimits) .empty = .ok limits ∧ _ :=
    projectLimits_eq h operationalLimitKeys .empty
  obtain ⟨limits, hlimits, hget⟩ := hloop
  simp only [Record.get?_empty, Option.or_none] at hget
  have hbulk : limits.get? "crossLookup.bulkMaxTargets" =
      projectedLimit? policy university.id (flattenLimits university) hardLimits "crossLookup.bulkMaxTargets" := by
    rw [hget]
    exact if_pos (by decide)
  simp only [effectiveUniversity, validateHardLimits_eq hhard, hlimits]
  refine ⟨_, rfl, rfl, ?_, ?_, limits, hget, ?_⟩
  · intro key hkey
    dsimp only
    split
    · rw [Record.get?_set_of_ne _ _ hkey, Record.get?_mapValues]
    · rw [Record.get?_mapValues]
  · dsimp only
    rw [hbulk]
    cases projectedLimit? policy university.id (flattenLimits university) hardLimits "crossLookup.bulkMaxTargets" with
    | none => simp
    | some limit => simp [Record.get?_mapValues]
  · dsimp only
    cases hprojected : limits.get? "crossLookup.bulkMaxTargets" with
    | none => simp
    | some limit => simp

/-! ## Native universities -/

section
variable {installed : Bool} {config : EffectiveVnuRuntimeConfig} {university : University}

/-- The only university with limits. -/
def nativeVnu (config : EffectiveVnuRuntimeConfig) : University :=
  { vnuUniversity with limits := some { crossLookup := some (vnuCrossLookupLimits config) } }

theorem serializeNativeUniversities_installed (config : EffectiveVnuRuntimeConfig) :
    serializeNativeUniversities true config = [mockUniversity, uetUniversity, nativeVnu config] := rfl

/-- Without limits there is no `crossLookup`. -/
theorem native_cases (h : university ∈ serializeNativeUniversities installed config) :
    university.limits = none ∧ university.capabilities.get? "crossLookup" = some false ∨
      installed = true ∧ university = nativeVnu config := by
  cases installed with
  | true =>
    rw [serializeNativeUniversities_installed] at h
    simp only [List.mem_cons, List.not_mem_nil, or_false] at h
    rcases h with rfl | rfl | rfl
    · exact .inl (by decide)
    · exact .inl (by decide)
    · exact .inr ⟨rfl, rfl⟩
  | false =>
    left
    have hnone : ∀ university ∈ [mockUniversity, uetUniversity,
        { vnuUniversity with capabilities := vnuUniversity.capabilities.set "crossLookup" false }],
        university.limits = none ∧ university.capabilities.get? "crossLookup" = some false := by
      decide
    exact hnone university h

theorem get?_modes {α : Type} (toCode toTranscript toId : α) :
    let modes := Record.ofList [("stdid-to-code", toCode), ("stdid-to-transcript", toTranscript), ("code-to-stdid", toId)]
    modes.get? "stdid-to-code" = some toCode ∧ modes.get? "stdid-to-transcript" = some toTranscript ∧
      modes.get? "code-to-stdid" = some toId :=
  ⟨rfl, rfl, rfl⟩

theorem effectiveHardLimits_installed (config : EffectiveVnuRuntimeConfig) :
    effectiveHardLimits true config = flattenLimits (nativeVnu config) := by
  have hfind : (serializeNativeUniversities true config).find? (·.id == "vnu") = some (nativeVnu config) := rfl
  have hmodes := get?_modes config.crossLookupBulkMaxTargets config.crossLookupBulkMaxTargets
    (min config.crossLookupBulkMaxTargets (300 / vnuStudentIdResolverMaxProbes))
  rw [effectiveHardLimits, hfind]
  cases hdetail : config.crossDetailEnabled <;>
    simp [nativeVnu, flattenLimits, vnuCrossLookupLimits, hdetail, hmodes]

/-! ### Parsed limits are safe -/

theorem parseSafeInteger_le {value : Option String} {n : Nat}
    (h : VnuRuntimeConfigInput.parseSafeInteger value = some n) : n ≤ maxSafeInteger := by
  rw [VnuRuntimeConfigInput.parseSafeInteger, Option.filter_eq_some_iff] at h
  exact of_decide_eq_true h.2

theorem getD_le {value : Option Nat} {fallback bound : Nat} (hvalue : ∀ n, value = some n → n ≤ bound)
    (hfallback : fallback ≤ bound) : value.getD fallback ≤ bound := by
  cases value with
  | none => exact hfallback
  | some n => exact hvalue n rfl

theorem parseCrossDetailBound_le {value : Option String} {fallback : Nat} (h : fallback ≤ maxSafeInteger) :
    VnuRuntimeConfigInput.parseCrossDetailBound value fallback ≤ maxSafeInteger := by
  unfold VnuRuntimeConfigInput.parseCrossDetailBound
  split
  · exact h
  · exact getD_le (fun n hn => parseSafeInteger_le hn) (Nat.zero_le _)

theorem getD_filter_le {value : Option Nat} {fallback least greatest : Nat} (h : fallback ≤ greatest) :
    (value.filter fun n => decide (least ≤ n ∧ n ≤ greatest)).getD fallback ≤ greatest := by
  apply getD_le _ h
  intro n hn
  rw [Option.filter_eq_some_iff, decide_eq_true_eq] at hn
  exact hn.2.2

theorem parseCrossDetailRanged_le {value : Option String} {fallback least greatest : Nat} (h : fallback ≤ greatest) :
    VnuRuntimeConfigInput.parseCrossDetailRanged value fallback least greatest ≤ greatest := by
  unfold VnuRuntimeConfigInput.parseCrossDetailRanged
  split
  · exact h
  · exact getD_filter_le (Nat.zero_le _)

theorem bulkMaximum_le (input : VnuRuntimeConfigInput) : input.parseVnuRuntimeConfig.crossLookupBulkMaxTargets ≤ maxSafeInteger := by
  apply getD_le _ (Nat.zero_le _)
  intro n hn
  unfold VnuRuntimeConfigInput.parsedBulkMaximum at hn
  split at hn
  · cases hn
    decide
  · exact parseSafeInteger_le hn

theorem flat_safe (input : VnuRuntimeConfigInput) : ∀ e ∈ (vnuCrossLookupLimits input.parseVnuRuntimeConfig).flat,
    ∀ limit ∈ e.2, limit ≤ maxSafeInteger := by
  have hbulk := bulkMaximum_le input
  have hchunk : input.parseVnuRuntimeConfig.crossLookupDirectChunkMaxTargets ≤ 300 := getD_filter_le (by decide)
  have htargets : input.parseVnuRuntimeConfig.crossDetailMaxTargets ≤ maxSafeInteger := parseCrossDetailBound_le (by decide)
  have hrows : input.parseVnuRuntimeConfig.crossDetailMaxRows ≤ maxSafeInteger := parseCrossDetailBound_le (by decide)
  have hconcurrency : input.parseVnuRuntimeConfig.crossDetailConcurrency ≤ 16 := parseCrossDetailRanged_le (by decide)
  generalize input.parseVnuRuntimeConfig = config at *
  have hmodes := get?_modes config.crossLookupBulkMaxTargets config.crossLookupBulkMaxTargets
    (min config.crossLookupBulkMaxTargets (300 / vnuStudentIdResolverMaxProbes))
  have hmax : maxSafeInteger = 9007199254740991 := rfl
  cases hdetail : config.crossDetailEnabled <;>
    simp [CrossLookupLimits.flat, vnuCrossLookupLimits, hdetail, hmodes] <;> omega

theorem nativeVnu_safe (input : VnuRuntimeConfigInput) {key : String} {limit : Nat}
    (h : (flattenLimits (nativeVnu input.parseVnuRuntimeConfig)).get? key = some limit) :
    key ∈ operationalLimitKeys ∧ limit ≤ maxSafeInteger := by
  rw [get?_flattenLimits (show (nativeVnu _).limits = _ from rfl), Option.bind_eq_some_iff] at h
  obtain ⟨e, hfind, hlimit⟩ := h
  have hmem := List.mem_of_find?_eq_some hfind
  have hkey : e.1 = key := by simpa using List.find?_some hfind
  exact ⟨hkey ▸ List.mem_map_of_mem hmem, flat_safe input e hmem limit hlimit⟩

theorem hardLimits_ok (installed : Bool) (input : VnuRuntimeConfigInput) :
    HardLimitsOk (effectiveHardLimits installed input.parseVnuRuntimeConfig) := by
  cases installed with
  | false =>
    intro _ hmem
    cases hmem
  | true =>
    rw [effectiveHardLimits_installed]
    rintro ⟨key, limit⟩ hmem
    obtain ⟨hkey, hsafe⟩ := nativeVnu_safe input (Record.get?_eq_some.2 hmem)
    exact ⟨List.contains_iff_mem.2 hkey, decide_eq_true hsafe⟩

end

/-! ## Restriction -/

/-- No capability, no limit and no greater limit that the other lacks. -/
structure University.Within (university other : University) : Prop where
  capabilities : ∀ key, university.capabilities.get? key = some true → other.capabilities.get? key = some true
  limits : ∀ key limit, (flattenLimits university).get? key = some limit →
    ∃ greater, (flattenLimits other).get? key = some greater ∧ limit ≤ greater

structure Restricts (effective native : University) (hardLimits : Record Nat) : Prop where
  within : effective.Within native
  positive : ∀ key limit, (flattenLimits effective).get? key = some limit → PositiveSafe limit
  hard : ∀ key limit, (flattenLimits effective).get? key = some limit →
    ∃ hardLimit, hardLimits.get? key = some hardLimit ∧ limit ≤ hardLimit
  present : effective.limits.isSome = true ↔ effective.capabilities.get? "crossLookup" = some true

/-- The tighter policy differs from the looser one, as far as it concerns the
university, by capabilities it disables and by limits in force that are lower, or
that are numbers where the native limit was in force. -/
structure FeaturePolicyContent.Tightens (tighter looser : FeaturePolicyContent) (universityId : String) : Prop where
  globalCapability : ∀ key, tighter.global.capabilities.get? key ≠ looser.global.capabilities.get? key →
    tighter.global.capabilities.get? key = some false
  universityCapability : ∀ key, tighter.universityCapability universityId key ≠ looser.universityCapability universityId key →
    tighter.universityCapability universityId key = some false
  limit : ∀ key limit, looser.configuredLimit universityId key = some limit →
    ∃ lower, tighter.configuredLimit universityId key = some lower ∧ lower ≤ limit

section
variable {university effective : University} {policy looser tighter : FeaturePolicyContent} {hardLimits : Record Nat} {key : String}

theorem resolveCapability_enabled {supported : Bool} {universityId : String} :
    (resolveCapability supported policy universityId key).enabled = true ↔
      supported = true ∧ policy.global.capabilities.get? key ≠ some false ∧
        policy.universityCapability universityId key ≠ some false := by
  unfold resolveCapability FeaturePolicyContent.universityCapability
  cases supported with
  | false => simp
  | true =>
    simp only [Bool.not_true, Bool.false_eq_true, if_false, true_and, ne_eq]
    split
    · rename_i hglobal
      simp [hglobal]
    · rename_i hglobal
      split <;> simp [*]

theorem enabled_mono {universityId : String} (h : tighter.Tightens looser universityId) {supported : Bool}
    (henabled : (resolveCapability supported tighter universityId key).enabled = true) :
    (resolveCapability supported looser universityId key).enabled = true := by
  rw [resolveCapability_enabled] at henabled ⊢
  obtain ⟨hsupported, hglobal, huniversity⟩ := henabled
  refine ⟨hsupported, ?_, ?_⟩
  · -- what the tighter policy does not disable, it leaves as it was
    intro hfalse
    have hsame := not_imp_comm.1 (h.globalCapability key) hglobal
    exact hglobal (hsame.trans hfalse)
  · intro hfalse
    have hsame := not_imp_comm.1 (h.universityCapability key) huniversity
    exact huniversity (hsame.trans hfalse)

theorem Effective.enabled (h : Effective university policy hardLimits effective)
    (henabled : effective.capabilities.get? key = some true) :
    (university.capabilities.get? key).map
      (fun supported => (resolveCapability supported policy university.id key).enabled) = some true := by
  by_cases hkey : key = "crossLookup"
  · subst hkey
    exact (h.crossLookup.1 henabled).1
  · rw [← h.capability key hkey]
    exact henabled

theorem Effective.supported (h : Effective university policy hardLimits effective)
    (henabled : effective.capabilities.get? key = some true) : university.capabilities.get? key = some true := by
  have hmap := h.enabled henabled
  rw [Option.map_eq_some_iff] at hmap
  obtain ⟨supported, hget, hresolved⟩ := hmap
  rw [hget, (resolveCapability_enabled.1 hresolved).1]

/-- The limits of an effective university, by key. -/
theorem Effective.get?_limits (h : Effective university policy hardLimits effective)
    (henabled : effective.capabilities.get? "crossLookup" = some true) : ∃ limits : Record Nat,
    (∀ key, limits.get? key =
      if key ∈ operationalLimitKeys then projectedLimit? policy university.id (flattenLimits university) hardLimits key
      else none) ∧ effective.limits = projectLimits limits ∧ ∀ key, (flattenLimits effective).get? key = served limits key := by
  obtain ⟨limits, hget, hlimits⟩ := h.limits
  rw [if_pos henabled] at hlimits
  refine ⟨limits, hget, hlimits, fun key => ?_⟩
  obtain ⟨bulk, hbulk⟩ := Option.isSome_iff_exists.1 (h.crossLookup.1 henabled).2
  have hsome : limits.get? "crossLookup.bulkMaxTargets" = some bulk := by
    rw [hget, ← hbulk]
    exact if_pos (by decide)
  have hserved := flattenLimits_projectLimits effective hsome key
  rwa [← hlimits] at hserved

theorem Effective.present (h : Effective university policy hardLimits effective) :
    effective.limits.isSome = true ↔ effective.capabilities.get? "crossLookup" = some true := by
  constructor
  · intro hsome
    obtain ⟨limits, -, hlimits⟩ := h.limits
    split at hlimits
    · rename_i henabled
      exact henabled
    · rw [hlimits] at hsome
      cases hsome
  · intro henabled
    obtain ⟨limits, hget, hlimits, -⟩ := h.get?_limits henabled
    have hbulk := (h.crossLookup.1 henabled).2
    have hsome : limits.get? "crossLookup.bulkMaxTargets" = _ := hget _
    rw [if_pos (by decide)] at hsome
    rw [← hsome] at hbulk
    obtain ⟨bulk, hbulk⟩ := Option.isSome_iff_exists.1 hbulk
    rw [hlimits, projectLimits, hbulk]
    rfl

theorem served_eq_some {limits : Record Nat} {limit : Nat} (h : served limits key = some limit) :
    key ∈ operationalLimitKeys ∧ limits.get? key = some limit ∧
      (key ∈ crossDetailKeys → (projectCrossDetail limits).isSome = true) := by
  unfold served at h
  split at h
  · cases h
  · rename_i hshown
    split at h
    · rename_i hkey
      refine ⟨hkey, h, fun hdetail => ?_⟩
      cases hproject : projectCrossDetail limits with
      | none => exact absurd ⟨hdetail, by rw [hproject]; rfl⟩ hshown
      | some _ => rfl
    · cases h

theorem Effective.limit (h : Effective university policy hardLimits effective) {limit : Nat}
    (hlimit : (flattenLimits effective).get? key = some limit) :
    effective.capabilities.get? "crossLookup" = some true ∧ key ∈ operationalLimitKeys ∧
      projectedLimit? policy university.id (flattenLimits university) hardLimits key = some limit := by
  have henabled : effective.capabilities.get? "crossLookup" = some true := by
    apply h.present.1
    cases hlimits : effective.limits with
    | some _ => rfl
    | none =>
      rw [flattenLimits, hlimits] at hlimit
      cases hlimit
  obtain ⟨limits, hget, -, hserved⟩ := h.get?_limits henabled
  rw [hserved] at hlimit
  obtain ⟨hkey, hlimit, -⟩ := served_eq_some hlimit
  rw [hget, if_pos hkey] at hlimit
  exact ⟨henabled, hkey, hlimit⟩

theorem projectedLimit?_eq_some {universityId : String} {nativeLimits : Record Nat} {limit : Nat} :
    projectedLimit? policy universityId nativeLimits hardLimits key = some limit ↔
      ∃ ceiling, ceiling? nativeLimits hardLimits key = some ceiling ∧ 0 < ceiling ∧
        limit = restrict ceiling (policy.configuredLimit universityId key) := by
  simp only [projectedLimit?, Option.map_eq_some_iff, Option.filter_eq_some_iff, decide_eq_true_eq]
  constructor
  · rintro ⟨ceiling, ⟨hceiling, hpos⟩, rfl⟩
    exact ⟨ceiling, hceiling, hpos, rfl⟩
  · rintro ⟨ceiling, hceiling, hpos, rfl⟩
    exact ⟨ceiling, ⟨hceiling, hpos⟩, rfl⟩

/-- Whether a key has a limit does not depend on the policy. -/
theorem projectedLimit?_mono {universityId : String} {nativeLimits : Record Nat} (h : tighter.Tightens looser universityId)
    {limit : Nat} (hlimit : projectedLimit? tighter universityId nativeLimits hardLimits key = some limit) :
    ∃ greater, projectedLimit? looser universityId nativeLimits hardLimits key = some greater ∧ limit ≤ greater := by
  obtain ⟨ceiling, hceiling, hpos, rfl⟩ := projectedLimit?_eq_some.1 hlimit
  refine ⟨_, projectedLimit?_eq_some.2 ⟨ceiling, hceiling, hpos, rfl⟩, ?_⟩
  apply restrict_mono
  intro configured hconfigured
  obtain ⟨lower, hlower, hle⟩ := h.limit key configured hconfigured
  exact ⟨lower, hlower, hle⟩

theorem Effective.mono {effective' : University} (h : Effective university looser hardLimits effective)
    (h' : Effective university tighter hardLimits effective') (htightens : tighter.Tightens looser university.id) :
    effective'.Within effective := by
  have hcapability : ∀ key, effective'.capabilities.get? key = some true → effective.capabilities.get? key = some true := by
    intro key henabled
    have hmap := h'.enabled henabled
    rw [Option.map_eq_some_iff] at hmap
    obtain ⟨supported, hget, hresolved⟩ := hmap
    have hlooser := enabled_mono htightens hresolved
    by_cases hkey : key = "crossLookup"
    · subst hkey
      obtain ⟨bulk, hbulk⟩ := Option.isSome_iff_exists.1 (h'.crossLookup.1 henabled).2
      obtain ⟨greater, hgreater, -⟩ := projectedLimit?_mono htightens hbulk
      exact h.crossLookup.2 ⟨by rw [hget, Option.map_some, hlooser], by rw [hgreater]; rfl⟩
    · rw [h.capability key hkey, hget, Option.map_some, hlooser]
  refine ⟨hcapability, ?_⟩
  intro key limit hlimit
  obtain ⟨henabled, hkey, hprojected⟩ := h'.limit hlimit
  obtain ⟨limits', hget', -, hserved'⟩ := h'.get?_limits henabled
  obtain ⟨limits, hget, -, hserved⟩ := h.get?_limits (hcapability _ henabled)
  -- every limit of the tighter projection is one of the looser
  have hall : ∀ k value, limits'.get? k = some value → ∃ greater, limits.get? k = some greater ∧ value ≤ greater := by
    intro k value hvalue
    rw [hget'] at hvalue
    split at hvalue
    · rename_i hk
      obtain ⟨greater, hgreater, hle⟩ := projectedLimit?_mono htightens hvalue
      exact ⟨greater, by rw [hget, if_pos hk, hgreater], hle⟩
    · cases hvalue
  rw [hserved'] at hlimit
  obtain ⟨-, hvalue, hdetail⟩ := served_eq_some hlimit
  obtain ⟨greater, hgreater, hle⟩ := hall key limit hvalue
  refine ⟨greater, ?_, hle⟩
  rw [hserved, served, if_neg, if_pos hkey, hgreater]
  rintro ⟨hmem, hnone⟩
  obtain ⟨crossDetail, hsome⟩ := Option.isSome_iff_exists.1 (hdetail hmem)
  obtain ⟨htargets, hrows, hconcurrency⟩ := projectCrossDetail_eq_some.1 hsome
  obtain ⟨maxTargets, hmaxTargets, -⟩ := hall _ _ htargets
  obtain ⟨maxRows, hmaxRows, -⟩ := hall _ _ hrows
  obtain ⟨concurrency, hmaxConcurrency, -⟩ := hall _ _ hconcurrency
  have hthere : projectCrossDetail limits = some { maxTargets, maxRows, concurrency } :=
    projectCrossDetail_eq_some.2 ⟨hmaxTargets, hmaxRows, hmaxConcurrency⟩
  rw [hthere] at hnone
  cases hnone

end

/-- What is projected onto a native university is restricted. -/
theorem Effective.restricts {installed : Bool} {input : VnuRuntimeConfigInput} {university effective : University}
    {policy : FeaturePolicyContent} (hok : policy.ok = true)
    (hmem : university ∈ serializeNativeUniversities installed input.parseVnuRuntimeConfig)
    (h : Effective university policy (effectiveHardLimits installed input.parseVnuRuntimeConfig) effective) :
    Restricts effective university (effectiveHardLimits installed input.parseVnuRuntimeConfig) := by
  have hlimits : ∀ key limit, (flattenLimits effective).get? key = some limit → PositiveSafe limit ∧
      (∃ greater, (flattenLimits university).get? key = some greater ∧ limit ≤ greater) ∧
      ∃ hardLimit, (effectiveHardLimits installed input.parseVnuRuntimeConfig).get? key = some hardLimit ∧
        limit ≤ hardLimit := by
    intro key limit hlimit
    obtain ⟨henabled, -, hprojected⟩ := h.limit hlimit
    rcases native_cases hmem with ⟨-, hnone⟩ | ⟨rfl, rfl⟩
    · rw [h.supported henabled] at hnone
      cases hnone
    · obtain ⟨ceiling, hceiling, hpos, rfl⟩ := projectedLimit?_eq_some.1 hprojected
      rw [effectiveHardLimits_installed] at hceiling ⊢
      have hsafe := (ceiling?_spec hceiling).1
      have hle := restrict_le ceiling (policy.configuredLimit (nativeVnu input.parseVnuRuntimeConfig).id key)
      obtain ⟨native, hnative⟩ : ∃ native, (flattenLimits (nativeVnu input.parseVnuRuntimeConfig)).get? key = some native := by
        cases hnative : (flattenLimits (nativeVnu input.parseVnuRuntimeConfig)).get? key with
        | some native => exact ⟨native, rfl⟩
        | none =>
          rw [ceiling?, hnative] at hceiling
          cases hceiling
      have hbelow := (ceiling?_spec hceiling).2.1 native hnative (nativeVnu_safe input hnative).2
      have hpositive : 0 < restrict ceiling (policy.configuredLimit (nativeVnu input.parseVnuRuntimeConfig).id key) :=
        restrict_pos hpos fun configured hconfigured => (configuredLimit_positive hok hconfigured).1
      exact ⟨⟨hpositive, Nat.le_trans hle hsafe⟩, ⟨native, hnative, Nat.le_trans hle hbelow⟩, native, hnative,
        Nat.le_trans hle hbelow⟩
  refine ⟨⟨fun key => h.supported, ?_⟩, ?_, ?_, h.present⟩
  · exact fun key limit hlimit => (hlimits key limit hlimit).2.1
  · exact fun key limit hlimit => (hlimits key limit hlimit).1
  · exact fun key limit hlimit => (hlimits key limit hlimit).2.2

/-- A valid policy restricts every native university, and a tighter valid policy
restricts it further. -/
theorem policy_only_restricts (installed : Bool) (input : VnuRuntimeConfigInput) {university : University}
    (hmem : university ∈ serializeNativeUniversities installed input.parseVnuRuntimeConfig)
    {content looser : FeaturePolicyContent} {universities : List University} {limits : Record Nat}
    (hlooser : validatePolicy content universities limits = .ok looser) :
    ∃ effective, effectiveUniversity university looser (effectiveHardLimits installed input.parseVnuRuntimeConfig) = .ok effective ∧
      Restricts effective university (effectiveHardLimits installed input.parseVnuRuntimeConfig) ∧
      ∀ (content' tighter : FeaturePolicyContent) (universities' : List University) (limits' : Record Nat),
        validatePolicy content' universities' limits' = .ok tighter → tighter.Tightens looser university.id →
        ∃ effective', effectiveUniversity university tighter (effectiveHardLimits installed input.parseVnuRuntimeConfig) =
          .ok effective' ∧ effective'.Within effective := by
  have hhard := hardLimits_ok installed input
  obtain ⟨rfl, hok, -⟩ := validatePolicy_eq_ok hlooser
  obtain ⟨effective, heffective, hspec⟩ := effectiveUniversity_eq university hok hhard
  refine ⟨effective, heffective, hspec.restricts hok hmem, ?_⟩
  intro content' tighter universities' limits' htighter htightens
  obtain ⟨rfl, hok', -⟩ := validatePolicy_eq_ok htighter
  obtain ⟨effective', heffective', hspec'⟩ := effectiveUniversity_eq university hok' hhard
  exact ⟨effective', heffective', hspec.mono hspec' htightens⟩

def defaultInput : VnuRuntimeConfigInput :=
  { codeLookupConcurrency := none, crossLookupBulkMaxTargets := none, crossLookupDirectChunkMaxTargets := none
    codeLookupBulkTargetConcurrency := none, crossLookupRequestTimeoutMs := none, crossDetailMaxTargets := none
    crossDetailMaxRows := none, crossDetailConcurrency := none, crossDetailBudget := none
    crossDetailWindowSeconds := none, crossDetailPermitTtlSeconds := none, crossDetailExportMode := none }

/-- The policy that lets a bulk lookup have five targets. -/
def fiveTargets : FeaturePolicyContent :=
  { emptyPolicy with global := { capabilities := .empty, limits := .ofList [("crossLookup.bulkMaxTargets", some 5)] } }

theorem policy_only_restricts_sample : ∃ effective effective' : University,
    effectiveUniversity (nativeVnu defaultInput.parseVnuRuntimeConfig) emptyPolicy
      (effectiveHardLimits true defaultInput.parseVnuRuntimeConfig) = .ok effective ∧
    effectiveUniversity (nativeVnu defaultInput.parseVnuRuntimeConfig) fiveTargets
      (effectiveHardLimits true defaultInput.parseVnuRuntimeConfig) = .ok effective' ∧ effective'.Within effective := by
  have hmem : nativeVnu defaultInput.parseVnuRuntimeConfig ∈ serializeNativeUniversities true defaultInput.parseVnuRuntimeConfig := by
    simp [serializeNativeUniversities_installed]
  have hempty : validatePolicy emptyPolicy listUniversities .empty = .ok emptyPolicy := rfl
  have hfive : validatePolicy fiveTargets listUniversities .empty = .ok fiveTargets := by decide +kernel
  obtain ⟨effective, heffective, -, htighter⟩ := policy_only_restricts true defaultInput hmem hempty
  have htightens : fiveTargets.Tightens emptyPolicy vnuUniversity.id := by
    constructor
    · exact fun _ hne => absurd rfl hne
    · exact fun _ hne => absurd rfl hne
    · intro _ _ hlimit
      cases hlimit
  obtain ⟨effective', heffective', hwithin⟩ := htighter _ _ _ _ hfive htightens
  exact ⟨effective, effective', heffective, heffective', hwithin⟩

end Hyeboard.FeaturePolicy
