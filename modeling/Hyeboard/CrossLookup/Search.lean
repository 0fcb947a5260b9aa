import Hyeboard.CrossLookup.Progress
/-!
# Which student a search finds

However its probes settle, a search finds the first id of its order with the
target's code: the pool may learn of a later match first, but it names none
before every earlier candidate has settled (`search_schedule_independent`).
-/

namespace Hyeboard.CrossLookup

/-! ## The order of the candidates -/

/-- The ids a search may try, nearest to the projected one first. -/
def searchOrder (projectedStdId : Int) (correction : Option Int) : List Int :=
  ((projectedStdId :: (correction.toList ++ localWindow projectedStdId)).filter isValidStudentId).eraseDups

theorem find?_searchOrder {projectedStdId : Int} (hvalid : isValidStudentId projectedStdId = true) (correction : Option Int)
    (p : Int → Bool) : (searchOrder projectedStdId correction).find? p =
      if p projectedStdId then some projectedStdId else (localCandidates projectedStdId correction).find? p := by
  rw [searchOrder, find?_eraseDups, List.filter_cons_of_pos hvalid, List.find?_cons]
  cases hp : p projectedStdId with
  | true => rfl
  | false =>
    simp only [Bool.false_eq_true, if_false]
    rw [localCandidates_eq, List.find?_filter, List.find?_filter, find?_eraseDups]
    apply List.find?_congr
    intro candidate _
    by_cases hsame : candidate = projectedStdId
    · rw [hsame, hp]
      simp
    · simp [hsame]

/-! ## The scan of the settled prefix -/

theorem scanSettled_some {targetCode : String} {codes : List (Nat × Option String)} (room : Nat) : ∀ {first index : Nat},
    Resolver.scanSettled targetCode codes room first = some index →
    codes.lookup index = some (some targetCode) ∧
      ∀ earlier, first ≤ earlier → earlier < index → ∃ code, codes.lookup earlier = some code ∧ code ≠ some targetCode := by
  induction room with
  | zero =>
    intro first index h
    cases h
  | succ room ih =>
    intro first index h
    rw [Resolver.scanSettled] at h
    cases hlookup : codes.lookup first with
    | none =>
      rw [hlookup] at h
      cases h
    | some code =>
      rw [hlookup] at h
      simp only at h
      split at h
      case isTrue htarget =>
        obtain rfl := Option.some.inj h
        refine ⟨htarget ▸ hlookup, fun earlier hge hlt => ?_⟩
        omega
      case isFalse hother =>
        obtain ⟨hindex, hrest⟩ := ih h
        refine ⟨hindex, fun earlier hge hlt => ?_⟩
        rcases Nat.eq_or_lt_of_le hge with rfl | hlater
        · exact ⟨code, hlookup, hother⟩
        · exact hrest earlier hlater hlt

/-- A match whose predecessors have all settled is found. -/
theorem scanSettled_isSome {targetCode : String} {codes : List (Nat × Option String)} {index : Nat}
    (hindex : codes.lookup index = some (some targetCode)) (room : Nat) : ∀ {first : Nat}, first ≤ index → index < first + room →
    (∀ earlier, first ≤ earlier → earlier < index → (codes.lookup earlier).isSome = true) →
    (Resolver.scanSettled targetCode codes room first).isSome = true := by
  induction room with
  | zero =>
    intro first hle hlt
    omega
  | succ room ih =>
    intro first hle hlt hsettled
    rw [Resolver.scanSettled]
    rcases Nat.eq_or_lt_of_le hle with rfl | hless
    · rw [hindex]
      simp
    · obtain ⟨code, hlookup⟩ := Option.isSome_iff_exists.1 (hsettled first (Nat.le_refl _) hless)
      rw [hlookup]
      simp only
      split
      · rfl
      · exact ih hless (by omega) fun earlier hge => hsettled earlier (by omega)

/-- As many codes as settled indexes. -/
theorem lt_length_of_lookup {codes : List (Nat × Option String)} {index : Nat}
    (h : ∀ earlier, earlier ≤ index → (codes.lookup earlier).isSome = true) : index < codes.length := by
  have hsubset : List.range (index + 1) ⊆ codes.map Prod.fst := by
    intro earlier hmem
    obtain ⟨e, he, hkey⟩ := List.lookup_isSome_iff.1 (h earlier (Nat.le_of_lt_succ (List.mem_range.1 hmem)))
    exact List.mem_map.2 ⟨e, he, (eq_of_beq hkey).symm⟩
  have hlength := List.nodup_range.length_le_of_subset hsubset
  rwa [List.length_range, List.length_map] at hlength

namespace Resolver

/-- Filling the pool stops at its width, at the last candidate, or at a match. -/
theorem fillPoolLoop_full (room : Nat) : ∀ {s : ResolverState}, s.candidates.length - s.nextIndex ≤ room →
    s.earliestExactIndex.getD s.candidates.length ≤ s.candidates.length →
    (fillPoolLoop room s).poolWidth ≤ (fillPoolLoop room s).active.length ∨
      s.earliestExactIndex.getD s.candidates.length ≤ (fillPoolLoop room s).nextIndex := by
  induction room with
  | zero =>
    intro s hroom hbound
    rw [fillPoolLoop]
    omega
  | succ room ih =>
    intro s hroom hbound
    rw [fillPoolLoop]
    split
    case isTrue hgoes =>
      have hlt : s.nextIndex < s.candidates.length := by omega
      rw [List.getElem?_eq_getElem hlt]
      apply ih
      · simp only [startProbe]
        omega
      · exact hbound
    case isFalse hstops => omega

variable {resolver : Resolver} {s : ResolverState} {code : Int → Option String}

/-- Every candidate before the next one has been tried. -/
theorem Placed.tried (h : Placed resolver s) {index : Nat} (hlt : index < s.nextIndex) :
    ∃ probe ∈ s.active ++ s.finished, probe.index = some index := by
  have hbound : index < s.candidates.length := Nat.lt_of_lt_of_le hlt h.next
  have hget : (s.candidates.take s.nextIndex)[index]? = some s.candidates[index] := by
    rw [List.getElem?_take_of_lt hlt, List.getElem?_eq_getElem]
  have hplace : (some index, s.candidates[index]) ∈ resolver.places s :=
    List.mem_cons_of_mem _ (List.mem_map.2 ⟨(_, index), List.mem_zipIdx_iff_getElem?.2 hget, rfl⟩)
  obtain ⟨probe, hmem, hprobe⟩ := List.mem_map.1 (h.probes.mem_iff.2 hplace)
  exact ⟨probe, hmem, congrArg Prod.fst hprobe⟩

/-- A probe of the pool asks for the candidate at its index. -/
theorem Placed.candidate (h : Placed resolver s) {probe : ActiveProbe} (hmem : probe ∈ s.active ++ s.finished) {index : Nat}
    (hindex : probe.index = some index) : s.candidates[index]? = some probe.stdId := by
  have hplace : place probe ∈ resolver.places s := h.probes.mem_iff.1 (List.mem_map_of_mem hmem)
  rw [place, hindex, places, List.mem_cons] at hplace
  rcases hplace with hfirst | hpool
  · cases hfirst
  · obtain ⟨⟨stdId, at_⟩, hzip, heq⟩ := List.mem_map.1 hpool
    obtain ⟨hat, hid⟩ := Prod.mk.inj heq
    obtain rfl := Option.some.inj hat
    rw [← hid]
    have hget := List.mem_zipIdx_iff_getElem?.1 hzip
    rw [List.getElem?_take] at hget
    split at hget
    · exact hget
    · cases hget

/-! ## A portal that answers -/

/-- It resolves, with whatever, or rejects with an abort. -/
def settlesCancelled : ProbeOutcome → Bool
  | .ok _ => true
  | .error error => isAbortError error

/-- What the portal lets a probe's work settle with: the student's code, unless
the probe has been cancelled. -/
def AnswersProbe (code : Int → Option String) (probe : ActiveProbe) (outcome : ProbeOutcome) : Prop :=
  if probe.cancelled = none then outcome = .ok (code probe.stdId) else settlesCancelled outcome = true

instance (code : Int → Option String) (probe : ActiveProbe) (outcome : ProbeOutcome) :
    Decidable (AnswersProbe code probe outcome) :=
  inferInstanceAs (Decidable (if probe.cancelled = none then _ else _))

def Answers (code : Int → Option String) (s : ResolverState) : Turn → Prop
  | .settle index outcome =>
    ∀ probe ∈ s.active, probe.index = index → probe.work = none → AnswersProbe code probe outcome
  | .abort _ => False
  | .wake _ => True

instance (code : Int → Option String) (s : ResolverState) : (turn : Turn) → Decidable (Answers code s turn)
  | .settle index outcome => inferInstanceAs
      (Decidable (∀ probe ∈ s.active, probe.index = index → probe.work = none → AnswersProbe code probe outcome))
  | .abort _ => inferInstanceAs (Decidable False)
  | .wake _ => inferInstanceAs (Decidable True)

/-- The first id of the order whose student has the target's code. -/
def found (resolver : Resolver) (code : Int → Option String) : Option Int :=
  (searchOrder resolver.projectedStdId (resolver.correction (code resolver.projectedStdId))).find? fun stdId =>
    code stdId == some resolver.targetCode

def Honest (code : Int → Option String) (probe : ActiveProbe) : Prop :=
  (probe.cancelled = none ∧ ∀ outcome, probe.work = some outcome → outcome = .ok (code probe.stdId)) ∨
  (probe.cancelled = some .winnerReason ∧ ∀ error, probe.work = some (.error error) → isAbortError error = true)

theorem Honest.no_failure {probe : ActiveProbe} (h : Honest code probe) : independentFailure probe = none := by
  unfold independentFailure
  split
  case h_1 error hwork =>
    rcases h with ⟨-, hok⟩ | ⟨hcancelled, habort⟩
    · cases hok _ hwork
    · rw [if_pos ⟨hcancelled, .inr (habort error hwork)⟩]
  case h_2 => rfl

theorem Honest.cancel {probe : ActiveProbe} (h : Honest code probe) : Honest code (probe.cancel .winnerReason) := by
  unfold ActiveProbe.cancel
  split
  case isTrue hpending =>
    have hwork := Option.isNone_iff_eq_none.1 (Bool.and_eq_true_iff.1 hpending).2
    refine .inr ⟨rfl, fun error herror => ?_⟩
    rw [show probe.work = some (.error error) from herror] at hwork
    cases hwork
  case isFalse => exact h

theorem Honest.settle {probe : ActiveProbe} (h : Honest code probe) {outcome : ProbeOutcome}
    (hanswer : probe.work = none → AnswersProbe code probe outcome) : Honest code (probe.settle outcome) := by
  unfold ActiveProbe.settle
  split
  case isTrue hpending =>
    have hsettles := hanswer (Option.isNone_iff_eq_none.1 hpending)
    rcases h with ⟨hcancelled, -⟩ | ⟨hcancelled, -⟩
    · rw [AnswersProbe, if_pos hcancelled] at hsettles
      refine .inl ⟨hcancelled, fun given hgiven => ?_⟩
      rw [← Option.some.inj hgiven]
      exact hsettles
    · rw [AnswersProbe, if_neg (by rw [hcancelled]; exact Option.some_ne_none _)] at hsettles
      refine .inr ⟨hcancelled, fun error herror => ?_⟩
      rw [show outcome = .error error from Option.some.inj herror] at hsettles
      exact hsettles
  case isFalse => exact h

/-! ## The race -/

/-- What the pool knows of the portal. -/
structure Raced (resolver : Resolver) (code : Int → Option String) (s : ResolverState) : Prop where
  missed : code resolver.projectedStdId ≠ some resolver.targetCode
  candidates : s.candidates =
    localCandidates resolver.projectedStdId (resolver.correction (code resolver.projectedStdId))
  pool : s.poolWidth = resolver.configuredPoolWidth s.candidates.length
  codes : ∀ index answer, s.codes.lookup index = some answer →
    ∃ stdId, s.candidates[index]? = some stdId ∧ answer = code stdId
  answered : ∀ index, (s.codes.lookup index).isSome = true ↔ ∃ probe ∈ s.finished, probe.index = some index
  exact : ∀ index, s.earliestExactIndex = some index → s.codes.lookup index = some (some resolver.targetCode)
  inexact : s.earliestExactIndex = none → ∀ index, s.codes.lookup index ≠ some (some resolver.targetCode)

theorem Raced.found_eq (h : Raced resolver code s) (hvalid : isValidStudentId resolver.projectedStdId = true) :
    found resolver code = s.candidates.find? fun stdId => code stdId == some resolver.targetCode := by
  rw [found, find?_searchOrder hvalid, if_neg (by simpa using h.missed), h.candidates]

/-- The scan names the first match. -/
theorem Raced.scanned (h : Raced resolver code s) (hvalid : isValidStudentId resolver.projectedStdId = true) {room : Nat}
    {stdId : Int} (hscan : (scanSettled resolver.targetCode s.codes room 0).bind (s.candidates[·]?) = some stdId) :
    found resolver code = some stdId := by
  obtain ⟨index, hindex, hget⟩ := Option.bind_eq_some_iff.1 hscan
  obtain ⟨hlookup, hearlier⟩ := scanSettled_some room hindex
  obtain ⟨hlt, hstdId⟩ := List.getElem?_eq_some_iff.1 hget
  rw [h.found_eq hvalid, List.find?_eq_some_iff_getElem]
  refine ⟨?_, index, hlt, hstdId, fun earlier hless => ?_⟩
  · obtain ⟨same, hsame, hcode⟩ := h.codes index _ hlookup
    rw [hget] at hsame
    rw [Option.some.inj hsame, ← hcode]
    exact beq_self_eq_true _
  · obtain ⟨answer, hanswer, hother⟩ := hearlier earlier (Nat.zero_le _) hless
    obtain ⟨candidate, hcandidate, hcode⟩ := h.codes earlier _ hanswer
    rw [List.getElem?_eq_getElem (Nat.lt_trans hless hlt)] at hcandidate
    rw [Option.some.inj hcandidate, ← hcode]
    simpa using hother

/-- A race that has come to its end without a winner has tried them all. -/
theorem Raced.exhausted (h : Raced resolver code s) (hplaced : Placed resolver s)
    (hvalid : isValidStudentId resolver.projectedStdId = true) (hlimit : 0 < resolver.limit) (hempty : s.active = [])
    (hfull : s.poolWidth ≤ s.active.length ∨ s.earliestExactIndex.getD s.candidates.length ≤ s.nextIndex)
    (hscan : scanSettled resolver.targetCode s.codes s.codes.length 0 = none) : found resolver code = none := by
  have hsettled : ∀ index, index < s.nextIndex → (s.codes.lookup index).isSome = true := by
    intro index hlt
    obtain ⟨probe, hmem, hindex⟩ := hplaced.tried hlt
    rw [hempty, List.nil_append] at hmem
    exact (h.answered index).2 ⟨probe, hmem, hindex⟩
  have hbound : s.earliestExactIndex.getD s.candidates.length ≤ s.nextIndex := by
    rcases hfull with hwidth | hbound
    · -- a pool of width zero has no candidates
      rw [hempty, h.pool, configuredPoolWidth, ← limit] at hwidth
      have hnone : s.candidates.length = 0 := by
        simp only [List.length_nil] at hwidth
        omega
      cases hearliest : s.earliestExactIndex with
      | none =>
        rw [Option.getD_none, hnone]
        exact Nat.zero_le _
      | some index =>
        obtain ⟨stdId, hget, -⟩ := h.codes index _ (h.exact index hearliest)
        have := (List.getElem?_eq_some_iff.1 hget).1
        omega
    · exact hbound
  cases hearliest : s.earliestExactIndex with
  | some index =>
    rw [hearliest, Option.getD_some] at hbound
    have hlookup := h.exact index hearliest
    have hearlier : ∀ earlier, earlier ≤ index → (s.codes.lookup earlier).isSome = true := by
      intro earlier hle
      rcases Nat.eq_or_lt_of_le hle with rfl | hlt
      · rw [hlookup]
        rfl
      · exact hsettled earlier (Nat.lt_of_lt_of_le hlt hbound)
    have hsome := scanSettled_isSome hlookup s.codes.length (Nat.zero_le _)
      (by rw [Nat.zero_add]; exact lt_length_of_lookup hearlier) fun earlier _ hlt => hearlier earlier (Nat.le_of_lt hlt)
    rw [hscan] at hsome
    cases hsome
  | none =>
    rw [hearliest, Option.getD_none] at hbound
    rw [h.found_eq hvalid, List.find?_eq_none]
    intro stdId hmem
    obtain ⟨index, hlt, rfl⟩ := List.mem_iff_getElem.1 hmem
    obtain ⟨answer, hanswer⟩ := Option.isSome_iff_exists.1 (hsettled index (Nat.lt_of_lt_of_le hlt hbound))
    obtain ⟨candidate, hcandidate, hcode⟩ := h.codes index answer hanswer
    rw [List.getElem?_eq_getElem hlt] at hcandidate
    rw [Option.some.inj hcandidate, beq_iff_eq, ← hcode]
    intro htarget
    exact h.inexact hearliest index (htarget ▸ hanswer)

/-- A search with an honest portal and a caller that waits. -/
structure Good (resolver : Resolver) (code : Int → Option String) (s : ResolverState) : Prop where
  sound : Sound resolver s
  caller : s.callerCancellation = none
  honest : ∀ probe ∈ s.active ++ s.finished, Honest code probe
  phase : match s.phase with
    | .first => ∀ probe ∈ s.active, probe.cancelled = none
    | .racing => Raced resolver code s
    | .settling (.winner stdId) => found resolver code = some stdId
    | .settling _ => False
    | .draining error | .settled (.error error) => error = .notConverged ∧ found resolver code = none
    | .settled (.ok resolution) => ∃ stdId, found resolver code = some stdId ∧
        resolution = resolved stdId resolver.targetCode s.calls.length

theorem good_start (hlimit : 0 < resolver.limit) : Good resolver code resolver.start := by
  have hprobe : ∀ probe ∈ resolver.start.active, probe.cancelled = none ∧ probe.work = none := by
    intro probe hmem
    rw [List.mem_singleton.1 hmem]
    exact ⟨rfl, rfl⟩
  refine ⟨sound_start hlimit, rfl, ?_, fun probe hmem => (hprobe probe hmem).1⟩
  intro probe hmem
  obtain ⟨hcancelled, hwork⟩ := hprobe probe (by simpa [start, startProbe] using hmem)
  refine .inl ⟨hcancelled, fun outcome hsome => ?_⟩
  rw [hwork] at hsome
  cases hsome

/-- The race goes on, or has come to its end. -/
theorem good_loop (hplaced : Placed resolver s) (hcaller : s.callerCancellation = none)
    (hhonest : ∀ probe ∈ s.active ++ s.finished, Honest code probe)
    (hactive : ∀ probe ∈ s.active, probe.index ≠ none ∧ probe.cancelled = none) (hraced : Raced resolver code s)
    (hvalid : isValidStudentId resolver.projectedStdId = true) (hlimit : 0 < resolver.limit)
    (hscan : scanSettled resolver.targetCode s.codes s.codes.length 0 = none) :
    Good resolver code (loop (fillPool s)) := by
  have hsound := sound_loop hplaced hactive fun probe hmem =>
    (hhonest probe (List.mem_append_right _ hmem)).no_failure
  have hfilled := hplaced.fillPool
  have hbound : s.earliestExactIndex.getD s.candidates.length ≤ s.candidates.length := by
    cases hearliest : s.earliestExactIndex with
    | none => exact Nat.le_refl _
    | some index =>
      obtain ⟨stdId, hget, -⟩ := hraced.codes index _ (hraced.exact index hearliest)
      exact Nat.le_of_lt (List.getElem?_eq_some_iff.1 hget).1
  have hfull := fillPoolLoop_full s.candidates.length (Nat.sub_le _ _) hbound
  rw [← fillPool] at hfull
  obtain ⟨started, ids, next, hfresh, heq⟩ := fillPool_eq s
  rw [heq] at hsound hfilled hfull ⊢
  have hknown : Raced resolver code { s with active := s.active ++ started, calls := s.calls ++ ids, nextIndex := next } :=
    ⟨hraced.missed, hraced.candidates, hraced.pool, hraced.codes, hraced.answered, hraced.exact, hraced.inexact⟩
  have hall : ∀ probe ∈ s.active ++ started ++ s.finished, Honest code probe := by
    intro probe hmem
    rcases List.mem_append.1 hmem with hmem | hmem
    · rcases List.mem_append.1 hmem with hmem | hmem
      · exact hhonest probe (List.mem_append_left _ hmem)
      · obtain ⟨-, hcancelled, hwork⟩ := hfresh probe hmem
        refine .inl ⟨hcancelled, fun outcome hsome => ?_⟩
        rw [hwork] at hsome
        cases hsome
    · exact hhonest probe (List.mem_append_right _ hmem)
  unfold loop at hsound ⊢
  split
  case isTrue hempty =>
    rw [if_pos hempty] at hsound
    have hnil := List.isEmpty_iff.1 hempty
    refine ⟨hsound, hcaller, ?_, ?_⟩
    · simp only at hnil
      intro probe hmem
      simp only [fail, abortActive, hnil, List.map_nil, List.nil_append] at hmem
      exact hall probe (List.mem_append_right _ hmem)
    · refine ⟨?_, hknown.exhausted hfilled hvalid hlimit hnil hfull hscan⟩
      rw [hcaller]
      rfl
  case isFalse hgoes =>
    rw [if_neg hgoes] at hsound
    exact ⟨hsound, hcaller, hall, ⟨hknown.missed, hknown.candidates, hknown.pool, hknown.codes, hknown.answered,
      hknown.exact, hknown.inexact⟩⟩

theorem Good.settle (h : Good resolver code s) {index : Option Nat} {outcome : ProbeOutcome}
    (hanswers : Answers code s (.settle index outcome)) :
    Good resolver code (resolver.step s (.settle index outcome)).2 := by
  refine ⟨h.sound.settle index outcome, h.caller, ?_, ?_⟩
  · intro probe hmem
    rcases List.mem_append.1 hmem with hmem | hmem
    · obtain ⟨before, hbefore, rfl⟩ := List.mem_map.1 hmem
      have hhonest := h.honest before (List.mem_append_left _ hbefore)
      split
      case isTrue hindex => exact hhonest.settle (hanswers before hbefore hindex)
      case isFalse => exact hhonest
    · exact h.honest probe (List.mem_append_right _ hmem)
  · have hphase := h.phase
    simp only [step]
    cases hcase : s.phase with
    | first =>
      rw [hcase] at hphase
      refine List.forall_mem_map.2 fun probe hmem => ?_
      rw [← hphase probe hmem]
      unfold ActiveProbe.settle
      split
      · split <;> rfl
      · rfl
    | racing =>
      rw [hcase] at hphase
      exact ⟨hphase.missed, hphase.candidates, hphase.pool, hphase.codes, hphase.answered, hphase.exact, hphase.inexact⟩
    | settling next =>
      rw [hcase] at hphase
      cases next <;> exact hphase
    | draining error =>
      rw [hcase] at hphase
      exact hphase
    | settled result =>
      rw [hcase] at hphase
      cases result <;> exact hphase

theorem afterFirst_ok {probe : ActiveProbe} (hcaller : s.callerCancellation = none) (hcancelled : probe.cancelled = none)
    (studentCode : Option String) : resolver.afterFirst s probe (.ok studentCode) =
      if studentCode = some resolver.targetCode then
        { delete s none with
          phase := .settled (.ok (resolved resolver.projectedStdId resolver.targetCode s.calls.length)) }
      else
        loop (fillPool { delete s none with
          candidates := localCandidates resolver.projectedStdId (resolver.correction studentCode)
          poolWidth := resolver.configuredPoolWidth
            (localCandidates resolver.projectedStdId (resolver.correction studentCode)).length }) := by
  unfold Resolver.afterFirst
  simp only
  split
  case h_1 reason hsome =>
    rw [show s.callerCancellation = some reason from hsome] at hcaller
    cases hcaller
  case h_2 hsome =>
    rw [hcancelled] at hsome
    cases hsome
  case h_3 herror => cases herror
  case h_4 hok =>
    rw [Except.ok.inj hok]
    rfl

/-- One more code is known. -/
def learn (resolver : Resolver) (s : ResolverState) (index : Nat) (studentCode : Option String) : ResolverState :=
  { delete s (some index) with
    codes := (index, studentCode) :: s.codes
    earliestExactIndex :=
      if studentCode = some resolver.targetCode then some (min (s.earliestExactIndex.getD index) index)
      else s.earliestExactIndex }

theorem afterRace_ok (hcaller : s.callerCancellation = none) (index : Nat) (studentCode : Option String) :
    resolver.afterRace s index (.outcome (.ok studentCode)) =
      match (scanSettled resolver.targetCode (resolver.learn s index studentCode).codes
        (resolver.learn s index studentCode).codes.length 0).bind (s.candidates[·]?) with
      | some winnerStdId =>
        { abortActive (resolver.learn s index studentCode) .winnerReason with phase := .settling (.winner winnerStdId) }
      | none => loop (fillPool (resolver.learn s index studentCode)) := by
  unfold Resolver.afterRace
  split
  case h_1 reason hsome =>
    rw [hcaller] at hsome
    cases hsome
  case h_2 h => cases h
  case h_3 h => cases h
  case h_4 h =>
    cases h
    rfl

theorem Good.afterFirst (h : Good resolver code s) (hvalid : isValidStudentId resolver.projectedStdId = true)
    (hlimit : 0 < resolver.limit) (hfirst : s.phase = .first) {probe : ActiveProbe} (hactive : s.active = [probe])
    {outcome : ProbeOutcome} (hwork : probe.work = some outcome) : Good resolver code (resolver.afterFirst s probe outcome) := by
  have hsound := h.sound.afterFirst hfirst hactive hwork
  have hshaped := h.sound.shaped
  have hphase := h.phase
  rw [ResolverState.Shaped, hfirst] at hshaped
  rw [hfirst] at hphase
  obtain ⟨⟨first, hone, hindex⟩, hfinished, hcandidates, hcodes, hearliest⟩ := hshaped
  have hmem : probe ∈ s.active := hactive ▸ List.mem_singleton_self probe
  obtain rfl : probe = first := by
    rw [hone, List.mem_singleton] at hmem
    exact hmem
  have hcancelled := hphase probe hmem
  have hprojected : probe.stdId = resolver.projectedStdId := by
    have hplace := h.sound.placed.probes.mem_iff.1 (List.mem_map_of_mem (List.mem_append_left _ hmem))
    rw [place, hindex, places, hcandidates] at hplace
    simpa using hplace
  have hanswer : outcome = .ok (code resolver.projectedStdId) := by
    rcases h.honest probe (List.mem_append_left _ hmem) with ⟨-, hok⟩ | ⟨hwinner, -⟩
    · rw [← hprojected]
      exact hok outcome hwork
    · rw [hcancelled] at hwinner
      cases hwinner
  have hempty : (delete s none).active = [] := by
    simp [delete, hactive, hindex]
  have hkept : (delete s none).finished = [probe] := by
    simp [delete, hactive, hindex, hfinished]
  have hhonest : ∀ other ∈ (delete s none).active ++ (delete s none).finished, Honest code other := by
    intro other hother
    rw [hempty, hkept, List.nil_append, List.mem_singleton] at hother
    rw [hother]
    exact h.honest probe (List.mem_append_left _ hmem)
  have hdelete : Placed resolver (delete s none) := by
    apply h.sound.placed.delete
    intro other hother _
    rw [hactive, List.mem_singleton] at hother
    rw [hother, hwork]
    rfl
  have hcaller : (delete s none).callerCancellation = none := h.caller
  subst hanswer
  rw [afterFirst_ok h.caller hcancelled] at hsound ⊢
  by_cases htarget : code resolver.projectedStdId = some resolver.targetCode
  · rw [if_pos htarget] at hsound ⊢
    refine ⟨hsound, hcaller, hhonest, resolver.projectedStdId, ?_, rfl⟩
    rw [found, find?_searchOrder hvalid, if_pos (by simpa using htarget)]
  · rw [if_neg htarget]
    apply good_loop (hdelete.window hcandidates _) hcaller hhonest _ _ hvalid hlimit
    · show scanSettled resolver.targetCode s.codes s.codes.length 0 = none
      rw [hcodes]
      rfl
    · intro other hother
      replace hother : other ∈ (delete s none).active := hother
      rw [hempty] at hother
      cases hother
    · constructor
      · exact htarget
      · rfl
      · rfl
      · intro index answer hlookup
        rw [show (delete s none).codes = [] from hcodes] at hlookup
        cases hlookup
      · intro index
        show (s.codes.lookup index).isSome = true ↔ ∃ probe ∈ (delete s none).finished, probe.index = some index
        rw [hcodes, hkept]
        simp [hindex]
      · intro index hsome
        rw [show (delete s none).earliestExactIndex = none from hearliest] at hsome
        cases hsome
      · intro _ index
        show s.codes.lookup index ≠ _
        rw [hcodes]
        simp

theorem Raced.learn (h : Raced resolver code s) (hplaced : Placed resolver s) {index : Nat} {probe : ActiveProbe}
    (hmem : probe ∈ s.active) (hindex : probe.index = some index) :
    Raced resolver code (resolver.learn s index (code probe.stdId)) := by
  have hget := hplaced.candidate (List.mem_append_left _ hmem) hindex
  -- the index is new: its probe is still active
  have hnew : s.codes.lookup index = none := by
    rw [← Option.not_isSome_iff_eq_none]
    intro hsome
    obtain ⟨other, hother, hsame⟩ := (h.answered index).1 hsome
    have hnodup := (hplaced.probes.map Prod.fst).nodup_iff.2 (nodup_places resolver s)
    rw [List.map_map, List.map_append] at hnodup
    exact (List.nodup_append.1 hnodup).2.2 _ (List.mem_map_of_mem hmem) _ (List.mem_map_of_mem hother)
      (hindex.trans hsame.symm)
  have hlookup : ∀ other, (resolver.learn s index (code probe.stdId)).codes.lookup other =
      if other = index then some (code probe.stdId) else s.codes.lookup other := by
    intro other
    simp only [Resolver.learn, List.lookup_cons]
    by_cases hsame : other = index
    · rw [if_pos hsame, hsame, beq_self_eq_true]
    · rw [if_neg hsame, beq_false_of_ne hsame]
  constructor
  · exact h.missed
  · exact h.candidates
  · exact h.pool
  · intro other answer hanswer
    rw [hlookup] at hanswer
    split at hanswer
    case isTrue hsame => exact ⟨probe.stdId, hsame ▸ hget, (Option.some.inj hanswer).symm⟩
    case isFalse => exact h.codes other answer hanswer
  · intro other
    rw [hlookup]
    simp only [Resolver.learn, delete, List.mem_append, List.mem_filter, decide_eq_true_eq]
    split
    case isTrue hsame =>
      refine ⟨fun _ => ⟨probe, .inr ⟨hmem, hindex⟩, hsame ▸ hindex⟩, fun _ => rfl⟩
    case isFalse hdiffers =>
      rw [h.answered other]
      constructor
      · rintro ⟨known, hknown, heq⟩
        exact ⟨known, .inl hknown, heq⟩
      · rintro ⟨known, hknown | ⟨-, hthis⟩, heq⟩
        · exact ⟨known, hknown, heq⟩
        · rw [hthis] at heq
          exact absurd (Option.some.inj heq).symm hdiffers
  · intro other hother
    rw [hlookup]
    simp only [Resolver.learn] at hother
    split at hother
    case isTrue htarget =>
      split
      case isTrue => rw [htarget]
      case isFalse hdiffers =>
        apply h.exact
        cases hearliest : s.earliestExactIndex with
        | none =>
          rw [hearliest, Option.getD_none, Nat.min_self] at hother
          exact absurd (Option.some.inj hother).symm hdiffers
        | some earliest =>
          rw [hearliest, Option.getD_some] at hother
          have := Option.some.inj hother
          congr 1
          omega
    case isFalse =>
      split
      case isTrue hsame =>
        have hknown := h.exact other hother
        rw [hsame, hnew] at hknown
        cases hknown
      case isFalse => exact h.exact other hother
  · intro hnone other
    simp only [Resolver.learn] at hnone
    split at hnone
    case isTrue => cases hnone
    case isFalse hother =>
      rw [hlookup]
      split
      · intro htarget
        exact hother (Option.some.inj htarget)
      · exact h.inexact hnone other

theorem Good.afterRace (h : Good resolver code s) (hvalid : isValidStudentId resolver.projectedStdId = true)
    (hlimit : 0 < resolver.limit) (hracing : s.phase = .racing) {index : Nat} {probe : ActiveProbe}
    (hfind : s.active.find? (·.index = some index) = some probe) {decision : ProbeDecision}
    (hdecision : probe.decision = some decision) : Good resolver code (resolver.afterRace s index decision) := by
  have hsound := h.sound.afterRace hracing hfind hdecision
  have hshaped := h.sound.shaped
  have hraced := h.phase
  rw [ResolverState.Shaped, hracing] at hshaped
  rw [hracing] at hraced
  have hmem := List.mem_of_find?_eq_some hfind
  have hindex : probe.index = some index := by
    have := List.find?_some hfind
    simpa using this
  have hcancelled := h.sound.uncancelled (by rw [hracing]; rfl) h.caller probe hmem
  obtain ⟨hwork, rfl⟩ : probe.work = some (.ok (code probe.stdId)) ∧
      decision = .outcome (.ok (code probe.stdId)) := by
    cases decision with
    | cancelled reason =>
      rw [decision_eq_cancelled, hcancelled] at hdecision
      cases hdecision
    | outcome outcome =>
      obtain ⟨-, hsome⟩ := decision_eq_outcome.1 hdecision
      rcases h.honest probe (List.mem_append_left _ hmem) with ⟨-, hok⟩ | ⟨hwinner, -⟩
      · rw [← hok outcome hsome]
        exact ⟨hsome, rfl⟩
      · rw [hcancelled] at hwinner
        cases hwinner
  have hlearned := Raced.learn hraced h.sound.placed hmem hindex
  have hhonest : ∀ other ∈ (delete s (some index)).active ++ (delete s (some index)).finished, Honest code other := by
    intro other hother
    apply h.honest
    simp only [delete, List.mem_append, List.mem_filter] at hother ⊢
    rcases hother with hother | hother | hother
    · exact .inl hother.1
    · exact .inr hother
    · exact .inl hother.1
  have hdelete : Placed resolver (delete s (some index)) := by
    apply h.sound.placed.delete
    intro other hother hsame
    rw [h.sound.placed.unique (List.mem_append_left _ hother) (List.mem_append_left _ hmem) (hsame.trans hindex.symm), hwork]
    rfl
  rw [afterRace_ok h.caller] at hsound ⊢
  cases hscan : (scanSettled resolver.targetCode (resolver.learn s index (code probe.stdId)).codes
      (resolver.learn s index (code probe.stdId)).codes.length 0).bind (s.candidates[·]?) with
  | some winnerStdId =>
    rw [hscan] at hsound
    refine ⟨hsound, h.caller, ?_, hlearned.scanned hvalid hscan⟩
    intro other hother
    rcases List.mem_append.1 hother with hother | hother
    · obtain ⟨before, hbefore, rfl⟩ := List.mem_map.1 hother
      exact (hhonest before (List.mem_append_left _ hbefore)).cancel
    · exact hhonest other (List.mem_append_right _ hother)
  | none =>
    have hplaced : Placed resolver (resolver.learn s index (code probe.stdId)) := hdelete.congr rfl rfl rfl rfl rfl rfl
    apply good_loop hplaced h.caller hhonest _ hlearned hvalid hlimit
    · -- whatever index the scan names is one of a candidate
      cases hfirst : scanSettled resolver.targetCode (resolver.learn s index (code probe.stdId)).codes
          (resolver.learn s index (code probe.stdId)).codes.length 0 with
      | none => rfl
      | some winner =>
        obtain ⟨stdId, hget, -⟩ := hlearned.codes winner _ (scanSettled_some _ hfirst).1
        rw [hfirst, Option.bind_some, show s.candidates[winner]? = some stdId from hget] at hscan
        cases hscan
    · intro other hother
      have hthere := (List.mem_filter.1 hother).1
      exact ⟨hshaped.2 other hthere, h.sound.uncancelled (by rw [hracing]; rfl) h.caller other hthere⟩

theorem Good.afterSettling (h : Good resolver code s) {next : AfterSettling} (hsettling : s.phase = .settling next)
    (hwork : ∀ probe ∈ s.active, probe.work.isSome = true) : Good resolver code (resolver.afterSettling s next) := by
  have hsound := h.sound.afterSettling hsettling hwork
  have hphase := h.phase
  rw [hsettling] at hphase
  cases next with
  | throws error => exact hphase.elim
  | fatal error => exact hphase.elim
  | winner stdId =>
    have hnone : s.active.findSome? independentFailure = none :=
      List.findSome?_eq_none_iff.2 fun probe hmem => (h.honest probe (List.mem_append_left _ hmem)).no_failure
    have heq : resolver.afterSettling s (.winner stdId) =
        { clear s with phase := .settled (.ok (resolved stdId resolver.targetCode s.calls.length)) } := by
      simp only [Resolver.afterSettling, h.caller, hnone]
    rw [heq] at hsound ⊢
    refine ⟨hsound, h.caller, ?_, stdId, hphase, rfl⟩
    intro probe hmem
    apply h.honest
    rcases List.mem_append.1 hmem with hmem | hmem
    · cases hmem
    · exact List.mem_append.2 (List.mem_append.1 hmem).symm

/-- What a turn preserves while the portal answers. -/
theorem Good.step (h : Good resolver code s) (hvalid : isValidStudentId resolver.projectedStdId = true)
    (hlimit : 0 < resolver.limit) {turn : Turn} (hanswers : Answers code s turn) :
    Good resolver code (resolver.step s turn).2 := by
  cases turn with
  | settle index outcome => exact h.settle hanswers
  | abort reason => exact hanswers.elim
  | wake index =>
    simp only [Resolver.step, wake]
    split
    case h_1 hphase =>
      split
      · split
        · exact h.afterFirst hvalid hlimit hphase ‹_› ‹_›
        · exact h
      · exact h
    case h_2 hphase =>
      split
      case h_1 decision hsome =>
        obtain ⟨probe, hfind, hdecision⟩ := Option.bind_eq_some_iff.1 hsome
        exact h.afterRace hvalid hlimit hphase hfind hdecision
      case h_2 => exact h
    case h_3 next hphase =>
      split
      case isTrue hall => exact h.afterSettling hphase (List.all_eq_true.1 hall)
      case isFalse => exact h
    case h_4 error hphase =>
      split
      case isTrue hall =>
        have hsound := h.sound.wake index
        simp only [wake, hphase, hall, if_true] at hsound
        refine ⟨hsound, h.caller, ?_, ?_⟩
        · intro probe hmem
          apply h.honest
          rcases List.mem_append.1 hmem with hmem | hmem
          · cases hmem
          · exact List.mem_append.2 (List.mem_append.1 hmem).symm
        · have hfound := h.phase
          rw [hphase] at hfound
          exact hfound
      case isFalse => exact h
    case h_5 => exact h

theorem Good.stateAfter (hvalid : isValidStudentId resolver.projectedStdId = true) (hlimit : 0 < resolver.limit)
    (turns : List Turn) : ∀ {s : ResolverState}, Good resolver code s →
    (∀ e ∈ execute resolver.step s turns, Answers code e.before e.call) →
    Good resolver code (stateAfter resolver.step s turns) := by
  induction turns with
  | nil => exact fun h _ => h
  | cons turn rest ih =>
    intro s h hanswers
    rw [execute, List.forall_mem_cons] at hanswers
    exact ih (h.step hvalid hlimit hanswers.1) hanswers.2

/-! ## What is found -/

/-- What a search for `found` is to end with. -/
def answer (resolver : Resolver) (code : Int → Option String) (probes : Nat) : Except Thrown VnuStudentIdResolution :=
  match resolver.found code with
  | some stdId => .ok (resolved stdId resolver.targetCode probes)
  | none => .error .notConverged

theorem Good.settled (h : Good resolver code s) {result : Except Thrown VnuStudentIdResolution}
    (hsettled : s.phase = .settled result) : result = resolver.answer code s.calls.length := by
  have hphase := h.phase
  rw [hsettled] at hphase
  cases result with
  | error error =>
    obtain ⟨rfl, hnone⟩ := hphase
    rw [answer, hnone]
  | ok resolution =>
    obtain ⟨stdId, hsome, rfl⟩ := hphase
    rw [answer, hsome]

end Resolver

section
variable {ownStdId ownCode concurrency : Int} {platformConcurrencyLimit : Option Int} {targetCode : String}

/-- Options as the routes give them. -/
def searchOptions (ownStdId ownCode : Int) (targetCode : String) (concurrency : Int)
    (platformConcurrencyLimit : Option Int) : VnuStudentIdResolverOptions :=
  { ownStdId := some ownStdId, ownCode := some ownCode, targetCode, concurrency := some concurrency
    platformConcurrencyLimit := platformConcurrencyLimit.map some }

/-- The id a search starts with. -/
def projection (ownStdId ownCode : Int) (targetCode : String) : Int := ownStdId + (numericCode targetCode - ownCode)

structure ValidOptions (ownStdId ownCode : Int) (targetCode : String) (concurrency : Int)
    (platformConcurrencyLimit : Option Int) : Prop where
  ownStdId : isValidStudentId ownStdId = true
  ownCode : isValidStudentId ownCode = true
  targetCode : isStudentCode targetCode = true
  concurrency : isValidStudentId concurrency = true
  platformConcurrencyLimit : ∀ limit, platformConcurrencyLimit = some limit → isValidStudentId limit = true

/-- A valid search starts if the projected id is valid, and throws otherwise. -/
theorem resolveVnuStudentId_eq (h : ValidOptions ownStdId ownCode targetCode concurrency platformConcurrencyLimit) :
    resolveVnuStudentId (searchOptions ownStdId ownCode targetCode concurrency platformConcurrencyLimit) none =
      if isValidStudentId (projection ownStdId ownCode targetCode) then
        .ok { projectedStdId := projection ownStdId ownCode targetCode, targetCode, concurrency := concurrency.toNat
              platformConcurrencyLimit :=
                (platformConcurrencyLimit.getD vnuStudentIdResolverPlatformConcurrency).toNat }
      else .error .notConverged := by
  have hconcurrency : parsePositiveSafeInteger (some concurrency) "concurrency" = .ok concurrency.toNat := by
    rw [parsePositiveSafeInteger, if_pos h.concurrency]
  have hlimit : parsePositiveSafeInteger
      ((platformConcurrencyLimit.map some).getD (some vnuStudentIdResolverPlatformConcurrency)) "platformConcurrencyLimit" =
        .ok (platformConcurrencyLimit.getD vnuStudentIdResolverPlatformConcurrency).toNat := by
    cases hgiven : platformConcurrencyLimit with
    | none => rfl
    | some limit =>
      rw [Option.map_some, Option.getD_some, Option.getD_some, parsePositiveSafeInteger,
        if_pos (h.platformConcurrencyLimit limit hgiven)]
  simp only [resolveVnuStudentId, searchOptions, hconcurrency, hlimit, h.ownStdId, h.ownCode, h.targetCode]
  by_cases hprojected : isValidStudentId (projection ownStdId ownCode targetCode) = true
  · rw [if_pos hprojected]
    rw [projection] at hprojected
    simp [require, hprojected, bind, Except.bind, pure, Except.pure, projection]
  · rw [if_neg hprojected]
    rw [projection, Bool.not_eq_true] at hprojected
    simp [require, hprojected, bind, Except.bind]

/-- Whatever the order its probes settle in, a search that gets its answers ends
with the first id of its order that has the target's code, and fails if there is
none. It does end: only so many turns change anything, and one does as long as
its probes have settled and it has not. -/
theorem search_schedule_independent
    (h : ValidOptions ownStdId ownCode targetCode concurrency platformConcurrencyLimit) :
    (isValidStudentId (projection ownStdId ownCode targetCode) = false →
      resolveVnuStudentId (searchOptions ownStdId ownCode targetCode concurrency platformConcurrencyLimit) none =
        .error .notConverged) ∧
    (isValidStudentId (projection ownStdId ownCode targetCode) = true → ∃ resolver : Resolver,
      resolveVnuStudentId (searchOptions ownStdId ownCode targetCode concurrency platformConcurrencyLimit) none =
        .ok resolver ∧
      resolver.projectedStdId = projection ownStdId ownCode targetCode ∧ resolver.targetCode = targetCode ∧
      ∀ (code : Int → Option String) (turns : List Turn),
        (∀ e ∈ execute resolver.step resolver.start turns, Resolver.Answers code e.before e.call) →
        (∀ result, (stateAfter resolver.step resolver.start turns).phase = .settled result →
          result = resolver.answer code (stateAfter resolver.step resolver.start turns).calls.length) ∧
        ((execute resolver.step resolver.start turns).filter fun e => e.after ≠ e.before).length ≤ 71 ∧
        ((∀ probe ∈ (stateAfter resolver.step resolver.start turns).active, probe.work.isSome = true) →
          (∀ index, resolver.wake (stateAfter resolver.step resolver.start turns) index =
            stateAfter resolver.step resolver.start turns) →
          ∃ result, (stateAfter resolver.step resolver.start turns).phase = .settled result)) := by
  have hstart := resolveVnuStudentId_eq h
  refine ⟨fun hinvalid => ?_, fun hvalid => ?_⟩
  · rw [hstart, hinvalid]
    rfl
  rw [if_pos hvalid] at hstart
  refine ⟨_, hstart, rfl, rfl, ?_⟩
  obtain ⟨hprojected, hlimit⟩ := checked_of_start hstart
  generalize ({ .. } : Resolver) = resolver at hprojected hlimit
  intro code turns hanswers
  have hgood := (Resolver.good_start hlimit).stateAfter hprojected hlimit turns hanswers
  exact ⟨fun result hsettled => hgood.settled hsettled, resolver.changes_le turns, Resolver.settled_of_still hgood.sound⟩

end

/-- Two matches, the later of which is known first. -/
def sampleCode (stdId : Int) : Option String := if stdId = 100 ∨ stdId = 102 then some "23020006" else none

def sampleTurns : List Turn :=
  [.settle none (.ok none), .wake 0, .settle (some 1) (.ok (some "23020006")), .wake 1,
    .settle (some 0) (.ok (some "23020006")), .wake 0, .wake 0]

def sampleResolver : Resolver :=
  { projectedStdId := 101, targetCode := "23020006", concurrency := 2, platformConcurrencyLimit := 6 }

theorem sample_search :
    resolveVnuStudentId (searchOptions 100 23020005 "23020006" 2 none) none = .ok sampleResolver ∧
    (stateAfter sampleResolver.step sampleResolver.start sampleTurns).phase = .settled (.ok (resolved 100 "23020006" 3)) ∧
    sampleResolver.answer sampleCode (stateAfter sampleResolver.step sampleResolver.start sampleTurns).calls.length =
      .ok (resolved 100 "23020006" 3) := by
  have hvalid : ValidOptions 100 23020005 "23020006" 2 none :=
    ⟨by decide, by decide, by decide, by decide, fun _ hnone => by cases hnone⟩
  have hsample : resolveVnuStudentId (searchOptions 100 23020005 "23020006" 2 none) none = .ok sampleResolver := by
    rw [resolveVnuStudentId_eq hvalid]
    decide +kernel
  have hsettled : (stateAfter sampleResolver.step sampleResolver.start sampleTurns).phase =
      .settled (.ok (resolved 100 "23020006" 3)) := by
    decide +kernel
  obtain ⟨resolver, hstart, -, -, hruns⟩ := (search_schedule_independent hvalid).2 (by decide)
  obtain rfl : sampleResolver = resolver := Except.ok.inj (hsample.symm.trans hstart)
  exact ⟨hsample, hsettled, ((hruns sampleCode sampleTurns (by decide +kernel)).1 _ hsettled).symm⟩

/-- A projected id below 1 is not searched around, although its window holds
valid ids. -/
theorem projection_outside :
    resolveVnuStudentId (searchOptions 1 23020005 "23020002" 6 none) none = .error .notConverged ∧
    (searchOrder (projection 1 23020005 "23020002") none).find?
      (fun stdId => (if stdId = 1 then some "23020002" else none) == some "23020002") = some 1 := by
  constructor
  · rfl
  · decide +kernel

end Hyeboard.CrossLookup
