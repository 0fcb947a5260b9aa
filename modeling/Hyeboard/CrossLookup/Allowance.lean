import Hyeboard.CrossLookup.Progress
import Hyeboard.CrossLookup.Requests
import Hyeboard.Lib.Sums
/-!
# What a lookup may cost

A search makes at most 33 calls, each for another student, keeps within its
width, and leaves no call behind. So the units a request reserves are enough for
it, however its searches go (`lookup_bounded`).
-/

namespace Hyeboard.CrossLookup

/-! ## One search -/

namespace Resolver

variable {resolver : Resolver} {s : ResolverState}

/-- The calls made so far stay. -/
theorem calls_step (resolver : Resolver) (s : ResolverState) (turn : Turn) : s.calls.length ≤ (resolver.step s turn).2.calls.length := by
  have hloop : ∀ t : ResolverState, t.calls.length ≤ (loop (fillPool t)).calls.length := by
    intro t
    obtain ⟨started, ids, next, -, heq⟩ := fillPool_eq t
    rw [heq]
    unfold loop
    split <;> simp [fail, abortActive]
  cases turn with
  | settle index outcome => exact Nat.le_refl _
  | abort reason =>
    simp only [step, abort]
    split <;> exact Nat.le_refl _
  | wake index =>
    simp only [step, wake]
    split
    · split
      · split
        · unfold afterFirst
          simp only
          split
          · exact Nat.le_refl _
          · exact Nat.le_refl _
          · exact Nat.le_refl _
          · split
            · exact Nat.le_refl _
            · refine Nat.le_trans ?_ (hloop _)
              exact Nat.le_refl _
        · exact Nat.le_refl _
      · exact Nat.le_refl _
    · split
      · unfold afterRace
        split
        · exact Nat.le_refl _
        · exact Nat.le_refl _
        · exact Nat.le_refl _
        · simp only
          split
          · exact Nat.le_refl _
          · refine Nat.le_trans ?_ (hloop _)
            exact Nat.le_refl _
      · exact Nat.le_refl _
    · split
      · unfold afterSettling
        split
        · exact Nat.le_refl _
        · exact Nat.le_refl _
        · exact Nat.le_refl _
        · split <;> exact Nat.le_refl _
      · exact Nat.le_refl _
    · split <;> exact Nat.le_refl _
    · exact Nat.le_refl _

theorem Placed.length_candidates (h : Placed resolver s) : s.candidates.length ≤ 2 * localRadius := by
  rcases h.candidates with hnil | ⟨studentCode, heq⟩
  · rw [hnil]
    exact Nat.zero_le _
  · rw [heq]
    exact resolver.length_candidates studentCode

theorem Placed.length_calls (h : Placed resolver s) : s.calls.length ≤ vnuStudentIdResolverMaxProbes := by
  have hcandidates := h.length_candidates
  rw [h.calls, List.length_cons, List.length_take, vnuStudentIdResolverMaxProbes]
  omega

theorem Placed.nodup_calls (h : Placed resolver s) : s.calls.Nodup := by
  rw [h.calls]
  rcases h.candidates with hnil | ⟨studentCode, heq⟩
  · rw [hnil, List.take_nil]
    exact List.nodup_singleton _
  · have hsublist : (resolver.projectedStdId :: s.candidates.take s.nextIndex).Sublist
        (resolver.projectedStdId :: s.candidates) := (List.take_sublist _ _).cons_cons _
    apply hsublist.nodup
    rw [heq]
    exact nodup_localCandidates _ _

/-- A probe was started for every call. -/
theorem Placed.perm_calls (h : Placed resolver s) : ((s.active ++ s.finished).map (·.stdId)).Perm s.calls := by
  have hplaces := h.probes.map Prod.snd
  rw [List.map_map] at hplaces
  have hids : (resolver.places s).map Prod.snd = s.calls := by
    rw [places, List.map_cons, List.map_map, h.calls]
    exact congrArg _ (List.zipIdx_map_fst 0 _)
  rw [hids] at hplaces
  exact hplaces

/-- What a search has cost, and what it leaves behind. -/
structure Bounded (resolver : Resolver) (s : ResolverState) : Prop where
  calls : s.calls.length ≤ vnuStudentIdResolverMaxProbes
  distinct : s.calls.Nodup
  started : ((s.active ++ s.finished).map (·.stdId)).Perm s.calls
  pending : (s.active ++ s.finished).countP (·.work.isNone) ≤ min resolver.concurrency resolver.platformConcurrencyLimit
  settled : ∀ result, s.phase = .settled result → ∀ probe ∈ s.active ++ s.finished, probe.work.isSome = true
  failures : ∀ resolution, s.phase = .settled (.ok resolution) → ∀ probe ∈ s.active ++ s.finished, ∀ error,
    probe.work = some (.error error) →
      probe.cancelled = some .winnerReason ∧ (error = .winnerReason ∨ isAbortError error = true)

theorem Sound.bounded (h : Sound resolver s) : Bounded resolver s := by
  have hempty : ∀ result, s.phase = .settled result → s.active = [] := by
    intro result hsettled
    have hshaped := h.shaped
    rw [ResolverState.Shaped, hsettled] at hshaped
    exact hshaped
  constructor
  · exact h.placed.length_calls
  · exact h.placed.nodup_calls
  · exact h.placed.perm_calls
  · have hfinished : s.finished.countP (·.work.isNone) = 0 := by
      rw [List.countP_eq_zero]
      intro probe hmem hnone
      have hsome := h.placed.finished probe hmem
      rw [Option.isNone_iff_eq_none.1 hnone] at hsome
      cases hsome
    rw [List.countP_append, hfinished]
    exact List.countP_le_length.trans h.placed.width
  · intro result hsettled probe hmem
    rw [hempty result hsettled, List.nil_append] at hmem
    exact h.placed.finished probe hmem
  · intro resolution hsettled probe hmem error herror
    rw [hempty _ hsettled, List.nil_append] at hmem
    have hnone := h.failures (by rw [hsettled]; rfl) probe hmem
    rw [independentFailure, herror] at hnone
    simp only at hnone
    by_contra hother
    rw [if_neg hother] at hnone
    cases hnone

/-- An abort that comes before anything is thrown is what the caller gets. -/
theorem rejects_of_abort (h : Sound resolver s) {pre post : List Turn} {reason : Thrown}
    (hcaller : (stateAfter resolver.step s pre).callerCancellation = none)
    (hdraining : ∀ error, (stateAfter resolver.step s pre).phase ≠ .draining error)
    (hopen : ∀ result, (stateAfter resolver.step s pre).phase ≠ .settled result) {result : Except Thrown VnuStudentIdResolution}
    (hsettled : (stateAfter resolver.step s (pre ++ .abort reason :: post)).phase = .settled result) :
    result = .error reason := by
  have hrejecting : Rejecting reason (stateAfter resolver.step (Resolver.abort (stateAfter resolver.step s pre) reason) post) :=
    (rejecting_abort (h.stateAfter pre) hcaller hdraining hopen reason).stateAfter post
  rw [stateAfter_append] at hsettled
  have hphase := hrejecting.phase
  rw [show (stateAfter resolver.step (Resolver.abort (stateAfter resolver.step s pre) reason) post).phase = .settled result
    from hsettled] at hphase
  exact hphase

/-- A signal that has been aborted before stops a search that would start. -/
theorem not_started_of_aborted {options : VnuStudentIdResolverOptions}
    (h : resolveVnuStudentId options none = .ok resolver) (reason : Thrown) :
    resolveVnuStudentId options (some reason) = .error reason := by
  unfold resolveVnuStudentId at h ⊢
  obtain ⟨concurrency, hconcurrency, h⟩ := bind_eq_ok.1 h
  obtain ⟨limit, hlimit, h⟩ := bind_eq_ok.1 h
  split at h
  case h_1 ownStdId ownCode hid hcode =>
    obtain ⟨_, hvalid, h⟩ := bind_eq_ok.1 h
    obtain ⟨_, hprojected, -⟩ := bind_eq_ok.1 h
    simp only [hconcurrency, hlimit, hvalid, hprojected, bind, Except.bind]
    rfl
  case h_2 => cases h

end Resolver

/-! ## What is taken from the allowance -/

theorem consumeEach_eq (calls : Nat) : ∀ {remaining : Nat}, calls ≤ remaining →
    VnuProbeAllowance.consumeEach calls { remaining, exhausted := false } =
      { remaining := remaining - calls, exhausted := false } := by
  induction calls with
  | zero => exact fun _ => rfl
  | succ calls ih =>
    intro remaining hle
    have hne : remaining ≠ 0 := by omega
    have hrest : calls ≤ remaining - 1 := by omega
    rw [VnuProbeAllowance.consumeEach, VnuProbeAllowance.consume, if_neg hne]
    simp only
    rw [ih hrest, Nat.sub_sub, Nat.add_comm]

/-- Enough is left, and nothing has been refused. -/
structure VnuProbeAllowance.Covers (allowance : VnuProbeAllowance) (units : Nat) : Prop where
  remaining : units ≤ allowance.remaining
  exhausted : allowance.exhausted = false

theorem VnuProbeAllowance.Covers.consumeEach {allowance : VnuProbeAllowance} {units calls : Nat}
    (h : allowance.Covers (calls + units)) : (allowance.consumeEach calls).Covers units := by
  obtain ⟨remaining, exhausted⟩ := allowance
  obtain ⟨hremaining, rfl⟩ := h
  simp only at hremaining
  rw [consumeEach_eq calls (by omega)]
  exact ⟨by simp only; omega, rfl⟩

theorem VnuProbeAllowance.Covers.weaken {allowance : VnuProbeAllowance} {units fewer : Nat} (h : allowance.Covers units)
    (hle : fewer ≤ units) : allowance.Covers fewer := ⟨Nat.le_trans hle h.remaining, h.exhausted⟩

/-- The units a search may still take. -/
def unitsLeft (search : ResolverState) : Nat := vnuStudentIdResolverMaxProbes - search.calls.length

theorem unitsLeft_start (resolver : Resolver) :
    resolver.start.calls.length + unitsLeft resolver.start = vnuStudentIdResolverMaxProbes := rfl

/-- A turn takes what it uses of them. -/
theorem unitsLeft_step {resolver : Resolver} {search : ResolverState} (h : Resolver.Sound resolver search) (turn : Turn) :
    (resolver.step search turn).2.calls.length - search.calls.length + unitsLeft (resolver.step search turn).2 =
      unitsLeft search := by
  have hcalls := resolver.calls_step search turn
  have hbound := (h.step turn).placed.length_calls
  rw [unitsLeft, unitsLeft]
  omega

/-! ## One target -/

namespace SingleRoute

variable {route : SingleRoute} {s : SingleState}

/-- What a route still has to fetch once its search has found a student. -/
def finalUnits : SingleRoute → Nat
  | .transcriptByCode => 1
  | .studentId | .transcriptById => 0

structure Solvent (route : SingleRoute) (s : SingleState) : Prop where
  exhausted : s.allowance.exhausted = false
  searching : ∀ resolver search, s.phase = .searching resolver search →
    Resolver.Sound resolver search ∧ s.allowance.Covers (unitsLeft search + route.finalUnits)

theorem solvent_fetch (h : s.allowance.Covers 1) : Solvent route (fetch s) := by
  have hconsumed : (s.allowance.consumeEach 1).Covers 0 := h.consumeEach
  refine ⟨hconsumed.exhausted, fun resolver search hphase => ?_⟩
  cases hphase

theorem covers_reserved : (createVnuProbeAllowance route.reservedUnits).Covers route.reservedUnits :=
  ⟨Nat.le_refl _, rfl⟩

/-- A route that searches for the number first reserves the probes of the search and its own units. -/
theorem solvent_search {options : VnuStudentIdResolverOptions} {aborted : Option Thrown} {resolver : Resolver}
    (hstart : resolveVnuStudentId options aborted = .ok resolver)
    (hunits : route.reservedUnits = vnuStudentIdResolverMaxProbes + route.finalUnits) :
    Solvent route
      { allowance := (createVnuProbeAllowance route.reservedUnits).consumeEach resolver.start.calls.length
        phase := .searching resolver resolver.start
        aborted } := by
  have hleft : (createVnuProbeAllowance route.reservedUnits).Covers
      (resolver.start.calls.length + (unitsLeft resolver.start + route.finalUnits)) := by
    rw [← Nat.add_assoc, unitsLeft_start, ← hunits]
    exact covers_reserved
  refine ⟨hleft.consumeEach.exhausted, fun other search hphase => ?_⟩
  obtain ⟨rfl, rfl⟩ := SinglePhase.searching.inj hphase
  exact ⟨Resolver.sound_start (checked_of_start hstart).2, hleft.consumeEach⟩

theorem solvent_start (options : VnuStudentIdResolverOptions) (aborted : Option Thrown) :
    Solvent route (route.start options aborted) := by
  unfold start
  cases route with
  | transcriptById => exact solvent_fetch covers_reserved
  | studentId =>
    dsimp only
    cases hstart : resolveVnuStudentId options aborted with
    | error error => exact ⟨rfl, fun _ _ hphase => by cases hphase⟩
    | ok resolver => exact solvent_search hstart rfl
  | transcriptByCode =>
    dsimp only
    cases hstart : resolveVnuStudentId options aborted with
    | error error => exact ⟨rfl, fun _ _ hphase => by cases hphase⟩
    | ok resolver => exact solvent_search hstart rfl

theorem Solvent.advance (h : Solvent route s) (turn : Turn) : Solvent route (route.advance s turn) := by
  unfold SingleRoute.advance
  split
  case h_1 resolver search hphase =>
    obtain ⟨hsound, hcovers⟩ := h.searching resolver search hphase
    rw [← unitsLeft_step hsound turn, Nat.add_assoc] at hcovers
    have hspent := hcovers.consumeEach
    simp only
    split
    · split
      case isTrue hroute =>
        apply solvent_fetch
        exact hspent.weaken (by rw [hroute]; exact Nat.le_add_left _ _)
      case isFalse => exact ⟨hspent.exhausted, fun _ _ hfinished => by cases hfinished⟩
    · exact ⟨hspent.exhausted, fun _ _ hfinished => by cases hfinished⟩
    · refine ⟨hspent.exhausted, fun other next hsearching => ?_⟩
      obtain ⟨rfl, rfl⟩ := SinglePhase.searching.inj hsearching
      exact ⟨hsound.step turn, hspent⟩
  case h_2 => exact h
  case h_3 => exact h

theorem Solvent.step (h : Solvent route s) (turn : SingleTurn) : Solvent route (route.step s turn).2 := by
  cases turn with
  | settle index outcome => exact h.advance _
  | wake index => exact h.advance _
  | abort reason =>
    simp only [SingleRoute.step]
    split
    · exact h
    · have haborted : Solvent route { s with aborted := some reason } := ⟨h.exhausted, h.searching⟩
      exact haborted.advance _
  | fetched =>
    simp only [SingleRoute.step]
    split
    · exact ⟨h.exhausted, fun _ _ hphase => by cases hphase⟩
    · exact h

theorem Solvent.stateAfter (turns : List SingleTurn) : ∀ {s : SingleState}, Solvent route s →
    Solvent route (stateAfter route.step s turns) := by
  induction turns with
  | nil => exact id
  | cons turn rest ih => exact fun h => ih (h.step turn)

end SingleRoute

/-! ## Student codes in bulk -/

namespace BulkWorker

def unitsLeft : BulkWorker → Nat
  | .searching _ _ search => CrossLookup.unitsLeft search
  | .idle | .finished => 0

def Sound : BulkWorker → Prop
  | .searching _ resolver search => Resolver.Sound resolver search
  | .idle | .finished => True

theorem sound_idle : Sound .idle := trivial

theorem sound_finished : Sound .finished := trivial

end BulkWorker

namespace BulkRequest

variable {request : BulkRequest} {s : BulkState}

/-- The units that targets nobody has taken and searches that go on may cost. -/
def owed (request : BulkRequest) (s : BulkState) : Nat :=
  vnuStudentIdResolverMaxProbes * (request.body.targets.length - s.nextIndex) + (s.workers.map BulkWorker.unitsLeft).sum

structure Solvent (request : BulkRequest) (s : BulkState) : Prop where
  covers : s.allowance.Covers (request.owed s)
  sound : ∀ worker ∈ s.workers, worker.Sound

theorem unitsLeft_abort (reason : Thrown) (worker : BulkWorker) : (worker.abort reason).unitsLeft = worker.unitsLeft := by
  cases worker with
  | searching index resolver search =>
    have hcalls : (Resolver.abort search reason).calls = search.calls := by
      unfold Resolver.abort
      split <;> rfl
    simp only [BulkWorker.abort, BulkWorker.unitsLeft, CrossLookup.unitsLeft, hcalls]
  | idle => rfl
  | finished => rfl

theorem Solvent.abort (h : Solvent request s) (reason : Thrown) : Solvent request (abort s reason) := by
  unfold BulkRequest.abort
  split
  · exact h
  · refine ⟨?_, List.forall_mem_map.2 fun worker hmem => ?_⟩
    · have howed : request.owed { s with aborted := some reason, workers := s.workers.map (·.abort reason) } =
          request.owed s := by
        simp only [owed, List.map_map]
        congr 3
        funext worker
        exact unitsLeft_abort reason worker
      exact h.covers.weaken (Nat.le_of_eq howed)
    · have hsound := h.sound worker hmem
      cases worker with
      | searching index resolver search => exact Resolver.Sound.abort hsound reason
      | idle => trivial
      | finished => trivial

theorem unitsLeft_le_owed {i : Nat} {worker : BulkWorker} (hget : s.workers[i]? = some worker) :
    worker.unitsLeft ≤ request.owed s := by
  have hsum := sum_map_set BulkWorker.unitsLeft s.workers .idle hget
  have hidle : BulkWorker.unitsLeft .idle = 0 := rfl
  rw [owed]
  omega

/-- A worker goes on, with an allowance that covers what it takes. -/
theorem Solvent.setWorker (h : Solvent request s) {i : Nat} {worker state : BulkWorker} (hget : s.workers[i]? = some worker)
    (hsound : state.Sound) {allowance : VnuProbeAllowance} {units : Nat} (hcovers : allowance.Covers units)
    (hunits : request.owed s + state.unitsLeft ≤ units + worker.unitsLeft) :
    Solvent request (setWorker { s with allowance } i state) := by
  have hsum := sum_map_set BulkWorker.unitsLeft s.workers state hget
  refine ⟨hcovers.weaken ?_, fun other hmem => ?_⟩
  · rw [owed] at hunits
    simp only [owed, BulkRequest.setWorker]
    omega
  · rcases List.mem_or_eq_of_mem_set hmem with hmem | rfl
    · exact h.sound other hmem
    · exact hsound

theorem Solvent.throwTarget (h : Solvent request s) {i : Nat} {worker : BulkWorker} (hget : s.workers[i]? = some worker)
    {allowance : VnuProbeAllowance} {units : Nat} (hcovers : allowance.Covers units)
    (hunits : request.owed s ≤ units + worker.unitsLeft) (error : Thrown) :
    Solvent request (request.throwTarget { s with allowance } i error) := by
  unfold BulkRequest.throwTarget
  split
  · exact h.setWorker hget BulkWorker.sound_idle hcovers hunits
  · exact (h.setWorker hget BulkWorker.sound_finished hcovers hunits).abort error

/-- A target has been taken: its units are set aside. -/
theorem Solvent.resolveTarget (h : Solvent request s) {i : Nat} (hget : s.workers[i]? = some .idle)
    (hspare : s.allowance.Covers (vnuStudentIdResolverMaxProbes + request.owed s)) (index : Nat) :
    Solvent request (request.resolveTarget s i index) := by
  unfold BulkRequest.resolveTarget
  split
  · split
    · exact h
    · split
      case h_1 error _ => exact h.throwTarget hget h.covers (Nat.le_add_right _ _) error
      case h_2 resolver hstart =>
        rw [← unitsLeft_start resolver, Nat.add_assoc] at hspare
        apply h.setWorker hget _ hspare.consumeEach
        · exact Nat.le_of_eq (Nat.add_comm _ _)
        · exact Resolver.sound_start (checked_of_start hstart).2
  · exact h

theorem Solvent.take (h : Solvent request s) (i : Nat) : Solvent request (request.take s i) := by
  unfold BulkRequest.take
  split
  case h_1 hget =>
    split
    · exact h.setWorker hget BulkWorker.sound_finished h.covers (Nat.le_refl _)
    · simp only
      have howed : request.owed { s with nextIndex := s.nextIndex + 1 } ≤ request.owed s := by
        have hle := Nat.mul_le_mul_left vnuStudentIdResolverMaxProbes
          (Nat.sub_le_sub_left (Nat.le_add_right s.nextIndex 1) request.body.targets.length)
        simp only [owed]
        omega
      have hnext : Solvent request { s with nextIndex := s.nextIndex + 1 } := ⟨h.covers.weaken howed, h.sound⟩
      split
      · exact hnext.setWorker hget BulkWorker.sound_finished hnext.covers (Nat.le_refl _)
      case isFalse hmore =>
        apply hnext.resolveTarget hget
        apply h.covers.weaken
        have hone : request.body.targets.length - s.nextIndex = request.body.targets.length - (s.nextIndex + 1) + 1 := by
          omega
        simp only [owed]
        rw [hone, Nat.mul_add_one]
        omega
  case h_2 => exact h

theorem Solvent.advance (h : Solvent request s) (i : Nat) (turn : Turn) : Solvent request (request.advance s i turn) := by
  unfold BulkRequest.advance
  split
  case h_1 index resolver search hget =>
    have hsound : Resolver.Sound resolver search := h.sound _ (List.mem_of_getElem? hget)
    have hunits := unitsLeft_step hsound turn
    have hle : unitsLeft search ≤ request.owed s := unitsLeft_le_owed hget
    have hworker : BulkWorker.unitsLeft (.searching index resolver search) = unitsLeft search := rfl
    have hspent : (s.allowance.consumeEach ((resolver.step search turn).2.calls.length - search.calls.length)).Covers
        (request.owed s - ((resolver.step search turn).2.calls.length - search.calls.length)) := by
      apply VnuProbeAllowance.Covers.consumeEach
      rw [Nat.add_sub_cancel' (by omega)]
      exact h.covers
    simp only
    split
    · apply h.setWorker hget BulkWorker.sound_idle hspent
      show request.owed s + 0 ≤ _
      omega
    · apply h.throwTarget hget hspent
      omega
    · have hnext : BulkWorker.Sound (.searching index resolver (resolver.step search turn).2) := hsound.step turn
      apply h.setWorker hget hnext hspent
      show request.owed s + unitsLeft (resolver.step search turn).2 ≤ _
      omega
  case h_2 => exact h

theorem Solvent.step (h : Solvent request s) (turn : BulkTurn) : Solvent request (request.step s turn).2 := by
  cases turn with
  | take worker => exact h.take worker
  | settle worker index outcome => exact h.advance worker _
  | wake worker index => exact h.advance worker _
  | abort reason => exact h.abort reason

theorem Solvent.stateAfter (turns : List BulkTurn) : ∀ {s : BulkState}, Solvent request s →
    Solvent request (stateAfter request.step s turns) := by
  induction turns with
  | nil => exact id
  | cons turn rest ih => exact fun h => ih (h.step turn)

theorem solvent_start (aborted : Option Thrown) (hmode : request.body.mode = .codeToStdid) :
    Solvent request (request.start aborted) := by
  have hidle : ∀ worker ∈ (request.start aborted).workers, worker = .idle := by
    intro worker hmem
    simp only [BulkRequest.start] at hmem
    split at hmem
    · exact List.eq_of_mem_replicate hmem
    · cases hmem
  refine ⟨⟨?_, rfl⟩, fun worker hmem => ?_⟩
  · have hnone : ((request.start aborted).workers.map BulkWorker.unitsLeft).sum = 0 := by
      rw [List.map_congr_left fun worker hmem => congrArg BulkWorker.unitsLeft (hidle worker hmem)]
      simp [BulkWorker.unitsLeft]
    rw [owed, hnone]
    simp only [BulkRequest.start, createVnuProbeAllowance, vnuBulkReservationUnits, hmode, if_true, Nat.sub_zero]
    rw [Nat.mul_comm]
    exact Nat.le_refl _
  · rw [hidle worker hmem]
    trivial

end BulkRequest

/-! ## Student ids in bulk -/

theorem directLookups_covers (notFound : String → Bool) (outcomes : List DirectOutcome) :
    ∀ {allowance : VnuProbeAllowance}, allowance.Covers outcomes.length →
      (directLookups notFound outcomes allowance).1.exhausted = false := by
  induction outcomes with
  | nil => exact fun h => h.exhausted
  | cons outcome rest ih =>
    intro allowance h
    have hconsumed : (allowance.consumeEach 1).Covers rest.length := by
      apply VnuProbeAllowance.Covers.consumeEach
      rwa [Nat.add_comm]
    cases outcome with
    | refused => exact ih (h.weaken (Nat.le_add_right _ _))
    | fetched result =>
      cases result with
      | ok _ => exact ih hconsumed
      | error error =>
        rw [directLookups]
        split
        · exact ih hconsumed
        · exact hconsumed.exhausted

/-! ## The cost of a lookup -/

/-- Whatever its calls answer and whenever its caller aborts, a search stays
within its bounds, ends, leaves no call behind and ends with the abort that came
before it had thrown; and no request runs out of the units it has reserved. -/
theorem lookup_bounded (options : VnuStudentIdResolverOptions) (aborted : Option Thrown) (resolver : Resolver)
    (turns : List Turn) (route : SingleRoute) (singleTurns : List SingleTurn) (request : BulkRequest)
    (bulkTurns : List BulkTurn) (outcomes : List DirectOutcome) :
    (resolveVnuStudentId options aborted = .ok resolver →
      Resolver.Bounded resolver (stateAfter resolver.step resolver.start turns) ∧
      ((execute resolver.step resolver.start turns).filter fun e => e.after ≠ e.before).length ≤ 71 ∧
      ((∀ probe ∈ (stateAfter resolver.step resolver.start turns).active, probe.work.isSome = true) →
        (∀ index, resolver.wake (stateAfter resolver.step resolver.start turns) index =
          stateAfter resolver.step resolver.start turns) →
        ∃ result, (stateAfter resolver.step resolver.start turns).phase = .settled result) ∧
      ∀ pre reason post, turns = pre ++ .abort reason :: post →
        (stateAfter resolver.step resolver.start pre).callerCancellation = none →
        (∀ error, (stateAfter resolver.step resolver.start pre).phase ≠ .draining error) →
        (∀ result, (stateAfter resolver.step resolver.start pre).phase ≠ .settled result) →
        ∀ result, (stateAfter resolver.step resolver.start turns).phase = .settled result → result = .error reason) ∧
    (resolveVnuStudentId options none = .ok resolver →
      ∀ reason, resolveVnuStudentId options (some reason) = .error reason) ∧
    (stateAfter route.step (route.start options aborted) singleTurns).allowance.exhausted = false ∧
    (request.body.mode = .codeToStdid →
      (stateAfter request.step (request.start aborted) bulkTurns).allowance.exhausted = false) ∧
    (request.body.mode ≠ .codeToStdid → outcomes.length = request.body.targets.length →
      (directLookups request.notFound outcomes
        (createVnuProbeAllowance (vnuBulkReservationUnits request.body))).1.exhausted = false) := by
  refine ⟨fun hstart => ?_, Resolver.not_started_of_aborted, ?_, fun hmode => ?_, fun hmode hlength => ?_⟩
  · have hsound := Resolver.sound_start (checked_of_start hstart).2
    refine ⟨(hsound.stateAfter turns).bounded, resolver.changes_le turns, Resolver.settled_of_still (hsound.stateAfter turns), ?_⟩
    rintro pre reason post rfl hcaller hdraining hopen result hsettled
    exact Resolver.rejects_of_abort hsound hcaller hdraining hopen hsettled
  · exact ((SingleRoute.solvent_start options aborted).stateAfter singleTurns).exhausted
  · exact ((BulkRequest.solvent_start aborted hmode).stateAfter bulkTurns).covers.exhausted
  · apply directLookups_covers
    refine ⟨?_, rfl⟩
    simp only [createVnuProbeAllowance, vnuBulkReservationUnits, if_neg hmode, Nat.mul_one]
    exact Nat.le_of_eq hlength

/-- Once the resolver has thrown, an abort no longer changes what: the catch waits
for its probes, and throws what it caught. And arguments are checked before a
signal that has been aborted already. -/
theorem abort_too_late :
    (∃ resolver, resolveVnuStudentId (resolverOptions { ownStdId := 100, ownCode := 23020005 } "23020006" 6) none = .ok resolver ∧
      (stateAfter resolver.step resolver.start
        [.settle none (.error (.value "upstream" false)), .wake 0, .abort (.value "caller" true), .wake 0]).phase =
        .settled (.error (.value "upstream" false))) ∧
    resolveVnuStudentId (resolverOptions { ownStdId := 0, ownCode := 23020005 } "23020006" 6)
      (some (.value "caller" true)) = .error .notConverged := by
  refine ⟨⟨{ projectedStdId := 101, targetCode := "23020006", concurrency := 6, platformConcurrencyLimit := 6 }, ?_, ?_⟩, ?_⟩
  · rfl
  · decide +kernel
  · rfl

end Hyeboard.CrossLookup
