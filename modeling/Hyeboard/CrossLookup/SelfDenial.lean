import Hyeboard.CrossLookup.Allowance
import Hyeboard.CrossLookup.OraclePermits
/-!
# When a lookup denies itself

A lookup of one target never finds all permits taken by itself. A bulk lookup
does when a target's search has cancelled probes whose acquires were still
unanswered: their permits come back in the background, while the next targets
fill their pools (`bulk_denies_itself`).
-/

namespace Hyeboard.CrossLookup

/-! ## The probes that have not settled -/

/-- The calls of `fetchStudentCode` that have not settled, by their index. -/
def unsettled (search : ResolverState) : List (Option Nat) := (search.active.filter (·.work.isNone)).map (·.index)

namespace Resolver

variable {resolver : Resolver} {s : ResolverState}

theorem mem_unsettled {index : Option Nat} :
    index ∈ unsettled s ↔ ∃ probe ∈ s.active, probe.work = none ∧ probe.index = index := by
  simp [unsettled, and_assoc]

theorem Placed.nodup_indexes (h : Placed resolver s) : (s.active.map (·.index)).Nodup := by
  have hnodup := (h.probes.map Prod.fst).nodup_iff.2 (nodup_places resolver s)
  rw [List.map_map, List.map_append] at hnodup
  exact (List.nodup_append.1 hnodup).1

theorem Placed.nodup_unsettled (h : Placed resolver s) : (unsettled s).Nodup :=
  (List.filter_sublist.map _).nodup h.nodup_indexes

theorem length_unsettled_le (s : ResolverState) : (unsettled s).length ≤ s.active.length := by
  rw [unsettled, List.length_map]
  exact List.length_filter_le _ _

theorem unsettled_cancel (reason : Thrown) (s : ResolverState) : unsettled (abortActive s reason) = unsettled s := by
  simp only [unsettled, abortActive, List.filter_map, List.map_map, Function.comp_def, work_cancel]
  exact List.map_congr_left fun probe _ => congrArg Prod.fst (place_cancel reason probe)

theorem unsettled_abort (s : ResolverState) (reason : Thrown) : unsettled (abort s reason) = unsettled s := by
  unfold abort
  split
  · rfl
  · rfl
  · exact unsettled_cancel reason s

/-- Only probes that have settled leave the pool. -/
theorem unsettled_delete {index : Option Nat} (h : ∀ probe ∈ s.active, probe.index = index → probe.work.isSome = true) :
    unsettled (delete s index) = unsettled s := by
  simp only [unsettled, delete, List.filter_filter]
  congr 1
  apply List.filter_congr
  intro probe hmem
  by_cases hindex : probe.index = index
  · have hsome := h probe hmem hindex
    simp [hindex, hsome]
  · simp [hindex]

theorem unsettled_nil_of_settled (h : ∀ probe ∈ s.active, probe.work.isSome = true) : unsettled s = [] := by
  rw [unsettled, List.map_eq_nil_iff, List.filter_eq_nil_iff]
  intro probe hmem hnone
  have hsome := h probe hmem
  rw [Option.isNone_iff_eq_none.1 hnone] at hsome
  cases hsome

theorem unsettled_fillPool (s : ResolverState) : unsettled s ⊆ unsettled (fillPool s) := by
  obtain ⟨started, ids, next, -, heq⟩ := fillPool_eq s
  rw [heq]
  intro index hmem
  obtain ⟨probe, hprobe, hrest⟩ := mem_unsettled.1 hmem
  exact mem_unsettled.2 ⟨probe, List.mem_append_left _ hprobe, hrest⟩

theorem unsettled_loop (s : ResolverState) : unsettled (loop s) = unsettled s := by
  unfold loop
  split
  · exact unsettled_cancel _ s
  · rfl

theorem unsettled_settle (resolver : Resolver) (s : ResolverState) (index : Option Nat) (outcome : ProbeOutcome) :
    unsettled (resolver.step s (.settle index outcome)).2 = (unsettled s).filter (· ≠ index) := by
  simp only [unsettled, step, List.filter_map, List.map_map, List.filter_filter, Function.comp_def]
  have hkept : ∀ probe ∈ s.active, ((if probe.index = index then probe.settle outcome else probe).work.isNone) =
      (decide (probe.index ≠ index) && probe.work.isNone) := by
    intro probe _
    unfold ActiveProbe.settle
    by_cases hindex : probe.index = index
    · cases hwork : probe.work <;> simp [hindex, hwork]
    · simp [hindex]
  rw [List.filter_congr hkept]
  apply List.map_congr_left
  intro probe _
  split
  · exact congrArg Prod.fst (place_settle outcome probe)
  · rfl

/-- What going on does to the probes that have not settled. -/
structure Moves (resolver : Resolver) (s t : ResolverState) : Prop where
  kept : unsettled s ⊆ unsettled t
  caller : t.callerCancellation = s.callerCancellation
  /-- The winner is no longer among them. -/
  winner : s.phase.waiting = true → ∀ stdId, t.phase = .settling (.winner stdId) → (unsettled t).length < resolver.limit
  /-- Nothing is started but by a search that waits and is not cancelled. -/
  fewer : ¬ (s.phase.waiting = true ∧ s.callerCancellation = none) →
    (unsettled t).length ≤ (unsettled s).length ∧ (t.phase.waiting = true → s.phase.waiting = true) ∧
      (∀ stdId, t.phase = .settling (.winner stdId) → s.phase = .settling (.winner stdId)) ∧
      ∀ resolution, t.phase = .settled (.ok resolution) →
        s.phase = .settled (.ok resolution) ∨ ∃ stdId, s.phase = .settling (.winner stdId)

theorem moves_refl (resolver : Resolver) (s : ResolverState) : Moves resolver s s := by
  refine ⟨fun _ => id, rfl, fun hwaiting stdId hwinner => ?_, fun _ => ⟨Nat.le_refl _, id, fun _ => id, fun _ => .inl⟩⟩
  rw [hwinner] at hwaiting
  cases hwaiting

/-- A throw. -/
theorem moves_throw {t : ResolverState} (hunsettled : unsettled t = unsettled s)
    (hcaller : t.callerCancellation = s.callerCancellation) (hwaiting : t.phase.waiting = false)
    (hhopeful : t.phase.hopeful = false) : Moves resolver s t := by
  have hwinner : ∀ stdId, t.phase ≠ .settling (.winner stdId) := by
    intro stdId hphase
    rw [hphase] at hhopeful
    cases hhopeful
  refine ⟨by rw [hunsettled]; exact fun _ => id, hcaller, fun _ stdId hphase => absurd hphase (hwinner stdId), fun _ => ?_⟩
  refine ⟨by rw [hunsettled], fun h => ?_, fun stdId hphase => absurd hphase (hwinner stdId), fun resolution hphase => ?_⟩
  · rw [hwaiting] at h
    cases h
  · rw [hphase] at hhopeful
    cases hhopeful

theorem unsettled_fail (s : ResolverState) (error : Thrown) : unsettled (fail s error) = unsettled s :=
  unsettled_cancel error s

/-- The pool is filled. -/
theorem moves_loop (hwaiting : s.phase.waiting = true) (hcaller : s.callerCancellation = none) {t : ResolverState}
    (hunsettled : unsettled t = unsettled s) (ht : t.callerCancellation = s.callerCancellation) :
    Moves resolver s (loop (fillPool t)) := by
  have hcallers : (loop (fillPool t)).callerCancellation = t.callerCancellation := by
    obtain ⟨started, ids, next, -, heq⟩ := fillPool_eq t
    rw [heq]
    unfold loop
    split <;> rfl
  refine ⟨?_, hcallers.trans ht, fun _ stdId hphase => ?_, fun h => absurd ⟨hwaiting, hcaller⟩ h⟩
  · rw [unsettled_loop, ← hunsettled]
    exact unsettled_fillPool t
  · unfold loop at hphase
    split at hphase <;> cases hphase

theorem Sound.moves (h : Sound resolver s) (index : Nat) : Moves resolver s (resolver.wake s index) := by
  have hshaped := h.shaped
  rw [ResolverState.Shaped] at hshaped
  unfold Resolver.wake
  split
  case h_1 hphase =>
    rw [hphase] at hshaped
    split
    case h_1 probe hactive =>
      split
      case h_1 outcome hwork =>
        obtain ⟨⟨first, hone, hindex⟩, -⟩ := hshaped
        have hsettled : ∀ other ∈ s.active, other.index = none → other.work.isSome = true := by
          intro other hmem _
          rw [hactive, List.mem_singleton] at hmem
          rw [hmem, hwork]
          rfl
        have hdelete := unsettled_delete hsettled
        unfold Resolver.afterFirst
        simp only
        split
        · exact moves_throw ((unsettled_fail _ _).trans hdelete) rfl rfl rfl
        · exact moves_throw ((unsettled_fail _ _).trans hdelete) rfl rfl rfl
        · exact moves_throw ((unsettled_fail _ _).trans hdelete) rfl rfl rfl
        case h_4 hcaller _ =>
          have hwaiting : s.phase.waiting = true := by
            rw [hphase]
            rfl
          split
          · refine ⟨by rw [← hdelete]; exact fun _ => id, rfl, fun _ stdId hwinner => ?_, fun hnot => ?_⟩
            · cases hwinner
            · exact absurd ⟨hwaiting, hcaller⟩ hnot
          · exact moves_loop hwaiting hcaller hdelete rfl
      case h_2 => exact moves_refl resolver s
    case h_2 => exact moves_refl resolver s
  case h_2 hphase =>
    have hwaiting : s.phase.waiting = true := by
      rw [hphase]
      rfl
    split
    case h_1 decision hsome =>
      obtain ⟨probe, hfind, hdecision⟩ := Option.bind_eq_some_iff.1 hsome
      have hmem := List.mem_of_find?_eq_some hfind
      have hindex : probe.index = some index := by
        have := List.find?_some hfind
        simpa using this
      have hdelete : ∀ outcome, probe.work = some outcome → unsettled (delete s (some index)) = unsettled s := by
        intro outcome hwork
        apply unsettled_delete
        intro other hother hsame
        rw [h.placed.unique (List.mem_append_left _ hother) (List.mem_append_left _ hmem) (hsame.trans hindex.symm), hwork]
        rfl
      unfold Resolver.afterRace
      split
      · exact moves_throw (unsettled_cancel _ _) rfl rfl rfl
      · exact moves_throw (unsettled_cancel _ _) rfl rfl rfl
      · obtain ⟨-, hwork⟩ := decision_eq_outcome.1 hdecision
        exact moves_throw ((unsettled_cancel _ _).trans (hdelete _ hwork)) rfl rfl rfl
      case h_4 studentCode hcaller =>
        obtain ⟨-, hwork⟩ := decision_eq_outcome.1 hdecision
        simp only
        split
        · have hsame := (unsettled_cancel .winnerReason (delete s (some index))).trans (hdelete _ hwork)
          have hfewer : (delete s (some index)).active.length < s.active.length :=
            List.length_filter_lt_length_iff_exists.2 ⟨probe, hmem, by simp [hindex]⟩
          refine ⟨?_, rfl, fun _ stdId _ => ?_, fun hnot => absurd ⟨hwaiting, hcaller⟩ hnot⟩
          · exact hsame ▸ fun _ => id
          · show (unsettled (abortActive (delete s (some index)) .winnerReason)).length < resolver.limit
            rw [unsettled_cancel]
            exact Nat.lt_of_le_of_lt (length_unsettled_le _) (Nat.lt_of_lt_of_le hfewer h.placed.width)
        · exact moves_loop hwaiting hcaller (hdelete _ hwork) rfl
    case h_2 => exact moves_refl resolver s
  case h_3 next hphase =>
    split
    case isTrue hall =>
      have hnone := unsettled_nil_of_settled (List.all_eq_true.1 hall)
      have hclear : unsettled (clear s) = unsettled s := hnone.symm
      unfold Resolver.afterSettling
      split
      · exact moves_throw ((unsettled_fail _ _).trans hclear) rfl rfl rfl
      · exact moves_throw ((unsettled_fail _ _).trans hclear) rfl rfl rfl
      · exact moves_throw ((unsettled_fail _ _).trans hclear) rfl rfl rfl
      case h_4 stdId hcaller =>
        split
        · exact moves_throw ((unsettled_fail _ _).trans hclear) rfl rfl rfl
        · refine ⟨by rw [hnone]; exact List.nil_subset _, rfl, fun _ stdId hwinner => ?_, fun _ => ?_⟩
          · cases hwinner
          · refine ⟨Nat.zero_le _, fun hwaiting => ?_, fun stdId hwinner => ?_, fun resolution _ => .inr ⟨stdId, hphase⟩⟩
            · cases hwaiting
            · cases hwinner
    case isFalse => exact moves_refl resolver s
  case h_4 error hphase =>
    split
    case isTrue hall =>
      have hnone := unsettled_nil_of_settled (List.all_eq_true.1 hall)
      exact moves_throw hnone.symm rfl rfl rfl
    case isFalse => exact moves_refl resolver s
  case h_5 => exact moves_refl resolver s

end Resolver

/-! ## One target -/

/-- The reason of a probe's signal. -/
def probeReason (search : ResolverState) (index : Option Nat) : Option Thrown :=
  (search.active.find? (·.index = index)).bind (·.cancelled)

/-- The limits of a search that a route has started. -/
theorem limits_of_start {identity : VnuOwnIdentity} {targetCode : String} {concurrency : Nat} {aborted : Option Thrown}
    {resolver : Resolver} (h : resolveVnuStudentId (resolverOptions identity targetCode concurrency) aborted = .ok resolver) :
    resolver.concurrency = concurrency ∧ resolver.platformConcurrencyLimit = vnuBrc1PermitLimit := by
  unfold resolveVnuStudentId resolverOptions at h
  obtain ⟨parsed, hparsed, h⟩ := bind_eq_ok.1 h
  obtain ⟨limit, hlimit, h⟩ := bind_eq_ok.1 h
  simp only at h
  obtain ⟨_, -, h⟩ := bind_eq_ok.1 h
  obtain ⟨_, -, h⟩ := bind_eq_ok.1 h
  cases aborted with
  | some reason => cases h
  | none =>
    rw [← Except.ok.inj h]
    refine ⟨?_, (Except.ok.inj hlimit).symm⟩
    simp only [parsePositiveSafeInteger] at hparsed
    split at hparsed
    · exact (Except.ok.inj hparsed).symm
    · cases hparsed

/-- A call of `withVnuOraclePermit`. -/
inductive SingleCall where
  | probe (index : Option Nat)
  | transcript
deriving DecidableEq

theorem probe_injective : Function.Injective SingleCall.probe := fun _ _ => SingleCall.probe.inj

namespace SingleRoute

def pending (s : SingleState) : List SingleCall :=
  match s.phase with
  | .searching _ search => (unsettled search).map .probe
  | .fetching => [.transcript]
  | .finished => []

def reason (s : SingleState) : SingleCall → Option Thrown
  | .transcript => s.aborted
  | .probe index =>
    match s.phase with
    | .searching _ search => probeReason search index
    | .fetching | .finished => none

def host (route : SingleRoute) : Host SingleState SingleCall SingleTurn where
  step s turn :=
    match turn with
    | .wake _ | .abort _ => (route.step s turn).2
    -- calls settle below
    | .settle _ _ | .fetched => s
  pending
  reason
  settle s key outcome :=
    match key with
    | .transcript => (route.step s .fetched).2
    | .probe index => (route.step s (.settle index outcome)).2

/-- The searches of a request that has been checked. -/
def Ok (s : SingleState) : Prop :=
  ∀ resolver search, s.phase = .searching resolver search →
    Resolver.Sound resolver search ∧ resolver.limit ≤ vnuBrc1PermitLimit ∧ ∀ result, search.phase ≠ .settled result

variable {route : SingleRoute} {s : SingleState}

/-- What a search that goes on makes of its route. -/
theorem advance_eq (route : SingleRoute) {resolver : Resolver} {search : ResolverState} (hphase : s.phase = .searching resolver search)
    (turn : Turn) :
    ((∃ resolution, (resolver.step search turn).2.phase = .settled (.ok resolution)) ∧
      (route.advance s turn).phase = if route = .transcriptByCode then .fetching else .finished) ∨
    ((∃ error, (resolver.step search turn).2.phase = .settled (.error error)) ∧ (route.advance s turn).phase = .finished) ∨
    ((∀ result, (resolver.step search turn).2.phase ≠ .settled result) ∧
      (route.advance s turn).phase = .searching resolver (resolver.step search turn).2) := by
  unfold advance
  rw [hphase]
  simp only
  cases hnext : (resolver.step search turn).2.phase with
  | settled result =>
    cases result with
    | ok resolution =>
      refine .inl ⟨⟨resolution, rfl⟩, ?_⟩
      simp only
      split <;> rfl
    | error error => exact .inr (.inl ⟨⟨error, rfl⟩, rfl⟩)
  | _ => exact .inr (.inr ⟨(fun _ hsettled => by cases hsettled), rfl⟩)

theorem Ok.advance (h : Ok s) (turn : Turn) : Ok (route.advance s turn) := by
  cases hphase : s.phase with
  | searching resolver search =>
    obtain ⟨hsound, hlimit, -⟩ := h resolver search hphase
    intro other next hother
    rcases advance_eq route hphase turn with ⟨-, hnext⟩ | ⟨-, hnext⟩ | ⟨hopen, hnext⟩
    · rw [hnext] at hother
      split at hother <;> cases hother
    · rw [hnext] at hother
      cases hother
    · rw [hnext] at hother
      obtain ⟨rfl, rfl⟩ := SinglePhase.searching.inj hother
      exact ⟨hsound.step turn, hlimit, hopen⟩
  | fetching =>
    have hsame : route.advance s turn = s := by
      unfold SingleRoute.advance
      rw [hphase]
    rw [hsame]
    exact h
  | finished =>
    have hsame : route.advance s turn = s := by
      unfold SingleRoute.advance
      rw [hphase]
    rw [hsame]
    exact h

/-- Once a search has settled none of its probes is left. -/
theorem unsettled_of_settled {resolver : Resolver} {search : ResolverState} (h : Resolver.Sound resolver search)
    {result : Except Thrown VnuStudentIdResolution} (hsettled : search.phase = .settled result) : unsettled search = [] := by
  have hshaped := h.shaped
  rw [ResolverState.Shaped, hsettled] at hshaped
  rw [unsettled, show search.active = [] from hshaped]
  rfl

/-- Nothing goes on without a search. -/
theorem advance_of_not_searching (route : SingleRoute) (hphase : ∀ resolver search, s.phase ≠ .searching resolver search) (turn : Turn) :
    route.advance s turn = s := by
  unfold SingleRoute.advance
  split
  · exact absurd ‹_› (hphase _ _)
  · rfl
  · rfl

theorem pending_advance (h : Ok s) (turn : Turn)
    (hkept : ∀ resolver search, s.phase = .searching resolver search →
      unsettled search ⊆ unsettled (resolver.step search turn).2) : pending s ⊆ pending (route.advance s turn) := by
  cases hphase : s.phase with
  | searching resolver search =>
    obtain ⟨hsound, -, -⟩ := h resolver search hphase
    have hsubset := hkept resolver search hphase
    have hempty : ∀ result, (resolver.step search turn).2.phase = .settled result → pending s ⊆ pending (route.advance s turn) := by
      intro result hsettled
      rw [unsettled_of_settled (hsound.step turn) hsettled] at hsubset
      rw [pending, hphase]
      simp only
      rw [List.eq_nil_of_subset_nil hsubset]
      exact List.nil_subset _
    rcases advance_eq route hphase turn with ⟨⟨resolution, hsettled⟩, -⟩ | ⟨⟨error, hsettled⟩, -⟩ | ⟨-, hnext⟩
    · exact hempty _ hsettled
    · exact hempty _ hsettled
    · rw [pending, pending, hphase, hnext]
      exact List.map_subset _ hsubset
  | fetching =>
    rw [advance_of_not_searching route (by rw [hphase]; exact fun _ _ hsame => by cases hsame)]
    exact fun _ => id
  | finished =>
    rw [advance_of_not_searching route (by rw [hphase]; exact fun _ _ hsame => by cases hsame)]
    exact fun _ => id

theorem host_lawful (route : SingleRoute) : route.host.Lawful Ok := by
  have habort : ∀ s : SingleState, ∀ reason, Ok s → Ok { s with aborted := some reason } := fun _ _ h => h
  constructor
  · intro s h
    show (pending s).Nodup
    unfold pending
    split
    case h_1 resolver search hphase =>
      exact ((h resolver search hphase).1.placed.nodup_unsettled).map probe_injective
    case h_2 => exact List.nodup_singleton _
    case h_3 => exact List.nodup_nil
  · intro s turn h
    cases turn with
    | wake index => exact h.advance _
    | abort reason =>
      simp only [host, SingleRoute.step]
      split
      · exact h
      · exact (habort s reason h).advance _
    | settle index outcome => exact h
    | fetched => exact h
  · intro s turn h
    cases turn with
    | wake index => exact pending_advance h _ fun resolver search hphase => ((h resolver search hphase).1.moves index).kept
    | abort reason =>
      simp only [host, SingleRoute.step]
      split
      · exact fun _ => id
      · apply pending_advance (habort s reason h) _
        intro resolver search _
        exact (Resolver.unsettled_abort search reason).symm ▸ fun _ => id
    | settle index outcome => exact fun _ => id
    | fetched => exact fun _ => id
  · intro s key outcome h
    cases key with
    | transcript =>
      simp only [host, SingleRoute.step]
      split
      · intro resolver search hphase
        cases hphase
      · exact h
    | probe index => exact h.advance _
  · intro s key outcome h
    cases key with
    | transcript =>
      simp only [host, SingleRoute.step]
      split
      case h_1 hphase => simp [pending, hphase]
      case h_2 hphase =>
        have hnone : ∀ key ∈ pending s, key ≠ .transcript := by
          unfold pending
          split
          · simp
          · exact absurd ‹_› hphase
          · simp
        rw [List.filter_eq_self.2 fun key hmem => decide_eq_true (hnone key hmem)]
    | probe index =>
      show (pending (route.advance s (.settle index outcome))).Perm ((pending s).filter (· ≠ .probe index))
      cases hphase : s.phase with
      | searching resolver search =>
        obtain ⟨hsound, -, hopen⟩ := h resolver search hphase
        have hnext : (route.advance s (.settle index outcome)).phase =
            .searching resolver (resolver.step search (.settle index outcome)).2 := by
          rcases advance_eq route hphase (.settle index outcome) with ⟨⟨_, hsettled⟩, -⟩ | ⟨⟨_, hsettled⟩, -⟩ | ⟨-, hnext⟩
          · exact absurd hsettled (hopen _)
          · exact absurd hsettled (hopen _)
          · exact hnext
        rw [pending, pending, hphase, hnext]
        simp only
        rw [Resolver.unsettled_settle, List.filter_map]
        simp [Function.comp_def]
      | fetching =>
        rw [advance_of_not_searching route (by rw [hphase]; exact fun _ _ hsame => by cases hsame)]
        simp [pending, hphase]
      | finished =>
        rw [advance_of_not_searching route (by rw [hphase]; exact fun _ _ hsame => by cases hsame)]
        simp [pending, hphase]

/-! ### No more than six -/

/-- The calls that have not settled and the permits left behind are at most six,
and fewer before the transcript is asked for. -/
structure Fits (route : SingleRoute) (s : OracleState SingleState (SingleCall)) : Prop where
  accounted : Accounted route.host Ok s
  bound : s.calls.length + s.abandoned ≤ vnuBrc1PermitLimit
  /-- Nothing is left behind before anything is cancelled. -/
  waiting : ∀ resolver search, s.host.phase = .searching resolver search → search.phase.waiting = true →
    search.callerCancellation = none → s.abandoned = 0
  winner : ∀ resolver search, s.host.phase = .searching resolver search → ∀ stdId,
    search.phase = .settling (.winner stdId) → s.calls.length + s.abandoned < vnuBrc1PermitLimit

/-- A search stays where it is. -/
def SameSearch (s t : SingleState) : Prop :=
  ∀ resolver next, t.phase = .searching resolver next → ∃ search, s.phase = .searching resolver search ∧
    next.phase = search.phase ∧ next.callerCancellation = search.callerCancellation

theorem sameSearch_settle (s : SingleState) (key : SingleCall) (outcome : ProbeOutcome) :
    SameSearch s (route.host.settle s key outcome) := by
  intro resolver next hnext
  cases key with
  | transcript =>
    simp only [host, SingleRoute.step] at hnext
    split at hnext
    · cases hnext
    · exact ⟨next, hnext, rfl, rfl⟩
  | probe index =>
    replace hnext : (route.advance s (.settle index outcome)).phase = .searching resolver next := hnext
    cases hphase : s.phase with
    | searching other search =>
      rcases advance_eq route hphase (.settle index outcome) with ⟨-, heq⟩ | ⟨-, heq⟩ | ⟨-, heq⟩
      · rw [heq] at hnext
        split at hnext <;> cases hnext
      · rw [heq] at hnext
        cases hnext
      · rw [heq] at hnext
        obtain ⟨rfl, rfl⟩ := SinglePhase.searching.inj hnext
        exact ⟨search, rfl, rfl, rfl⟩
    | fetching =>
      rw [advance_of_not_searching route (by rw [hphase]; exact fun _ _ hsame => by cases hsame), hphase] at hnext
      cases hnext
    | finished =>
      rw [advance_of_not_searching route (by rw [hphase]; exact fun _ _ hsame => by cases hsame), hphase] at hnext
      cases hnext

variable {o : OracleState SingleState (SingleCall)}

/-- No call is cancelled while a search waits that its caller has not cancelled. -/
theorem reason_eq_none (h : Accounted route.host Ok o) {key : SingleCall} {stage : PermitStage}
    (hlookup : o.calls.lookup key = some stage) {resolver : Resolver} {search : ResolverState}
    (hphase : o.host.phase = .searching resolver search) (hwaiting : search.phase.waiting = true)
    (hcaller : search.callerCancellation = none) : reason o.host key = none := by
  obtain ⟨hsound, -, -⟩ := h.ok resolver search hphase
  obtain ⟨call, hmem, hkey⟩ := List.lookup_isSome_iff.1 (by rw [hlookup]; rfl)
  have hpending : key ∈ pending o.host := by
    rw [eq_of_beq hkey]
    exact h.calls.subset (List.mem_map_of_mem hmem)
  rw [pending, hphase] at hpending
  obtain ⟨index, -, rfl⟩ := List.mem_map.1 hpending
  simp only [reason, hphase, probeReason]
  cases hfind : search.active.find? (·.index = index) with
  | none => rfl
  | some probe => exact hsound.uncancelled hwaiting hcaller probe (List.mem_of_find?_eq_some hfind)

theorem Fits.shrink (h : Fits route o) {t : OracleState SingleState (SingleCall)}
    (haccounted : Accounted route.host Ok t) (hsame : SameSearch o.host t.host)
    (hle : t.calls.length + t.abandoned ≤ o.calls.length + o.abandoned)
    (habandoned : ∀ resolver search, o.host.phase = .searching resolver search → search.phase.waiting = true →
      search.callerCancellation = none → o.abandoned = 0 → t.abandoned = 0) : Fits route t := by
  refine ⟨haccounted, Nat.le_trans hle h.bound, fun resolver next hnext hwaiting hcaller => ?_,
    fun resolver next hnext stdId hwinner => ?_⟩
  · obtain ⟨search, hsearch, hphase, hcallers⟩ := hsame resolver next hnext
    have hgoes : search.phase.waiting = true := hphase ▸ hwaiting
    have hnone : search.callerCancellation = none := hcallers ▸ hcaller
    exact habandoned resolver search hsearch hgoes hnone (h.waiting resolver search hsearch hgoes hnone)
  · obtain ⟨search, hsearch, hphase, -⟩ := hsame resolver next hnext
    exact Nat.lt_of_le_of_lt hle (h.winner resolver search hsearch stdId (hphase ▸ hwinner))

theorem sameSearch_refl (s : SingleState) : SameSearch s s := fun _ search h => ⟨search, h, rfl, rfl⟩

theorem Fits.setStage (h : Fits route o) {key : SingleCall} {stage : PermitStage} {permits : Nat} {refused : Bool}
    (haccounted : Accounted route.host Ok (Host.setStage { o with permits, refused } key stage)) :
    Fits route (Host.setStage { o with permits, refused } key stage) := by
  refine h.shrink haccounted (sameSearch_refl _) ?_ fun _ _ _ _ _ => id
  simp [Host.setStage]

theorem Fits.finish (h : Fits route o) {key : SingleCall} {stage : PermitStage}
    (hlookup : o.calls.lookup key = some stage) {abandoned : Nat} {outcome : ProbeOutcome}
    (haccounted : Accounted route.host Ok (route.host.finish { o with abandoned } key outcome))
    (hle : abandoned ≤ o.abandoned + 1)
    (habandoned : ∀ resolver search, o.host.phase = .searching resolver search → search.phase.waiting = true →
      search.callerCancellation = none → o.abandoned = 0 → abandoned = 0) :
    Fits route (route.host.finish { o with abandoned } key outcome) := by
  refine h.shrink haccounted (sameSearch_settle o.host key outcome) ?_ habandoned
  have hfewer : (o.calls.filter (·.1 ≠ key)).length < o.calls.length := by
    obtain ⟨call, hmem, hkey⟩ := List.lookup_isSome_iff.1 (by rw [hlookup]; rfl)
    refine List.length_filter_lt_length_iff_exists.2 ⟨call, hmem, ?_⟩
    simp [(eq_of_beq hkey).symm]
  simp only [Host.finish]
  omega

theorem Fits.length_calls (h : Fits route o) : o.calls.length = (pending o.host).length := by
  have hlength := h.accounted.calls.length_eq
  rwa [List.length_map] at hlength

/-- The search goes on. -/
theorem Fits.wake (h : Fits route o) (index : Nat) : Fits route (route.host.oracleStep o (.host (.wake index))).2 := by
  have haccounted := h.accounted.step (host_lawful route) (.host (.wake index))
  have hlength := haccounted.calls.length_eq
  rw [List.length_map] at hlength
  simp only [Host.oracleStep] at haccounted hlength ⊢
  generalize hnext : Host.openCalls route.host { o with host := route.host.step o.host (.wake index) } = t at *
  have hhost : t.host = route.advance o.host (.wake index) := by
    rw [← hnext]
    rfl
  have habandoned : t.abandoned = o.abandoned := by
    rw [← hnext]
    rfl
  replace hlength : t.calls.length = (pending (route.advance o.host (.wake index))).length := by
    rw [hlength, hhost]
    rfl
  cases hphase : o.host.phase with
  | searching resolver search =>
    obtain ⟨hsound, hlimit, hopen⟩ := h.accounted.ok resolver search hphase
    have hbefore : o.calls.length = (unsettled search).length := by
      rw [h.length_calls, pending, hphase, List.length_map]
    have hmoves := hsound.moves index
    have hwidth : (unsettled (resolver.wake search index)).length ≤ vnuBrc1PermitLimit :=
      Nat.le_trans (Resolver.length_unsettled_le _) (Nat.le_trans (hsound.wake index).placed.width hlimit)
    rcases advance_eq route hphase (.wake index) with ⟨⟨resolution, hsettled⟩, heq⟩ | ⟨-, heq⟩ | ⟨-, heq⟩
    · -- found: only the transcript is left to ask for
      have hone : t.calls.length ≤ 1 := by
        rw [hlength, pending, heq]
        by_cases hroute : route = .transcriptByCode <;> simp [hroute]
      have hleft : o.abandoned < vnuBrc1PermitLimit := by
        by_cases hwaiting : search.phase.waiting = true ∧ search.callerCancellation = none
        · rw [h.waiting resolver search hphase hwaiting.1 hwaiting.2]
          decide
        · rcases (hmoves.fewer hwaiting).2.2.2 resolution hsettled with hover | ⟨stdId, hwinner⟩
          · exact absurd hover (hopen _)
          · have := h.winner resolver search hphase stdId hwinner
            omega
      refine ⟨haccounted, by omega, fun other next hother => ?_, fun other next hother => ?_⟩
      · rw [hhost, heq] at hother
        split at hother <;> cases hother
      · rw [hhost, heq] at hother
        split at hother <;> cases hother
    · have hnone : t.calls.length = 0 := by
        rw [hlength, pending, heq]
        rfl
      have hbound := h.bound
      refine ⟨haccounted, by omega, fun other next hother => ?_, fun other next hother => ?_⟩
      · rw [hhost, heq] at hother
        cases hother
      · rw [hhost, heq] at hother
        cases hother
    · have hcalls : t.calls.length = (unsettled (resolver.wake search index)).length := by
        rw [hlength, pending, heq, List.length_map]
        rfl
      by_cases hwaiting : search.phase.waiting = true ∧ search.callerCancellation = none
      · have hzero := h.waiting resolver search hphase hwaiting.1 hwaiting.2
        refine ⟨haccounted, by omega, fun _ _ _ _ _ => habandoned.trans hzero, fun other next hother stdId hwinner => ?_⟩
        rw [hhost, heq] at hother
        obtain ⟨rfl, rfl⟩ := SinglePhase.searching.inj hother
        have := hmoves.winner hwaiting.1 stdId hwinner
        omega
      · obtain ⟨hfewer, hstill, hwon, -⟩ := hmoves.fewer hwaiting
        have hbound := h.bound
        refine ⟨haccounted, by omega, fun other next hother hgoes hcaller => ?_, fun other next hother stdId hwinner => ?_⟩
        · rw [hhost, heq] at hother
          obtain ⟨rfl, rfl⟩ := SinglePhase.searching.inj hother
          exact absurd ⟨hstill hgoes, hmoves.caller.symm.trans hcaller⟩ hwaiting
        · rw [hhost, heq] at hother
          obtain ⟨rfl, rfl⟩ := SinglePhase.searching.inj hother
          have := h.winner resolver search hphase stdId (hwon stdId hwinner)
          omega
  | fetching =>
    have hsame := advance_of_not_searching route (by rw [hphase]; exact fun _ _ hsame => by cases hsame) (.wake index)
    rw [hsame] at hhost hlength
    exact h.shrink haccounted (hhost ▸ sameSearch_refl _) (by rw [hlength, habandoned, h.length_calls]) (fun _ _ _ _ _ => habandoned ▸ id)
  | finished =>
    have hsame := advance_of_not_searching route (by rw [hphase]; exact fun _ _ hsame => by cases hsame) (.wake index)
    rw [hsame] at hhost hlength
    exact h.shrink haccounted (hhost ▸ sameSearch_refl _) (by rw [hlength, habandoned, h.length_calls]) (fun _ _ _ _ _ => habandoned ▸ id)

theorem Fits.abort (h : Fits route o) (reason : Thrown) : Fits route (route.host.oracleStep o (.host (.abort reason))).2 := by
  have haccounted := h.accounted.step (host_lawful route) (.host (.abort reason))
  have hlength := haccounted.calls.length_eq
  rw [List.length_map] at hlength
  simp only [Host.oracleStep] at haccounted hlength ⊢
  generalize hnext : Host.openCalls route.host { o with host := route.host.step o.host (.abort reason) } = t at *
  have habandoned : t.abandoned = o.abandoned := by
    rw [← hnext]
    rfl
  have hhost : t.host = (route.step o.host (.abort reason)).2 := by
    rw [← hnext]
    rfl
  replace hlength : t.calls.length = (pending t.host).length := hlength
  simp only [SingleRoute.step] at hhost
  cases haborted : o.host.aborted with
  | some earlier =>
    rw [haborted] at hhost
    simp only at hhost
    exact h.shrink haccounted (hhost ▸ sameSearch_refl _) (by rw [hlength, habandoned, h.length_calls, hhost]) (fun _ _ _ _ _ => habandoned ▸ id)
  | none =>
    rw [haborted] at hhost
    simp only at hhost
    cases hphase : o.host.phase with
    | searching resolver search =>
      obtain ⟨-, -, hopen⟩ := h.accounted.ok resolver search hphase
      have hstays : ∀ result, (resolver.step search (.abort reason)).2.phase ≠ .settled result := by
        intro result hsettled
        apply hopen result
        rw [← hsettled]
        simp only [Resolver.step, Resolver.abort]
        split <;> rfl
      have hphaseof : (resolver.step search (.abort reason)).2.phase = search.phase := by
        simp only [Resolver.step, Resolver.abort]
        split <;> rfl
      have hcancelled : (resolver.step search (.abort reason)).2.callerCancellation ≠ none := by
        simp only [Resolver.step, Resolver.abort]
        split
        · exact absurd ‹search.phase = _› (hopen _)
        · simp [*]
        · simp
      have hthere : ({ o.host with aborted := some reason } : SingleState).phase = .searching resolver search := hphase
      have heq : t.host.phase = .searching resolver (resolver.step search (.abort reason)).2 := by
        rw [hhost]
        rcases advance_eq route hthere (.abort reason) with ⟨⟨_, hsettled⟩, -⟩ | ⟨⟨_, hsettled⟩, -⟩ | ⟨-, heq⟩
        · exact absurd hsettled (hstays _)
        · exact absurd hsettled (hstays _)
        · exact heq
      have hcalls : t.calls.length = o.calls.length := by
        have hsame : unsettled (resolver.step search (.abort reason)).2 = unsettled search :=
          Resolver.unsettled_abort search reason
        rw [hlength, h.length_calls, pending, pending, hphase, heq]
        simp only [hsame]
      refine ⟨haccounted, by rw [hcalls, habandoned]; exact h.bound, fun other next hother _ hcaller => ?_,
        fun other next hother stdId hwinner => ?_⟩
      · rw [heq] at hother
        obtain ⟨rfl, rfl⟩ := SinglePhase.searching.inj hother
        exact absurd hcaller hcancelled
      · rw [heq] at hother
        obtain ⟨rfl, rfl⟩ := SinglePhase.searching.inj hother
        rw [hcalls, habandoned]
        exact h.winner resolver search hphase stdId (hphaseof ▸ hwinner)
    | _ =>
      rw [advance_of_not_searching route (fun _ _ hsame => by rw [hphase] at hsame; cases hsame)] at hhost
      refine h.shrink haccounted ?_ ?_ (fun _ _ _ _ _ => habandoned ▸ id)
      · rw [hhost]
        exact fun resolver search hsearching => ⟨search, hsearching, rfl, rfl⟩
      · rw [hlength, habandoned, h.length_calls, hhost]
        exact Nat.le_of_eq rfl

/-- What a turn preserves. -/
theorem Fits.step (h : Fits route o) (turn : OracleTurn (SingleCall) SingleTurn) :
    Fits route (route.host.oracleStep o turn).2 := by
  have haccounted := h.accounted.step (host_lawful route) turn
  cases turn with
  | host turn =>
    cases turn with
    | wake index => exact h.wake index
    | abort reason => exact h.abort reason
    | settle index outcome =>
      refine h.shrink haccounted (sameSearch_refl _) ?_ fun _ _ _ _ _ => id
      have hlength := haccounted.calls.length_eq
      rw [List.length_map] at hlength
      exact Nat.add_le_add_right (Nat.le_of_eq (hlength.trans h.length_calls.symm)) _
    | fetched =>
      refine h.shrink haccounted (sameSearch_refl _) ?_ fun _ _ _ _ _ => id
      have hlength := haccounted.calls.length_eq
      rw [List.length_map] at hlength
      exact Nat.add_le_add_right (Nat.le_of_eq (hlength.trans h.length_calls.symm)) _
  | hashed key =>
    simp only [Host.oracleStep] at haccounted ⊢
    split
    case h_1 hlookup =>
      rw [hlookup] at haccounted
      unfold Host.acquire at haccounted ⊢
      split
      case h_1 reason hreason =>
        rw [hreason] at haccounted
        exact h.finish hlookup haccounted (Nat.le_add_right _ _) fun _ _ _ _ _ => id
      case h_2 hreason =>
        rw [hreason] at haccounted
        simp only at haccounted
        split
        case isTrue hroom =>
          rw [if_pos hroom] at haccounted
          exact h.setStage haccounted
        case isFalse hroom =>
          rw [if_neg hroom] at haccounted
          exact h.setStage haccounted
    case h_2 => exact h
  | answered key =>
    simp only [Host.oracleStep] at haccounted ⊢
    split
    case h_1 granted hlookup =>
      rw [hlookup] at haccounted
      simp only at haccounted
      unfold Host.answer at haccounted ⊢
      split
      case h_1 => exact h.finish hlookup haccounted (Nat.le_add_right _ _) fun _ _ _ _ _ => id
      case h_2 reason hreason =>
        rw [hreason] at haccounted
        exact h.setStage haccounted
      case h_3 hreason =>
        rw [hreason] at haccounted
        exact h.setStage haccounted
    case h_2 => exact h
  | cancelled key =>
    simp only [Host.oracleStep] at haccounted ⊢
    split
    case h_1 granted hlookup =>
      rw [hlookup] at haccounted
      simp only at haccounted
      unfold Host.abandon at haccounted ⊢
      split
      case h_1 reason hreason =>
        rw [hreason] at haccounted
        apply h.finish hlookup haccounted
        · cases granted <;> simp
        · intro resolver search hphase hwaiting hcaller _
          have hnone := reason_eq_none h.accounted hlookup hphase hwaiting hcaller
          rw [show SingleRoute.reason o.host key = some reason from hreason] at hnone
          cases hnone
      case h_2 => exact h
    case h_2 => exact h
  | worked key outcome =>
    simp only [Host.oracleStep] at haccounted ⊢
    split
    case h_1 hlookup =>
      rw [hlookup] at haccounted
      exact h.setStage haccounted
    case h_2 => exact h
  | released key =>
    simp only [Host.oracleStep] at haccounted ⊢
    split
    case h_1 outcome hlookup =>
      rw [hlookup] at haccounted
      exact h.finish hlookup haccounted (Nat.le_add_right _ _) fun _ _ _ _ _ => id
    case h_2 => exact h
  | abandonedAnswered =>
    simp only [Host.oracleStep] at haccounted ⊢
    split
    case isTrue hsome =>
      rw [if_pos hsome] at haccounted
      refine h.shrink haccounted (sameSearch_refl _) ?_ fun _ _ _ _ _ hzero => by rw [hzero]
      simp only
      omega
    case isFalse => exact h

/-- A route that searches has just started to. -/
theorem start_searching {options : VnuStudentIdResolverOptions} {aborted : Option Thrown} {resolver : Resolver}
    {search : ResolverState} (h : (route.start options aborted).phase = .searching resolver search) :
    resolveVnuStudentId options aborted = .ok resolver ∧ search = resolver.start := by
  cases hstart : resolveVnuStudentId options aborted with
  | error error =>
    cases route <;> simp [SingleRoute.start, hstart, fetch] at h
  | ok other =>
    cases route with
    | studentId =>
      rw [SingleRoute.start, hstart] at h
      obtain ⟨rfl, rfl⟩ := SinglePhase.searching.inj h
      exact ⟨rfl, rfl⟩
    | transcriptByCode =>
      rw [SingleRoute.start, hstart] at h
      obtain ⟨rfl, rfl⟩ := SinglePhase.searching.inj h
      exact ⟨rfl, rfl⟩
    | transcriptById => cases h

theorem fits_start (route : SingleRoute) (identity : VnuOwnIdentity) (targetCode : String) (concurrency : Nat)
    (aborted : Option Thrown) :
    Fits route (route.host.oracleStart (route.start (resolverOptions identity targetCode concurrency) aborted)) := by
  have hok : Ok (route.start (resolverOptions identity targetCode concurrency) aborted) := by
    intro resolver search hphase
    obtain ⟨hstart, rfl⟩ := start_searching hphase
    refine ⟨Resolver.sound_start (checked_of_start hstart).2, ?_, fun _ hsettled => by cases hsettled⟩
    rw [← (limits_of_start hstart).2]
    exact Nat.min_le_right _ _
  have haccounted : Accounted route.host Ok
      (route.host.oracleStart (route.start (resolverOptions identity targetCode concurrency) aborted)) := by
    apply accounted_openCalls hok (host_lawful route)
    · exact List.nodup_nil
    · exact List.nil_subset _
    · rfl
  have hone : (pending (route.start (resolverOptions identity targetCode concurrency) aborted)).length ≤ 1 := by
    unfold pending
    split
    case h_1 hphase =>
      obtain ⟨-, rfl⟩ := start_searching hphase
      exact Nat.le_refl _
    case h_2 => exact Nat.le_refl _
    case h_3 => exact Nat.zero_le _
  have hlength := haccounted.calls.length_eq
  rw [List.length_map] at hlength
  refine ⟨haccounted, ?_, fun _ _ _ _ _ => rfl, fun resolver search hphase stdId hwinner => ?_⟩
  · show _ + 0 ≤ 6
    rw [hlength]
    exact Nat.le_trans hone (by decide)
  · obtain ⟨-, rfl⟩ := start_searching hphase
    cases hwinner

/-- At the moment a call asks for its permit it holds none, so one is left. -/
theorem Fits.room (h : Fits route o) {key : SingleCall} (hlookup : o.calls.lookup key = some .hashing) :
    o.holding + o.abandoned < vnuBrc1PermitLimit := by
  have hholding := h.accounted.holding_lt (host_lawful route) hlookup
  have hlength := h.length_calls
  have hbound := h.bound
  replace hholding : o.holding < (pending o.host).length := hholding
  omega

theorem never_refused (turns : List (OracleTurn SingleCall SingleTurn)) : ∀ {o : OracleState SingleState SingleCall},
    Fits route o → o.refused = false → (stateAfter route.host.oracleStep o turns).refused = false := by
  induction turns with
  | nil => exact fun _ => id
  | cons turn rest ih =>
    intro o h hrefused
    apply ih (h.step turn)
    rw [← Bool.not_eq_true, refused_step]
    rintro (hbefore | ⟨⟨key, -, hlookup, -⟩, hfull⟩)
    · rw [hrefused] at hbefore
      cases hbefore
    · have hroom := h.room hlookup
      have hpermits := h.accounted.permits
      omega

end SingleRoute

/-! ## Student codes in bulk -/

/-- A call of `withVnuOraclePermit`, by its worker and its probe. -/
structure BulkCall where
  worker : Nat
  index : Option Nat
deriving DecidableEq

namespace BulkWorker

def unsettled : BulkWorker → List (Option Nat)
  | .searching _ _ search => CrossLookup.unsettled search
  | .idle | .finished => []

/-- A search in its course, no wider than `width`. -/
def Fits (width : Nat) : BulkWorker → Prop
  | .searching _ resolver search =>
    Resolver.Sound resolver search ∧ resolver.limit ≤ width ∧ ∀ result, search.phase ≠ .settled result
  | .idle | .finished => True

variable {width : Nat} {worker : BulkWorker}

theorem fits_idle : Fits width .idle := trivial

theorem fits_finished : Fits width .finished := trivial

theorem Fits.nodup (h : worker.Fits width) : worker.unsettled.Nodup := by
  cases worker with
  | searching index resolver search => exact h.1.placed.nodup_unsettled
  | idle => exact List.nodup_nil
  | finished => exact List.nodup_nil

theorem Fits.length (h : worker.Fits width) : worker.unsettled.length ≤ width := by
  cases worker with
  | searching index resolver search =>
    exact Nat.le_trans (Resolver.length_unsettled_le search) (Nat.le_trans h.1.placed.width h.2.1)
  | idle => exact Nat.zero_le _
  | finished => exact Nat.zero_le _

theorem Fits.abort (h : worker.Fits width) (reason : Thrown) : (worker.abort reason).Fits width := by
  cases worker with
  | searching index resolver search =>
    have hphase : (Resolver.abort search reason).phase = search.phase := by
      unfold Resolver.abort
      split <;> rfl
    exact ⟨Resolver.Sound.abort h.1 reason, h.2.1, fun result hsettled => h.2.2 result (hphase ▸ hsettled)⟩
  | idle => trivial
  | finished => trivial

theorem unsettled_abort (reason : Thrown) (worker : BulkWorker) : (worker.abort reason).unsettled = worker.unsettled := by
  cases worker with
  | searching index resolver search => exact Resolver.unsettled_abort search reason
  | idle => rfl
  | finished => rfl

end BulkWorker

namespace BulkRequest

variable {request : BulkRequest} {s : BulkState}

def pending (s : BulkState) : List BulkCall :=
  s.workers.zipIdx.flatMap fun e => e.1.unsettled.map fun index => { worker := e.2, index }

def reason (s : BulkState) (call : BulkCall) : Option Thrown :=
  match s.workers[call.worker]? with
  | some (.searching _ _ search) => probeReason search call.index
  | _ => none

def host (request : BulkRequest) : Host BulkState BulkCall BulkTurn where
  step s turn :=
    match turn with
    | .take _ | .wake _ _ | .abort _ => (request.step s turn).2
    -- calls settle below
    | .settle _ _ _ => s
  pending
  reason
  settle s call outcome := request.advance s call.worker (.settle call.index outcome)

/-- The width of the searches. -/
def width (request : BulkRequest) : Nat := request.candidateConcurrency.getD 0

structure Ok (request : BulkRequest) (s : BulkState) : Prop where
  workers : ∀ worker ∈ s.workers, worker.Fits request.width
  widths : s.workers.length * request.width ≤ vnuBrc1PermitLimit

theorem mem_pending {call : BulkCall} : call ∈ pending s ↔
    ∃ worker, s.workers[call.worker]? = some worker ∧ call.index ∈ worker.unsettled := by
  simp only [pending, List.mem_flatMap, List.mem_map, Prod.exists, List.mem_zipIdx_iff_getElem?]
  constructor
  · rintro ⟨worker, i, hget, index, hmem, rfl⟩
    exact ⟨worker, hget, hmem⟩
  · rintro ⟨worker, hget, hmem⟩
    exact ⟨worker, call.worker, hget, call.index, hmem, rfl⟩

theorem nodup_pending (h : Ok request s) : (pending s).Nodup := by
  rw [pending, List.nodup_flatMap]
  constructor
  · intro e hmem
    obtain ⟨-, hget⟩ : e.2 = e.2 ∧ s.workers[e.2]? = some e.1 := ⟨rfl, List.mem_zipIdx_iff_getElem?.1 hmem⟩
    exact (h.workers e.1 (List.mem_of_getElem? hget)).nodup.map fun _ _ heq => (BulkCall.mk.inj heq).2
  · have hindexes : (s.workers.zipIdx.map Prod.snd).Nodup := by
      rw [List.zipIdx_map_snd]
      exact List.nodup_range'
    rw [List.Nodup, List.pairwise_map] at hindexes
    apply hindexes.imp
    intro e e' hne call hmem hmem'
    obtain ⟨_, -, rfl⟩ := List.mem_map.1 hmem
    obtain ⟨_, -, heq⟩ := List.mem_map.1 hmem'
    exact hne (BulkCall.mk.inj heq).1.symm

theorem length_flatMap_le {α β : Type} (f : α → List β) (bound : Nat) : ∀ {l : List α}, (∀ x ∈ l, (f x).length ≤ bound) →
    (l.flatMap f).length ≤ l.length * bound := by
  intro l
  induction l with
  | nil => exact fun _ => Nat.zero_le _
  | cons x rest ih =>
    intro h
    rw [List.forall_mem_cons] at h
    have hrest := ih h.2
    rw [List.flatMap_cons, List.length_append, List.length_cons, Nat.add_one_mul]
    omega

theorem Ok.length_pending (h : Ok request s) : (pending s).length ≤ vnuBrc1PermitLimit := by
  apply Nat.le_trans _ h.widths
  have hlength : s.workers.zipIdx.length = s.workers.length := List.length_zipIdx
  rw [← hlength]
  apply length_flatMap_le
  intro e hmem
  rw [List.length_map]
  exact (h.workers e.1 (List.mem_of_getElem? (List.mem_zipIdx_iff_getElem?.1 hmem))).length

/-- No unsettled call is dropped. -/
def Keeps (s t : BulkState) : Prop :=
  ∀ (i : Nat) (worker : BulkWorker), s.workers[i]? = some worker →
    ∃ next : BulkWorker, t.workers[i]? = some next ∧ worker.unsettled ⊆ next.unsettled

theorem Keeps.pending_subset {t : BulkState} (h : Keeps s t) : pending s ⊆ pending t := by
  intro call hmem
  obtain ⟨worker, hget, hindex⟩ := mem_pending.1 hmem
  obtain ⟨next, hnext, hsubset⟩ := h _ _ hget
  exact mem_pending.2 ⟨next, hnext, hsubset hindex⟩

theorem Keeps.trans {t u : BulkState} (h : Keeps s t) (h' : Keeps t u) : Keeps s u := by
  intro i worker hget
  obtain ⟨next, hnext, hsubset⟩ := h i worker hget
  obtain ⟨last, hlast, hsubset'⟩ := h' i next hnext
  exact ⟨last, hlast, List.Subset.trans hsubset hsubset'⟩

theorem keeps_of_workers {t : BulkState} (h : t.workers = s.workers) : Keeps s t := fun _ worker hget =>
  ⟨worker, h ▸ hget, fun _ => id⟩

theorem keeps_setWorker {i : Nat} {worker next : BulkWorker} (hget : s.workers[i]? = some worker)
    (hsubset : worker.unsettled ⊆ next.unsettled) : Keeps s (setWorker s i next) := by
  intro j other hother
  by_cases hij : i = j
  · subst hij
    obtain rfl : worker = other := Option.some.inj (hget.symm.trans hother)
    exact ⟨next, List.getElem?_set_self (List.getElem?_eq_some_iff.1 hget).1, hsubset⟩
  · exact ⟨other, (List.getElem?_set_ne hij).trans hother, fun _ => id⟩

theorem keeps_abort (s : BulkState) (reason : Thrown) : Keeps s (abort s reason) := by
  unfold BulkRequest.abort
  split
  · exact keeps_of_workers rfl
  · intro i worker hget
    refine ⟨worker.abort reason, ?_, ?_⟩
    · simp only [List.getElem?_map, hget, Option.map_some]
    · rw [BulkWorker.unsettled_abort]
      exact fun _ => id

theorem Ok.abort (h : Ok request s) (reason : Thrown) : Ok request (abort s reason) := by
  unfold BulkRequest.abort
  split
  · exact h
  · refine ⟨List.forall_mem_map.2 fun worker hmem => (h.workers worker hmem).abort reason, ?_⟩
    rw [List.length_map]
    exact h.widths

theorem Ok.setWorker (h : Ok request s) (i : Nat) {worker : BulkWorker} (hworker : worker.Fits request.width) :
    Ok request (setWorker s i worker) := by
  refine ⟨fun other hmem => ?_, ?_⟩
  · rcases List.mem_or_eq_of_mem_set hmem with hmem | rfl
    · exact h.workers other hmem
    · exact hworker
  · simp only [BulkRequest.setWorker, List.length_set]
    exact h.widths

theorem Ok.throwTarget (h : Ok request s) (i : Nat) (error : Thrown) : Ok request (request.throwTarget s i error) := by
  unfold BulkRequest.throwTarget
  split
  · exact h.setWorker i BulkWorker.fits_idle
  · exact (h.setWorker i BulkWorker.fits_finished).abort error

theorem keeps_throwTarget {i : Nat} {worker : BulkWorker} (hget : s.workers[i]? = some worker)
    (hnone : worker.unsettled = []) (error : Thrown) : Keeps s (request.throwTarget s i error) := by
  have hnil : ∀ next : BulkWorker, worker.unsettled ⊆ next.unsettled := fun next => hnone ▸ List.nil_subset _
  unfold BulkRequest.throwTarget
  split
  · exact keeps_setWorker hget (hnil _)
  · exact (keeps_setWorker hget (hnil .finished)).trans (keeps_abort _ error)

theorem Ok.resolveTarget (h : Ok request s) (i index : Nat) : Ok request (request.resolveTarget s i index) := by
  unfold BulkRequest.resolveTarget
  split
  · split
    · exact h
    · split
      case h_1 error _ => exact h.throwTarget i error
      case h_2 resolver hstart =>
        have hwidth : resolver.limit ≤ request.width := by
          rw [width, ← (limits_of_start hstart).1]
          exact Nat.min_le_left _ _
        have hworker : BulkWorker.Fits request.width (.searching index resolver resolver.start) :=
          ⟨Resolver.sound_start (checked_of_start hstart).2, hwidth, fun _ hsettled => by cases hsettled⟩
        have hspent : Ok request { s with allowance := s.allowance.consumeEach resolver.start.calls.length } :=
          ⟨h.workers, h.widths⟩
        exact hspent.setWorker i hworker
  · exact h

theorem keeps_resolveTarget {i : Nat} (hget : s.workers[i]? = some .idle) (index : Nat) :
    Keeps s (request.resolveTarget s i index) := by
  unfold BulkRequest.resolveTarget
  split
  · split
    · exact keeps_of_workers rfl
    · split
      · exact keeps_throwTarget hget rfl _
      · exact keeps_setWorker hget (List.nil_subset _)
  · exact keeps_of_workers rfl

theorem Ok.take (h : Ok request s) (i : Nat) : Ok request (request.take s i) := by
  unfold BulkRequest.take
  split
  · split
    · exact h.setWorker i BulkWorker.fits_finished
    · simp only
      have hnext : Ok request { s with nextIndex := s.nextIndex + 1 } := ⟨h.workers, h.widths⟩
      split
      · exact hnext.setWorker i BulkWorker.fits_finished
      · exact hnext.resolveTarget i _
  · exact h

theorem keeps_take (request : BulkRequest) (s : BulkState) (i : Nat) : Keeps s (request.take s i) := by
  unfold BulkRequest.take
  split
  case h_1 hget =>
    split
    · exact keeps_setWorker hget (List.nil_subset _)
    · simp only
      split
      · exact keeps_setWorker hget (List.nil_subset _)
      · have hsame : Keeps s { s with nextIndex := s.nextIndex + 1 } := keeps_of_workers rfl
        apply hsame.trans
        apply keeps_resolveTarget
        exact hget
  case h_2 => exact keeps_of_workers rfl

theorem Ok.advance (h : Ok request s) (i : Nat) (turn : Turn) : Ok request (request.advance s i turn) := by
  unfold BulkRequest.advance
  split
  case h_1 index resolver search hget =>
    obtain ⟨hsound, hlimit, -⟩ := h.workers _ (List.mem_of_getElem? hget)
    have hspent : ∀ allowance, Ok request { s with allowance } := fun _ => ⟨h.workers, h.widths⟩
    simp only
    split
    · exact (hspent _).setWorker i BulkWorker.fits_idle
    · exact (hspent _).throwTarget i _
    case h_3 hok herror =>
      apply (hspent _).setWorker i
      refine ⟨hsound.step turn, hlimit, fun result hsettled => ?_⟩
      cases result with
      | ok resolution => exact hok resolution hsettled
      | error error => exact herror error hsettled
  case h_2 => exact h

theorem keeps_advance (h : Ok request s) {i : Nat} {turn : Turn}
    (hkept : ∀ index resolver search, s.workers[i]? = some (.searching index resolver search) →
      unsettled search ⊆ unsettled (resolver.step search turn).2) : Keeps s (request.advance s i turn) := by
  unfold BulkRequest.advance
  split
  case h_1 index resolver search hget =>
    obtain ⟨hsound, -, -⟩ := h.workers _ (List.mem_of_getElem? hget)
    have hsubset := hkept index resolver search hget
    have hempty : ∀ result, (resolver.step search turn).2.phase = .settled result → unsettled search = [] := by
      intro result hsettled
      rw [SingleRoute.unsettled_of_settled (hsound.step turn) hsettled] at hsubset
      exact List.eq_nil_of_subset_nil hsubset
    simp only
    split
    case h_1 hsettled =>
      apply keeps_setWorker hget
      show unsettled search ⊆ _
      rw [hempty _ hsettled]
      exact List.nil_subset _
    case h_2 error hsettled =>
      have hsame : Keeps s { s with
          allowance := s.allowance.consumeEach ((resolver.step search turn).2.calls.length - search.calls.length) } :=
        keeps_of_workers rfl
      apply hsame.trans
      apply keeps_throwTarget
      · exact hget
      · exact hempty _ hsettled
    case h_3 => exact keeps_setWorker hget hsubset
  case h_2 => exact keeps_of_workers rfl

/-- One call settles. -/
theorem pending_settle (h : Ok request s) (call : BulkCall) (outcome : ProbeOutcome) :
    (pending (request.advance s call.worker (.settle call.index outcome))).Perm ((pending s).filter (· ≠ call)) := by
  have hnext := h.advance call.worker (.settle call.index outcome)
  refine (List.perm_ext_iff_of_nodup (nodup_pending hnext) ((nodup_pending h).filter _)).2 fun other => ?_
  rw [List.mem_filter, decide_eq_true_eq, mem_pending, mem_pending]
  unfold BulkRequest.advance
  split
  case h_1 index resolver search hget =>
    obtain ⟨-, -, hopen⟩ := h.workers _ (List.mem_of_getElem? hget)
    have hkept : unsettled (resolver.step search (.settle call.index outcome)).2 =
        (unsettled search).filter (· ≠ call.index) := Resolver.unsettled_settle resolver search call.index outcome
    simp only
    split
    · exact absurd ‹_› (hopen _)
    · exact absurd ‹_› (hopen _)
    · by_cases hworker : call.worker = other.worker
      · have hset : ∀ worker : BulkWorker, (s.workers.set call.worker worker)[other.worker]? = some worker := by
          rw [← hworker]
          exact fun worker => List.getElem?_set_self (List.getElem?_eq_some_iff.1 hget).1
        simp only [BulkRequest.setWorker, hset]
        rw [← hworker, hget]
        have hcall : other ≠ call ↔ other.index ≠ call.index := by
          constructor
          · rintro hne hindex
            apply hne
            cases other
            cases call
            simp only at hworker hindex
            rw [hworker, hindex]
          · rintro hne rfl
            exact hne rfl
        simp only [Option.some.injEq, exists_eq_left', BulkWorker.unsettled, hkept, List.mem_filter, decide_eq_true_eq, hcall]
      · have hset : ∀ worker : BulkWorker, (s.workers.set call.worker worker)[other.worker]? = s.workers[other.worker]? :=
          fun worker => List.getElem?_set_ne hworker
        have hcall : other ≠ call := by
          rintro rfl
          exact hworker rfl
        simp only [BulkRequest.setWorker, hset]
        exact ⟨fun hmem => ⟨hmem, hcall⟩, And.left⟩
  case h_2 hnone =>
    refine ⟨fun hmem => ⟨hmem, ?_⟩, And.left⟩
    rintro rfl
    obtain ⟨worker, hget, hindex⟩ := hmem
    cases worker with
    | searching index resolver search => exact hnone index resolver search hget
    | idle => cases hindex
    | finished => cases hindex

theorem host_lawful (request : BulkRequest) : request.host.Lawful (Ok request) := by
  constructor
  · exact fun _ => nodup_pending
  · intro s turn h
    cases turn with
    | take worker => exact h.take worker
    | wake worker index => exact h.advance worker _
    | abort reason => exact h.abort reason
    | settle worker index outcome => exact h
  · intro s turn h
    cases turn with
    | take worker => exact (keeps_take request s worker).pending_subset
    | wake worker index =>
      apply (keeps_advance h _).pending_subset
      intro i resolver search hget
      exact ((h.workers _ (List.mem_of_getElem? hget)).1.moves index).kept
    | abort reason => exact (keeps_abort s reason).pending_subset
    | settle worker index outcome => exact fun _ => id
  · exact fun s call outcome h => h.advance _ _
  · exact fun s call outcome h => pending_settle h call outcome

theorem ok_start (request : BulkRequest) (aborted : Option Thrown) : Ok request (request.start aborted) := by
  constructor
  · intro worker hmem
    simp only [BulkRequest.start] at hmem
    split at hmem
    · rw [List.eq_of_mem_replicate hmem]
      trivial
    · cases hmem
  · simp only [BulkRequest.start, width, candidateConcurrency, bulkResolverCandidateWidth]
    split
    · simp
    · simp only [Option.isSome_some, if_true, List.length_replicate, Option.getD_some]
      exact Nat.mul_div_le _ _

end BulkRequest

/-! ## When permits run out -/

/-- A lookup of one target is never refused a permit, and one in bulk is not as long as it sends its acquires while no
abandoned permit is out: its pools are too narrow to take all permits by themselves. -/
theorem lookup_denied_by_abandoned_only (route : SingleRoute) (identity : VnuOwnIdentity) (targetCode : String) (concurrency : Nat)
    (aborted : Option Thrown) (singleTurns : List (OracleTurn SingleCall SingleTurn)) (request : BulkRequest)
    (bulkTurns : List (OracleTurn BulkCall BulkTurn)) :
    (stateAfter route.host.oracleStep
      (route.host.oracleStart (route.start (resolverOptions identity targetCode concurrency) aborted)) singleTurns).refused =
        false ∧
    ((∀ e ∈ execute request.host.oracleStep (request.host.oracleStart (request.start aborted)) bulkTurns,
        request.host.Sends e → e.before.abandoned = 0) →
      (stateAfter request.host.oracleStep (request.host.oracleStart (request.start aborted)) bulkTurns).refused = false) ∧
    ∀ e ∈ execute request.host.oracleStep (request.host.oracleStart (request.start aborted)) bulkTurns,
      request.host.Sends e → e.after.refused = true → e.before.refused = true ∨ 0 < e.before.abandoned := by
  have hlawful := BulkRequest.host_lawful request
  have hstart : Accounted request.host (BulkRequest.Ok request) (request.host.oracleStart (request.start aborted)) := by
    apply accounted_openCalls (BulkRequest.ok_start request aborted) hlawful
    · exact List.nodup_nil
    · exact List.nil_subset _
    · rfl
  -- the calls of all pools are at most six, and the one that sends holds nothing
  have hroom : ∀ e ∈ execute request.host.oracleStep (request.host.oracleStart (request.start aborted)) bulkTurns,
      request.host.Sends e → e.before.holding < vnuBrc1PermitLimit := by
    rintro e he ⟨key, -, hlookup, -⟩
    have hbefore := accounted_execute hlawful bulkTurns hstart e he
    have hpending : (request.host.pending e.before.host).length ≤ vnuBrc1PermitLimit :=
      BulkRequest.Ok.length_pending hbefore.ok
    exact Nat.lt_of_lt_of_le (hbefore.holding_lt hlawful hlookup) hpending
  refine ⟨SingleRoute.never_refused singleTurns (SingleRoute.fits_start route identity targetCode concurrency aborted) rfl,
    ?_, ?_⟩
  · intro hnone
    rw [← Bool.not_eq_true, refused_iff hlawful bulkTurns hstart rfl]
    rintro ⟨e, he, hsends, hfull⟩
    have hholding := hroom e he hsends
    rw [hnone e he hsends, Nat.add_zero] at hfull
    exact Nat.lt_irrefl _ (Nat.lt_of_lt_of_le hholding hfull)
  · intro e he hsends hrefused
    have hholding := hroom e he hsends
    have hpermits := (accounted_execute hlawful bulkTurns hstart e he).permits
    rw [Run.eq_stepOf_of_mem_execute he] at hrefused
    rcases (refused_step request.host e.before e.call).1 hrefused with hbefore | ⟨-, hfull⟩
    · exact .inl hbefore
    · right
      omega

def sampleBulkRequest : BulkRequest :=
  { identity := { ownStdId := 100, ownCode := 23020005 }
    body := { mode := .codeToStdid, targets := [.string "23020006", .string "23020007"] }
    codeLookupBulkTargetConcurrency := 1
    notFound := fun _ => false }

/-- A probe that runs through. -/
def sampleCall (index : Option Nat) (code : Option String) : List (OracleTurn BulkCall BulkTurn) :=
  [.hashed { worker := 0, index }, .answered { worker := 0, index }, .worked { worker := 0, index } (.ok code),
    .released { worker := 0, index }]

def sampleBulkTurns : List (OracleTurn BulkCall BulkTurn) :=
  [.host (.take 0)] ++ sampleCall none none ++ [.host (.wake 0 0)] ++
    [1, 2, 3, 4, 5].map (fun index => .hashed { worker := 0, index := some index }) ++
    sampleCall (some 0) (some "23020006") ++ [.host (.wake 0 0)] ++
    [1, 2, 3, 4, 5].map (fun index => .cancelled { worker := 0, index := some index }) ++ [.host (.wake 0 0)] ++
    [.host (.take 0)] ++ sampleCall none none ++ [.host (.wake 0 0)] ++
    [0, 1].map fun index => .hashed { worker := 0, index := some index }

def isHashed : OracleTurn BulkCall BulkTurn → Bool
  | .hashed _ => true
  | _ => false

/-- The answers that nobody waits for arrive before the second target is taken. -/
def patientBulkTurns : List (OracleTurn BulkCall BulkTurn) :=
  [.host (.take 0)] ++ sampleCall none none ++ [.host (.wake 0 0)] ++
    [1, 2, 3, 4, 5].map (fun index => .hashed { worker := 0, index := some index }) ++
    sampleCall (some 0) (some "23020006") ++ [.host (.wake 0 0)] ++
    [1, 2, 3, 4, 5].map (fun index => .cancelled { worker := 0, index := some index }) ++ [.host (.wake 0 0)] ++
    List.replicate 5 .abandonedAnswered ++
    [.host (.take 0)] ++ sampleCall none none ++ [.host (.wake 0 0)] ++
    [0, 1, 2, 3, 4, 5].map fun index => .hashed { worker := 0, index := some index }

theorem lookup_denied_by_abandoned_only_patient :
    (stateAfter sampleBulkRequest.host.oracleStep
      (sampleBulkRequest.host.oracleStart (sampleBulkRequest.start none)) patientBulkTurns).permits = 6 ∧
    (stateAfter sampleBulkRequest.host.oracleStep
      (sampleBulkRequest.host.oracleStart (sampleBulkRequest.start none)) patientBulkTurns).refused = false := by
  have hnone : ∀ e ∈ execute sampleBulkRequest.host.oracleStep
      (sampleBulkRequest.host.oracleStart (sampleBulkRequest.start none)) patientBulkTurns,
      isHashed e.call = true → e.before.abandoned = 0 := by
    decide +kernel
  refine ⟨by decide +kernel, ?_⟩
  apply (lookup_denied_by_abandoned_only .transcriptByCode sampleBulkRequest.identity "23020006" 1 none [] sampleBulkRequest
    patientBulkTurns).2.1
  rintro e he ⟨key, hcall, -⟩
  exact hnone e he (by rw [hcall]; rfl)

/-- The first target is found while five acquires are unanswered; the second one's
pool is refused its second permit. -/
theorem bulk_denies_itself :
    (stateAfter sampleBulkRequest.host.oracleStep
      (sampleBulkRequest.host.oracleStart (sampleBulkRequest.start none)) sampleBulkTurns).refused = true := by
  decide +kernel

end Hyeboard.CrossLookup
