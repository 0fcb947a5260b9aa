import Hyeboard.Lib.FirstOccurrences
import Hyeboard.CrossLookup.Resolver
/-!
# The pool of a search

What holds of a search after every turn, whatever its probes answer and
whenever its caller aborts: every candidate is tried once and in order, the pool
never grows past its width, and nothing is forgotten before it has settled
(`Sound`). A turn that changes anything uses up some of `workLeft`, so a search
ends (`workLeft_step`, `settled_of_still`).
-/

namespace Hyeboard.CrossLookup

/-! ## The candidates -/

theorem localCandidates_eq (projectedStdId : Int) (correction : Option Int) :
    localCandidates projectedStdId correction = (correction.toList ++ localWindow projectedStdId).eraseDups.filter
      fun candidate => isValidStudentId candidate && candidate != projectedStdId :=
  filter_idxOf (fun candidate => isValidStudentId candidate && candidate != projectedStdId) _

theorem mem_localCandidates {projectedStdId candidate : Int} {correction : Option Int} :
    candidate ∈ localCandidates projectedStdId correction ↔
      (correction = some candidate ∨ candidate ∈ localWindow projectedStdId) ∧ isValidStudentId candidate = true ∧
        candidate ≠ projectedStdId := by
  rw [localCandidates_eq, List.mem_filter, mem_eraseDups]
  simp

theorem nodup_localCandidates (projectedStdId : Int) (correction : Option Int) :
    (projectedStdId :: localCandidates projectedStdId correction).Nodup := by
  rw [List.nodup_cons]
  refine ⟨fun hmem => (mem_localCandidates.1 hmem).2.2 rfl, ?_⟩
  rw [localCandidates_eq]
  exact (nodup_eraseDups _).filter _

theorem mem_localWindow {projectedStdId candidate : Int} :
    candidate ∈ localWindow projectedStdId ↔
      candidate ≠ projectedStdId ∧ (candidate - projectedStdId).natAbs ≤ localRadius := by
  simp only [localWindow, localRadius, List.mem_flatMap, List.mem_range, List.mem_cons, List.not_mem_nil, or_false]
  constructor
  · rintro ⟨n, hn, rfl | rfl⟩ <;> omega
  · intro h
    refine ⟨(candidate - projectedStdId).natAbs - 1, ?_, ?_⟩ <;> omega

theorem length_localWindow (projectedStdId : Int) : (localWindow projectedStdId).length = 2 * localRadius := by
  simp [localWindow, localRadius]

namespace Resolver

variable {resolver : Resolver}

theorem correction_mem_localWindow {studentCode : Option String} {corrected : Int}
    (h : resolver.correction studentCode = some corrected) : corrected ∈ localWindow resolver.projectedStdId := by
  unfold correction at h
  split at h
  · cases h
  · split at h
    · simp only at h
      split at h
      · obtain ⟨hoffset, -, hne⟩ := ‹_ ∧ _ ∧ _›
        obtain rfl := Option.some.inj h
        rw [mem_localWindow]
        exact ⟨hne, by omega⟩
      · cases h
    · cases h

/-- With the first probe, at most `vnuStudentIdResolverMaxProbes`. -/
theorem length_candidates (studentCode : Option String) :
    (localCandidates resolver.projectedStdId (resolver.correction studentCode)).length ≤ 2 * localRadius := by
  rw [← length_localWindow resolver.projectedStdId]
  have hnodup := nodup_localCandidates resolver.projectedStdId (resolver.correction studentCode)
  apply (List.nodup_cons.1 hnodup).2.length_le_of_subset
  intro candidate hmem
  rcases (mem_localCandidates.1 hmem).1 with hcorrection | hwindow
  · exact correction_mem_localWindow hcorrection
  · exact hwindow

/-! ## Where the probes stand -/

/-- No more probes than this run at once. -/
def limit (resolver : Resolver) : Nat := min resolver.concurrency resolver.platformConcurrencyLimit

def place (probe : ActiveProbe) : Option Nat × Int := (probe.index, probe.stdId)

/-- The places of the first probe and of the candidates tried so far. -/
def places (resolver : Resolver) (s : ResolverState) : List (Option Nat × Int) :=
  (none, resolver.projectedStdId) :: (s.candidates.take s.nextIndex).zipIdx.map fun e => (some e.2, e.1)

structure Placed (resolver : Resolver) (s : ResolverState) : Prop where
  candidates : s.candidates = [] ∨
    ∃ studentCode, s.candidates = localCandidates resolver.projectedStdId (resolver.correction studentCode)
  next : s.nextIndex ≤ s.candidates.length
  calls : s.calls = resolver.projectedStdId :: s.candidates.take s.nextIndex
  probes : ((s.active ++ s.finished).map place).Perm (resolver.places s)
  finished : ∀ probe ∈ s.finished, probe.work.isSome = true
  pool : s.poolWidth ≤ resolver.limit
  width : s.active.length ≤ resolver.limit

variable {s : ResolverState}

/-- Only what the probes were told and what they answered changes. -/
theorem Placed.congr (h : Placed resolver s) {t : ResolverState} (hactive : t.active.map place = s.active.map place)
    (hfinished : t.finished = s.finished) (hcandidates : t.candidates = s.candidates) (hnext : t.nextIndex = s.nextIndex)
    (hcalls : t.calls = s.calls) (hpool : t.poolWidth = s.poolWidth) : Placed resolver t := by
  have hlength : t.active.length = s.active.length := by
    have := congrArg List.length hactive
    simpa only [List.length_map] using this
  constructor
  · rw [hcandidates]
    exact h.candidates
  · rw [hcandidates, hnext]
    exact h.next
  · rw [hcandidates, hnext, hcalls]
    exact h.calls
  · rw [places, hcandidates, hnext, hfinished, List.map_append, hactive, ← List.map_append]
    exact h.probes
  · rw [hfinished]
    exact h.finished
  · rw [hpool]
    exact h.pool
  · rw [hlength]
    exact h.width

theorem map_place (f : ActiveProbe → ActiveProbe) (hf : ∀ probe, place (f probe) = place probe) (l : List ActiveProbe) :
    (l.map f).map place = l.map place := by
  rw [List.map_map]
  exact List.map_congr_left fun probe _ => hf probe

theorem place_cancel (reason : Thrown) (probe : ActiveProbe) : place (probe.cancel reason) = place probe := by
  unfold ActiveProbe.cancel
  split <;> rfl

theorem place_settle (outcome : ProbeOutcome) (probe : ActiveProbe) : place (probe.settle outcome) = place probe := by
  unfold ActiveProbe.settle
  split <;> rfl

theorem work_cancel (reason : Thrown) (probe : ActiveProbe) : (probe.cancel reason).work = probe.work := by
  unfold ActiveProbe.cancel
  split <;> rfl

theorem Placed.abortActive (h : Placed resolver s) (reason : Thrown) : Placed resolver (abortActive s reason) :=
  h.congr (map_place _ (place_cancel reason) _) rfl rfl rfl rfl rfl

theorem Placed.delete (h : Placed resolver s) (index : Option Nat)
    (hwork : ∀ probe ∈ s.active, probe.index = index → probe.work.isSome = true) : Placed resolver (delete s index) := by
  refine ⟨h.candidates, h.next, h.calls, ?_, ?_, h.pool, ?_⟩
  · have hsplit : (s.active.filter (·.index ≠ index) ++ (s.finished ++ s.active.filter (·.index = index))).Perm
        (s.active ++ s.finished) := by
      have hparts := List.filter_append_perm (fun probe : ActiveProbe => decide (probe.index ≠ index)) s.active
      simp only [ne_eq, decide_not, Bool.not_not] at hparts ⊢
      exact (List.perm_append_comm.append_left _).trans (by
        rw [← List.append_assoc]
        exact hparts.append_right _)
    exact (hsplit.map place).trans h.probes
  · intro probe hmem
    rcases List.mem_append.1 hmem with hmem | hmem
    · exact h.finished probe hmem
    · obtain ⟨hactive, hindex⟩ := List.mem_filter.1 hmem
      exact hwork probe hactive (of_decide_eq_true hindex)
  · exact (List.length_filter_le _ _).trans h.width

theorem Placed.clear (h : Placed resolver s) (hwork : ∀ probe ∈ s.active, probe.work.isSome = true) :
    Placed resolver (clear s) := by
  refine ⟨h.candidates, h.next, h.calls, ?_, ?_, h.pool, Nat.zero_le _⟩
  · have hswap : (s.finished ++ s.active).Perm (s.active ++ s.finished) := List.perm_append_comm
    exact (hswap.map place).trans h.probes
  · intro probe hmem
    rcases List.mem_append.1 hmem with hmem | hmem
    · exact h.finished probe hmem
    · exact hwork probe hmem

theorem Placed.fail (h : Placed resolver s) (error : Thrown) : Placed resolver (fail s error) :=
  (h.abortActive error).congr rfl rfl rfl rfl rfl rfl

/-- The next candidate is tried. -/
theorem Placed.startNext (h : Placed resolver s) (hroom : s.active.length < s.poolWidth) {stdId : Int}
    (hget : s.candidates[s.nextIndex]? = some stdId) :
    Placed resolver { startProbe s (some s.nextIndex) stdId with nextIndex := s.nextIndex + 1 } := by
  have hlt : s.nextIndex < s.candidates.length := (List.getElem?_eq_some_iff.1 hget).1
  have htake : s.candidates.take (s.nextIndex + 1) = s.candidates.take s.nextIndex ++ [stdId] := by
    rw [List.take_add_one, hget]
    rfl
  refine ⟨h.candidates, hlt, ?_, ?_, h.finished, h.pool, ?_⟩
  · simp only [startProbe, h.calls, htake, List.cons_append]
  · have hplaces : resolver.places { startProbe s (some s.nextIndex) stdId with nextIndex := s.nextIndex + 1 } =
        resolver.places s ++ [(some s.nextIndex, stdId)] := by
      simp only [places, startProbe, htake, List.zipIdx_append, List.map_append, List.cons_append, List.length_take,
        Nat.min_eq_left h.next, Nat.zero_add]
      rfl
    rw [hplaces]
    let started : ActiveProbe := { index := some s.nextIndex, stdId, cancelled := none, work := none }
    have hlast : (s.active ++ [started] ++ s.finished).Perm (s.active ++ s.finished ++ [started]) := by
      rw [List.append_assoc, List.append_assoc]
      exact List.perm_append_comm.append_left _
    apply (hlast.map place).trans
    rw [List.map_append]
    exact h.probes.append_right _
  · simp only [startProbe, List.length_append, List.length_singleton]
    exact Nat.le_trans hroom h.pool

theorem nodup_places (resolver : Resolver) (s : ResolverState) : ((resolver.places s).map Prod.fst).Nodup := by
  have hindexes : (resolver.places s).map Prod.fst =
      none :: (List.range (s.candidates.take s.nextIndex).length).map some := by
    rw [places, List.map_cons, List.map_map, List.range_eq_range', ← List.zipIdx_map_snd, List.map_map]
    rfl
  rw [hindexes, List.nodup_cons]
  constructor
  · simp
  · exact List.nodup_range.map (Option.some_injective Nat)

/-- No two probes stand at one index. -/
theorem Placed.unique (h : Placed resolver s) {probe other : ActiveProbe} (hprobe : probe ∈ s.active ++ s.finished)
    (hother : other ∈ s.active ++ s.finished) (hindex : probe.index = other.index) : probe = other := by
  have hnodup := (h.probes.map Prod.fst).nodup_iff.2 (nodup_places resolver s)
  rw [List.map_map] at hnodup
  exact List.inj_on_of_nodup_map hnodup hprobe hother hindex

/-- What every start of a candidate keeps. -/
theorem fillPoolLoop_induction {P : ResolverState → Prop}
    (hstart : ∀ s stdId, P s → s.active.length < s.poolWidth →
      s.nextIndex < s.earliestExactIndex.getD s.candidates.length → s.candidates[s.nextIndex]? = some stdId →
      P { startProbe s (some s.nextIndex) stdId with nextIndex := s.nextIndex + 1 }) (room : Nat) :
    ∀ {s : ResolverState}, P s → P (fillPoolLoop room s) := by
  induction room with
  | zero => exact id
  | succ room ih =>
    intro s h
    rw [fillPoolLoop]
    split
    case isTrue hroom =>
      split
      case h_1 stdId hget => exact ih (hstart s stdId h hroom.1 hroom.2 hget)
      case h_2 => exact h
    case isFalse => exact h

theorem Placed.fillPool (h : Placed resolver s) : Placed resolver (fillPool s) :=
  fillPoolLoop_induction (fun _ _ h hroom _ hget => h.startNext hroom hget) _ h

/-- A probe that has just been started. -/
def Fresh (probe : ActiveProbe) : Prop := probe.index ≠ none ∧ probe.cancelled = none ∧ probe.work = none

/-- Nothing but the pool changes, and what joins it is fresh. -/
theorem fillPool_eq (s : ResolverState) : ∃ started ids next, (∀ probe ∈ started, Fresh probe) ∧
    fillPool s = { s with active := s.active ++ started, calls := s.calls ++ ids, nextIndex := next } := by
  apply fillPoolLoop_induction (P := fun t => ∃ started ids next, (∀ probe ∈ started, Fresh probe) ∧
    t = { s with active := s.active ++ started, calls := s.calls ++ ids, nextIndex := next })
  · rintro t stdId ⟨started, ids, next, hfresh, rfl⟩ - - -
    refine ⟨started ++ [{ index := some next, stdId, cancelled := none, work := none }], ids ++ [stdId], next + 1, ?_, ?_⟩
    · intro probe hmem
      rcases List.mem_append.1 hmem with hmem | hmem
      · exact hfresh probe hmem
      · rw [List.mem_singleton.1 hmem]
        exact ⟨Option.some_ne_none _, rfl, rfl⟩
    · simp only [startProbe, List.append_assoc]
  · refine ⟨[], [], s.nextIndex, ?_, ?_⟩
    · intro _ hmem
      cases hmem
    · simp only [List.append_nil]

theorem Placed.loop (h : Placed resolver s) : Placed resolver (loop s) := by
  unfold Resolver.loop
  split
  · exact h.fail _
  · exact h.congr rfl rfl rfl rfl rfl rfl

end Resolver

/-! ## What holds after every turn -/

/-- The search may still end, or has ended, with a student. -/
def ResolverPhase.hopeful : ResolverPhase → Bool
  | .first | .racing | .settling (.winner _) | .settled (.ok _) => true
  | .settling _ | .draining _ | .settled (.error _) => false

/-- Probes are awaited, and nothing is thrown or found yet. -/
def ResolverPhase.waiting : ResolverPhase → Bool
  | .first | .racing => true
  | .settling _ | .draining _ | .settled _ => false

def ResolverState.Shaped (s : ResolverState) : Prop :=
  match s.phase with
  | .first => (∃ probe, s.active = [probe] ∧ probe.index = none) ∧ s.finished = [] ∧ s.candidates = [] ∧ s.codes = [] ∧
      s.earliestExactIndex = none
  | .racing => s.active ≠ [] ∧ ∀ probe ∈ s.active, probe.index ≠ none
  | .settling (.throws error) => s.callerCancellation = some error
  | .settling _ => True
  | .draining _ | .settled _ => s.active = []

namespace Resolver

variable {resolver : Resolver} {s : ResolverState}

structure Sound (resolver : Resolver) (s : ResolverState) : Prop where
  placed : Placed resolver s
  shaped : s.Shaped
  /-- Failures are not forgotten. -/
  failures : s.phase.hopeful = true → ∀ probe ∈ s.finished, independentFailure probe = none
  /-- Until there is a winner only the caller cancels probes. -/
  uncancelled : s.phase.waiting = true → s.callerCancellation = none → ∀ probe ∈ s.active, probe.cancelled = none

theorem sound_start (hlimit : 0 < resolver.limit) : Sound resolver resolver.start := by
  constructor
  · constructor
    · exact .inl rfl
    · exact Nat.le_refl 0
    · rfl
    · exact List.Perm.refl _
    · intro _ hmem
      cases hmem
    · exact Nat.zero_le _
    · exact hlimit
  · exact ⟨⟨_, rfl, rfl⟩, rfl, rfl, rfl, rfl⟩
  · intro _ _ hmem
    cases hmem
  · intro _ _ probe hmem
    rw [List.mem_singleton.1 hmem]

/-- A throw when no probe is active. -/
theorem sound_fail (h : Placed resolver s) (hactive : s.active = []) (error : Thrown) : Sound resolver (fail s error) := by
  refine ⟨h.fail error, ?_, (fun hphase => by cases hphase), (fun hphase => by cases hphase)⟩
  show s.active.map _ = []
  rw [hactive]
  rfl

/-- The probes of the pool go on, and those it starts now. -/
theorem sound_loop (h : Placed resolver s)
    (hactive : ∀ probe ∈ s.active, probe.index ≠ none ∧ probe.cancelled = none)
    (hfinished : ∀ probe ∈ s.finished, independentFailure probe = none) : Sound resolver (loop (fillPool s)) := by
  have hplaced := h.fillPool
  obtain ⟨started, ids, next, hfresh, heq⟩ := fillPool_eq s
  rw [heq] at hplaced ⊢
  have hall : ∀ probe ∈ s.active ++ started, probe.index ≠ none ∧ probe.cancelled = none := by
    intro probe hmem
    rcases List.mem_append.1 hmem with hmem | hmem
    · exact hactive probe hmem
    · exact ⟨(hfresh probe hmem).1, (hfresh probe hmem).2.1⟩
  unfold loop
  split
  case isTrue hempty => exact sound_fail hplaced (List.isEmpty_iff.1 hempty) _
  case isFalse hempty =>
    refine ⟨hplaced.congr rfl rfl rfl rfl rfl rfl, ?_, fun _ => hfinished, fun _ _ probe hmem => (hall probe hmem).2⟩
    exact ⟨fun hnil => hempty (List.isEmpty_iff.2 hnil), fun probe hmem => (hall probe hmem).1⟩

/-- The active probes change, in place. -/
theorem shaped_map (h : s.Shaped) (f : ActiveProbe → ActiveProbe) (hf : ∀ probe, (f probe).index = probe.index) :
    ResolverState.Shaped { s with active := s.active.map f } := by
  unfold ResolverState.Shaped at h ⊢
  simp only
  cases hphase : s.phase with
  | first =>
    rw [hphase] at h
    obtain ⟨⟨probe, hactive, hindex⟩, hrest⟩ := h
    rw [hactive]
    exact ⟨⟨_, rfl, (hf probe).trans hindex⟩, hrest⟩
  | racing =>
    rw [hphase] at h
    obtain ⟨hne, hindexes⟩ := h
    refine ⟨fun hnil => hne (List.map_eq_nil_iff.1 hnil), List.forall_mem_map.2 fun probe hmem => ?_⟩
    rw [hf probe]
    exact hindexes probe hmem
  | settling next =>
    rw [hphase] at h
    cases next <;> exact h
  | draining error =>
    rw [hphase] at h
    exact List.map_eq_nil_iff.2 h
  | settled result =>
    rw [hphase] at h
    exact List.map_eq_nil_iff.2 h

theorem Sound.settle (h : Sound resolver s) (index : Option Nat) (outcome : ProbeOutcome) :
    Sound resolver (resolver.step s (.settle index outcome)).2 := by
  have hplace : ∀ probe : ActiveProbe, place (if probe.index = index then probe.settle outcome else probe) = place probe := by
    intro probe
    split
    · exact place_settle outcome probe
    · rfl
  have hcancelled : ∀ probe : ActiveProbe,
      (if probe.index = index then probe.settle outcome else probe).cancelled = probe.cancelled := by
    intro probe
    unfold ActiveProbe.settle
    split
    · split <;> rfl
    · rfl
  refine ⟨h.placed.congr (map_place _ hplace _) rfl rfl rfl rfl rfl, ?_, h.failures, ?_⟩
  · exact shaped_map h.shaped _ fun probe => congrArg Prod.fst (hplace probe)
  · intro hphase hcaller
    refine List.forall_mem_map.2 fun probe hmem => ?_
    rw [hcancelled]
    exact h.uncancelled hphase hcaller probe hmem

theorem Sound.abort (h : Sound resolver s) (reason : Thrown) : Sound resolver (abort s reason) := by
  unfold Resolver.abort
  split
  · exact h
  · exact h
  case h_3 hcaller hopen =>
    refine ⟨(h.placed.abortActive reason).congr rfl rfl rfl rfl rfl rfl, ?_, h.failures, ?_⟩
    · have hshaped := shaped_map h.shaped (·.cancel reason) fun probe => congrArg Prod.fst (place_cancel reason probe)
      unfold ResolverState.Shaped at hshaped ⊢
      simp only [abortActive] at hshaped ⊢
      cases hphase : s.phase with
      | settling next =>
        rw [hphase] at hshaped
        cases next with
        | throws error =>
          -- only the caller's abort leads here, and there is one abort
          rw [show s.callerCancellation = some error from hshaped] at hcaller
          cases hcaller
        | fatal error => trivial
        | winner stdId => trivial
      | _ =>
        rw [hphase] at hshaped
        exact hshaped
    · intro _ hnone
      cases hnone

/-- The candidates are known once the first probe has answered. -/
theorem Placed.window (h : Placed resolver s) (hnone : s.candidates = []) (studentCode : Option String) :
    Placed resolver
      { s with
        candidates := localCandidates resolver.projectedStdId (resolver.correction studentCode)
        poolWidth := resolver.configuredPoolWidth
          (localCandidates resolver.projectedStdId (resolver.correction studentCode)).length } := by
  have hnext : s.nextIndex = 0 := by
    have := h.next
    rw [hnone] at this
    exact Nat.le_zero.1 this
  constructor
  · exact .inr ⟨studentCode, rfl⟩
  · rw [hnext]
    exact Nat.zero_le _
  · rw [h.calls, hnext, hnone]
    rfl
  · have hprobes := h.probes
    rw [places, hnext] at hprobes ⊢
    exact hprobes
  · exact h.finished
  · exact Nat.min_le_left _ _
  · exact h.width

theorem Sound.afterFirst (h : Sound resolver s) (hphase : s.phase = .first) {probe : ActiveProbe} (hactive : s.active = [probe])
    {outcome : ProbeOutcome} (hwork : probe.work = some outcome) : Sound resolver (resolver.afterFirst s probe outcome) := by
  have hshaped := h.shaped
  rw [ResolverState.Shaped, hphase] at hshaped
  obtain ⟨⟨first, hfirst, hindex⟩, hfinished, hcandidates, hcodes, hearliest⟩ := hshaped
  obtain rfl : probe = first := by
    rw [hactive] at hfirst
    exact List.singleton_inj.1 hfirst
  have hdone : ∀ probe ∈ s.active, probe.index = none → probe.work.isSome = true := by
    intro probe hmem _
    rw [hactive, List.mem_singleton] at hmem
    rw [hmem, hwork]
    rfl
  have hdelete := h.placed.delete none hdone
  have hempty : (delete s none).active = [] := by
    simp [delete, hactive, hindex]
  have hkept : (delete s none).finished = [probe] := by
    simp [delete, hactive, hindex, hfinished]
  unfold Resolver.afterFirst
  simp only
  split
  · exact sound_fail hdelete hempty _
  · exact sound_fail hdelete hempty _
  · exact sound_fail hdelete hempty _
  case h_4 studentCode _ _ =>
    have hquiet : ∀ probe ∈ (delete s none).finished, independentFailure probe = none := by
      intro probe hmem
      rw [hkept, List.mem_singleton] at hmem
      rw [hmem, independentFailure, hwork]
    split
    · refine ⟨hdelete.congr rfl rfl rfl rfl rfl rfl, hempty, fun _ => hquiet, fun hracing => ?_⟩
      cases hracing
    · apply sound_loop (hdelete.window hcandidates studentCode)
      · intro probe hmem
        replace hmem : probe ∈ (delete s none).active := hmem
        rw [hempty] at hmem
        cases hmem
      · exact hquiet

theorem decision_eq_outcome {probe : ActiveProbe} {outcome : ProbeOutcome} :
    probe.decision = some (.outcome outcome) ↔ probe.cancelled = none ∧ probe.work = some outcome := by
  unfold ActiveProbe.decision
  cases probe.cancelled <;> simp

theorem decision_eq_cancelled {probe : ActiveProbe} {reason : Thrown} :
    probe.decision = some (.cancelled reason) ↔ probe.cancelled = some reason := by
  unfold ActiveProbe.decision
  cases probe.cancelled <;> simp

theorem Sound.afterRace (h : Sound resolver s) (hphase : s.phase = .racing) {index : Nat} {probe : ActiveProbe}
    (hfind : s.active.find? (·.index = some index) = some probe) {decision : ProbeDecision}
    (hdecision : probe.decision = some decision) : Sound resolver (resolver.afterRace s index decision) := by
  have hshaped := h.shaped
  rw [ResolverState.Shaped, hphase] at hshaped
  have hquiet := h.failures (by rw [hphase]; rfl)
  have hprobe := List.mem_of_find?_eq_some hfind
  have hindex : probe.index = some index := by
    have := List.find?_some hfind
    simpa using this
  have hdone : ∀ outcome, probe.work = some outcome → ∀ other ∈ s.active, other.index = some index →
      other.work.isSome = true := by
    intro outcome hwork other hother heq
    rw [h.placed.unique (List.mem_append_left _ hother) (List.mem_append_left _ hprobe) (heq.trans hindex.symm), hwork]
    rfl
  unfold Resolver.afterRace
  split
  case h_1 reason hcaller =>
    refine ⟨(h.placed.abortActive reason).congr rfl rfl rfl rfl rfl rfl, hcaller, ?_, ?_⟩
    · intro hhopeful
      cases hhopeful
    · intro hracing
      cases hracing
  case h_2 reason hcaller =>
    -- nobody but the caller cancels during the race
    rw [decision_eq_cancelled, h.uncancelled (by rw [hphase]; rfl) hcaller probe hprobe] at hdecision
    cases hdecision
  case h_3 error hcaller =>
    obtain ⟨-, hwork⟩ := decision_eq_outcome.1 hdecision
    have hdelete := h.placed.delete (some index) (hdone _ hwork)
    refine ⟨(hdelete.abortActive error).congr rfl rfl rfl rfl rfl rfl, trivial, ?_, ?_⟩
    · intro hhopeful
      cases hhopeful
    · intro hracing
      cases hracing
  case h_4 studentCode hcaller =>
    obtain ⟨-, hwork⟩ := decision_eq_outcome.1 hdecision
    have hdelete := h.placed.delete (some index) (hdone _ hwork)
    have hfinished : ∀ other ∈ (delete s (some index)).finished, independentFailure other = none := by
      intro other hmem
      rcases List.mem_append.1 hmem with hmem | hmem
      · exact hquiet other hmem
      · obtain ⟨hother, heq⟩ := List.mem_filter.1 hmem
        rw [h.placed.unique (List.mem_append_left _ hother) (List.mem_append_left _ hprobe)
          ((of_decide_eq_true heq).trans hindex.symm), independentFailure, hwork]
    simp only
    split
    · refine ⟨(hdelete.abortActive .winnerReason).congr rfl rfl rfl rfl rfl rfl, trivial, fun _ => hfinished, fun hracing => ?_⟩
      cases hracing
    · apply sound_loop
      · exact hdelete.congr rfl rfl rfl rfl rfl rfl
      · intro other hmem
        have hother := (List.mem_filter.1 hmem).1
        exact ⟨hshaped.2 other hother, h.uncancelled (by rw [hphase]; rfl) hcaller other hother⟩
      · exact hfinished

theorem Sound.afterSettling (h : Sound resolver s) {next : AfterSettling} (hphase : s.phase = .settling next)
    (hwork : ∀ probe ∈ s.active, probe.work.isSome = true) : Sound resolver (resolver.afterSettling s next) := by
  have hclear := h.placed.clear hwork
  unfold Resolver.afterSettling
  split
  · exact sound_fail hclear rfl _
  · exact sound_fail hclear rfl _
  · exact sound_fail hclear rfl _
  case h_4 stdId hcaller =>
    split
    · exact sound_fail hclear rfl _
    case h_2 hnone =>
      refine ⟨hclear.congr rfl rfl rfl rfl rfl rfl, rfl, ?_, ?_⟩
      · intro _ probe hmem
        rcases List.mem_append.1 hmem with hmem | hmem
        · exact h.failures (by rw [hphase]; rfl) probe hmem
        · exact List.findSome?_eq_none_iff.1 hnone probe hmem
      · intro hracing
        cases hracing

theorem Sound.wake (h : Sound resolver s) (index : Nat) : Sound resolver (resolver.wake s index) := by
  unfold Resolver.wake
  split
  case h_1 hphase =>
    split
    · split
      · exact h.afterFirst hphase ‹_› ‹_›
      · exact h
    · exact h
  case h_2 hphase =>
    split
    case h_1 decision hsome =>
      obtain ⟨probe, hfind, hdecision⟩ := Option.bind_eq_some_iff.1 hsome
      exact h.afterRace hphase hfind hdecision
    case h_2 => exact h
  case h_3 next hphase =>
    split
    case isTrue hall => exact h.afterSettling hphase (List.all_eq_true.1 hall)
    case isFalse => exact h
  case h_4 error hphase =>
    split
    case isTrue hall =>
      refine ⟨(h.placed.clear (List.all_eq_true.1 hall)).congr rfl rfl rfl rfl rfl rfl, rfl, ?_, ?_⟩
      · intro hhopeful
        cases hhopeful
      · intro hracing
        cases hracing
    case isFalse => exact h
  case h_5 => exact h

/-- What one turn preserves. -/
theorem Sound.step (h : Sound resolver s) (turn : Turn) : Sound resolver (resolver.step s turn).2 := by
  cases turn with
  | settle index outcome => exact h.settle index outcome
  | abort reason => exact h.abort reason
  | wake index => exact h.wake index

theorem Sound.stateAfter (turns : List Turn) : ∀ {s : ResolverState}, Sound resolver s →
    Sound resolver (stateAfter resolver.step s turns) := by
  induction turns with
  | nil => exact id
  | cons turn rest ih => exact fun h => ih (h.step turn)

end Resolver

/-- What `resolveVnuStudentId` has checked when it starts. -/
theorem checked_of_start {options : VnuStudentIdResolverOptions} {aborted : Option Thrown} {resolver : Resolver}
    (h : resolveVnuStudentId options aborted = .ok resolver) :
    isValidStudentId resolver.projectedStdId = true ∧ 0 < resolver.limit := by
  have hparsed : ∀ {value : JsNumber} {name : String} {n : Nat}, parsePositiveSafeInteger value name = .ok n → 0 < n := by
    intro value name n hparse
    unfold parsePositiveSafeInteger at hparse
    split at hparse
    · split at hparse
      case isTrue hvalid =>
        have := (of_decide_eq_true hvalid).1
        rw [← Except.ok.inj hparse]
        omega
      case isFalse => cases hparse
    · cases hparse
  unfold resolveVnuStudentId at h
  obtain ⟨concurrency, hconcurrency, h⟩ := bind_eq_ok.1 h
  obtain ⟨limit, hlimit, h⟩ := bind_eq_ok.1 h
  split at h
  case h_1 ownStdId ownCode _ _ =>
    obtain ⟨_, -, h⟩ := bind_eq_ok.1 h
    obtain ⟨_, hprojected, h⟩ := bind_eq_ok.1 h
    cases aborted with
    | some reason => cases h
    | none =>
      rw [← Except.ok.inj h]
      exact ⟨require_eq_ok.1 hprojected, lt_min (hparsed hconcurrency) (hparsed hlimit)⟩
  case h_2 => cases h

end Hyeboard.CrossLookup
