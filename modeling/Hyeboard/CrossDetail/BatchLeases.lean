import Hyeboard.CrossDetail.BatchAnswers
/-!
# The leases of a batch

Each worker holds one lease at most, and the store has no other ones as long as every
release succeeds. So a worker that consumes a permit always finds room.
-/

namespace Hyeboard.CrossDetail

/-- The leases the workers hold. -/
def Batch.held (s : Batch) : List Nat := s.workers.filterMap Worker.lease

/-- The store has what the workers hold, until a release fails. -/
structure Leased (log : List Event) (s : Batch) : Prop where
  nodup : s.leases.Nodup
  fresh : ∀ lease ∈ s.leases, lease < s.nextLease
  held : .releaseFailed ∉ log → ∀ lease ∈ s.leases, lease ∈ s.held
  room : .releaseFailed ∉ log → .busy ∉ log

/-- One worker is free of leases, and the store as it was. -/
structure Frees (s t : Batch) (worker : Nat) : Prop where
  workers : ∃ new, t.workers = s.workers.set worker new ∧ new.lease = none
  leases : t.leases = s.leases
  nextLease : t.nextLease = s.nextLease

section
variable {opens : String → Except OpenError Selector} {groups : List Group} {concurrency : Nat} {permits : List String}
variable {log : List Event} {s t : Batch} {worker : Nat} {old new : Worker}

theorem claimed_lease (i : Nat) : (claimed groups i).lease = none := by
  unfold claimed
  split <;> rfl

theorem frees_fail (error : Thrown) : Frees s (fail s worker error) worker := ⟨⟨.failed, rfl, rfl⟩, rfl, rfl⟩

theorem frees_finish (index : Nat) (results : List Item) : Frees s (finishGroup groups s worker index results) worker :=
  ⟨⟨_, rfl, claimed_lease _⟩, rfl, rfl⟩

theorem frees_nextPermit (index : Nat) (rest : List String) (results : List Item) :
    Frees s (nextPermit groups s worker index rest results) worker := by
  cases rest with
  | nil => exact frees_finish index results
  | cons permit rest => exact ⟨⟨_, rfl, rfl⟩, rfl, rfl⟩

theorem frees_settlePermit (index : Nat) (permit : String) (rest : List String) (results : List Item) (result : Except Thrown String) :
    Frees s (settlePermit groups s worker index permit rest results result) worker := by
  unfold settlePermit
  cases result with
  | ok html => exact frees_nextPermit _ _ _
  | error error =>
    cases herror : isCrossDetailItemError error with
    | none =>
      simp only [herror]
      exact frees_fail error
    | some code =>
      simp only [herror]
      exact frees_nextPermit _ _ _

/-- What the other workers hold they keep. -/
theorem held_set (hget : s.workers[worker]? = some old) {lease : Nat} (hheld : lease ∈ s.held) (hother : old.lease ≠ some lease)
    (new : Worker) : lease ∈ (setWorker s worker new).held := by
  obtain ⟨w, hmem, hlease⟩ := List.mem_filterMap.1 hheld
  refine List.mem_filterMap.2 ⟨w, setWorker_keeps hget hmem ?_, hlease⟩
  rintro rfl
  exact hother hlease

theorem Leased.quiet (h : Leased log s) {events : List Event} (hbusy : .busy ∉ events) : Leased (log ++ events) s := by
  have hlog : Event.releaseFailed ∉ log ++ events → .releaseFailed ∉ log := fun hno hmem => hno (List.mem_append_left _ hmem)
  refine ⟨h.nodup, h.fresh, fun hno => h.held (hlog hno), fun hno hmem => ?_⟩
  rcases List.mem_append.1 hmem with hmem | hmem
  · exact h.room (hlog hno) hmem
  · exact hbusy hmem

theorem Leased.put (h : Leased log s) (hget : s.workers[worker]? = some old)
    (hold : .releaseFailed ∉ log → ∀ lease, old.lease = some lease → new.lease = some lease ∨ lease ∉ s.leases) :
    Leased log (setWorker s worker new) := by
  refine ⟨h.nodup, h.fresh, fun hno lease hmem => ?_, h.room⟩
  by_cases heq : old.lease = some lease
  · rcases hold hno lease heq with hnew | hout
    · exact List.mem_filterMap.2 ⟨new, mem_setWorker_new hget, hnew⟩
    · exact absurd hmem hout
  · exact held_set hget (h.held hno lease hmem) heq new

theorem Leased.frees (h : Leased log s) (hget : s.workers[worker]? = some old) (hfrees : Frees s t worker)
    (hold : .releaseFailed ∉ log → ∀ lease, old.lease = some lease → lease ∉ s.leases) : Leased log t := by
  obtain ⟨new, hworkers, -⟩ := hfrees.workers
  have hput : Leased log (setWorker s worker new) := h.put hget fun hno lease heq => .inr (hold hno lease heq)
  refine ⟨hfrees.leases ▸ h.nodup, ?_, fun hno lease hmem => ?_, h.room⟩
  · rw [hfrees.leases, hfrees.nextLease]
    exact h.fresh
  · rw [hfrees.leases] at hmem
    have hheld := hput.held hno lease hmem
    rwa [Batch.held, setWorker, ← hworkers] at hheld

/-- A lease leaves the store. -/
theorem Leased.drop (h : Leased log s) (lease : Nat) : Leased log { s with leases := s.leases.filter (· != lease) } :=
  ⟨h.nodup.filter _, fun other hmem => h.fresh other (List.mem_filter.1 hmem).1,
    fun hno other hmem => h.held hno other (List.mem_filter.1 hmem).1, h.room⟩

/-- A worker without a lease finds room. -/
theorem Leased.room_of_free (h : Leased log s) (hno : .releaseFailed ∉ log) (hget : s.workers[worker]? = some old)
    (hfree : old.lease = none) : s.leases.length < s.workers.length := by
  have hsubset : s.leases ⊆ s.held := fun lease hmem => h.held hno lease hmem
  have hle : s.leases.length ≤ s.held.length := h.nodup.length_le_of_subset hsubset
  exact Nat.lt_of_le_of_lt hle (length_filterMap_lt (List.mem_of_getElem? hget) hfree)

theorem Leased.consumed (h : Leased log s) (hwidth : s.workers.length ≤ concurrency) {index : Nat} {permit : String}
    {rest : List String} {results : List Item} (hget : s.workers[worker]? = some (.group index (.consuming permit) rest results))
    (verdict : Verdict) :
    let next := consumed opens groups concurrency s worker index permit rest results verdict
    Leased (log ++ next.1) next.2 := by
  have hthrows : ∀ code, Leased log (settlePermit groups s worker index permit rest results (.error (.hyeboard code))) :=
    fun code => h.frees hget (frees_settlePermit _ _ _ _ _) fun _ lease heq => by cases heq
  unfold CrossDetail.consumed
  cases verdict with
  | invalid => exact (hthrows "VNU_CROSS_DETAIL_PERMIT_INVALID").quiet List.not_mem_nil
  | budget => exact (hthrows "VNU_RATE_LIMITED").quiet List.not_mem_nil
  | unavailable => exact (hthrows "VNU_PROBE_BUDGET_UNAVAILABLE").quiet List.not_mem_nil
  | allowed =>
    simp only
    split
    case isTrue hfull =>
      have hfailed : .releaseFailed ∈ log := by
        by_contra hno
        have hroom := h.room_of_free hno hget rfl
        omega
      have hthrow := hthrows "VNU_CROSS_LOOKUP_BUSY"
      have hmem : Event.releaseFailed ∈ log ++ [.busy] := List.mem_append_left _ hfailed
      exact ⟨hthrow.nodup, hthrow.fresh, fun hno => absurd hmem hno, fun hno => absurd hmem hno⟩
    case isFalse =>
      have hnew : s.nextLease ∉ s.leases := fun hmem => Nat.lt_irrefl _ (h.fresh _ hmem)
      have hleased : Leased log (setWorker { s with leases := s.nextLease :: s.leases, nextLease := s.nextLease + 1 } worker
          (.group index (.leased permit s.nextLease .detail) rest results)) := by
        refine ⟨List.nodup_cons.2 ⟨hnew, h.nodup⟩, fun lease hmem => ?_, fun hno lease hmem => ?_, h.room⟩
        · rcases List.mem_cons.1 hmem with rfl | hmem
          · exact Nat.lt_succ_self _
          · exact Nat.lt_succ_of_lt (h.fresh lease hmem)
        · rcases List.mem_cons.1 hmem with rfl | hmem
          · exact List.mem_filterMap.2 ⟨_, mem_setWorker_new hget, rfl⟩
          · exact held_set hget (h.held hno lease hmem) (by simp [Worker.lease]) _
      cases opens permit with
      | ok selector => exact hleased.quiet (by simp)
      | error error => exact hleased.quiet List.not_mem_nil

theorem Leased.responded (h : Leased log s) {index lease : Nat} {permit : String} {stage : Stage}
    {rest : List String} {results : List Item} (hget : s.workers[worker]? = some (.group index (.leased permit lease stage) rest results))
    (result : Except Thrown String) :
    let next := responded opens s worker index permit lease stage rest results result
    Leased (log ++ next.1) next.2 := by
  have hgoes : ∀ (stage' : Stage) (events : List Event), .busy ∉ events →
      Leased (log ++ events) (setWorker s worker (.group index (.leased permit lease stage') rest results)) := by
    intro stage' events hbusy
    have hput : Leased log (setWorker s worker (.group index (.leased permit lease stage') rest results)) :=
      h.put hget fun _ _ heq => .inl heq
    exact hput.quiet hbusy
  unfold CrossDetail.responded
  cases opens permit with
  | error error => exact h.quiet List.not_mem_nil
  | ok selector =>
    simp only
    split
    · exact hgoes _ _ (by simp)
    · exact hgoes _ _ (by simp)
    · exact hgoes _ _ (by simp)
    · exact hgoes _ _ (by simp)
    · exact hgoes _ _ (by simp)
    · exact h.quiet List.not_mem_nil
    · exact hgoes _ _ List.not_mem_nil

theorem Leased.released (h : Leased log s) {index lease : Nat} {permit : String} {result : Except Thrown String} {rest : List String}
    {results : List Item}
    (hget : s.workers[worker]? = some (.group index (.leased permit lease (.releasing result)) rest results)) (ok : Bool) :
    let next := released groups s worker index permit lease result rest results ok
    Leased (log ++ next.1) next.2 := by
  unfold CrossDetail.released
  cases ok with
  | true =>
    refine ((h.drop lease).frees hget (frees_settlePermit _ _ _ _ _) fun _ other heq => ?_).quiet List.not_mem_nil
    obtain rfl : lease = other := Option.some.inj heq
    simp
  | false =>
    -- nothing more is said of the store
    have hfrees : Frees s (settlePermit groups s worker index permit rest results result) worker := frees_settlePermit _ _ _ _ _
    have hmem : Event.releaseFailed ∈ log ++ [.releaseFailed] := by simp
    refine ⟨hfrees.leases ▸ h.nodup, ?_, fun hno => absurd hmem hno, fun hno => absurd hmem hno⟩
    change ∀ lease ∈ (settlePermit groups s worker index permit rest results result).leases, _
    rw [hfrees.leases]
    exact fun lease hin => hfrees.nextLease ▸ h.fresh lease hin

/-- The warm-up of a group fails. -/
theorem Leased.warmFailed (h : Leased log s) {index : Nat} {task : Task} {rest : List String} {results : List Item}
    (hget : s.workers[worker]? = some (.group index task rest results)) (hfree : Worker.lease (.group index task rest results) = none)
    (error : Thrown) :
    let next := match isCrossDetailItemError error with
      | some errorCode =>
        (([] : List Event), finishGroup groups s worker index (rest.map fun permit => { permit, result := .error errorCode }))
      | none => ([], CrossDetail.fail s worker error)
    Leased (log ++ next.1) next.2 := by
  have hold : .releaseFailed ∉ log → ∀ lease, Worker.lease (.group index task rest results) = some lease → lease ∉ s.leases :=
    fun _ lease heq => by rw [hfree] at heq; cases heq
  cases isCrossDetailItemError error with
  | some errorCode => exact (h.frees hget (frees_finish _ _) hold).quiet List.not_mem_nil
  | none => exact (h.frees hget (frees_fail error) hold).quiet List.not_mem_nil

theorem Leased.act (h : Leased log s) (hwidth : s.workers.length ≤ concurrency) (action : Action) :
    let next := act opens groups concurrency s worker action
    Leased (log ++ next.1) next.2 := by
  unfold CrossDetail.act
  simp only
  split
  case h_1 index members hget =>
    exact (h.frees hget (frees_finish _ _) fun _ _ heq => by cases heq).quiet List.not_mem_nil
  case h_2 index rest results hget =>
    have hput : Leased log (setWorker s worker (.group index .warming rest results)) := h.put hget fun _ _ heq => .inl heq
    exact hput.quiet (by split <;> simp)
  case h_3 index rest results error hget => exact h.warmFailed hget rfl error
  case h_4 index rest results error hget => exact h.warmFailed hget rfl error
  case h_5 index rest results hget =>
    exact (h.frees hget (frees_nextPermit _ _ _) fun _ _ heq => by cases heq).quiet List.not_mem_nil
  case h_6 index permit rest results hget =>
    have hput : Leased log (setWorker s worker (.group index (.consuming permit) rest results)) := h.put hget fun _ _ heq => .inl heq
    exact hput.quiet (by simp)
  case h_7 index permit rest results error hget =>
    have hfrees : Frees s (settlePermit groups s worker index permit rest results (.error error)) worker := frees_settlePermit _ _ _ _ _
    exact (h.frees hget hfrees fun _ _ heq => by cases heq).quiet List.not_mem_nil
  case h_8 index permit rest results verdict hget => exact h.consumed hwidth hget verdict
  case h_9 index permit lease result rest results ok hget => exact h.released hget ok
  case h_10 => exact h.responded ‹_› _
  case h_11 => exact h.quiet List.not_mem_nil

theorem Leased.settles (h : Leased log s) : Leased log (settles permits s) := by
  unfold CrossDetail.settles
  split
  · exact h
  · split
    · exact ⟨h.nodup, h.fresh, h.held, h.room⟩
    · split
      · exact ⟨h.nodup, h.fresh, h.held, h.room⟩
      · exact h

theorem Leased.step (h : Leased log s) (hwidth : s.workers.length ≤ concurrency) (turn : Turn) :
    Leased (log ++ (step opens groups concurrency permits s turn).1) (step opens groups concurrency permits s turn).2 := by
  cases turn with
  | worker worker action => exact h.act hwidth action
  | expires lease => exact (h.drop lease).quiet List.not_mem_nil
  | settles => exact h.settles.quiet List.not_mem_nil

end

section
variable {opens : String → Except OpenError Selector} {concurrency : Nat} {permits : List String}
variable {trace : List (Step Batch Turn (List Event))} {s : Batch} {clock : Nat}

theorem leased_run (h : BatchRun opens concurrency permits trace s clock) (hconcurrency : 0 < concurrency) :
    Leased (emitted trace) s := by
  refine h.invariant (fun trace s _ => Leased (emitted trace) s) ⟨List.nodup_nil, by simp [start], by simp [start], by simp [emitted]⟩ ?_
  intro trace s clock turn hrun hleased _ _
  have hwidth := (sound_run hrun hconcurrency).width
  rw [emitted_snoc]
  exact hleased.step (hwidth ▸ Nat.min_le_left _ _) turn

/-! ### A batch answers every permit -/

/-- Once a batch returns, every permit has its item, and the permit was presented once at most. The workers hold no more leases
than there are workers, and no release failing, neither has the store, and nothing is busy. -/
theorem batch_answers (h : BatchRun opens concurrency permits trace s clock) (hconcurrency : 0 < concurrency)
    (hnodup : permits.Nodup) :
    (∀ items, s.outcome = some (.ok items) → ∃ answered, items = answered.map some ∧ Answers opens (emitted trace) permits answered) ∧
    (∀ permit, (presented (emitted trace)).count permit ≤ 1) ∧
    s.held.length ≤ min concurrency (groupsOf opens permits).length ∧
    (.releaseFailed ∉ emitted trace →
      s.leases.length ≤ min concurrency (groupsOf opens permits).length ∧ .busy ∉ emitted trace) := by
  have hsound := sound_run h hconcurrency
  have hleased := leased_run h hconcurrency
  have hheld : s.held.length ≤ min concurrency (groupsOf opens permits).length := by
    rw [← hsound.width]
    exact List.length_filterMap_le _ _
  refine ⟨hsound.returned, fun permit => ?_, hheld, fun hno => ⟨?_, hleased.room hno⟩⟩
  · have honce := hsound.once permit
    have hcount := List.nodup_iff_count_le_one.1 hnodup permit
    unfold Batch.presentations at honce
    omega
  · exact Nat.le_trans (hleased.nodup.length_le_of_subset (hleased.held hno)) hheld

/-- Two students' permits, and anything else. -/
def openTwo : String → Except OpenError Selector
  | "a" => .ok ⟨"21000001", "412", "1", by decide⟩
  | "b" => .ok ⟨"21000002", "413", "1", by decide⟩
  | _ => .error .permitInvalid

/-- The worker of the forged permit goes on with the other student, whose request fails. -/
def mixedTurns : List Turn :=
  [.worker 0 (.permitted (.ok ())), .worker 1 .invalidSettles, .worker 0 (.warmed (.ok ())), .worker 1 (.permitted (.ok ())),
    .worker 0 (.prepared (.ok ())), .worker 1 (.warmed (.ok ())), .worker 1 (.prepared (.ok ())), .worker 0 (.consumed .allowed),
    .worker 1 (.consumed .allowed), .worker 0 (.responded (.ok "<table>")), .worker 1 (.responded (.error (.hyeboard "VNU_REQUEST_FAILED"))),
    .worker 0 (.released true), .worker 1 (.released true), .settles]

def mixedItems : List Item :=
  [⟨"a", .ok "<table>"⟩, ⟨"forged", .error "VNU_CROSS_DETAIL_PERMIT_INVALID"⟩, ⟨"b", .error "VNU_REQUEST_FAILED"⟩]

theorem batch_run (opens : String → Except OpenError Selector) (concurrency : Nat) (permits : List String) (turns : List Turn) :
    ∃ clock, BatchRun opens concurrency permits (execute (step opens (groupsOf opens permits) concurrency permits) (start opens concurrency permits) turns)
      (stateAfter (step opens (groupsOf opens permits) concurrency permits) (start opens concurrency permits) turns) clock := by
  have hstart : BatchRun opens concurrency permits [] (start opens concurrency permits) 0 := .start
  have hsorted : (0 :: turns.map fun _ : Turn => 0).Pairwise (· ≤ ·) := by simp [List.pairwise_cons]
  exact hstart.follow turns hsorted fun _ _ _ => trivial

theorem batch_answers_mixed :
    Answers openTwo (emitted (execute (step openTwo (groupsOf openTwo ["a", "forged", "b"]) 2 ["a", "forged", "b"])
      (start openTwo 2 ["a", "forged", "b"]) mixedTurns)) ["a", "forged", "b"] mixedItems := by
  obtain ⟨clock, hrun⟩ := batch_run openTwo 2 ["a", "forged", "b"] mixedTurns
  obtain ⟨answered, hitems, hanswers⟩ := (batch_answers hrun (by decide) (by decide)).1 (mixedItems.map some) (by rfl)
  obtain rfl := List.map_injective_iff.2 (fun _ _ => Option.some.inj) hitems
  exact hanswers

end

end Hyeboard.CrossDetail
