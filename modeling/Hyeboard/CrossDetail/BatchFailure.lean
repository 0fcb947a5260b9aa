import Hyeboard.CrossDetail.BatchLeases
/-!
# A batch that fails

`Promise.all` rejects with the first worker that throws, and the others go on. A
batch that was rejected is over only when its other workers had nothing left to start.
-/

namespace Hyeboard.CrossDetail

/-- A permit is presented, or a request to the portal starts. -/
def Event.starts : Event → Bool
  | .presented _ | .requested _ => true
  | .busy | .fetched _ _ | .releaseFailed => false

/-- A throw that ends the worker. -/
def isFatal : Except Thrown String → Bool
  | .ok _ => false
  | .error error => (isCrossDetailItemError error).isNone

/-- Whatever a worker is answered, it starts nothing any more; `last` when no group is left to take. -/
def Worker.spent (last : Bool) : Worker → Bool
  | .done | .failed => true
  | .invalid .. => last
  | .group _ (.leased _ _ (.releasing result)) rest _ => isFatal result || (last && rest.isEmpty)
  | .group _ (.leased _ _ .redetail) rest _ => last && rest.isEmpty
  | .group .. => false

namespace Batch

def rejected (s : Batch) : Bool :=
  match s.outcome with
  | some (.error _) => true
  | some (.ok _) | none => false

def spent (groups : List Group) (s : Batch) : Bool := s.workers.all (Worker.spent (groups.length ≤ s.nextGroupIndex))

end Batch

/-- After the batch was rejected, nothing starts. -/
def Stops (trace : List (Step Batch Turn (List Event))) : Prop :=
  ∀ e ∈ trace, e.before.rejected = true → ∀ event ∈ e.result, event.starts = false

instance (trace : List (Step Batch Turn (List Event))) : Decidable (Stops trace) :=
  inferInstanceAs (Decidable (∀ e ∈ trace, e.before.rejected = true → ∀ event ∈ e.result, event.starts = false))

/-- A turn that rejects the batch finds its workers spent. -/
def rejectsLast (groups : List Group) (s : Batch) : Turn → Bool
  | .settles => s.outcome.isSome || s.failure.isNone || s.spent groups
  | .worker .. | .expires _ => true

section
variable {opens : String → Except OpenError Selector} {groups : List Group} {concurrency : Nat} {permits : List String}
variable {s : Batch} {worker : Nat} {old new : Worker}

/-! ## The outcome is settled apart -/

@[simp] theorem setWorker_outcome (new : Worker) : (setWorker s worker new).outcome = s.outcome := rfl

@[simp] theorem finishGroup_outcome (index : Nat) (results : List Item) : (finishGroup groups s worker index results).outcome = s.outcome := rfl

@[simp] theorem fail_outcome (error : Thrown) : (fail s worker error).outcome = s.outcome := rfl

@[simp] theorem nextPermit_outcome (index : Nat) (rest : List String) (results : List Item) :
    (nextPermit groups s worker index rest results).outcome = s.outcome := by
  cases rest <;> rfl

@[simp] theorem settlePermit_outcome (index : Nat) (permit : String) (rest : List String) (results : List Item)
    (result : Except Thrown String) : (settlePermit groups s worker index permit rest results result).outcome = s.outcome := by
  unfold settlePermit
  split
  · simp
  · split <;> simp

theorem act_outcome (action : Action) : (act opens groups concurrency s worker action).2.outcome = s.outcome := by
  unfold act
  split
  case h_3 | h_4 => split <;> simp
  case h_8 =>
    unfold consumed
    split
    · simp
    · simp
    · simp
    · simp only
      split
      · simp
      · split <;> simp
  case h_9 =>
    unfold released
    split <;> simp
  case h_10 =>
    unfold responded
    simp only
    repeat' split
    all_goals simp
  all_goals simp

/-! ## Spent workers -/

theorem spent_put (h : s.spent groups = true) (hnew : new.spent (groups.length ≤ s.nextGroupIndex) = true) :
    (setWorker s worker new).spent groups = true := by
  rw [Batch.spent, List.all_eq_true] at h ⊢
  intro w hmem
  rcases mem_setWorker hmem with hmem | rfl
  · exact h w hmem
  · exact hnew

theorem spent_of_get (h : s.spent groups = true) (hget : s.workers[worker]? = some old) :
    old.spent (groups.length ≤ s.nextGroupIndex) = true :=
  List.all_eq_true.1 h old (List.mem_of_getElem? hget)

/-- There is no group left to take. -/
theorem spent_finish (h : s.spent groups = true) (hlast : groups.length ≤ s.nextGroupIndex) (index : Nat) (results : List Item) :
    (finishGroup groups s worker index results).spent groups = true := by
  have hclaimed : claimed groups s.nextGroupIndex = .done := by
    rw [claimed, List.getElem?_eq_none hlast]
  unfold finishGroup takeGroup
  refine spent_put ?_ (by rw [hclaimed]; rfl)
  rw [Batch.spent, List.all_eq_true] at h ⊢
  intro w hmem
  have hw := h w hmem
  rw [decide_eq_true hlast] at hw
  rwa [decide_eq_true (Nat.le_succ_of_le hlast)]

theorem spent_fail (h : s.spent groups = true) (error : Thrown) : (fail s worker error).spent groups = true :=
  spent_put h rfl

theorem spent_settlePermit (h : s.spent groups = true) (index : Nat) (permit : String) {rest : List String} (results : List Item)
    {result : Except Thrown String} (hspent : isFatal result = true ∨ groups.length ≤ s.nextGroupIndex ∧ rest = []) :
    (settlePermit groups s worker index permit rest results result).spent groups = true := by
  unfold settlePermit
  rcases hspent with hfatal | ⟨hlast, rfl⟩
  · cases result with
    | ok html => cases hfatal
    | error error =>
      have hnone : isCrossDetailItemError error = none := Option.isNone_iff_eq_none.1 hfatal
      simp only [hnone]
      exact spent_fail h error
  · split
    · exact spent_finish h hlast index _
    · split
      · exact spent_finish h hlast index _
      · exact spent_fail h _

theorem spent_responded (h : s.spent groups = true) {index lease : Nat} {permit : String} {stage : Stage} {rest : List String}
    {results : List Item} (hspent : Worker.spent (groups.length ≤ s.nextGroupIndex) (.group index (.leased permit lease stage) rest results) = true)
    (result : Except Thrown String) :
    (∀ event ∈ (responded opens s worker index permit lease stage rest results result).1, event.starts = false) ∧
      (responded opens s worker index permit lease stage rest results result).2.spent groups = true := by
  unfold responded
  cases opens permit with
  | error _ => exact ⟨by simp, h⟩
  | ok selector =>
    cases stage with
    | detail | validating | rewarming => cases hspent
    | releasing _ => exact ⟨by simp, h⟩
    | redetail =>
      -- the second request is the last one, and its worker has no permit left
      have hreleasing : ∀ result, Worker.spent (groups.length ≤ s.nextGroupIndex)
          (.group index (.leased permit lease (.releasing result)) rest results) = true := by
        intro result
        rw [Worker.spent, Bool.or_eq_true]
        exact .inr hspent
      cases result with
      | ok html => exact ⟨by simp [Event.starts], spent_put h (hreleasing _)⟩
      | error error => exact ⟨by simp, spent_put h (hreleasing _)⟩

/-- Spent workers start nothing and stay spent. -/
theorem spent_act (h : s.spent groups = true) (action : Action) :
    (∀ event ∈ (act opens groups concurrency s worker action).1, event.starts = false) ∧
      (act opens groups concurrency s worker action).2.spent groups = true := by
  unfold act
  split
  case h_1 hget =>
    have hlast : groups.length ≤ s.nextGroupIndex := of_decide_eq_true (spent_of_get h hget)
    exact ⟨by simp, spent_finish h hlast _ _⟩
  case h_9 hget =>
    have hspent := spent_of_get h hget
    simp only [Worker.spent, Bool.or_eq_true, Bool.and_eq_true, decide_eq_true_eq, List.isEmpty_iff] at hspent
    have hstore : ∀ leases, Batch.spent groups { s with leases } = true := fun _ => h
    unfold released
    cases ‹Bool› with
    | true => exact ⟨by simp, spent_settlePermit (hstore _) _ _ _ hspent⟩
    | false => exact ⟨by simp [Event.starts], spent_settlePermit h _ _ _ hspent⟩
  case h_10 hget => exact spent_responded h (spent_of_get h hget) _
  case h_11 => exact ⟨by simp, h⟩
  all_goals
    have hspent := spent_of_get h ‹_›
    cases hspent

/-! ## A batch that stops -/

theorem rejected_settles (hrejects : rejectsLast groups s .settles = true) (hrejected : (settles permits s).rejected = true) :
    s.rejected = true ∨ s.spent groups = true := by
  simp only [rejectsLast, Bool.or_eq_true] at hrejects
  unfold settles at hrejected
  split at hrejected
  case isTrue => exact .inl hrejected
  case isFalse houtcome =>
    cases hfailure : s.failure with
    | some error =>
      rcases hrejects with (hsome | hnone) | hspent
      · exact absurd hsome houtcome
      · rw [hfailure] at hnone
        cases hnone
      · exact .inr hspent
    | none =>
      simp only [hfailure] at hrejected
      split at hrejected
      · cases hrejected
      · exact .inl hrejected

theorem spent_settles : (settles permits s).spent groups = s.spent groups := by
  unfold settles
  split
  · rfl
  · split
    · rfl
    · split <;> rfl

/-- One turn, after which the workers of a rejected batch are spent. -/
theorem rejected_step (hspent : s.rejected = true → s.spent groups = true) {turn : Turn} (hrejects : rejectsLast groups s turn = true)
    (hrejected : (step opens groups concurrency permits s turn).2.rejected = true) :
    (step opens groups concurrency permits s turn).2.spent groups = true := by
  cases turn with
  | worker worker action =>
    have hbefore : s.rejected = true := by rwa [Batch.rejected, step, act_outcome] at hrejected
    exact (spent_act (hspent hbefore) action).2
  | expires lease => exact hspent hrejected
  | settles =>
    rw [step, spent_settles]
    exact (rejected_settles hrejects hrejected).elim hspent id

theorem step_quiet (hspent : s.spent groups = true) (turn : Turn) :
    ∀ event ∈ (step opens groups concurrency permits s turn).1, event.starts = false := by
  cases turn with
  | worker worker action => exact (spent_act hspent action).1
  | expires _ | settles => simp [step]

end

section
variable {opens : String → Except OpenError Selector} {concurrency : Nat} {permits : List String}
variable {trace : List (Step Batch Turn (List Event))} {s : Batch} {clock : Nat}

/-- A batch whose workers are spent when it is rejected stops. -/
theorem failed_batch_stops (h : BatchRun opens concurrency permits trace s clock)
    (hrejects : ∀ e ∈ trace, rejectsLast (groupsOf opens permits) e.before e.call = true) : Stops trace := by
  have hinvariant : (∀ e ∈ trace, rejectsLast (groupsOf opens permits) e.before e.call = true) →
      (s.rejected = true → s.spent (groupsOf opens permits) = true) ∧ Stops trace := by
    refine h.invariant (fun trace s _ => (∀ e ∈ trace, rejectsLast (groupsOf opens permits) e.before e.call = true) →
      (s.rejected = true → s.spent (groupsOf opens permits) = true) ∧ Stops trace) ?_ ?_
    · refine fun _ => ⟨fun hrejected => ?_, List.forall_mem_nil _⟩
      cases hrejected
    · intro trace s clock turn _ ih _ _ hrejects
      rw [List.forall_mem_append, List.forall_mem_singleton] at hrejects
      obtain ⟨hspent, hstops⟩ := ih hrejects.1
      refine ⟨rejected_step hspent hrejects.2, ?_⟩
      rw [Stops, List.forall_mem_append, List.forall_mem_singleton]
      exact ⟨hstops, fun hrejected => step_quiet (hspent hrejected) turn⟩
  exact (hinvariant hrejects).2

/-- The budget of the first student's permit is used up; the worker of the other student goes on. -/
def rejectedTurns : List Turn :=
  [.worker 0 (.permitted (.ok ())), .worker 0 (.warmed (.ok ())), .worker 0 (.prepared (.ok ())), .worker 0 (.consumed .budget), .settles,
    .worker 1 (.permitted (.ok ())), .worker 1 (.warmed (.ok ())), .worker 1 (.prepared (.ok ())), .worker 1 (.consumed .allowed)]

/-- The second worker has its answer when the first one fails, and releases its lease after the batch was rejected. -/
def releasingTurns : List Turn :=
  [.worker 1 (.permitted (.ok ())), .worker 1 (.warmed (.ok ())), .worker 1 (.prepared (.ok ())), .worker 1 (.consumed .allowed),
    .worker 1 (.responded (.ok "html")), .worker 0 (.permitted (.ok ())), .worker 0 (.warmed (.ok ())), .worker 0 (.prepared (.ok ())),
    .worker 0 (.consumed .budget), .settles, .worker 1 (.released false)]

def releasingTrace : List (Step Batch Turn (List Event)) :=
  execute (step openTwo (groupsOf openTwo ["a", "b"]) 2 ["a", "b"]) (start openTwo 2 ["a", "b"]) releasingTurns

theorem failed_batch_stops_releasing :
    releasingTrace.getLast?.map (fun e => (e.before.rejected, e.before.workers.map (Worker.spent true), e.result)) =
      some (true, [true, true], [.releaseFailed]) ∧
    (releasingTrace.filter fun e => e.result.any Event.starts).length = 5 ∧ Stops releasingTrace := by
  obtain ⟨clock, hrun⟩ := batch_run openTwo 2 ["a", "b"] releasingTurns
  exact ⟨by decide +kernel, by decide +kernel, failed_batch_stops hrun (by decide +kernel)⟩

/-- Not every rejected batch stops. -/
theorem failed_batch_goes_on : ¬ ∀ (opens : String → Except OpenError Selector) (concurrency : Nat) (permits : List String)
    (trace : List (Step Batch Turn (List Event))) (s : Batch) (clock : Nat), BatchRun opens concurrency permits trace s clock → Stops trace := by
  intro h
  obtain ⟨clock, hrun⟩ := batch_run openTwo 2 ["a", "b"] rejectedTurns
  have hstops := h _ _ _ _ _ _ hrun
  revert hstops
  decide +kernel

end

end Hyeboard.CrossDetail
