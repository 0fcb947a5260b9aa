import Hyeboard.CrossDetail.Groups
import Hyeboard.Lib.Sums
/-!
# What a batch answers

What holds of a batch whatever its workers are answered: the permits that are still
to be presented are with one worker or with a group no worker has taken, every group
that is filed has one item for each of its permits, and a worker holds one lease at
most.
-/

namespace Hyeboard.CrossDetail

/-! ## What a worker stands for -/

def Task.current : Task → List String
  | .permitting | .warming => []
  | .preparing permit | .consuming permit | .leased permit _ _ => [permit]

namespace Worker

/-- The permits it may still present. -/
def pending : Worker → List String
  | .group _ (.preparing permit) rest _ => permit :: rest
  | .group _ _ rest _ => rest
  | .invalid .. | .done | .failed => []

def lease : Worker → Option Nat
  | .group _ (.leased _ lease _) _ _ => some lease
  | _ => none

def index : Worker → Option Nat
  | .group index .. | .invalid index _ => some index
  | .done | .failed => none

end Worker

def Event.permit? : Event → Option String
  | .presented permit => some permit
  | _ => none

/-- The permits that were presented. -/
def presented (log : List Event) : List String := log.filterMap Event.permit?

@[simp] theorem presented_nil : presented [] = [] := rfl

@[simp] theorem presented_requested (request : Request) : presented [.requested request] = [] := rfl

@[simp] theorem presented_presented (permit : String) : presented [.presented permit] = [permit] := rfl

theorem presented_append (log events : List Event) : presented (log ++ events) = presented log ++ presented events :=
  List.filterMap_append

section
variable (opens : String → Except OpenError Selector) (groups : List Group) (log : List Event)

/-- The html was fetched with the selector of the permit. -/
def Fetched (permit html : String) : Prop := ∃ selector, opens permit = .ok selector ∧ .fetched selector html ∈ log

structure Item.Genuine (item : Item) : Prop where
  ok : ∀ html, item.result = .ok html → Fetched opens log item.permit html
  error : item.result ≠ .error "VNU_CROSS_LOOKUP_BUSY"

/-- One item for each permit, in order. -/
structure Answers (permits : List String) (results : List Item) : Prop where
  permits : results.map (·.permit) = permits
  genuine : ∀ item ∈ results, item.Genuine opens log

def Stage.Fits (permit : String) : Stage → Prop
  | .releasing (.ok html) => Fetched opens log permit html
  | _ => True

def Task.Fits (results : List Item) : Task → Prop
  | .permitting | .warming => results = []
  | .leased permit _ stage => stage.Fits opens log permit
  | .preparing _ | .consuming _ => True

def Worker.Fits : Worker → Prop
  | .group index task rest results => task.Fits opens log results ∧ ∃ group stdId, groups[index]? = some group ∧
      group.stdId = some stdId ∧ ∃ answered, group.permits = answered ++ task.current ++ rest ∧ Answers opens log answered results
  | .invalid index permits => ∃ group, groups[index]? = some group ∧ group.stdId = none ∧ group.permits = permits
  | .done | .failed => True

end

section
variable {opens : String → Except OpenError Selector} {groups : List Group} {log : List Event}

theorem Fetched.mono {permit html : String} (h : Fetched opens log permit html) (events : List Event) :
    Fetched opens (log ++ events) permit html := by
  obtain ⟨selector, hopens, hmem⟩ := h
  exact ⟨selector, hopens, List.mem_append_left _ hmem⟩

theorem Item.Genuine.mono {item : Item} (h : item.Genuine opens log) (events : List Event) : item.Genuine opens (log ++ events) :=
  ⟨fun html hhtml => (h.ok html hhtml).mono events, h.error⟩

theorem Answers.mono {permits : List String} {results : List Item} (h : Answers opens log permits results) (events : List Event) :
    Answers opens (log ++ events) permits results :=
  ⟨h.permits, fun item hmem => (h.genuine item hmem).mono events⟩

theorem Answers.nil : Answers opens log [] [] := ⟨rfl, by simp⟩

theorem Answers.concat {permits : List String} {results : List Item} (h : Answers opens log permits results) {item : Item}
    (hitem : item.Genuine opens log) : Answers opens log (permits ++ [item.permit]) (results ++ [item]) := by
  constructor
  · rw [List.map_append, h.permits]
    rfl
  · intro other hmem
    rcases List.mem_append.1 hmem with hmem | hmem
    · exact h.genuine other hmem
    · obtain rfl := List.mem_singleton.1 hmem
      exact hitem

/-- Items that are all errors. -/
theorem answers_errors (permits : List String) (code : String → String) (hcode : ∀ permit, code permit ≠ "VNU_CROSS_LOOKUP_BUSY") :
    Answers opens log permits (permits.map fun permit => { permit, result := .error (code permit) }) := by
  constructor
  · simp [Function.comp_def]
  · intro item hmem
    obtain ⟨permit, -, rfl⟩ := List.mem_map.1 hmem
    exact ⟨fun html heq => (by cases heq), fun heq => hcode permit (ItemResult.error.inj heq)⟩

theorem Stage.Fits.mono {permit : String} {stage : Stage} (h : stage.Fits opens log permit) (events : List Event) :
    stage.Fits opens (log ++ events) permit := by
  cases stage with
  | releasing result =>
    cases result with
    | ok html => exact Fetched.mono h events
    | error _ => trivial
  | detail | validating | rewarming | redetail => trivial

theorem Task.Fits.mono {results : List Item} {task : Task} (h : task.Fits opens log results) (events : List Event) :
    task.Fits opens (log ++ events) results := by
  cases task with
  | permitting | warming => exact h
  | preparing _ | consuming _ => trivial
  | leased permit lease stage => exact Stage.Fits.mono h events

theorem Worker.Fits.mono {worker : Worker} (h : worker.Fits opens groups log) (events : List Event) :
    worker.Fits opens groups (log ++ events) := by
  cases worker with
  | group index task rest results =>
    obtain ⟨htask, group, stdId, hget, hstdId, answered, hpermits, hanswers⟩ := h
    exact ⟨htask.mono events, group, stdId, hget, hstdId, answered, hpermits, hanswers.mono events⟩
  | invalid index permits => exact h
  | done | failed => trivial

theorem isItemError_ne_busy {error : Thrown} {code : String} (h : isCrossDetailItemError error = some code) :
    code ≠ "VNU_CROSS_LOOKUP_BUSY" := by
  cases error with
  | other name => cases h
  | hyeboard code' =>
    simp only [isCrossDetailItemError, Option.ite_none_right_eq_some, Option.some.injEq] at h
    obtain ⟨hmem, rfl⟩ := h
    rintro rfl
    simp at hmem

theorem invalidCode_ne_busy (permit : String) : invalidCode opens permit ≠ "VNU_CROSS_LOOKUP_BUSY" := by
  unfold invalidCode
  split
  case h_1 error _ => cases error <;> simp [OpenError.code]
  case h_2 => simp

end

/-! ## What a batch stands for -/

section
variable (opens : String → Except OpenError Selector) (groups : List Group) (concurrency : Nat) (permits : List String)

/-- How often a permit was, or may still be, presented. -/
def Batch.presentations (s : Batch) (log : List Event) (permit : String) : Nat :=
  (presented log).count permit + (s.workers.map fun worker => worker.pending.count permit).sum +
    ((groups.drop s.nextGroupIndex).flatMap (·.permits)).count permit

structure Sound (log : List Event) (s : Batch) : Prop where
  once : ∀ permit, s.presentations groups log permit ≤ permits.count permit
  size : s.groupResults.length = groups.length
  width : s.workers.length = min concurrency groups.length
  filed : ∀ (i : Nat) results, s.groupResults[i]? = some (some results) → ∃ group : Group, groups[i]? = some group ∧
    Answers opens log group.permits results
  working : ∀ worker ∈ s.workers, worker.Fits opens groups log
  /-- A group that was taken is filed, or a worker has it. -/
  covered : s.failure = none → ∀ i : Nat, i < s.nextGroupIndex → i < groups.length →
    (∃ results, s.groupResults[i]? = some (some results)) ∨ ∃ worker ∈ s.workers, worker.index = some i
  done : .done ∈ s.workers → groups.length ≤ s.nextGroupIndex
  failed : .failed ∈ s.workers → s.failure ≠ none
  returned : ∀ items, s.outcome = some (.ok items) → ∃ answered, items = answered.map some ∧ Answers opens log permits answered

end

section
variable {opens : String → Except OpenError Selector} {groups : List Group} {concurrency : Nat} {permits : List String}
variable {log : List Event} {s : Batch} {worker : Nat} {old new : Worker}

/-- Nothing changes but what is known. -/
theorem Sound.quiet (h : Sound opens groups concurrency permits log s) {events : List Event} (hquiet : presented events = []) :
    Sound opens groups concurrency permits (log ++ events) s := by
  refine ⟨fun permit => ?_, h.size, h.width, fun i results hget => ?_, fun w hmem => (h.working w hmem).mono events, h.covered, h.done,
    h.failed, fun items hitems => ?_⟩
  · have honce := h.once permit
    rwa [Batch.presentations, presented_append, hquiet, List.append_nil]
  · obtain ⟨group, hgroup, hanswers⟩ := h.filed i results hget
    exact ⟨group, hgroup, hanswers.mono events⟩
  · obtain ⟨answered, rfl, hanswers⟩ := h.returned items hitems
    exact ⟨answered, rfl, hanswers.mono events⟩

theorem mem_setWorker {w : Worker} (h : w ∈ (setWorker s worker new).workers) : w ∈ s.workers ∨ w = new :=
  List.mem_or_eq_of_mem_set h

theorem setWorker_keeps (hget : s.workers[worker]? = some old) {w : Worker} (hmem : w ∈ s.workers) (hne : w ≠ old) :
    w ∈ (setWorker s worker new).workers := by
  obtain ⟨i, hi⟩ := List.mem_iff_getElem?.1 hmem
  refine List.mem_iff_getElem?.2 ⟨i, ?_⟩
  rw [setWorker, List.getElem?_set_ne _, hi]
  rintro rfl
  rw [hget] at hi
  exact hne (Option.some.inj hi).symm

theorem mem_setWorker_new (hget : s.workers[worker]? = some old) : new ∈ (setWorker s worker new).workers :=
  List.mem_set (List.getElem?_eq_some_iff.1 hget).1 new

/-- A worker goes on with its group. -/
theorem Sound.put (h : Sound opens groups concurrency permits log s) (hget : s.workers[worker]? = some old)
    (hindex : new.index = old.index) (hbusy : new.index ≠ none) {events : List Event} (hfits : new.Fits opens groups (log ++ events))
    (honce : ∀ permit, (presented events).count permit + new.pending.count permit ≤ old.pending.count permit) :
    Sound opens groups concurrency permits (log ++ events) (setWorker s worker new) := by
  have hnew : new ≠ .done ∧ new ≠ .failed := by
    constructor <;> (rintro rfl; exact hbusy rfl)
  refine ⟨fun permit => ?_, h.size, (List.length_set ..).trans h.width, fun i results hfiled => ?_, fun w hmem => ?_, fun hnone i hi hlt => ?_,
    fun hdone => ?_, fun hfailed => ?_, fun items hitems => ?_⟩
  · have hbefore := h.once permit
    have hsum := sum_map_set (fun worker => worker.pending.count permit) s.workers new hget
    have hmore := honce permit
    simp only [Batch.presentations, presented_append, List.count_append, setWorker] at hbefore ⊢
    omega
  · obtain ⟨group, hgroup, hanswers⟩ := h.filed i results hfiled
    exact ⟨group, hgroup, hanswers.mono events⟩
  · rcases mem_setWorker hmem with hmem | rfl
    · exact (h.working w hmem).mono events
    · exact hfits
  · rcases h.covered hnone i hi hlt with hfiled | ⟨w, hmem, hw⟩
    · exact .inl hfiled
    · by_cases heq : w = old
      · exact .inr ⟨new, mem_setWorker_new hget, hindex.trans (heq ▸ hw)⟩
      · exact .inr ⟨w, setWorker_keeps hget hmem heq, hw⟩
  · rcases mem_setWorker hdone with hdone | heq
    · exact h.done hdone
    · exact absurd heq.symm hnew.1
  · rcases mem_setWorker hfailed with hfailed | heq
    · exact h.failed hfailed
    · exact absurd heq.symm hnew.2
  · obtain ⟨answered, rfl, hanswers⟩ := h.returned items hitems
    exact ⟨answered, rfl, hanswers.mono events⟩

theorem Sound.fail (h : Sound opens groups concurrency permits log s) (hget : s.workers[worker]? = some old) (error : Thrown) :
    Sound opens groups concurrency permits log (fail s worker error) := by
  refine ⟨fun permit => ?_, h.size, (List.length_set ..).trans h.width, h.filed, fun w hmem => ?_, fun hnone => ?_, fun hdone => ?_,
    fun _ => ?_, h.returned⟩
  · have hbefore := h.once permit
    have hsum := sum_map_set (fun worker => worker.pending.count permit) s.workers .failed hget
    simp only [Batch.presentations, CrossDetail.fail, setWorker, Worker.pending, List.count_nil] at hbefore hsum ⊢
    omega
  · rcases mem_setWorker hmem with hmem | rfl
    · exact h.working w hmem
    · trivial
  · simp [CrossDetail.fail] at hnone
  · rcases mem_setWorker hdone with hdone | heq
    · exact h.done hdone
    · cases heq
  · simp [CrossDetail.fail]

theorem claimed_pending (groups : List Group) (i : Nat) (permit : String) :
    (claimed groups i).pending.count permit + ((groups.drop (i + 1)).flatMap (·.permits)).count permit ≤
      ((groups.drop i).flatMap (·.permits)).count permit := by
  unfold claimed
  cases hget : groups[i]? with
  | none =>
    have hlength := List.getElem?_eq_none_iff.1 hget
    rw [List.drop_eq_nil_of_le hlength, List.drop_eq_nil_of_le (Nat.le_succ_of_le hlength)]
    simp [Worker.pending]
  | some group =>
    obtain ⟨hlt, hgroup⟩ := List.getElem?_eq_some_iff.1 hget
    rw [List.drop_eq_getElem_cons hlt, hgroup, List.flatMap_cons, List.count_append]
    obtain ⟨key, stdId, members⟩ := group
    cases stdId with
    | none => simp [Worker.pending]
    | some stdId => simp [Worker.pending]

theorem claimed_fits (groups : List Group) (log : List Event) (i : Nat) : (claimed groups i).Fits opens groups log := by
  unfold claimed
  cases hget : groups[i]? with
  | none => trivial
  | some group =>
    obtain ⟨key, stdId, members⟩ := group
    cases stdId with
    | none => exact ⟨_, hget, rfl, rfl⟩
    | some stdId => exact ⟨rfl, _, stdId, hget, rfl, [], rfl, .nil⟩

theorem claimed_index {i : Nat} (h : i < groups.length) : (claimed groups i).index = some i := by
  unfold claimed
  rw [List.getElem?_eq_getElem h]
  obtain ⟨key, stdId, members⟩ := groups[i]
  cases stdId <;> rfl

theorem claimed_done {i : Nat} (h : claimed groups i = .done) : groups.length ≤ i := by
  by_contra hlt
  have hindex := claimed_index (Nat.not_le.1 hlt)
  rw [h] at hindex
  cases hindex

theorem claimed_ne_failed (i : Nat) : claimed groups i ≠ .failed := by
  unfold claimed
  split <;> simp

/-- A worker files its group and takes another one. -/
theorem Sound.finish (h : Sound opens groups concurrency permits log s) (hget : s.workers[worker]? = some old) {index : Nat}
    (hindex : old.index = some index) {group : Group} (hgroup : groups[index]? = some group) {results : List Item}
    (hanswers : Answers opens log group.permits results) :
    Sound opens groups concurrency permits log (finishGroup groups s worker index results) := by
  have hlt : index < s.groupResults.length := h.size ▸ (List.getElem?_eq_some_iff.1 hgroup).1
  refine ⟨fun permit => ?_, (List.length_set ..).trans h.size, (List.length_set ..).trans h.width, fun i other hfiled => ?_,
    fun w hmem => ?_, fun hnone i hi hlength => ?_, fun hdone => ?_, fun hfailed => ?_, h.returned⟩
  · have hbefore := h.once permit
    have hsum := sum_map_set (fun worker => worker.pending.count permit) s.workers (claimed groups s.nextGroupIndex) hget
    have hclaimed := claimed_pending groups s.nextGroupIndex permit
    simp only [Batch.presentations, finishGroup, takeGroup, setWorker] at hbefore ⊢
    omega
  · by_cases heq : index = i
    · subst heq
      simp only [finishGroup, takeGroup, setWorker, List.getElem?_set_self hlt, Option.some.injEq] at hfiled
      exact ⟨group, hgroup, hfiled ▸ hanswers⟩
    · simp only [finishGroup, takeGroup, setWorker, List.getElem?_set_ne heq] at hfiled
      exact h.filed i other hfiled
  · rcases mem_setWorker hmem with hmem | rfl
    · exact h.working w hmem
    · exact claimed_fits groups log s.nextGroupIndex
  · simp only [finishGroup, takeGroup, setWorker] at hi ⊢
    by_cases heq : index = i
    · subst heq
      exact .inl ⟨results, List.getElem?_set_self hlt⟩
    · by_cases hlast : i = s.nextGroupIndex
      · exact .inr ⟨_, List.mem_set (List.getElem?_eq_some_iff.1 hget).1 _, hlast ▸ claimed_index hlength⟩
      · rcases h.covered hnone i (by omega) hlength with ⟨other, hfiled⟩ | ⟨w, hmem, hw⟩
        · exact .inl ⟨other, by rw [List.getElem?_set_ne heq, hfiled]⟩
        · refine .inr ⟨w, setWorker_keeps hget hmem ?_, hw⟩
          rintro rfl
          rw [hindex] at hw
          exact heq (Option.some.inj hw)
  · rcases mem_setWorker hdone with hdone | heq
    · exact Nat.le_succ_of_le (h.done hdone)
    · exact Nat.le_succ_of_le (claimed_done heq.symm)
  · rcases mem_setWorker hfailed with hfailed | heq
    · exact h.failed hfailed
    · exact absurd heq.symm (claimed_ne_failed _)

/-- A worker with a group that opens. -/
structure HasGroup (opens : String → Except OpenError Selector) (groups : List Group) (log : List Event) (s : Batch)
    (worker index : Nat) (task : Task) (rest : List String) (results : List Item) : Prop where
  get : s.workers[worker]? = some (.group index task rest results)
  fits : Worker.Fits opens groups log (.group index task rest results)

theorem Sound.hasGroup (h : Sound opens groups concurrency permits log s) {index : Nat} {task : Task} {rest : List String}
    {results : List Item} (hget : s.workers[worker]? = some (.group index task rest results)) :
    HasGroup opens groups log s worker index task rest results :=
  ⟨hget, h.working _ (List.mem_of_getElem? hget)⟩

/-- The next permit, or the next group. -/
theorem Sound.nextPermit (h : Sound opens groups concurrency permits log s) (hget : s.workers[worker]? = some old) {index : Nat}
    (hindex : old.index = some index) {group : Group} (hgroup : groups[index]? = some group) {stdId : String}
    (hstdId : group.stdId = some stdId) {rest answered : List String} {results : List Item}
    (hpermits : group.permits = answered ++ rest) (hanswers : Answers opens log answered results)
    (honce : ∀ permit, rest.count permit ≤ old.pending.count permit) :
    Sound opens groups concurrency permits log (nextPermit groups s worker index rest results) := by
  cases rest with
  | nil =>
    rw [List.append_nil] at hpermits
    exact h.finish hget hindex hgroup (hpermits ▸ hanswers)
  | cons permit rest =>
    have hfits : Worker.Fits opens groups log (.group index (.preparing permit) rest results) :=
      ⟨trivial, group, stdId, hgroup, hstdId, answered, by simpa [Task.current] using hpermits, hanswers⟩
    have hput := h.put hget (hindex ▸ rfl) (by simp [Worker.index]) (hfits.mono []) fun permit => by
      simpa [presented, Worker.pending] using honce permit
    rwa [List.append_nil] at hput

/-- A permit is settled: with an item, or the worker ends. -/
theorem Sound.settlePermit (h : Sound opens groups concurrency permits log s) {index : Nat} {task : Task} {rest : List String}
    {results : List Item} (hgroup : HasGroup opens groups log s worker index task rest results) {permit : String}
    (hcurrent : task.current = [permit]) {result : Except Thrown String}
    (hresult : ∀ html, result = .ok html → Fetched opens log permit html) :
    Sound opens groups concurrency permits log (settlePermit groups s worker index permit rest results result) := by
  obtain ⟨hget, -, group, stdId, hget', hstdId, answered, hpermits, hanswers⟩ := hgroup
  rw [hcurrent] at hpermits
  have honce : ∀ other, rest.count other ≤ (Worker.group index task rest results).pending.count other := by
    intro other
    cases task with
    | preparing _ => exact List.count_le_count_cons
    | permitting | warming | consuming _ | leased _ _ _ => exact Nat.le_refl _
  unfold CrossDetail.settlePermit
  cases result with
  | ok html =>
    have hgenuine : Item.Genuine opens log { permit, result := .ok html } := by
      refine ⟨fun other heq => ?_, fun heq => by cases heq⟩
      cases heq
      exact hresult html rfl
    exact h.nextPermit hget rfl hget' hstdId hpermits (hanswers.concat hgenuine) honce
  | error error =>
    cases herror : isCrossDetailItemError error with
    | none =>
      simp only [herror]
      exact h.fail hget error
    | some code =>
      simp only [herror]
      have hgenuine : Item.Genuine opens log { permit, result := .error code } :=
        ⟨fun other heq => (by cases heq), fun heq => isItemError_ne_busy herror (ItemResult.error.inj heq)⟩
      exact h.nextPermit hget rfl hget' hstdId hpermits (hanswers.concat hgenuine) honce

/-- The leases of the store are no concern of `Sound`. -/
theorem Sound.store (h : Sound opens groups concurrency permits log s) (leases : List Nat) (nextLease : Nat) :
    Sound opens groups concurrency permits log { s with leases, nextLease } :=
  ⟨h.once, h.size, h.width, h.filed, h.working, h.covered, h.done, h.failed, h.returned⟩

/-- A worker that keeps its permit. -/
theorem Sound.move (h : Sound opens groups concurrency permits log s) {index : Nat} {task next : Task} {rest : List String}
    {results : List Item} (hgroup : HasGroup opens groups log s worker index task rest results) {events : List Event}
    (hcurrent : next.current = task.current) (hfits : next.Fits opens (log ++ events) results)
    (honce : ∀ permit, (presented events).count permit + (Worker.group index next rest results).pending.count permit ≤
      (Worker.group index task rest results).pending.count permit) :
    Sound opens groups concurrency permits (log ++ events) (setWorker s worker (.group index next rest results)) := by
  obtain ⟨hget, -, group, stdId, hget', hstdId, answered, hpermits, hanswers⟩ := hgroup
  refine h.put hget (by rfl) (by simp [Worker.index]) ⟨hfits, group, stdId, hget', hstdId, answered, ?_, hanswers.mono events⟩ honce
  rwa [hcurrent]

/-! ### One turn -/

theorem Sound.responded (h : Sound opens groups concurrency permits log s) {index lease : Nat} {permit : String} {stage : Stage}
    {rest : List String} {results : List Item}
    (hgroup : HasGroup opens groups log s worker index (.leased permit lease stage) rest results) (result : Except Thrown String) :
    let next := responded opens s worker index permit lease stage rest results result
    Sound opens groups concurrency permits (log ++ next.1) next.2 := by
  have hgoes : ∀ (stage' : Stage) (events : List Event), presented events = [] → stage'.Fits opens (log ++ events) permit →
      Sound opens groups concurrency permits (log ++ events)
        (setWorker s worker (.group index (.leased permit lease stage') rest results)) := by
    intro stage' events hquiet hfits
    exact h.move hgroup rfl hfits fun other => by simp [hquiet, Worker.pending]
  unfold CrossDetail.responded
  cases hopens : opens permit with
  | error error => exact h.quiet rfl
  | ok selector =>
    have hfetched : ∀ html, Fetched opens (log ++ [.fetched selector html]) permit html := fun html => ⟨selector, hopens, by simp⟩
    simp only
    split
    · exact hgoes _ _ rfl (hfetched _)
    · exact hgoes _ _ rfl (hfetched _)
    · exact hgoes _ _ rfl trivial
    · exact hgoes _ _ rfl trivial
    · exact hgoes _ _ rfl trivial
    · exact h.quiet rfl
    · exact hgoes _ _ rfl trivial

theorem Sound.consumed (h : Sound opens groups concurrency permits log s) {index : Nat} {permit : String} {rest : List String}
    {results : List Item} (hgroup : HasGroup opens groups log s worker index (.consuming permit) rest results) (verdict : Verdict) :
    let next := consumed opens groups concurrency s worker index permit rest results verdict
    Sound opens groups concurrency permits (log ++ next.1) next.2 := by
  have hthrows : ∀ code events, presented events = [] → Sound opens groups concurrency permits (log ++ events)
      (CrossDetail.settlePermit groups s worker index permit rest results (.error (.hyeboard code))) := by
    intro code events hquiet
    have hno : ∀ html, (Except.error (.hyeboard code) : Except Thrown String) = .ok html → Fetched opens log permit html :=
      fun html heq => by cases heq
    exact (h.settlePermit hgroup rfl hno).quiet hquiet
  have hleased : ∀ events, presented events = [] → Sound opens groups concurrency permits (log ++ events)
      (setWorker { s with leases := s.nextLease :: s.leases, nextLease := s.nextLease + 1 } worker
        (.group index (.leased permit s.nextLease .detail) rest results)) := by
    intro events hquiet
    have hstore := h.store (s.nextLease :: s.leases) (s.nextLease + 1)
    exact hstore.move ⟨hgroup.get, hgroup.fits⟩ rfl trivial fun other => by simp [hquiet, Worker.pending]
  unfold CrossDetail.consumed
  cases verdict with
  | invalid => exact hthrows "VNU_CROSS_DETAIL_PERMIT_INVALID" [] rfl
  | budget => exact hthrows "VNU_RATE_LIMITED" [] rfl
  | unavailable => exact hthrows "VNU_PROBE_BUDGET_UNAVAILABLE" [] rfl
  | allowed =>
    simp only
    split
    · exact hthrows "VNU_CROSS_LOOKUP_BUSY" [.busy] rfl
    · cases hopens : opens permit with
      | ok selector => exact hleased _ rfl
      | error error => exact hleased _ rfl

/-- The warm-up of a group fails. -/
theorem Sound.warmFailed (h : Sound opens groups concurrency permits log s) {index : Nat} {task : Task} {rest : List String}
    {results : List Item} (hget : s.workers[worker]? = some (.group index task rest results)) (htask : task.current = [])
    (hfits : Worker.Fits opens groups log (.group index task rest results)) (error : Thrown) :
    let next := match isCrossDetailItemError error with
      | some errorCode =>
        (([] : List Event), finishGroup groups s worker index (rest.map fun permit => { permit, result := .error errorCode }))
      | none => ([], CrossDetail.fail s worker error)
    Sound opens groups concurrency permits (log ++ next.1) next.2 := by
  obtain ⟨htask', group, stdId, hgroup, -, answered, hpermits, hanswers⟩ := hfits
  obtain rfl : results = [] := by
    cases task with
    | permitting | warming => exact htask'
    | preparing _ | consuming _ | leased _ _ _ => cases htask
  obtain rfl : answered = [] := hanswers.permits.symm
  obtain rfl : group.permits = rest := by rw [hpermits, htask]; rfl
  cases herror : isCrossDetailItemError error with
  | none => exact (h.fail hget error).quiet rfl
  | some code =>
    exact (h.finish hget rfl hgroup (answers_errors group.permits (fun _ => code) fun _ => isItemError_ne_busy herror)).quiet rfl

theorem Sound.act (h : Sound opens groups concurrency permits log s) (action : Action) :
    let next := act opens groups concurrency s worker action
    Sound opens groups concurrency permits (log ++ next.1) next.2 := by
  unfold CrossDetail.act
  simp only
  split
  case h_1 index members hget =>
    obtain ⟨group, hgroup, -, rfl⟩ := h.working _ (List.mem_of_getElem? hget)
    exact (h.finish hget rfl hgroup (answers_errors group.permits (invalidCode opens) invalidCode_ne_busy)).quiet rfl
  case h_2 index rest results hget =>
    have hgroup := h.hasGroup hget
    refine h.move hgroup rfl hgroup.fits.1 fun permit => ?_
    split <;> simp [Worker.pending]
  case h_3 index rest results error hget => exact h.warmFailed hget rfl (h.hasGroup hget).fits error
  case h_4 index rest results error hget => exact h.warmFailed hget rfl (h.hasGroup hget).fits error
  case h_5 index rest results hget =>
    obtain ⟨-, group, stdId, hget', hstdId, answered, hpermits, hanswers⟩ := (h.hasGroup hget).fits
    have hall : group.permits = answered ++ rest := by simpa [Task.current] using hpermits
    exact (h.nextPermit hget rfl hget' hstdId hall hanswers fun permit => Nat.le_refl _).quiet rfl
  case h_6 index permit rest results hget =>
    refine h.move (h.hasGroup hget) rfl trivial fun other => ?_
    simp only [presented_presented, Worker.pending, List.count_cons, List.count_nil]
    omega
  case h_7 index permit rest results error hget =>
    have hno : ∀ html, (Except.error error : Except Thrown String) = .ok html → Fetched opens log permit html :=
      fun html heq => by cases heq
    exact (h.settlePermit (h.hasGroup hget) rfl hno).quiet rfl
  case h_8 index permit rest results verdict hget => exact h.consumed (h.hasGroup hget) verdict
  case h_9 index permit lease result rest results ok hget =>
    have hgroup := h.hasGroup hget
    have hfetched : ∀ html, result = .ok html → Fetched opens log permit html := by
      rintro html rfl
      exact hgroup.fits.1
    unfold CrossDetail.released
    cases ok with
    | true =>
      have hstore := h.store (s.leases.filter (· != lease)) s.nextLease
      exact (hstore.settlePermit ⟨hgroup.get, hgroup.fits⟩ rfl hfetched).quiet rfl
    | false => exact (h.settlePermit hgroup rfl hfetched).quiet rfl
  case h_10 => exact h.responded (h.hasGroup ‹_›) _
  case h_11 => exact h.quiet rfl

/-! ### The answer -/

theorem answers_of_each {f : String → Option Item} (l : List String)
    (h : ∀ permit ∈ l, ∃ item, f permit = some item ∧ item.permit = permit ∧ item.Genuine opens log) :
    ∃ answered, l.map f = answered.map some ∧ Answers opens log l answered := by
  induction l with
  | nil => exact ⟨[], rfl, .nil⟩
  | cons permit rest ih =>
    rw [List.forall_mem_cons] at h
    obtain ⟨⟨item, hitem, hpermit, hgenuine⟩, hrest⟩ := h
    obtain ⟨answered, heq, hanswers⟩ := ih hrest
    refine ⟨item :: answered, by rw [List.map_cons, hitem, heq, List.map_cons], ?_, List.forall_mem_cons.2 ⟨hgenuine, hanswers.genuine⟩⟩
    rw [List.map_cons, hpermit, hanswers.permits]

/-- Once every worker is done, every permit has its item. -/
theorem Sound.itemOf (h : Sound opens groups concurrency permits log s) (hconcurrency : 0 < concurrency)
    (hnone : s.failure = none) (hdone : ∀ w ∈ s.workers, w = .done) {group : Group} (hgroup : group ∈ groups) {permit : String}
    (hmem : permit ∈ group.permits) :
    ∃ item, itemOf s permit = some item ∧ item.permit = permit ∧ item.Genuine opens log := by
  obtain ⟨i, hget⟩ := List.mem_iff_getElem?.1 hgroup
  have hlt : i < groups.length := (List.getElem?_eq_some_iff.1 hget).1
  -- some worker found no more groups
  have hnext : groups.length ≤ s.nextGroupIndex := by
    cases hworkers : s.workers with
    | nil =>
      have hwidth := h.width
      rw [hworkers, List.length_nil] at hwidth
      omega
    | cons first rest =>
      have hfirst : first ∈ s.workers := hworkers ▸ List.mem_cons_self
      exact h.done (hdone first hfirst ▸ hfirst)
  obtain ⟨results, hfiled⟩ : ∃ results, s.groupResults[i]? = some (some results) := by
    rcases h.covered hnone i (Nat.lt_of_lt_of_le hlt hnext) hlt with hfiled | ⟨w, hw, hindex⟩
    · exact hfiled
    · rw [hdone w hw] at hindex
      cases hindex
  have hitems : ∀ item ∈ s.groupResults.flatMap (·.getD []), item.Genuine opens log := by
    intro item hitem
    obtain ⟨filed, hmem, hitem⟩ := List.mem_flatMap.1 hitem
    cases filed with
    | none => cases hitem
    | some results =>
      obtain ⟨j, hj⟩ := List.mem_iff_getElem?.1 hmem
      obtain ⟨_, -, hanswers⟩ := h.filed j results hj
      exact hanswers.genuine item hitem
  obtain ⟨other, hother, hanswers⟩ := h.filed i results hfiled
  obtain rfl : group = other := Option.some.inj (hget.symm.trans hother)
  rw [← hanswers.permits, List.mem_map] at hmem
  obtain ⟨item, hitem, hpermit⟩ := hmem
  have hin : item ∈ s.groupResults.flatMap (·.getD []) := List.mem_flatMap.2 ⟨_, List.mem_of_getElem? hfiled, hitem⟩
  cases hfind : (s.groupResults.flatMap (·.getD [])).reverse.find? (·.permit = permit) with
  | none =>
    rw [List.find?_eq_none] at hfind
    exact absurd (decide_eq_true hpermit) (hfind item (List.mem_reverse.2 hin))
  | some found =>
    have hfound := List.mem_reverse.1 (List.mem_of_find?_eq_some hfind)
    exact ⟨found, hfind, by simpa using List.find?_some hfind, hitems found hfound⟩

theorem Sound.settles (h : Sound opens groups concurrency permits log s) (hconcurrency : 0 < concurrency)
    (hgroups : ∀ permit ∈ permits, ∃ group ∈ groups, permit ∈ group.permits) :
    Sound opens groups concurrency permits log (settles permits s) := by
  unfold CrossDetail.settles
  split
  · exact h
  · split
    · exact ⟨h.once, h.size, h.width, h.filed, h.working, h.covered, h.done, h.failed, fun items heq => by cases heq⟩
    case h_2 hnone =>
      split
      case isFalse => exact h
      case isTrue hall =>
        have hdone : ∀ w ∈ s.workers, w = .done := by simpa using hall
        refine ⟨h.once, h.size, h.width, h.filed, h.working, h.covered, h.done, h.failed, fun items heq => ?_⟩
        obtain rfl := Except.ok.inj (Option.some.inj heq)
        refine answers_of_each permits fun permit hmem => ?_
        obtain ⟨group, hgroup, hin⟩ := hgroups permit hmem
        exact h.itemOf hconcurrency hnone hdone hgroup hin

theorem Sound.step (h : Sound opens groups concurrency permits log s) (hconcurrency : 0 < concurrency)
    (hgroups : ∀ permit ∈ permits, ∃ group ∈ groups, permit ∈ group.permits) (turn : Turn) :
    Sound opens groups concurrency permits (log ++ (step opens groups concurrency permits s turn).1)
      (step opens groups concurrency permits s turn).2 := by
  cases turn with
  | worker worker action => exact h.act action
  | expires lease => exact (h.store (s.leases.filter (· != lease)) s.nextLease).quiet rfl
  | settles => exact (h.settles hconcurrency hgroups).quiet rfl

/-! ### Runs -/

theorem start_pending (groups : List Group) (permit : String) (count : Nat) :
    (((List.range count).map (claimed groups)).map fun worker => worker.pending.count permit).sum +
      ((groups.drop count).flatMap (·.permits)).count permit ≤ (groups.flatMap (·.permits)).count permit := by
  induction count with
  | zero => simp
  | succ count ih =>
    have hclaimed := claimed_pending groups count permit
    rw [List.range_succ, List.map_append, List.map_append, List.sum_append]
    simp only [List.map_cons, List.map_nil, List.sum_cons, List.sum_nil, Nat.add_zero]
    omega

end

section
variable {opens : String → Except OpenError Selector} {concurrency : Nat} {permits : List String}

theorem sound_start :
    Sound opens (groupsOf opens permits) concurrency permits [] (start opens concurrency permits) := by
  have hcount : min concurrency (groupsOf opens permits).length ≤ (groupsOf opens permits).length := Nat.min_le_right _ _
  refine ⟨fun permit => ?_, ?_, ?_, fun i results hget => ?_, fun w hmem => ?_, fun _ i hi hlt => ?_, fun hdone => ?_, fun hfailed => ?_,
    fun items heq => by cases heq⟩
  · have hcount : ((groupsOf opens permits).flatMap (·.permits)).count permit = permits.count permit := count_groupsOf permits permit
    rw [← hcount]
    have hpending := start_pending (groupsOf opens permits) permit (min concurrency (groupsOf opens permits).length)
    simpa [Batch.presentations, start] using hpending
  · simp [start]
  · simp [start]
  · simp [start, List.getElem?_replicate] at hget
  · obtain ⟨i, -, rfl⟩ := List.mem_map.1 hmem
    exact claimed_fits _ _ i
  · exact .inr ⟨_, List.mem_map_of_mem (List.mem_range.2 hi), claimed_index hlt⟩
  · obtain ⟨i, hi, hclaimed⟩ := List.mem_map.1 hdone
    have hlength := claimed_done hclaimed
    exact absurd (List.mem_range.1 hi) (by omega)
  · obtain ⟨i, -, hclaimed⟩ := List.mem_map.1 hfailed
    exact absurd hclaimed (claimed_ne_failed i)

theorem mem_groupsOf {permit : String} (h : permit ∈ permits) : ∃ group ∈ groupsOf opens permits, permit ∈ group.permits := by
  have hcount : 0 < ((groupsOf opens permits).flatMap (·.permits)).count permit := by
    rw [count_groupsOf]
    exact List.count_pos_iff.2 h
  exact List.mem_flatMap.1 (List.count_pos_iff.1 hcount)

variable {trace : List (Step Batch Turn (List Event))} {s : Batch} {clock : Nat}

theorem sound_run (h : BatchRun opens concurrency permits trace s clock) (hconcurrency : 0 < concurrency) :
    Sound opens (groupsOf opens permits) concurrency permits (emitted trace) s := by
  refine h.invariant (fun trace s _ => Sound opens (groupsOf opens permits) concurrency permits (emitted trace) s) sound_start ?_
  intro trace s clock turn _ hsound _ _
  rw [emitted_snoc]
  exact hsound.step hconcurrency (fun permit => mem_groupsOf) turn

end

end Hyeboard.CrossDetail
