import Hyeboard.Lib.Transactions
import Hyeboard.VnuRefresh.PostgresCoordinator
/-!
# Sessions of the PostgreSQL coordinator

Replicas run their transactions at the same time. Each takes
`pg_advisory_xact_lock(hashtextextended(principalKey, 0))` before its first
`SELECT`, so however their statements interleave, and whatever sessions are
lost on the way, the coordinators answer as the principals' durable objects do
when they are called in the order of the commits.
-/

namespace Hyeboard.VnuRefresh.Postgres

open Redis Transactions

/-- What a transaction is started with. -/
structure Request where
  principalKey : String
  operation : Operation

/-- What it finds besides the rows: the clock, and the order they come in. -/
structure Reading where
  now : Nat
  scan : Scan

def callOf (call : Request × Reading × Commit) : CoordinatorCall :=
  { principalKey := call.1.principalKey, operation := call.1.operation, now := call.2.1.now, scan := call.2.1.scan
    commit := call.2.2 }

/-! ## Writes touch one principal's rows -/

section
variable {db next : Database} {key other : String} {state : VnuRefreshControlState}

theorem SameRows.symm (h : SameRows db next key) : SameRows next db key := ⟨h.principal.symm, h.tombstones.symm⟩

theorem SameRows.trans {db' : Database} (h : SameRows db db' key) (h' : SameRows db' next key) : SameRows db next key :=
  ⟨h.principal.trans h'.principal, h.tombstones.trans h'.tombstones⟩

theorem foldlM_keeps {S α ε : Type} {f : S → α → Except ε S} {I : S → Prop} (hstep : ∀ s a s', f s a = .ok s' → I s → I s')
    {l : List α} {s s' : S} (h : l.foldlM f s = .ok s') (hs : I s) : I s' := by
  induction l generalizing s with
  | nil =>
    cases h
    exact hs
  | cons a rest ih =>
    rw [List.foldlM_cons, bind_eq_ok] at h
    obtain ⟨next, hnext, hrest⟩ := h
    exact ih hrest (hstep s a next hnext hs)

theorem insertTombstone_others {row : TombstoneRow Nat} (h : db.insertTombstone key row = .ok next) (hne : other ≠ key) :
    SameRows next db other := by
  simp only [Database.insertTombstone, bind_eq_ok, pure_eq_ok] at h
  obtain ⟨_, -, _, -, _, -, rfl⟩ := h
  refine ⟨rfl, ?_⟩
  simp [Database.tombstonesOf, Ne.symm hne]

theorem saveState_others (h : saveState db key state = .ok next) (hne : other ≠ key) : SameRows next db other := by
  simp only [saveState, bind_eq_ok] at h
  obtain ⟨put, hput, inserted, haccess, hgrants⟩ := h
  have hcleared : SameRows (put.deleteTombstones key) db other := by
    simp only [Database.putPrincipal, bind_eq_ok, pure_eq_ok] at hput
    obtain ⟨_, -, rfl⟩ := hput
    refine ⟨Record.get?_set_of_ne _ _ hne, ?_⟩
    rw [tombstonesOf_delete, if_neg hne]
    rfl
  have hinserted : SameRows inserted db other :=
    foldlM_keeps (fun s e s' hs => (insertTombstone_others hs hne).trans) haccess hcleared
  apply foldlM_keeps _ hgrants hinserted
  intro s e s' hs
  split at hs
  · cases hs
  · exact (insertTombstone_others hs hne).trans

theorem writeOutput_others {output : TransitionOutput OperationResult} (h : writeOutput db key output = .ok next)
    (hne : other ≠ key) : SameRows next db other := by
  unfold writeOutput at h
  split at h
  · split at h
    · cases h
      exact (deletePrincipal_rows db key).2 other hne
    · exact saveState_others h hne
  · cases h
    exact .refl db other

theorem finish_others (db : Database) (computed : Except String (TransitionOutput OperationResult)) (commit : Commit)
    (hne : other ≠ key) : SameRows (finish db key computed commit).2 db other := by
  unfold finish
  split
  · exact .refl db other
  · split
    · exact .refl db other
    · rename_i next hwrite
      cases commit with
      | done => exact writeOutput_others hwrite hne
      | lost => exact writeOutput_others hwrite hne
      | failed => exact .refl db other

end

/-! ## The coordinator's transactions -/

/-- Principals whose keys have the same hash share a lock. -/
def transactions (hashtextextended : String → Nat) : Transactions Database Request Reading
    (Except String (TransitionOutput OperationResult)) Commit (Except String OperationResult) Nat where
  lock request := hashtextextended request.principalKey
  plan db request reading := compute db (callOf (request, reading, .done))
  commit db request := finish db request.principalKey
  Agree lock db db' := ∀ key, hashtextextended key = lock → SameRows db db' key
  plan_of_agree := by
    intro db db' request reading h
    unfold compute
    rw [(h (callOf (request, reading, .done)).principalKey rfl).loadState]
  commit_agree := by
    rintro lock db request output commit hlock key rfl
    apply finish_others
    rintro rfl
    exact hlock rfl

variable {hashtextextended : String → Nat}

/-- Nothing between lock and commit: a call as the coordinator makes it. -/
theorem atomic_eq (db : Database) (call : Request × Reading × Commit) (harguments : call.1.operation.ArgumentsValid)
    (hkey : isPrincipalKey call.1.principalKey = true) :
    (transactions hashtextextended).atomic db call = coordinate db (callOf call) := by
  have harguments : (callOf call).operation.ArgumentsValid := harguments
  have hkey : isPrincipalKey (callOf call).principalKey = true := hkey
  unfold coordinate transition
  rw [arguments_accepted harguments, hkey]
  rfl

/-- The transactions a replica starts: a method of the coordinator with
well-formed arguments. -/
structure Request.Made (request : Request) : Prop where
  method : request.operation ≠ .alarm
  arguments : request.operation.ArgumentsValid
  principal : isPrincipalKey request.principalKey = true

abbrev CoordinatorRun (hashtextextended : String → Nat) := SessionRun (transactions hashtextextended) Request.Made
  (fun reading => reading.now ≤ maxTimeValue) Database.empty

variable (hashtextextended) in
/-- Calls made one after another, to the tables alone and next to the objects. -/
theorem execute_atomic {calls : List (Request × Reading × Commit)} (h : ∀ call ∈ calls, call.1.Made) (both : Both) :
    (execute (transactions hashtextextended).atomic both.database calls).map (·.result) =
        (execute serveBoth both (calls.map callOf)).map (·.result.1) ∧
      stateAfter (transactions hashtextextended).atomic both.database calls =
        (stateAfter serveBoth both (calls.map callOf)).database := by
  induction calls generalizing both with
  | nil => exact ⟨rfl, rfl⟩
  | cons call rest ih =>
    rw [List.forall_mem_cons] at h
    have hcall : (transactions hashtextextended).atomic both.database call = coordinate both.database (callOf call) :=
      atomic_eq both.database call h.1.arguments h.1.principal
    have hdatabase : ((transactions hashtextextended).atomic both.database call).2 = (serveBoth both (callOf call)).2.database :=
      congrArg Prod.snd hcall
    obtain ⟨hresults, hstate⟩ := ih h.2 (serveBoth both (callOf call)).2
    rw [← hdatabase] at hresults hstate
    refine ⟨?_, hstate⟩
    rw [execute, List.map_cons, List.map_cons, execute, List.map_cons, hresults]
    exact congrArg (· :: _) (congrArg Prod.fst hcall)

/-- Whatever the interleaving, the answers are those of the principals' durable
objects, called in the order of the commits, and so are the records. -/
theorem sessions_refine_durable_objects {trace : List _} {sessions : System Database Request Reading _ Nat} {clock : Nat}
    (h : CoordinatorRun hashtextextended trace sessions clock) :
    ∃ steps both clock', BothRun steps both clock' ∧ steps.map (·.call) = (committed trace).map (fun e => callOf e.1) ∧
      (committed trace).map Prod.snd =
        steps.map (fun e => if e.call.commit = .done then e.result.2 else .error vnuRefreshUnavailable) ∧
      ∀ key, Holds sessions.store key (both.objects key).state := by
  obtain ⟨hanswers, hstore⟩ := serializable (fun _ db key _ => .refl db key) h
  have hmade := committed_satisfies h
  have hrequests : ∀ call ∈ (committed trace).map Prod.fst, call.1.Made ∧ call.2.1.now ≤ maxTimeValue := by
    intro call hcall
    obtain ⟨answered, hmem, rfl⟩ := List.mem_map.1 hcall
    exact hmade answered hmem
  obtain ⟨hresults, hstate⟩ := execute_atomic hashtextextended (fun call hcall => (hrequests call hcall).1) Both.empty
  have hstart : BothRun [] Both.empty 0 := .start
  have hsorted : ∀ calls : List CoordinatorCall, (0 :: calls.map fun _ => 0).Pairwise (· ≤ ·) := fun calls =>
    List.pairwise_cons.2 ⟨fun _ _ => Nat.zero_le _, List.pairwise_map.2 (List.pairwise_of_forall fun _ _ => Nat.le_refl 0)⟩
  obtain ⟨clock', hrun⟩ := hstart.follow (((committed trace).map Prod.fst).map callOf) (hsorted _) (by
    intro e he pre
    obtain ⟨call, hcall, heq⟩ := List.mem_map.1 (Run.call_mem_of_execute he)
    obtain ⟨⟨hmethod, harguments, hprincipal⟩, hclock⟩ := hrequests call hcall
    rw [← heq]
    exact ⟨hmethod, harguments, hprincipal, hclock⟩)
  rw [List.nil_append] at hrun
  obtain ⟨hrefines, halike⟩ := postgres_refines_durable_objects hrun
  refine ⟨_, _, clock', hrun, ?_, ?_, ?_⟩
  · rw [calls_execute, List.map_map]
    rfl
  · rw [hanswers]
    exact hresults.trans (List.map_congr_left hrefines)
  · rw [hstore.trans hstate]
    exact halike

/-! ## A run -/

/-- Two sessions wait while a third activates a pair; one of them is lost with
the lock, and the other then takes it. -/
def sampleEvents : List (Event Request Reading Commit) :=
  [.start 1 ⟨sampleKey, .activatePair oldPair⟩, .acquire 1, .start 2 ⟨sampleKey, .beginRefresh oldPair⟩, .acquire 2,
    .start 3 ⟨sampleKey, .checkAccess oldPair⟩, .read 1 ⟨testNow, reversed⟩, .acquire 3, .commit 1 .done, .acquire 3,
    .read 3 ⟨testNow + 1, reversed⟩, .acquire 2, .drop 3, .acquire 2, .read 2 ⟨testNow + 2, reversed⟩, .commit 2 .done]

abbrev sampleSteps := execute (step (transactions String.length)) (System.start Database.empty) sampleEvents

theorem sampleEvents_satisfy :
    ∀ event ∈ sampleEvents, event.Satisfies Request.Made fun reading => reading.now ≤ maxTimeValue := by
  have hkey : isPrincipalKey sampleKey = true := by decide +kernel
  have hmade : ∀ {operation : Operation}, operation ≠ .alarm → operation.pairs = [oldPair] →
      Request.Made ⟨sampleKey, operation⟩ := by
    intro operation hmethod hpairs
    refine ⟨hmethod, samplePairs_valid ?_, hkey⟩
    simp [hpairs]
  have hclock : testNow + 2 ≤ maxTimeValue := by decide
  simp only [sampleEvents, List.forall_mem_cons, Event.Satisfies]
  refine ⟨hmade nofun rfl, trivial, hmade nofun rfl, trivial, hmade nofun rfl, ?_, trivial, trivial, trivial, ?_, trivial,
    trivial, trivial, hclock, trivial, nofun⟩
  · exact Nat.le_trans (Nat.le_add_right _ _) hclock
  · exact Nat.le_trans (Nat.le_succ _) hclock

theorem sessions_refine_durable_objects_sample :
    ∃ steps both clock, BothRun steps both clock ∧
      steps.map (·.call.operation) = [.activatePair oldPair, .beginRefresh oldPair] ∧
      (committed sampleSteps).map Prod.snd =
        steps.map fun e => if e.call.commit = .done then e.result.2 else .error vnuRefreshUnavailable := by
  have hstart : CoordinatorRun String.length [] (System.start Database.empty) 0 := .start
  obtain ⟨clock, hrun⟩ := hstart.follow sampleEvents (by decide)
    fun e he _ => sampleEvents_satisfy e.call (Run.call_mem_of_execute he)
  rw [List.nil_append] at hrun
  obtain ⟨steps, both, clock', hboth, hcalls, hanswers, -⟩ := sessions_refine_durable_objects hrun
  refine ⟨steps, both, clock', hboth, ?_, hanswers⟩
  have hoperations : steps.map (·.call.operation) = ((committed sampleSteps).map fun e => callOf e.1).map (·.operation) := by
    rw [← hcalls, List.map_map]
    rfl
  rw [hoperations]
  decide +kernel

end Hyeboard.VnuRefresh.Postgres
