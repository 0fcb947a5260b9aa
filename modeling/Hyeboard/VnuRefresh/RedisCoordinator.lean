import Hyeboard.VnuRefresh.DurableObject
/-!
# The Redis coordinator, one call at a time

`apps/worker/src/node/redis/vnu-refresh-coordinator.ts` keeps the record of a
principal under one key that Redis removes at the record's earliest expiry. Run
serially against the durable object, it gives the same answers as long as no
call finds the key gone while something of the record still counted.
-/

namespace Hyeboard.VnuRefresh.Redis

/-- The principal's key: what was set, and when its time to live ends. -/
structure StoredKey where
  state : VnuRefreshControlState
  expiresAt : Nat
deriving DecidableEq

/-- The key as Redis sees it at `now`. -/
def live (key : Option StoredKey) (now : Nat) : Option StoredKey := key.filter fun stored => now < stored.expiresAt

/-- The clock readings of one pass through the retry loop: at each command it
sends, and at each `Date.now()` (the two of the time to live are one here). -/
structure Attempt where
  watchAt : Nat
  getAt : Nat
  now : Nat
  ttlAt : Nat
  execAt : Nat
deriving DecidableEq

def vnuRefreshUnavailable : String := "VNU_REFRESH_UNAVAILABLE"

def timeToLive (state : VnuRefreshControlState) (now : Nat) : Nat :=
  max 1 ((nextVnuRefreshAlarm state).getD (now + 86400000) - now)

/-- A watched key that lapses before EXEC aborts it. -/
def Attempt.Lapses (pass : Attempt) (key : Option StoredKey) : Prop :=
  (live key pass.watchAt).isSome = true ∧ live key pass.execAt = none

instance (pass : Attempt) (key : Option StoredKey) : Decidable (pass.Lapses key) :=
  inferInstanceAs (Decidable (_ ∧ _))

/-- One pass: the answer and the key it leaves, or `none` when it is to be
retried. -/
def attempt (key : Option StoredKey) (operation : Operation) (pass : Attempt) :
    Except String (Option (OperationResult × Option StoredKey)) := do
  let raw := live key pass.getAt
  let stored ← parseVnuRefreshControlState (rawState (raw.map (·.state)))
  let output ← applyOperation operation stored pass.now
  if !output.changed then
    return some (output.result, raw)
  if pass.Lapses key then
    return none
  if isQuiescentVnuRefreshState output.state then
    return some (output.result, none)
  return some (output.result,
    some { state := output.state, expiresAt := pass.execAt + timeToLive output.state pass.ttlAt })

/-- The retry loop, over the readings of its attempts. -/
def transition (key : Option StoredKey) (operation : Operation) :
    List Attempt → Except String (OperationResult × Option StoredKey)
  | [] => .error "Redis refresh transaction contention"
  | next :: rest => do
    match ← attempt key operation next with
    | some answer => return answer
    | none => transition key operation rest

/-- A call and the readings of the attempts it may make. -/
structure RedisCall where
  operation : Operation
  attempts : List Attempt
deriving DecidableEq

/-- A method of the coordinator: the arguments are checked before the loop, and
whatever the loop throws becomes `vnuRefreshUnavailable`. -/
def coordinate (key : Option StoredKey) (call : RedisCall) : Except String OperationResult × Option StoredKey :=
  match call.operation.pairs.mapM fun pair => assertLinkedPair pair.toJs with
  | .error error => (.error error, key)
  | .ok _ =>
    match transition key call.operation call.attempts with
    | .ok (result, next) => (.ok result, next)
    | .error _ => (.error vnuRefreshUnavailable, key)

/-! ## Next to the durable object -/

/-- The attempt that ends the loop. -/
def answering (key : Option StoredKey) (operation : Operation) : List Attempt → Option Attempt
  | [] => none
  | next :: rest => if attempt key operation next = .ok none then answering key operation rest else some next

def RedisCall.answeredAt (call : RedisCall) (key : Option StoredKey) : Nat :=
  ((answering key call.operation call.attempts).map (·.now)).getD 0

/-- `DurableObjectVnuRefreshControlCoordinator.call` over `serve`. -/
def coordinateDurably (storage : Storage) (call : Call) : Except String OperationResult × Storage :=
  ((serve storage call).1.mapError fun _ => vnuRefreshUnavailable, (serve storage call).2)

structure Both where
  key : Option StoredKey
  storage : Storage
deriving DecidableEq

def Both.empty : Both := { key := none, storage := .empty }

/-- One call made to both, at the same reading of the clock. -/
def serveBoth (both : Both) (call : RedisCall) :
    (Except String OperationResult × Except String OperationResult) × Both :=
  let redis := coordinate both.key call
  let durable := coordinateDurably both.storage ⟨call.operation, call.answeredAt both.key⟩
  ((redis.1, durable.1), { key := redis.2, storage := durable.2 })

def Attempt.readings (pass : Attempt) : List Nat := [pass.watchAt, pass.getAt, pass.now, pass.ttlAt, pass.execAt]

/-- The calls a coordinator gets: one of its methods with well-formed pairs, at
readings that do not go back. -/
structure RedisCall.Made (maxAttempts : Nat) (call : RedisCall) : Prop where
  method : call.operation ≠ .alarm
  arguments : call.operation.ArgumentsValid
  attempts : call.attempts.length = maxAttempts
  ordered : (call.attempts.flatMap Attempt.readings).Pairwise (· ≤ ·)

def RedisCall.madeAt (call : RedisCall) : Nat := (call.attempts.map (·.watchAt)).headD 0

abbrev BothRun (ok : Both → RedisCall → Prop) (maxAttempts : Nat) :=
  Run serveBoth RedisCall.madeAt (fun _ both call => call.Made maxAttempts ∧ ok both call) Both.empty

/-! ## One pass -/

section
variable {key : Option StoredKey} {operation : Operation} {pass : Attempt}

/-- The record a pass reads. -/
def Attempt.reads (pass : Attempt) (key : Option StoredKey) : Option VnuRefreshControlState :=
  (live key pass.getAt).map (·.state)

/-- The key after a pass whose transition gave `output`. -/
def Attempt.leaves (pass : Attempt) (key : Option StoredKey) (output : TransitionOutput OperationResult) :
    Option StoredKey :=
  if output.changed then
    if isQuiescentVnuRefreshState output.state then none
    else some { state := output.state, expiresAt := pass.execAt + timeToLive output.state pass.ttlAt }
  else live key pass.getAt

/-- What follows the transition: the answer, the abort or the write. -/
theorem attempt_tail (output : TransitionOutput OperationResult) :
    (if !output.changed then
      return some (output.result, live key pass.getAt)
    else if pass.Lapses key then
      return none
    else if isQuiescentVnuRefreshState output.state then
      return some (output.result, none)
    else
      return some (output.result,
        some { state := output.state, expiresAt := pass.execAt + timeToLive output.state pass.ttlAt }) :
      Except String (Option (OperationResult × Option StoredKey))) =
      .ok (if output.changed ∧ pass.Lapses key then none else some (output.result, pass.leaves key output)) := by
  unfold Attempt.leaves
  cases output.changed with
  | false => simp
  | true =>
    by_cases hlapse : pass.Lapses key
    · simp [hlapse]
    · cases isQuiescentVnuRefreshState output.state <;> simp [hlapse]

theorem attempt_eq_ok {answer : Option (OperationResult × Option StoredKey)} :
    attempt key operation pass = .ok answer ↔
      SlotValid (pass.reads key) ∧ operation.ArgumentsValid ∧ operation.RotationOk (pass.reads key) ∧
        answer = if (operation.output (pass.reads key) pass.now).changed ∧ pass.Lapses key then none
          else some ((operation.output (pass.reads key) pass.now).result,
            pass.leaves key (operation.output (pass.reads key) pass.now)) := by
  have hread : ∀ {stored}, parseVnuRefreshControlState (rawState (pass.reads key)) = .ok stored ↔
      stored = pass.reads key ∧ SlotValid (pass.reads key) := parse_rawState
  unfold attempt
  simp only [bind_eq_ok]
  constructor
  · rintro ⟨stored, hs, output, ho, h⟩
    obtain ⟨rfl, hvalid⟩ := hread.1 hs
    obtain ⟨hargs, hrot, rfl⟩ := applyOperation_eq_ok.1 ho
    exact ⟨hvalid, hargs, hrot, (Except.ok.inj ((attempt_tail _).symm.trans h)).symm⟩
  · rintro ⟨hvalid, hargs, hrot, h⟩
    refine ⟨_, hread.2 ⟨rfl, hvalid⟩, _, applyOperation_eq_ok.2 ⟨hargs, hrot, rfl⟩, ?_⟩
    rw [h]
    exact attempt_tail _

end

/-! ## What a lapse may lose -/

/-- A record whose loss no answer shows: it can be read back, all of it has
expired, and the call neither activates its pair once more nor rotates into an
identifier among its tombstones. -/
structure NothingLost (operation : Operation) (state : VnuRefreshControlState) (now : Nat) : Prop where
  readable : state.Valid
  expired : cleanVnuRefreshState (some state) now = emptyState now
  activation : ∀ pair, operation = .activatePair pair → ¬ (state.active = some pair ∧ state.lease = none)
  rotation : ∀ old next, operation = .completeRefresh old next →
    state.revokedAccess.get? next.accessTokenId = none ∧ state.revokedGrants.get? next.grantId = none

/-- The slot of the durable object after a transition gave `output`. -/
def kept (slot : Option VnuRefreshControlState) (output : TransitionOutput OperationResult) :
    Option VnuRefreshControlState :=
  if output.changed then (Storage.write output.state).state else slot

section
variable {operation : Operation} {state : VnuRefreshControlState} {now : Nat}

theorem NothingLost.clean_eq (h : NothingLost operation state now) :
    cleanVnuRefreshState none now = cleanVnuRefreshState (some state) now := by
  rw [clean_none, h.expired]

theorem NothingLost.shortcut_eq (h : NothingLost operation state now) :
    operation.shortcut none now = operation.shortcut (some state) now := by
  cases operation with
  | activatePair pair =>
    have hpair := h.activation pair rfl
    simp [Operation.shortcut, hpair]
  | _ => rfl

theorem NothingLost.rotationOk_iff (h : NothingLost operation state now) :
    operation.RotationOk none ↔ operation.RotationOk (some state) := by
  cases operation with
  | completeRefresh old next =>
    have hnext := h.rotation old next rfl
    simp [Operation.RotationOk, hnext]
  | _ => exact Iff.rfl

/-- With the record gone the call is answered as with it, and what is written
is the same. -/
theorem NothingLost.answers_alike (h : NothingLost operation state now) (hrot : operation.RotationOk (some state)) :
    (operation.output none now).result = (operation.output (some state) now).result ∧
      ∀ next, kept none (operation.output none now) = some next →
        kept (some state) (operation.output (some state) now) = some next := by
  rcases output_cases operation (some state) now with ⟨result, hr⟩ | ⟨result, next, hs⟩ | hc
  · have hr' : operation.Refuses none now result := by
      unfold Operation.Refuses at hr ⊢
      rwa [h.shortcut_eq, h.clean_eq]
    rw [hr.output_eq, hr'.output_eq]
    refine ⟨rfl, ?_⟩
    intro next hnext
    cases hnext
  · have hs' : Stores none now operation result next := by
      apply stores_of_verdict
      · rw [h.shortcut_eq]
        exact hs.verdict.1
      · rw [h.clean_eq]
        exact hs.verdict.2
    rw [hs.output_eq hrot, hs'.output_eq (h.rotationOk_iff.2 hrot)]
    exact ⟨rfl, fun _ hnext => hnext⟩
  · obtain ⟨result, hv, ho⟩ := hc.output_eq (some state) now
    obtain ⟨result', hv', ho'⟩ := hc.output_eq none now
    rw [h.clean_eq, hv] at hv'
    cases hv'
    rw [ho, ho']
    refine ⟨rfl, ?_⟩
    intro next hnext
    cases hnext

end

/-! ## One call -/

section
variable {storage : Storage} {operation : Operation}

theorem serve_ok (now : Nat) (hvalid : SlotValid storage.state) (hargs : operation.ArgumentsValid)
    (hrot : operation.RotationOk storage.state) :
    (serve storage ⟨operation, now⟩).1 = .ok (operation.output storage.state now).result ∧
      (serve storage ⟨operation, now⟩).2.state = kept storage.state (operation.output storage.state now) := by
  rw [← served_state storage operation] at hvalid hrot ⊢
  have h : handle storage ⟨operation, now⟩ = .ok (_, _) :=
    handle_eq_ok.2 (mutate_eq_ok.2 ⟨hvalid, _, applyOperation_eq_ok.2 ⟨hargs, hrot, rfl⟩, rfl, rfl⟩)
  unfold serve kept
  rw [h]
  refine ⟨rfl, ?_⟩
  dsimp only
  split <;> rfl

theorem serve_error (now : Nat) (h : ¬ (SlotValid storage.state ∧ operation.ArgumentsValid ∧ operation.RotationOk storage.state)) :
    ∃ error, serve storage ⟨operation, now⟩ = (.error error, storage) := by
  unfold serve
  cases hanswer : handle storage ⟨operation, now⟩ with
  | error error => exact ⟨error, rfl⟩
  | ok answer =>
    obtain ⟨hvalid, output, ho, -⟩ := mutate_eq_ok.1 (handle_eq_ok.1 hanswer)
    obtain ⟨hargs, hrot, -⟩ := applyOperation_eq_ok.1 ho
    rw [served_state] at hvalid hrot
    exact absurd ⟨hvalid, hargs, hrot⟩ h

end

/-- The key never holds a record the durable object does not. -/
def Matches (key : Option StoredKey) (storage : Storage) : Prop :=
  ∀ stored, key = some stored → storage.state = some stored.state

section
variable {key : Option StoredKey} {storage : Storage} {operation : Operation} {pass : Attempt}

theorem Matches.live (h : Matches key storage) (now : Nat) : Matches (live key now) storage :=
  fun stored hstored => h stored (Option.filter_eq_some_iff.1 hstored).1

/-- A pass reads the durable object's record, unless the key has lapsed. -/
theorem Matches.reads (h : Matches key storage) (pass : Attempt) : pass.reads key = storage.state ∨
    pass.reads key = none ∧ Redis.live key pass.getAt = none := by
  unfold Attempt.reads
  cases hlive : Redis.live key pass.getAt with
  | none => exact .inr ⟨rfl, rfl⟩
  | some stored => exact .inl (h.live _ stored hlive).symm

theorem Attempt.leaves_state {output : TransitionOutput OperationResult} {stored : StoredKey}
    (h : pass.leaves key output = some stored) : kept (pass.reads key) output = some stored.state := by
  unfold Attempt.leaves at h
  unfold kept Attempt.reads Storage.write
  cases hc : output.changed with
  | false =>
    rw [hc] at h
    exact congrArg (Option.map (·.state)) h
  | true =>
    rw [hc] at h
    cases hq : isQuiescentVnuRefreshState output.state with
    | true => simp [hq] at h
    | false =>
      rw [hq] at h
      cases h
      simp

/-- Both throw on the same records, and otherwise their outputs are alike. -/
theorem reads_alike (hmatch : Matches key storage)
    (hlost : ∀ state, storage.state = some state → Redis.live key pass.getAt = none →
      NothingLost operation state pass.now) :
    (SlotValid (pass.reads key) ∧ operation.RotationOk (pass.reads key) ↔
        SlotValid storage.state ∧ operation.RotationOk storage.state) ∧
      (operation.RotationOk storage.state →
        (operation.output (pass.reads key) pass.now).result = (operation.output storage.state pass.now).result ∧
          ∀ next, kept (pass.reads key) (operation.output (pass.reads key) pass.now) = some next →
            kept storage.state (operation.output storage.state pass.now) = some next) := by
  rcases hmatch.reads pass with hread | ⟨hread, hlapsed⟩
  · rw [hread]
    exact ⟨Iff.rfl, fun _ => ⟨rfl, fun _ h => h⟩⟩
  rw [hread]
  cases hstate : storage.state with
  | none => exact ⟨Iff.rfl, fun _ => ⟨rfl, fun _ h => h⟩⟩
  | some state =>
    have h := hlost state hstate hlapsed
    refine ⟨?_, h.answers_alike⟩
    rw [h.rotationOk_iff]
    have hnone : SlotValid none := fun _ h => by cases h
    have hsome : SlotValid (some state) := fun _ h' => Option.some.inj h' ▸ h.readable
    simp only [hnone, hsome]

/-- The two answer alike when nothing was lost: the same result and records
that still match, or a throw that leaves both as they were. -/
theorem attempt_alike (hmatch : Matches key storage) (hargs : operation.ArgumentsValid)
    (hlost : ∀ state, storage.state = some state → Redis.live key pass.getAt = none →
      NothingLost operation state pass.now)
    (hgo : attempt key operation pass ≠ .ok none) :
    (∃ result next, attempt key operation pass = .ok (some (result, next)) ∧
        (serve storage ⟨operation, pass.now⟩).1 = .ok result ∧
        Matches next (serve storage ⟨operation, pass.now⟩).2) ∨
      ∃ error error', attempt key operation pass = .error error ∧
        serve storage ⟨operation, pass.now⟩ = (.error error', storage) := by
  obtain ⟨hthrow, houtput⟩ := reads_alike hmatch hlost
  by_cases hok : SlotValid storage.state ∧ operation.RotationOk storage.state
  · obtain ⟨hvalid, hrot⟩ := hok
    obtain ⟨hvalid', hrot'⟩ := hthrow.2 ⟨hvalid, hrot⟩
    obtain ⟨hresult, hkept⟩ := houtput hrot
    have hattempt := attempt_eq_ok.2 ⟨hvalid', hargs, hrot', rfl⟩
    have hnot : ¬ ((operation.output (pass.reads key) pass.now).changed ∧ pass.Lapses key) :=
      fun h => hgo (by rw [hattempt, if_pos h])
    rw [if_neg hnot] at hattempt
    obtain ⟨hserve, hstate⟩ := serve_ok pass.now hvalid hargs hrot
    refine .inl ⟨_, _, hattempt, ?_, ?_⟩
    · rw [hserve, hresult]
    · intro stored hstored
      rw [hstate]
      exact hkept _ (Attempt.leaves_state hstored)
  · right
    cases hattempt : attempt key operation pass with
    | error error =>
      obtain ⟨error', herror⟩ := serve_error pass.now fun h => hok ⟨h.1, h.2.2⟩
      exact ⟨error, error', rfl, herror⟩
    | ok answer =>
      obtain ⟨hvalid', -, hrot', -⟩ := attempt_eq_ok.1 hattempt
      exact absurd (hthrow.1 ⟨hvalid', hrot'⟩) hok

end

/-! ## The loop -/

section
variable {key : Option StoredKey} {operation : Operation}

/-- The loop ends as its answering attempt does. -/
theorem transition_eq {attempts : List Attempt} {pass : Attempt} (h : answering key operation attempts = some pass) :
    attempt key operation pass ≠ .ok none ∧
      (∀ error, attempt key operation pass = .error error → transition key operation attempts = .error error) ∧
      ∀ answer, attempt key operation pass = .ok (some answer) → transition key operation attempts = .ok answer := by
  induction attempts with
  | nil => cases h
  | cons next rest ih =>
    unfold answering at h
    unfold transition
    split at h
    · rename_i hagain
      rw [hagain]
      exact ih h
    · rename_i hgo
      cases h
      refine ⟨hgo, ?_, ?_⟩
      · intro error herror
        rw [herror]
        rfl
      · intro answer hanswer
        rw [hanswer]
        rfl

theorem live_mono {early late : Nat} (hle : early ≤ late) (h : live key early = none) : live key late = none := by
  unfold live at h ⊢
  rw [Option.filter_eq_none_iff] at h ⊢
  intro stored hstored hlate
  simp only [decide_eq_true_eq] at h hlate
  exact h stored hstored (by omega)

theorem lapses_of_again {pass : Attempt} (h : attempt key operation pass = .ok none) : pass.Lapses key := by
  obtain ⟨-, -, -, h⟩ := attempt_eq_ok.1 h
  split at h
  · rename_i hlapse
    exact hlapse.2
  · cases h

/-- A key lapses once, so the second attempt is not aborted. -/
theorem answering_isSome (key : Option StoredKey) (operation : Operation) {first second : Attempt}
    {rest : List Attempt} (hordered : ((first :: second :: rest).flatMap Attempt.readings).Pairwise (· ≤ ·)) :
    ∃ pass, answering key operation (first :: second :: rest) = some pass := by
  have hle : first.execAt ≤ second.watchAt := by
    simp only [List.flatMap_cons, Attempt.readings, List.cons_append, List.nil_append, List.pairwise_cons,
      List.mem_cons] at hordered
    exact hordered.2.2.2.2.1 _ (.inl rfl)
  unfold answering
  split
  · rename_i hfirst
    unfold answering
    rw [if_neg]
    · exact ⟨second, rfl⟩
    · intro hsecond
      have hwatched := (lapses_of_again hsecond).1
      rw [live_mono hle (lapses_of_again hfirst).2] at hwatched
      cases hwatched
  · exact ⟨first, rfl⟩

end

/-! ## Runs -/

/-- The attempts a call gets to: up to the first whose key does not lapse. -/
def reached (key : Option StoredKey) : List Attempt → List Attempt
  | [] => []
  | next :: rest => next :: if next.Lapses key then reached key rest else []

/-- Every attempt that finds no key finds nothing lost. -/
def LosesNothing (both : Both) (call : RedisCall) : Prop :=
  ∀ pass ∈ reached both.key call.attempts, ∀ state, both.storage.state = some state →
    live both.key pass.getAt = none → NothingLost call.operation state pass.now

section
variable {maxAttempts : Nat}

theorem answering_reached {key : Option StoredKey} {operation : Operation} {attempts : List Attempt} {pass : Attempt}
    (h : answering key operation attempts = some pass) : pass ∈ reached key attempts := by
  induction attempts with
  | nil => cases h
  | cons next rest ih =>
    unfold answering at h
    unfold reached
    split at h
    · rename_i hagain
      rw [if_pos (lapses_of_again hagain)]
      exact List.mem_cons_of_mem _ (ih h)
    · cases h
      exact List.mem_cons_self

theorem RedisCall.Made.answering {call : RedisCall} (h : call.Made maxAttempts) (hretry : 2 ≤ maxAttempts)
    (key : Option StoredKey) : ∃ pass, Redis.answering key call.operation call.attempts = some pass := by
  obtain ⟨operation, attempts⟩ := call
  match attempts, h with
  | [], h => exact absurd (h.attempts ▸ hretry) (by simp)
  | [_], h => exact absurd (h.attempts ▸ hretry) (by simp)
  | first :: second :: rest, h => exact answering_isSome key operation h.ordered

theorem arguments_accepted {operation : Operation} (h : operation.ArgumentsValid) :
    (operation.pairs.mapM fun pair => assertLinkedPair pair.toJs) = .ok operation.pairs := by
  rw [mapM_eq_ok, List.forall₂_same]
  intro pair hpair
  exact assertLinkedPair_toJs.2 ⟨rfl, h pair hpair⟩

/-- One call of a run: the answers are the same, and the records still match. -/
theorem serveBoth_alike {both : Both} {call : RedisCall} (hmade : call.Made maxAttempts) (hretry : 2 ≤ maxAttempts)
    (hmatch : Matches both.key both.storage) (hlost : LosesNothing both call) :
    (serveBoth both call).1.1 = (serveBoth both call).1.2 ∧
      Matches (serveBoth both call).2.key (serveBoth both call).2.storage := by
  obtain ⟨pass, hpass⟩ := hmade.answering hretry both.key
  obtain ⟨hgo, herror, hanswer⟩ := transition_eq hpass
  have hat : call.answeredAt both.key = pass.now := by
    unfold RedisCall.answeredAt
    rw [hpass]
    rfl
  unfold serveBoth coordinateDurably coordinate
  rw [arguments_accepted hmade.arguments, hat]
  rcases attempt_alike hmatch hmade.arguments (hlost pass (answering_reached hpass)) hgo with
    ⟨result, next, hattempt, hserve, hnext⟩ | ⟨error, error', hattempt, hserve⟩
  · simp only [hanswer _ hattempt, hserve]
    exact ⟨rfl, hnext⟩
  · simp only [herror _ hattempt, hserve]
    exact ⟨rfl, hmatch⟩

end

/-- In every run whose calls lose nothing, the coordinator answers every call as
the durable object does. -/
theorem redis_refines_durable_object {maxAttempts : Nat} (hretry : 2 ≤ maxAttempts) {trace : List _} {both : Both}
    {clock : Nat} (h : BothRun LosesNothing maxAttempts trace both clock) :
    ∀ e ∈ trace, e.result.1 = e.result.2 := by
  have hrun : (∀ e ∈ trace, e.result.1 = e.result.2) ∧ Matches both.key both.storage := by
    refine h.invariant (fun trace both _ => (∀ e ∈ trace, e.result.1 = e.result.2) ∧ Matches both.key both.storage) ?_ ?_
    · refine ⟨by simp, ?_⟩
      intro stored hstored
      cases hstored
    intro trace both clock call _ ⟨hsame, hmatch⟩ _ ⟨hmade, hlost⟩
    obtain ⟨hanswers, hnext⟩ := serveBoth_alike hmade hretry hmatch hlost
    refine ⟨?_, hnext⟩
    intro e he
    rcases List.mem_append.1 he with he | he
    · exact hsame e he
    · rw [List.mem_singleton] at he
      subst he
      exact hanswers
  exact hrun.1

/-! ## Two runs -/

/-- A call whose attempts all take place within one millisecond. -/
def instantCall (operation : Operation) (now : Nat) : RedisCall :=
  { operation, attempts := List.replicate 8 ⟨now, now, now, now, now⟩ }

theorem instantCall_made {operation : Operation} {now : Nat} (hmethod : operation ≠ .alarm)
    (hargs : operation.ArgumentsValid) : (instantCall operation now).Made 8 := by
  refine ⟨hmethod, hargs, by simp [instantCall], ?_⟩
  simp [instantCall, List.replicate, Attempt.readings]

theorem checkOld_valid : (Operation.checkAccess oldPair).ArgumentsValid := by
  simpa [Operation.ArgumentsValid, Operation.pairs] using oldPair_valid

theorem activateOld_valid : (Operation.activatePair oldPair).ArgumentsValid := by
  simpa [Operation.ArgumentsValid, Operation.pairs] using oldPair_valid

def checkedAt (now : Nat) : List RedisCall :=
  [instantCall (.activatePair oldPair) testNow, instantCall (.checkAccess oldPair) now]

/-- The two calls, to both coordinators. -/
abbrev checkedSteps (now : Nat) := execute serveBoth Both.empty (checkedAt now)

/-- Within the first window the key is still there. -/
theorem redis_refines_durable_object_checked :
    (checkedSteps (testNow + 1000))[1].result.1 = (checkedSteps (testNow + 1000))[1].result.2 := by
  have hfirst : BothRun LosesNothing 8 _ _ _ :=
    Run.start.call (instantCall (.activatePair oldPair) testNow) (Nat.zero_le _)
      ⟨instantCall_made nofun activateOld_valid, fun _ _ _ h => by cases h⟩
  have hlive : ∀ pass ∈ reached (serveBoth Both.empty (instantCall (.activatePair oldPair) testNow)).2.key
      (instantCall (.checkAccess oldPair) (testNow + 1000)).attempts,
      live (serveBoth Both.empty (instantCall (.activatePair oldPair) testNow)).2.key pass.getAt ≠ none := by decide
  have hsecond : BothRun LosesNothing 8 (checkedSteps (testNow + 1000)) _ _ :=
    hfirst.call (instantCall (.checkAccess oldPair) (testNow + 1000)) (by decide)
      ⟨instantCall_made nofun checkOld_valid, fun pass hpass _ _ hgone => absurd hgone (hlive pass hpass)⟩
  exact redis_refines_durable_object (by decide) hsecond _ (List.getElem_mem _)

/-- Fifteen minutes after the activation the activation window ends, and the
whole record goes with it: the pair, with hours to live, is answered revoked. -/
theorem redis_revokes_active_pair :
    ¬ ∀ trace both clock, BothRun (fun _ _ => True) 8 trace both clock → ∀ e ∈ trace, e.result.1 = e.result.2 := by
  intro h
  obtain ⟨both, clock, hrun⟩ : ∃ both clock, BothRun (fun _ _ => True) 8
      ([] ++ checkedSteps (testNow + 900000)) both clock := by
    refine Run.execute _ .start (by decide) ?_
    intro call hcall _ _
    simp only [checkedAt, List.mem_cons, List.not_mem_nil, or_false] at hcall
    rcases hcall with rfl | rfl
    · exact ⟨instantCall_made nofun activateOld_valid, trivial⟩
    · exact ⟨instantCall_made nofun checkOld_valid, trivial⟩
  have hsame := h _ both clock hrun
  exact absurd hsame (by decide)

end Hyeboard.VnuRefresh.Redis
