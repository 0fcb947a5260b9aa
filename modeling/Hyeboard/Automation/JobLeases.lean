import Hyeboard.Lib.Leases
import Mathlib.Logic.Function.Basic
/-!
# Job leases

`RedisJobLeaseStore` and `InMemoryJobLeaseStore`: any number of workers call `acquire` for
any jobs, and `renew`, `assertHeld` and `release` on the leases they got. A call of
`acquire` is known by the token it draws, which no other call draws.

A method of the Redis store sends one command and waits for its answer. Commands of
different calls reach the server in any order; a command may not reach it, and its answer
may be lost. `assertHeld` renews the lease in Redis, and only looks at it in memory.
-/

namespace Hyeboard.Automation

open ExpiringKeys Leases

/-- What a call of `acquire` is given. -/
structure LeaseRequest where
  jobId : String
  fence : Nat
  ttlMs : Nat
  /-- `positiveInteger` of the worker's configuration. -/
  ttlMs_pos : 0 < ttlMs

/-- `JSON.stringify({ token, fence })`. -/
structure LeaseValue where
  token : Nat
  fence : Nat
deriving DecidableEq, Repr

/-- The three methods of a `JobLease`. -/
inductive LeaseMethod where
  | renew
  | assertHeld
  | release
deriving DecidableEq, Repr

inductive LeaseAnswer where
  /-- Whether `acquire` returned a lease. -/
  | acquired (granted : Bool)
  | renewed (held : Bool)
  /-- Whether `assertHeld` returned; otherwise it threw `LeaseLostError`. -/
  | asserted (held : Bool)
  | released
  /-- The command failed, or its answer was lost. -/
  | threw
deriving DecidableEq, Repr

inductive LeasePhase where
  /-- `acquire` has not been called. -/
  | idle
  /-- Its command has been sent. -/
  | setting
  | granted
  /-- It returned `undefined` or threw. -/
  | refused
deriving DecidableEq, Repr

/-- One call of `acquire`, and the lease it returned. -/
structure Lease where
  phase : LeasePhase
  released : Bool
  /-- The methods whose script has been sent. -/
  pending : List LeaseMethod
deriving DecidableEq, Repr

def keyPrefix : String := "hyeboard:automation:lease:"

section
variable (requests : Nat → LeaseRequest)

def leaseValue (token : Nat) : LeaseValue := { token, fence := (requests token).fence }

def leaseTtl (value : LeaseValue) : Nat := (requests value.token).ttlMs

/-- `${keyPrefix}${jobId}`. -/
def leaseKey (token : Nat) : String := keyPrefix ++ (requests token).jobId

end

/-- The answer of a method, if the store says `held`. -/
def LeaseMethod.answer (method : LeaseMethod) (held : Bool) : LeaseAnswer :=
  match method with
  | .renew => .renewed held
  | .assertHeld => .asserted held
  | .release => .released

/-- How a command that was sent ends. -/
inductive LeaseDelivery where
  | done
  /-- The server ran it, and its answer was lost. -/
  | lost
  | failed
deriving DecidableEq, Repr

section
variable {requests : Nat → LeaseRequest} {a b : Nat}

theorem leaseValue_inj (h : leaseValue requests a = leaseValue requests b) : a = b := congrArg LeaseValue.token h

theorem leaseKey_inj : leaseKey requests a = leaseKey requests b ↔ (requests a).jobId = (requests b).jobId := by
  rw [leaseKey, leaseKey, String.append_right_inj]

end

/-! ## Redis -/

namespace RedisJobLeaseStore

structure State where
  keys : String → Key LeaseValue
  leases : Nat → Lease

inductive Action where
  | acquire (token : Nat)
  | method (token : Nat) (method : LeaseMethod)
  | serveSet (token : Nat) (delivery : LeaseDelivery)
  | serveEval (token index : Nat) (delivery : LeaseDelivery)
deriving DecidableEq, Repr

structure Turn where
  now : Nat
  action : Action
deriving DecidableEq, Repr

def start : State := { keys := fun _ => none, leases := fun _ => ⟨.idle, false, []⟩ }

/-- `renewScript` and `releaseScript`. -/
def script (value : LeaseValue) : LeaseMethod → Operation LeaseValue
  | .renew | .assertHeld => .renew value
  | .release => .release value

section
variable (requests : Nat → LeaseRequest) (s : State)

def setLease (token : Nat) (lease : Lease) : State := { s with leases := Function.update s.leases token lease }

/-- The server runs a command on a key. -/
def run (now : Nat) (key : String) (operation : Operation LeaseValue) : Bool × State :=
  let (answer, entry) := Leases.step (leaseTtl requests) (s.keys key) ⟨now, operation⟩
  (answer, { s with keys := Function.update s.keys key entry })

/-- SET is served, or fails. -/
def serveSet (now token : Nat) (delivery : LeaseDelivery) : LeaseAnswer × State :=
  let lease := s.leases token
  let (granted, served) := run requests s now (leaseKey requests token) (.acquire (leaseValue requests token))
  match delivery with
  | .done => (.acquired granted, setLease served token { lease with phase := if granted then .granted else .refused })
  | .lost => (.threw, setLease served token { lease with phase := .refused })
  | .failed => (.threw, setLease s token { lease with phase := .refused })

/-- A script is served, or fails. -/
def serveEval (now token index : Nat) (method : LeaseMethod) (delivery : LeaseDelivery) : LeaseAnswer × State :=
  let lease := s.leases token
  let left := { lease with pending := lease.pending.eraseIdx index }
  let (held, served) := run requests s now (leaseKey requests token) (script (leaseValue requests token) method)
  match delivery with
  | .done => (method.answer held, setLease served token left)
  | .lost => (.threw, setLease served token left)
  | .failed => (.threw, setLease s token left)

/-- The answer is that of the call that the turn ends. -/
def step (turn : Turn) : Option LeaseAnswer × State :=
  match turn.action with
  | .acquire token =>
    let lease := s.leases token
    if lease.phase = .idle then (none, setLease s token { lease with phase := .setting }) else (none, s)
  | .method token method =>
    let lease := s.leases token
    if lease.phase ≠ .granted then (none, s)
    else if method = .release then
      (none, setLease s token { lease with released := true, pending := lease.pending ++ [.release] })
    else if lease.released then (some (method.answer false), s)
    else (none, setLease s token { lease with pending := lease.pending ++ [method] })
  | .serveSet token delivery =>
    if (s.leases token).phase = .setting then
      let (answer, s) := serveSet requests s turn.now token delivery
      (some answer, s)
    else (none, s)
  | .serveEval token index delivery =>
    match (s.leases token).pending[index]? with
    | some method =>
      let (answer, s) := serveEval requests s turn.now token index method delivery
      (some answer, s)
    | none => (none, s)

/-- The command that the server runs in a turn, and its key. -/
def served (turn : Turn) : Option (String × Operation LeaseValue) :=
  match turn.action with
  | .serveSet token delivery =>
    if (s.leases token).phase = .setting ∧ delivery ≠ .failed then
      some (leaseKey requests token, .acquire (leaseValue requests token))
    else none
  | .serveEval token index delivery =>
    if delivery = .failed then none
    else ((s.leases token).pending[index]?).map fun method =>
      (leaseKey requests token, script (leaseValue requests token) method)
  | _ => none

abbrev StoreRun := Run (step requests) Turn.now (fun _ _ _ => True) start

/-- Some grant of the lease is not over, and it was not given up since. -/
def InForce (trace : List (Step State Turn (Option LeaseAnswer))) (token now : Nat) : Prop :=
  Leases.InForce (leaseTtl requests)
    (history (leaseTtl requests) Turn.now State.keys (served requests) (leaseKey requests token) trace)
    (leaseValue requests token) now

end

section
variable {requests : Nat → LeaseRequest} {s : State} {trace : List (Step State Turn (Option LeaseAnswer))} {clock now : Nat}

variable (requests s) in
theorem run_keys (now : Nat) (key other : String) (operation : Operation LeaseValue) :
    (run requests s now key operation).2.keys other =
      if key = other then (Leases.step (leaseTtl requests) (s.keys other) ⟨now, operation⟩).2 else s.keys other := by
  simp only [run, Function.update_apply]
  grind

theorem serves : Serves (leaseTtl requests) (step requests) Turn.now State.keys (served requests) := by
  intro s turn key
  obtain ⟨now, action⟩ := turn
  cases action with
  | acquire token =>
    simp only [step, asked, served, Option.bind_none]
    split <;> rfl
  | method token method =>
    simp only [step, asked, served, Option.bind_none]
    repeat' split
    all_goals rfl
  | serveSet token delivery =>
    have hrun := run_keys requests s now (leaseKey requests token) key (.acquire (leaseValue requests token))
    by_cases hphase : (s.leases token).phase = .setting
    · cases delivery
      case failed => simp [step, asked, served, serveSet, hphase, setLease]
      all_goals
        simp only [step, asked, served, serveSet, hphase, setLease, if_true, hrun]
        by_cases hkey : leaseKey requests token = key <;> simp [hkey]
    · simp [step, asked, served, hphase]
  | serveEval token index delivery =>
    cases hpending : (s.leases token).pending[index]? with
    | none => simp [step, asked, served, hpending]
    | some method =>
      have hrun := run_keys requests s now (leaseKey requests token) key
        (script (leaseValue requests token) method)
      cases delivery
      case failed => simp [step, asked, served, serveEval, hpending, setLease]
      all_goals
        simp only [step, asked, served, serveEval, hpending, setLease, hrun]
        by_cases hkey : leaseKey requests token = key <;> simp [hkey]

theorem keys_start (key : String) : start.keys key = none := rfl

/-- A command is one of a call of `acquire` for the key. -/
theorem token_of_asked {key : String} {turn : Turn} {operation : Operation LeaseValue}
    (h : asked (served requests) key s turn = some operation) :
    ∃ token, leaseKey requests token = key ∧ operation.token = leaseValue requests token := by
  obtain ⟨command, hserved, hkey⟩ := Option.bind_eq_some_iff.1 h
  split at hkey
  case isFalse => cases hkey
  case isTrue hsame =>
    cases hkey
    obtain ⟨now, action⟩ := turn
    cases action with
    | acquire token => cases hserved
    | method token method => cases hserved
    | serveSet token delivery =>
      simp only [served] at hserved
      split at hserved
      · cases hserved
        exact ⟨token, hsame, rfl⟩
      · cases hserved
    | serveEval token index delivery =>
      simp only [served] at hserved
      split at hserved
      · cases hserved
      · obtain ⟨method, -, rfl⟩ := Option.map_eq_some_iff.1 hserved
        refine ⟨token, hsame, ?_⟩
        cases method <;> rfl

/-- The call of `acquire` has been answered. -/
def Settled (token : Nat) (s : State) : Prop := (s.leases token).phase ≠ .idle ∧ (s.leases token).phase ≠ .setting

theorem settled_step (token : Nat) (s : State) (turn : Turn) (h : Settled token s) : Settled token (step requests s turn).2 := by
  have hset : ∀ (t : State) (other : Nat) (lease : Lease), t.leases = s.leases →
      (other = token → lease.phase ≠ .idle ∧ lease.phase ≠ .setting) → Settled token (setLease t other lease) := by
    intro t other lease hleases hlease
    simp only [Settled, setLease, hleases, Function.update_apply]
    split
    case isTrue hsame => exact hlease hsame.symm
    case isFalse => exact h
  obtain ⟨now, action⟩ := turn
  cases action with
  | acquire other =>
    simp only [step]
    split
    case isTrue hidle =>
      refine hset s other _ rfl ?_
      rintro rfl
      exact absurd hidle h.1
    case isFalse => exact h
  | method other method =>
    simp only [step]
    split
    case isTrue => exact h
    case isFalse =>
      split
      case isTrue =>
        refine hset s other _ rfl ?_
        rintro rfl
        exact h
      case isFalse =>
        split
        case isTrue => exact h
        case isFalse =>
          refine hset s other _ rfl ?_
          rintro rfl
          exact h
  | serveSet other delivery =>
    simp only [step]
    split
    case isTrue hsetting =>
      cases delivery <;> refine hset _ other _ rfl ?_ <;> rintro rfl <;> exact absurd hsetting h.2
    case isFalse => exact h
  | serveEval other index delivery =>
    simp only [step]
    split
    · cases delivery <;> refine hset _ other _ rfl ?_ <;> rintro rfl <;> exact h
    · exact h

theorem not_acquire_of_settled {token : Nat} {turn : Turn} (h : Settled token s) :
    asked (served requests) (leaseKey requests token) s turn ≠ some (.acquire (leaseValue requests token)) := by
  intro hasked
  obtain ⟨command, hserved, hkey⟩ := Option.bind_eq_some_iff.1 hasked
  obtain ⟨now, action⟩ := turn
  cases action with
  | acquire other => cases hserved
  | method other method => cases hserved
  | serveSet other delivery =>
    simp only [served] at hserved
    split at hserved
    case isTrue hsetting =>
      cases hserved
      split at hkey
      · have hvalue := Option.some.inj hkey
        simp only [Operation.acquire.injEq] at hvalue
        rw [leaseValue_inj hvalue] at hsetting
        exact h.2 hsetting.1
      · cases hkey
    case isFalse => cases hserved
  | serveEval other index delivery =>
    simp only [served] at hserved
    split at hserved
    · cases hserved
    · obtain ⟨method, -, rfl⟩ := Option.map_eq_some_iff.1 hserved
      split at hkey
      · cases method <;> cases hkey
      · cases hkey

/-- The answer to `acquire` is the server's. -/
theorem acquired_eq {token : Nat} {granted : Bool} {turn : Turn} (haction : turn.action = .serveSet token .done)
    (h : (step requests s turn).1 = some (.acquired granted)) :
    granted = (Leases.step (leaseTtl requests) (s.keys (leaseKey requests token)) ⟨turn.now, .acquire (leaseValue requests token)⟩).1 := by
  simp only [step, haction, serveSet, run] at h
  split at h
  · simp only [Option.some.injEq, LeaseAnswer.acquired.injEq] at h
    exact h.symm
  · cases h

/-- The answer to `renew` and `assertHeld`, where their script is served, is the server's. -/
theorem held_eq {token index : Nat} {held : Bool} {turn : Turn} (haction : turn.action = .serveEval token index .done)
    (h : (step requests s turn).1 = some (.renewed held) ∨ (step requests s turn).1 = some (.asserted held)) :
    held = (Leases.step (leaseTtl requests) (s.keys (leaseKey requests token)) ⟨turn.now, .renew (leaseValue requests token)⟩).1 := by
  simp only [step, haction] at h
  split at h
  case h_1 method hmethod =>
    cases method <;> simp_all [serveEval, run, LeaseMethod.answer, script]
  case h_2 => simp at h

/-- The Redis store, in every order in which calls are made and commands are served: at most one lease of a job is in
force; `acquire` returns a lease exactly while none is, and a script of a lease finds it held exactly while it is in
force; and a lease that was lost once is lost for good. -/
theorem redis_job_leases (h : StoreRun requests trace s clock) :
    (∀ now a b, clock ≤ now → (requests a).jobId = (requests b).jobId → InForce requests trace a now →
      InForce requests trace b now → a = b) ∧
    ∀ pre e post, trace = pre ++ e :: post →
      (∀ token granted, e.call.action = .serveSet token .done → e.result = some (.acquired granted) →
        (granted = true ↔ ∀ other, (requests other).jobId = (requests token).jobId → ¬ InForce requests pre other e.call.now)) ∧
      (∀ token index held, e.call.action = .serveEval token index .done →
        e.result = some (.renewed held) ∨ e.result = some (.asserted held) →
        (held = true ↔ InForce requests pre token e.call.now)) ∧
      (∀ token now, (e.before.leases token).phase = .granted → ¬ InForce requests pre token e.call.now → clock ≤ now →
        ¬ InForce requests trace token now) := by
  constructor
  · intro now a b hle hjob ha hb
    rw [InForce, ← leaseKey_inj.2 hjob] at hb
    exact leaseValue_inj (held_unique serves keys_start h hle ha hb)
  · intro pre e post heq
    obtain ⟨t, turn, clk, hpre, hle, -, rfl⟩ := h.cut heq
    change clk ≤ turn.now at hle
    refine ⟨fun token granted haction hanswer => ?_, fun token index held haction hanswer => ?_, fun token now hgranted hlost hnow => ?_⟩
    · obtain ⟨clk', hclk, hrun⟩ := history_run serves keys_start hpre (leaseKey requests token)
      have hacquire := acquire_iff (leaseValue requests token) hrun (Nat.le_trans hclk hle)
      rw [acquired_eq haction hanswer]
      refine Iff.trans hacquire ?_
      constructor
      · intro hfree other hjob hforce
        rw [InForce, leaseKey_inj.2 hjob] at hforce
        exact hfree _ hforce
      · intro hfree holder hforce
        obtain ⟨e, he, htoken⟩ := hforce.mem
        obtain ⟨d, -, hasked, -⟩ := mem_history he
        obtain ⟨other, hkey, hvalue⟩ := token_of_asked hasked
        obtain rfl := htoken.symm.trans hvalue
        refine hfree other (leaseKey_inj.1 hkey) ?_
        rw [InForce, hkey]
        exact hforce
    · obtain ⟨clk', hclk, hrun⟩ := history_run serves keys_start hpre (leaseKey requests token)
      rw [held_eq haction hanswer]
      exact renew_iff hrun (Nat.le_trans hclk hle)
    · refine lost_forever serves keys_start h heq hlost (fun d hd => ?_) hnow
      have hsettled : Settled token t := by
        rw [Settled, show (t.leases token).phase = .granted from hgranted]
        simp
      exact not_acquire_of_settled ((kept_after (settled_step token) h heq hsettled).1 d hd)

/-- Two workers ask for one job. -/
def sampleRequests (token : Nat) : LeaseRequest := { jobId := "job", fence := token, ttlMs := 30000, ttlMs_pos := by decide }

def sampleTurns : List Turn :=
  [⟨10, .acquire 0⟩, ⟨10, .acquire 1⟩, ⟨20, .serveSet 0 .done⟩, ⟨30, .serveSet 1 .done⟩]

theorem redis_job_leases_sample :
    ∃ other, InForce sampleRequests ((execute (step sampleRequests) start sampleTurns).take 3) other 30 := by
  have hstart : StoreRun sampleRequests [] start 0 := .start
  obtain ⟨clock, hrun⟩ := hstart.follow sampleTurns (by decide) fun _ _ _ => trivial
  have hanswer := ((redis_job_leases hrun).2 ((execute (step sampleRequests) start sampleTurns).take 3)
    (stepOf (step sampleRequests) (stateAfter (step sampleRequests) start (sampleTurns.take 3)) ⟨30, .serveSet 1 .done⟩) [] rfl).1
    1 false rfl (by decide +kernel)
  by_contra hnone
  have hgranted := hanswer.2 fun other _ hforce => hnone ⟨other, hforce⟩
  cases hgranted

end

end RedisJobLeaseStore

/-! ## In memory -/

namespace InMemoryJobLeaseStore

structure LeaseRecord where
  value : LeaseValue
  expiresAt : Nat
deriving DecidableEq, Repr

structure State where
  records : String → Option LeaseRecord
  leases : Nat → Lease

inductive Action where
  | acquire (token : Nat)
  | method (token : Nat) (method : LeaseMethod)
deriving DecidableEq, Repr

structure Turn where
  now : Nat
  action : Action
deriving DecidableEq, Repr

def start : State := { records := fun _ => none, leases := fun _ => ⟨.idle, false, []⟩ }

section
variable (requests : Nat → LeaseRequest) (s : State)

def setLease (token : Nat) (lease : Lease) : State := { s with leases := Function.update s.leases token lease }

def setRecord (jobId : String) (record : Option LeaseRecord) : State :=
  { s with records := Function.update s.records jobId record }

def owns (now : Nat) (jobId : String) (value : LeaseValue) : Bool :=
  match s.records jobId with
  | some record => record.value = value && now < record.expiresAt
  | none => false

def acquire (now token : Nat) : LeaseAnswer × State :=
  let { jobId, ttlMs, .. } := requests token
  let lease := s.leases token
  let record : LeaseRecord := { value := leaseValue requests token, expiresAt := now + ttlMs }
  match s.records jobId with
  | some existing =>
    if now < existing.expiresAt then (.acquired false, setLease s token { lease with phase := .refused })
    else (.acquired true, setLease (setRecord s jobId record) token { lease with phase := .granted })
  | none => (.acquired true, setLease (setRecord s jobId record) token { lease with phase := .granted })

def call (now token : Nat) (method : LeaseMethod) : LeaseAnswer × State :=
  let { jobId, ttlMs, .. } := requests token
  let value := leaseValue requests token
  let lease := s.leases token
  match method with
  | .renew =>
    if lease.released || !owns s now jobId value then (.renewed false, s)
    else (.renewed true, setRecord s jobId (some { value, expiresAt := now + ttlMs }))
  | .assertHeld => (.asserted (!(lease.released || !owns s now jobId value)), s)
  | .release =>
    let s' := setLease s token { lease with released := true }
    (.released, if owns s now jobId value then setRecord s' jobId none else s')

/-- A call runs through without an await. -/
def step (turn : Turn) : Option LeaseAnswer × State :=
  match turn.action with
  | .acquire token =>
    if (s.leases token).phase = .idle then
      let (answer, s) := acquire requests s turn.now token
      (some answer, s)
    else (none, s)
  | .method token method =>
    if (s.leases token).phase = .granted then
      let (answer, s) := call requests s turn.now token method
      (some answer, s)
    else (none, s)

/-- The same in terms of commands on keys. -/
def served (turn : Turn) : Option (String × Operation LeaseValue) :=
  match turn.action with
  | .acquire token =>
    if (s.leases token).phase = .idle then some ((requests token).jobId, .acquire (leaseValue requests token)) else none
  | .method token .renew =>
    if (s.leases token).phase = .granted ∧ (s.leases token).released = false then
      some ((requests token).jobId, .renew (leaseValue requests token))
    else none
  | .method token .release =>
    if (s.leases token).phase = .granted then some ((requests token).jobId, .release (leaseValue requests token)) else none
  | .method _ .assertHeld => none

def keys (s : State) (jobId : String) : Key LeaseValue :=
  (s.records jobId).map fun record => { value := record.value, expiresAt := some record.expiresAt }

abbrev StoreRun := Run (step requests) Turn.now (fun _ _ _ => True) start

/-- Some grant of the lease is not over, and it was not given up since. -/
def InForce (trace : List (Step State Turn (Option LeaseAnswer))) (token now : Nat) : Prop :=
  Leases.InForce (leaseTtl requests)
    (history (leaseTtl requests) Turn.now keys (served requests) (requests token).jobId trace)
    (leaseValue requests token) now

end

section
variable {requests : Nat → LeaseRequest} {s : State} {trace : List (Step State Turn (Option LeaseAnswer))} {clock now : Nat}

theorem get_keys (jobId : String) : (keys s jobId).get now =
    (s.records jobId).bind fun record => if now < record.expiresAt then some record.value else none := by
  unfold keys
  cases s.records jobId with
  | none => rfl
  | some record =>
    rw [Option.map_some, Key.get_some]
    simp [Entry.alive]

theorem owns_iff {jobId : String} {value : LeaseValue} : owns s now jobId value = true ↔ (keys s jobId).get now = some value := by
  rw [get_keys, owns]
  cases s.records jobId with
  | none => simp
  | some record => simp [and_comm]

theorem keys_setRecord (jobId other : String) (record : Option LeaseRecord) :
    keys (setRecord s jobId record) other =
      if jobId = other then record.map fun record => { value := record.value, expiresAt := some record.expiresAt }
      else keys s other := by
  simp only [keys, setRecord, Function.update_apply]
  grind

theorem keys_setLease (token : Nat) (lease : Lease) (jobId : String) : keys (setLease s token lease) jobId = keys s jobId := rfl

theorem keys_acquire (now token : Nat) (jobId : String) : keys (acquire requests s now token).2 jobId =
    if (requests token).jobId = jobId then
      (Leases.step (leaseTtl requests) (keys s jobId) ⟨now, .acquire (leaseValue requests token)⟩).2
    else keys s jobId := by
  by_cases hjob : (requests token).jobId = jobId
  · subst hjob
    rw [if_pos rfl]
    simp only [acquire, Leases.step, get_keys]
    cases hrecord : s.records (requests token).jobId with
    | none => simp [keys_setLease, keys_setRecord, Key.setPx, leaseTtl, leaseValue]
    | some existing =>
      by_cases halive : now < existing.expiresAt
      · simp [halive, keys_setLease]
      · simp [halive, keys_setLease, keys_setRecord, Key.setPx, leaseTtl, leaseValue]
  · rw [if_neg hjob]
    simp only [acquire]
    split
    · split
      · rfl
      · rw [keys_setLease, keys_setRecord, if_neg hjob]
    · rw [keys_setLease, keys_setRecord, if_neg hjob]

theorem keys_renew {now token : Nat} (hreleased : (s.leases token).released = false) (jobId : String) :
    keys (call requests s now token .renew).2 jobId =
      if (requests token).jobId = jobId then
        (Leases.step (leaseTtl requests) (keys s jobId) ⟨now, .renew (leaseValue requests token)⟩).2
      else keys s jobId := by
  simp only [call, hreleased, Bool.false_or, Leases.step]
  by_cases howns : owns s now (requests token).jobId (leaseValue requests token) = true
  · have hget := owns_iff.1 howns
    obtain ⟨entry, hlive, hvalue⟩ := Option.map_eq_some_iff.1 hget
    rw [howns, Bool.not_true, if_neg Bool.false_ne_true, keys_setRecord]
    split
    case isTrue hjob =>
      subst hjob
      rw [if_pos hget, Key.pexpire, hlive, Option.map_some, Option.map_some, hvalue]
      rfl
    case isFalse => rfl
  · have hget := mt owns_iff.2 howns
    rw [Bool.not_eq_true] at howns
    rw [howns, Bool.not_false, if_pos rfl]
    split
    case isTrue hjob =>
      subst hjob
      rw [if_neg hget]
    case isFalse => rfl

theorem keys_release (now token : Nat) (jobId : String) :
    keys (call requests s now token .release).2 jobId =
      if (requests token).jobId = jobId then
        (Leases.step (leaseTtl requests) (keys s jobId) ⟨now, .release (leaseValue requests token)⟩).2
      else keys s jobId := by
  simp only [call, Leases.step]
  by_cases howns : owns s now (requests token).jobId (leaseValue requests token) = true
  · rw [if_pos howns, keys_setRecord]
    split
    case isTrue hjob =>
      subst hjob
      rw [if_pos (owns_iff.1 howns)]
      rfl
    case isFalse => rfl
  · rw [if_neg howns, keys_setLease]
    split
    case isTrue hjob =>
      subst hjob
      rw [if_neg (mt owns_iff.2 howns)]
    case isFalse => rfl

theorem serves : Serves (leaseTtl requests) (step requests) Turn.now keys (served requests) := by
  intro s turn jobId
  obtain ⟨now, action⟩ := turn
  cases action with
  | acquire token =>
    by_cases hphase : (s.leases token).phase = .idle
    · simp only [step, asked, served, hphase, if_true, keys_acquire, Option.bind_some]
      split <;> rfl
    · simp [step, asked, served, hphase]
  | method token method =>
    by_cases hphase : (s.leases token).phase = .granted
    · cases method with
      | renew =>
        cases hreleased : (s.leases token).released with
        | true => simp [step, asked, served, hphase, hreleased, call]
        | false =>
          simp only [step, asked, served, hphase, hreleased, if_true, and_self, keys_renew hreleased, Option.bind_some]
          split <;> rfl
      | assertHeld => simp [step, asked, served, hphase, call]
      | release =>
        simp only [step, asked, served, hphase, if_true, keys_release, Option.bind_some]
        split <;> rfl
    · cases method <;> simp [step, asked, served, hphase]

theorem keys_start (jobId : String) : keys start jobId = none := rfl

theorem token_of_asked {jobId : String} {turn : Turn} {operation : Operation LeaseValue}
    (h : asked (served requests) jobId s turn = some operation) :
    ∃ token, (requests token).jobId = jobId ∧ operation.token = leaseValue requests token := by
  obtain ⟨command, hserved, hkey⟩ := Option.bind_eq_some_iff.1 h
  split at hkey
  case isFalse => cases hkey
  case isTrue hsame =>
    cases hkey
    obtain ⟨now, action⟩ := turn
    cases action with
    | acquire token =>
      simp only [served, Option.ite_none_right_eq_some, Option.some.injEq] at hserved
      obtain ⟨-, rfl⟩ := hserved
      exact ⟨token, hsame, rfl⟩
    | method token method =>
      cases method with
      | renew | release =>
        simp only [served, Option.ite_none_right_eq_some, Option.some.injEq] at hserved
        obtain ⟨-, rfl⟩ := hserved
        exact ⟨token, hsame, rfl⟩
      | assertHeld => cases hserved

theorem called_step (token : Nat) (s : State) (turn : Turn) (h : (s.leases token).phase ≠ .idle) :
    ((step requests s turn).2.leases token).phase ≠ .idle := by
  have hset : ∀ (t : State) (other : Nat) (lease : Lease), t.leases = s.leases → lease.phase ≠ .idle →
      ((setLease t other lease).leases token).phase ≠ .idle := by
    intro t other lease hleases hlease
    simp only [setLease, hleases, Function.update_apply]
    split
    · exact hlease
    · exact h
  obtain ⟨now, action⟩ := turn
  cases action with
  | acquire other =>
    simp only [step]
    split
    case isTrue =>
      simp only [acquire]
      repeat' split
      all_goals exact hset _ other _ rfl (by simp)
    case isFalse => exact h
  | method other method =>
    simp only [step]
    split
    case isTrue hgranted =>
      cases method with
      | renew =>
        simp only [call]
        split <;> exact h
      | assertHeld => exact h
      | release =>
        have hphase : (s.leases other).phase ≠ .idle := by rw [hgranted]; simp
        simp only [call]
        split
        · exact hset s other _ rfl hphase
        · exact hset s other _ rfl hphase
    case isFalse => exact h

theorem not_acquire_of_called {token : Nat} {turn : Turn} (h : (s.leases token).phase ≠ .idle) :
    asked (served requests) (requests token).jobId s turn ≠ some (.acquire (leaseValue requests token)) := by
  intro hasked
  obtain ⟨command, hserved, hkey⟩ := Option.bind_eq_some_iff.1 hasked
  obtain ⟨now, action⟩ := turn
  rw [Option.ite_none_right_eq_some, Option.some.injEq] at hkey
  cases action with
  | acquire other =>
    simp only [served, Option.ite_none_right_eq_some, Option.some.injEq] at hserved
    obtain ⟨hidle, rfl⟩ := hserved
    obtain ⟨-, hvalue⟩ := hkey
    rw [Operation.acquire.injEq] at hvalue
    exact h (leaseValue_inj hvalue ▸ hidle)
  | method other method =>
    cases method with
    | renew | release =>
      simp only [served, Option.ite_none_right_eq_some, Option.some.injEq] at hserved
      obtain ⟨-, rfl⟩ := hserved
      cases hkey.2
    | assertHeld => cases hserved

theorem step_owned {token : Nat} : (Leases.step (leaseTtl requests) (keys s (requests token).jobId)
      ⟨now, .renew (leaseValue requests token)⟩).1 = owns s now (requests token).jobId (leaseValue requests token) := by
  rw [Bool.eq_iff_iff, owns_iff]
  simp only [Leases.step]
  split <;> simp_all

theorem acquired_eq {token : Nat} {granted : Bool} {turn : Turn} (haction : turn.action = .acquire token)
    (h : (step requests s turn).1 = some (.acquired granted)) : granted =
      (Leases.step (leaseTtl requests) (keys s (requests token).jobId) ⟨turn.now, .acquire (leaseValue requests token)⟩).1 := by
  simp only [step, haction, acquire] at h
  simp only [Leases.step, get_keys]
  split at h
  case isFalse => cases h
  case isTrue =>
    cases hrecord : s.records (requests token).jobId with
    | none =>
      rw [hrecord] at h
      simpa [eq_comm] using h
    | some existing =>
      rw [hrecord] at h
      by_cases halive : turn.now < existing.expiresAt <;> simpa [halive, eq_comm] using h

theorem held_eq {token : Nat} {method : LeaseMethod} {held : Bool} {turn : Turn} (haction : turn.action = .method token method)
    (h : (step requests s turn).1 = some (.renewed held) ∨ (step requests s turn).1 = some (.asserted held)) : held =
      (!(s.leases token).released && (Leases.step (leaseTtl requests) (keys s (requests token).jobId)
        ⟨turn.now, .renew (leaseValue requests token)⟩).1) := by
  rw [step_owned]
  simp only [step, haction] at h
  split at h
  case isFalse => simp at h
  case isTrue =>
    cases method with
    | renew =>
      simp only [call] at h
      split at h
      · cases hreleased : (s.leases token).released <;> simp_all
      · simp_all
    | assertHeld =>
      simp only [call] at h
      simp_all
    | release => simp [call] at h

/-- The same of the store in memory, where a lease that `release` was called on counts as lost at once, and `assertHeld`
starts no new time. -/
theorem in_memory_job_leases (h : StoreRun requests trace s clock) :
    (∀ now a b, clock ≤ now → (requests a).jobId = (requests b).jobId → InForce requests trace a now →
      InForce requests trace b now → a = b) ∧
    ∀ pre e post, trace = pre ++ e :: post →
      (∀ token granted, e.call.action = .acquire token → e.result = some (.acquired granted) →
        (granted = true ↔ ∀ other, (requests other).jobId = (requests token).jobId → ¬ InForce requests pre other e.call.now)) ∧
      (∀ token method held, e.call.action = .method token method →
        e.result = some (.renewed held) ∨ e.result = some (.asserted held) →
        (held = true ↔ (e.before.leases token).released = false ∧ InForce requests pre token e.call.now)) ∧
      (∀ token now, (e.before.leases token).phase = .granted → ¬ InForce requests pre token e.call.now → clock ≤ now →
        ¬ InForce requests trace token now) := by
  constructor
  · intro now a b hle hjob ha hb
    rw [InForce, ← hjob] at hb
    exact leaseValue_inj (held_unique serves keys_start h hle ha hb)
  · intro pre e post heq
    obtain ⟨t, turn, clk, hpre, hle, -, rfl⟩ := h.cut heq
    change clk ≤ turn.now at hle
    refine ⟨fun token granted haction hanswer => ?_, fun token method held haction hanswer => ?_, fun token now hgranted hlost hnow => ?_⟩
    · obtain ⟨clk', hclk, hrun⟩ := history_run serves keys_start hpre (requests token).jobId
      have hacquire := acquire_iff (leaseValue requests token) hrun (Nat.le_trans hclk hle)
      rw [acquired_eq haction hanswer]
      refine Iff.trans hacquire ?_
      constructor
      · intro hfree other hjob hforce
        rw [InForce, hjob] at hforce
        exact hfree _ hforce
      · intro hfree holder hforce
        obtain ⟨e, he, htoken⟩ := hforce.mem
        obtain ⟨d, -, hasked, -⟩ := mem_history he
        obtain ⟨other, hkey, hvalue⟩ := token_of_asked hasked
        obtain rfl := htoken.symm.trans hvalue
        refine hfree other hkey ?_
        rw [InForce, hkey]
        exact hforce
    · obtain ⟨clk', hclk, hrun⟩ := history_run serves keys_start hpre (requests token).jobId
      rw [held_eq haction hanswer, Bool.and_eq_true, Bool.not_eq_true']
      exact and_congr Iff.rfl (renew_iff hrun (Nat.le_trans hclk hle))
    · refine lost_forever serves keys_start h heq hlost (fun d hd => ?_) hnow
      have hcalled : (t.leases token).phase ≠ .idle := by
        rw [show (t.leases token).phase = .granted from hgranted]
        simp
      exact not_acquire_of_called ((kept_after (called_step token) h heq hcalled).1 d hd)

/-- Two workers ask for one job. -/
def sampleRequests (token : Nat) : LeaseRequest := { jobId := "job", fence := token, ttlMs := 30000, ttlMs_pos := by decide }

def sampleTurns : List Turn := [⟨10, .acquire 0⟩, ⟨20, .acquire 1⟩]

theorem in_memory_job_leases_sample :
    ∃ other, InForce sampleRequests ((execute (step sampleRequests) start sampleTurns).take 1) other 20 := by
  have hstart : StoreRun sampleRequests [] start 0 := .start
  obtain ⟨clock, hrun⟩ := hstart.follow sampleTurns (by decide) fun _ _ _ => trivial
  have hanswer := ((in_memory_job_leases hrun).2 ((execute (step sampleRequests) start sampleTurns).take 1)
    (stepOf (step sampleRequests) (stateAfter (step sampleRequests) start (sampleTurns.take 1)) ⟨20, .acquire 1⟩) [] rfl).1
    1 false rfl (by decide +kernel)
  by_contra hnone
  have hgranted := hanswer.2 fun other _ hforce => hnone ⟨other, hforce⟩
  cases hgranted

end

end InMemoryJobLeaseStore

end Hyeboard.Automation
