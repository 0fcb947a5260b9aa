import Hyeboard.Lib.ExpiringKeys
import Hyeboard.ProbeBudget.DurableObject
/-!
# The two probe-budget coordinators

`apps/worker/src/vnu/vnu-probe-budget.ts` in front of a session's object, and
`apps/worker/src/node/redis/vnu-probe-budget-coordinator.ts` over the Lua
scripts of `scripts.ts`. One session, whose identity is well formed, and calls
without an abort signal.
-/

namespace Hyeboard.ProbeBudget

/-- What a method of a coordinator throws. -/
inductive CoordinatorError where
  | error (message : String)
  | hyeboard (code message : String) (status : Nat) (details : List (String × Nat))
deriving DecidableEq, Repr

/-- What a method of a coordinator returns. -/
inductive Answer where
  | done
  | lease (leaseId : String) (expiresAt : Nat)
  | consumed (leaseId : String) (expiresAt : Nat) (envelope : String)
deriving DecidableEq, Repr

def vnuProbeBudgetUnavailableRetrySeconds : Nat := 5

def probeBudgetUnavailable : CoordinatorError :=
  .hyeboard "VNU_PROBE_BUDGET_UNAVAILABLE" "The VNU lookup probe budget is temporarily unavailable. Try again shortly." 503
    [("retryAfterSeconds", vnuProbeBudgetUnavailableRetrySeconds)]

def busy (retryAfterSeconds : Nat) : CoordinatorError :=
  .hyeboard "VNU_CROSS_LOOKUP_BUSY"
    "This VNU session is handling the maximum number of lookups. Try again shortly." 429
    [("retryAfterSeconds", retryAfterSeconds)]

def crossDetailPermitInvalid : CoordinatorError :=
  .hyeboard "VNU_CROSS_DETAIL_PERMIT_INVALID" "The cross-detail permit is invalid or expired." 403 []

def probeLimitMessage : String :=
  "This session has reached the VNU lookup probe limit. Wait for the probe window to reset and try again."

def detailLimitMessage : String :=
  "This session has reached the VNU grade-detail lookup limit. Wait for the detail window to reset and try again."

def rateLimited (message : String) (retryAfterSeconds limit windowSeconds : Nat) : CoordinatorError :=
  .hyeboard "VNU_RATE_LIMITED" message 429
    [("retryAfterSeconds", retryAfterSeconds), ("limit", limit), ("windowSeconds", windowSeconds)]

/-! ## Checks on arguments -/

def assertValidConsumeAmount (amount : Nat) : Except String Unit :=
  require "VNU probe-budget amount is invalid" (isPositiveSafe amount && amount ≤ vnuProbeBudgetLimit)

/-- The checks both coordinators make before they ask the session's store. -/
def assertArguments (limits : VnuCrossDetailLimits) : Operation → Except String Unit
  | .acquireBrc1Permit | .alarm => .ok ()
  | .releaseBrc1Permit leaseId => require "VNU Brc1 permit lease is invalid" (isHex 32 leaseId)
  | .consumeCrossDetailPermit input => do
    assertValidVnuCrossDetailLimits limits
    assertValidVnuCrossDetailConsumeInput input
  | .issueCrossDetailPermits permits => do
    assertValidVnuCrossDetailLimits limits
    assertValidVnuCrossDetailIssuedPermits permits limits
  | .releaseCrossDetailLease leaseId => require "VNU cross-detail lease is invalid" (isHex 32 leaseId)
  | .reserve amount => assertValidConsumeAmount amount

/-! ## `DurableObjectVnuProbeBudgetCoordinator` -/

/-- What a coordinator makes of the object's result. -/
def durableAnswer (limits : VnuCrossDetailLimits) : OperationResult → Except CoordinatorError Answer
  | .brc1Permit (.allowed leaseId expiresAt) => .ok (.lease leaseId expiresAt)
  | .brc1Permit (.refused retryAfterSeconds) => .error (busy retryAfterSeconds)
  | .consume (.allowed leaseId expiresAt envelope) => .ok (.consumed leaseId expiresAt envelope)
  | .consume .invalid => .error crossDetailPermitInvalid
  | .consume (.budget retryAfterSeconds) =>
    .error (rateLimited detailLimitMessage retryAfterSeconds limits.budget limits.windowSeconds)
  | .consume (.busy retryAfterSeconds) => .error (busy retryAfterSeconds)
  | .reserve .allowed => .ok .done
  | .reserve (.refused retryAfterSeconds) =>
    .error (rateLimited probeLimitMessage retryAfterSeconds vnuProbeBudgetLimit vnuProbeBudgetWindowSeconds)
  | .done => .ok .done

/-- A method of the coordinator: whatever the object throws is "unavailable". -/
def coordinateDurably (limits : VnuCrossDetailLimits) (storage : Storage) (call : Call) :
    Except CoordinatorError Answer × Storage :=
  match assertArguments limits call.operation with
  | .error message => (.error (.error message), storage)
  | .ok _ =>
    match serve limits storage call with
    | (.ok result, next) => (durableAnswer limits result, next)
    | (.error _, next) => (.error probeBudgetUnavailable, next)

/-! ## The Redis scripts -/

open ExpiringKeys

/-- A session's keys; one key for each permit hash. -/
structure RedisSession where
  probeBudget : Key Nat
  brc1Leases : Key (Record Nat)
  crossDetailLeases : Key (Record Nat)
  crossDetailWindow : Key Nat
  crossDetailPermit : String → Key VnuCrossDetailPermitRecord

def RedisSession.empty : RedisSession :=
  { probeBudget := none, brc1Leases := none, crossDetailLeases := none, crossDetailWindow := none
    crossDetailPermit := fun _ => none }

/-- `math.max(1, math.ceil(ms / 1000))`. -/
def ceilSeconds (ms : Nat) : Nat := max 1 ((ms + 999) / 1000)

/-- The count and the time to live a charge starts from. -/
def windowCount (key : Key Nat) (now windowMs : Nat) : Nat × Nat :=
  let ttl := key.pttl now
  if ttl < 1 then (0, windowMs) else ((key.get now).getD 0, ttl.toNat)

/-- The key after a charge; the script then sets the time to live again. -/
def chargeWindow (key : Key Nat) (now amount windowMs : Nat) : Key Nat :=
  let (count, ttl) := windowCount key now windowMs
  if count = 0 then .setPx amount now windowMs else (key.incrBy now amount).pexpire now ttl

def fixedWindowScript (key : Key Nat) (now amount windowMs limit : Nat) : (Nat × Nat) × Key Nat :=
  let (count, ttl) := windowCount key now windowMs
  if count + amount > limit then
    ((0, ceilSeconds ttl), key)
  else
    ((1, 0), chargeWindow key now amount windowMs)

def acquireLeaseScript (key : Key (Record Nat)) (now expiry limit : Nat) (leaseId : String) :
    (Nat × Nat) × Key (Record Nat) :=
  let key := key.zremrangebyscore now now
  if key.zcard now ≥ limit then
    ((0, ceilSeconds ((key.lowestScore now).getD 0 - now)), key)
  else
    ((1, expiry), (key.zadd now expiry leaseId).pexpire now (max 1 (expiry - now)))

def releaseLeaseScript (key : Key (Record Nat)) (now : Nat) (leaseId : String) : Key (Record Nat) :=
  key.zrem now leaseId

/-- One SET with PX for each permit. -/
def issuePermitScript (keys : String → Key VnuCrossDetailPermitRecord) (now : Nat)
    (permits : List VnuCrossDetailIssuedPermit) : String → Key VnuCrossDetailPermitRecord :=
  permits.foldl (fun keys permit =>
    Function.update keys permit.permitHash (.setPx permit.record now (max 1 (permit.record.expiresAt - now)))) keys

/-- The bindings the script compares. -/
def recordMatches (record : VnuCrossDetailPermitRecord) (input : VnuCrossDetailConsumeInput) : Bool :=
  record.nonce == input.nonce && record.requesterHmac == input.requesterHmac && record.targetHmac == input.targetHmac &&
    record.revisionHmac == input.revisionHmac && record.rowHmac == input.rowHmac &&
    record.policyVersion == input.policyVersion

inductive ConsumeReply where
  | invalid
  | consumed (expiresAt : Nat) (envelope : String)
  | budget (retryAfterSeconds : Nat)
  | busy (retryAfterSeconds : Nat)
deriving DecidableEq, Repr

def consumeCrossDetailScript (keys : RedisSession) (now : Nat) (input : VnuCrossDetailConsumeInput)
    (limits : VnuCrossDetailLimits) (expiresAt : Nat) (leaseId : String) : ConsumeReply × RedisSession :=
  match (keys.crossDetailPermit input.permitHash).get now with
  | none => (.invalid, keys)
  | some record =>
    if record.expiresAt ≤ now || !recordMatches record input then (.invalid, keys)
    else
      let (count, windowTtl) := windowCount keys.crossDetailWindow now (limits.windowSeconds * 1000)
      if count + 1 > limits.budget then (.budget (ceilSeconds windowTtl), keys)
      else
        let leases := keys.crossDetailLeases.zremrangebyscore now now
        if leases.zcard now ≥ limits.concurrency then (.busy 1, { keys with crossDetailLeases := leases })
        else
          (.consumed expiresAt record.envelope,
            { keys with
              crossDetailWindow := chargeWindow keys.crossDetailWindow now 1 (limits.windowSeconds * 1000)
              crossDetailPermit := Function.update keys.crossDetailPermit input.permitHash none
              crossDetailLeases := (leases.zadd now expiresAt leaseId).pexpire now (max 1 (expiresAt - now)) })

/-! ## `RedisVnuProbeBudgetCoordinator` -/

/-- `number` of `primitives.ts`. -/
def number (n : Nat) : Except String Nat :=
  if isSafe n then .ok n else .error "Invalid Redis script result"

def consumeFixedWindow (key : Key Nat) (now amount windowMs limit : Nat) : Except String (Bool × Nat) × Key Nat :=
  let (reply, next) := fixedWindowScript key now amount windowMs limit
  (do
    let retryAfterSeconds ← number reply.2
    return (reply.1 == 1, retryAfterSeconds), next)

/-- The lease granted, or the seconds to wait. -/
def acquireRedisLease (key : Key (Record Nat)) (now limit ttlMs : Nat) (leaseId : String) :
    Except String (Except Nat (String × Nat)) × Key (Record Nat) :=
  let (reply, next) := acquireLeaseScript key now (now + ttlMs) limit leaseId
  (do
    let n ← number reply.2
    return if reply.1 = 1 then .ok (leaseId, n) else .error n, next)

/-- A method once its arguments are checked; what a script throws is
"unavailable". -/
def askRedis (limits : VnuCrossDetailLimits) (keys : RedisSession) (call : Call) :
    Except CoordinatorError Answer × RedisSession :=
  let now := call.now
  match call.operation with
  | .reserve amount =>
    let (result, key) :=
      consumeFixedWindow keys.probeBudget now amount (vnuProbeBudgetWindowSeconds * 1000) vnuProbeBudgetLimit
    let next := { keys with probeBudget := key }
    match result with
    | .error _ => (.error probeBudgetUnavailable, next)
    | .ok (true, _) => (.ok .done, next)
    | .ok (false, retryAfterSeconds) =>
      (.error (rateLimited probeLimitMessage retryAfterSeconds vnuProbeBudgetLimit vnuProbeBudgetWindowSeconds), next)
  | .acquireBrc1Permit =>
    let (result, key) := acquireRedisLease keys.brc1Leases now vnuBrc1PermitLimit vnuBrc1PermitLeaseMs call.randomHex32
    let next := { keys with brc1Leases := key }
    match result with
    | .error _ => (.error probeBudgetUnavailable, next)
    | .ok (.ok (leaseId, expiresAt)) => (.ok (.lease leaseId expiresAt), next)
    | .ok (.error retryAfterSeconds) => (.error (busy retryAfterSeconds), next)
  | .releaseBrc1Permit leaseId =>
    (.ok .done, { keys with brc1Leases := releaseLeaseScript keys.brc1Leases now leaseId })
  | .issueCrossDetailPermits permits =>
    (.ok .done, { keys with crossDetailPermit := issuePermitScript keys.crossDetailPermit now permits })
  | .consumeCrossDetailPermit input =>
    match consumeCrossDetailScript keys now input limits (now + vnuCrossDetailLeaseMs) call.randomHex32 with
    | (.invalid, next) => (.error crossDetailPermitInvalid, next)
    | (.budget retryAfterSeconds, next) =>
      (.error (rateLimited probeLimitMessage retryAfterSeconds limits.budget limits.windowSeconds), next)
    | (.busy retryAfterSeconds, next) => (.error (busy retryAfterSeconds), next)
    | (.consumed expiresAt envelope, next) => (.ok (.consumed call.randomHex32 expiresAt envelope), next)
  | .releaseCrossDetailLease leaseId =>
    (.ok .done, { keys with crossDetailLeases := releaseLeaseScript keys.crossDetailLeases now leaseId })
  | .alarm => (.ok .done, keys)

/-- Redis has no alarm: where the object's comes, nothing happens here. -/
def coordinateRedis (limits : VnuCrossDetailLimits) (keys : RedisSession) (call : Call) :
    Except CoordinatorError Answer × RedisSession :=
  match assertArguments limits call.operation with
  | .error message => (.error (.error message), keys)
  | .ok _ => askRedis limits keys call

end Hyeboard.ProbeBudget
