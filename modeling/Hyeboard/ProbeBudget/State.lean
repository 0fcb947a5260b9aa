import Hyeboard.Lib.FixedWindow
import Hyeboard.Lib.JsValue
/-!
# What a session's probe-budget object stores

`apps/worker/src/vnu/vnu-probe-budget.ts` and
`vnu-probe-budget-durable-object.ts`: permits, leases and budget windows, the
checks their values pass, and the pure parts of the operations. Only the object
writes its storage, so what is read back has the types it was written with; the
checks on contents stay.
-/

namespace Hyeboard.ProbeBudget

def vnuProbeBudgetLimit : Nat := 300
def vnuProbeBudgetWindowSeconds : Nat := 600
def vnuBrc1PermitLimit : Nat := 6
def vnuBrc1PermitLeaseMs : Nat := 125000
def vnuCrossDetailPolicyVersion : Nat := 1
def vnuCrossDetailLeaseMs : Nat := 125000
def vnuCrossDetailEnvelopeMaxLength : Nat := 1024

structure VnuCrossDetailLimits where
  maxTargets : Nat
  maxRows : Nat
  concurrency : Nat
  budget : Nat
  windowSeconds : Nat
deriving DecidableEq, Repr

structure VnuCrossDetailPermitRecord where
  requesterHmac : String
  targetHmac : String
  revisionHmac : String
  rowHmac : String
  policyVersion : Nat
  nonce : String
  envelope : String
  expiresAt : Nat
deriving DecidableEq, Repr

structure VnuCrossDetailIssuedPermit where
  permitHash : String
  record : VnuCrossDetailPermitRecord
deriving DecidableEq, Repr

structure VnuCrossDetailConsumeInput where
  permitHash : String
  nonce : String
  requesterHmac : String
  targetHmac : String
  revisionHmac : String
  rowHmac : String
  policyVersion : Nat
deriving DecidableEq, Repr

structure StoredBudgetWindow where
  count : Nat
  resetAt : Nat
deriving DecidableEq, Repr

structure StoredCrossDetailPermit extends VnuCrossDetailPermitRecord where
  consumedAt : Option Nat := none
deriving DecidableEq, Repr

inductive VnuProbeBudgetResult where
  | allowed
  | refused (retryAfterSeconds : Nat)
deriving DecidableEq, Repr

inductive VnuBrc1PermitResult where
  | allowed (leaseId : String) (expiresAt : Nat)
  | refused (retryAfterSeconds : Nat)
deriving DecidableEq, Repr

inductive VnuCrossDetailConsumeResult where
  | allowed (leaseId : String) (expiresAt : Nat) (envelope : String)
  | invalid
  | budget (retryAfterSeconds : Nat)
  | busy (retryAfterSeconds : Nat)
deriving DecidableEq, Repr

/-! ## Checks -/

/-- `/^[0-9a-f]{length}$/`. -/
def isHex (length : Nat) (s : String) : Bool :=
  s.length == length && s.toList.all fun c => c.isDigit || ('a' ≤ c && c ≤ 'f')

/-- `Number.isSafeInteger(n)`, of a number that is not negative. -/
def isSafe (n : Nat) : Bool := n ≤ maxSafeInteger

def isPositiveSafe (n : Nat) : Bool := 0 < n && isSafe n

def assertValidVnuCrossDetailLimits (limits : VnuCrossDetailLimits) : Except String Unit := do
  let error := "VNU cross-detail limits are invalid"
  require error (isPositiveSafe limits.maxTargets)
  require error (isPositiveSafe limits.maxRows)
  require error (isPositiveSafe limits.concurrency && limits.concurrency ≤ 16)
  require error (isPositiveSafe limits.budget)
  require error (isPositiveSafe limits.windowSeconds)

/-- The checks on the bindings of a permit, made of a record to be issued, of a
stored one and of a presented one alike. -/
def bindingsOk (requesterHmac targetHmac revisionHmac rowHmac : String) (policyVersion : Nat) (nonce : String) : Bool :=
  isHex 64 requesterHmac && isHex 64 targetHmac && isHex 64 revisionHmac && isHex 64 rowHmac &&
    policyVersion == vnuCrossDetailPolicyVersion && isHex 32 nonce

def assertValidCrossDetailRecord (record : VnuCrossDetailPermitRecord) : Except String Unit :=
  require "VNU cross-detail permit record is invalid"
    (bindingsOk record.requesterHmac record.targetHmac record.revisionHmac record.rowHmac record.policyVersion
        record.nonce &&
      record.envelope.length != 0 && record.envelope.length ≤ vnuCrossDetailEnvelopeMaxLength &&
      isPositiveSafe record.expiresAt)

def assertValidVnuCrossDetailIssuedPermits (permits : List VnuCrossDetailIssuedPermit) (limits : VnuCrossDetailLimits) :
    Except String Unit := do
  let error := "VNU cross-detail permit issuance is invalid"
  require error (permits.length != 0 && permits.length ≤ limits.maxRows)
  permits.forM fun permit => do
    require error (isHex 64 permit.permitHash)
    assertValidCrossDetailRecord permit.record
  require error ((permits.map (·.record.targetHmac)).dedup.length ≤ limits.maxTargets)

def assertValidVnuCrossDetailConsumeInput (input : VnuCrossDetailConsumeInput) : Except String Unit :=
  require "VNU cross-detail consume input is invalid"
    (isHex 64 input.permitHash &&
      bindingsOk input.requesterHmac input.targetHmac input.revisionHmac input.rowHmac input.policyVersion input.nonce)

def parseStoredWindow : Option StoredBudgetWindow → Except String (Option StoredBudgetWindow)
  | none => .ok none
  | some window => do
    require "Stored VNU probe count is invalid" (isSafe window.count)
    require "Stored VNU probe reset time is invalid" (isPositiveSafe window.resetAt)
    return some window

/-- What `parseStoredCrossDetailPermits` asks of one entry. -/
def storedPermitOk (permitHash : String) (record : StoredCrossDetailPermit) : Bool :=
  isHex 64 permitHash &&
    bindingsOk record.requesterHmac record.targetHmac record.revisionHmac record.rowHmac record.policyVersion
      record.nonce &&
    record.envelope.length != 0 && isPositiveSafe record.expiresAt && record.consumedAt.all isPositiveSafe

def parseStoredCrossDetailPermits (stored : Option (Record StoredCrossDetailPermit)) :
    Except String (Record StoredCrossDetailPermit) := do
  let permits := stored.getD .empty
  require "Stored VNU cross-detail permits are invalid" (permits.entries.all fun e => storedPermitOk e.1 e.2)
  return permits

/-! ## Budget windows -/

/-- `Math.max(1, Math.ceil((resetAt - now) / 1000))`. -/
def retryAfterSeconds (resetAt now : Nat) : Nat := max 1 ((resetAt - now + 999) / 1000)

/-- The window a charge at `now` is made in. -/
def currentWindow (stored : Option StoredBudgetWindow) (now windowSeconds : Nat) : StoredBudgetWindow :=
  match stored with
  | none => { count := 0, resetAt := now + windowSeconds * 1000 }
  | some window => if now ≥ window.resetAt then { count := 0, resetAt := now + windowSeconds * 1000 } else window

def consumeBudgetWindow (stored : Option StoredBudgetWindow) (amount now limit windowSeconds : Nat) :
    StoredBudgetWindow × VnuProbeBudgetResult :=
  let window := currentWindow stored now windowSeconds
  if window.count + amount > limit then
    (window, .refused (retryAfterSeconds window.resetAt now))
  else
    ({ window with count := window.count + amount }, .allowed)

/-! ## Expiry -/

/-- The leases a map holds at `now`; `activePermits` and
`activeCrossDetailLeases` read their maps alike. -/
def activeLeases (stored : Option (Record Nat)) (now : Nat) : Record Nat :=
  (stored.getD .empty).select fun leaseId expiresAt => isHex 32 leaseId && isSafe expiresAt && expiresAt > now

def activeCrossDetailPermits (stored : Option (Record StoredCrossDetailPermit)) (now : Nat) :
    Except String (Record StoredCrossDetailPermit) := do
  let permits ← parseStoredCrossDetailPermits stored
  return permits.filter fun record => record.expiresAt > now

end Hyeboard.ProbeBudget
