import Hyeboard.Lib.Runs
import Hyeboard.ProbeBudget.State
/-!
# The probe-budget object of one session

`apps/worker/src/vnu/vnu-probe-budget-durable-object.ts`: four stored maps, two
budget windows and one alarm. Every operation runs in one storage transaction,
which a throw rolls back, so a session's calls are served one at a time.
-/

namespace Hyeboard.ProbeBudget

/-- The stored keys and the alarm. -/
structure Storage where
  window : Option StoredBudgetWindow
  brc1Permits : Option (Record Nat)
  crossDetailPermits : Option (Record StoredCrossDetailPermit)
  crossDetailWindow : Option StoredBudgetWindow
  crossDetailLeases : Option (Record Nat)
  alarm : Option Nat
deriving DecidableEq

def Storage.empty : Storage :=
  { window := none, brc1Permits := none, crossDetailPermits := none, crossDetailWindow := none, crossDetailLeases := none
    alarm := none }

inductive Operation where
  | acquireBrc1Permit
  | releaseBrc1Permit (leaseId : String)
  | consumeCrossDetailPermit (input : VnuCrossDetailConsumeInput)
  | issueCrossDetailPermits (permits : List VnuCrossDetailIssuedPermit)
  | releaseCrossDetailLease (leaseId : String)
  | reserve (amount : Nat)
  | alarm
deriving DecidableEq, Repr

/-- A call, the clock when it is served, and what `randomHex32` gives it. -/
structure Call where
  operation : Operation
  now : Nat
  randomHex32 : String
deriving DecidableEq, Repr

inductive OperationResult where
  | brc1Permit (result : VnuBrc1PermitResult)
  | consume (result : VnuCrossDetailConsumeResult)
  | reserve (result : VnuProbeBudgetResult)
  | done
deriving DecidableEq, Repr

/-! ## Stored maps -/

def activePermits (storage : Storage) (now : Nat) : Record Nat := activeLeases storage.brc1Permits now

def activeCrossDetailLeases (storage : Storage) (now : Nat) : Record Nat := activeLeases storage.crossDetailLeases now

/-- A map is deleted when it is empty. -/
def stored {α : Type} (map : Record α) : Option (Record α) := if map.size = 0 then none else some map

/-- The expiries `rescheduleAlarm` takes from a lease map. -/
def leaseExpiries (leases : Option (Record Nat)) (now : Nat) : List Nat :=
  ((leases.getD .empty).entries.map Prod.snd).filter fun expiresAt => isSafe expiresAt && expiresAt > now

def rescheduleAlarm (storage : Storage) (now : Nat) : Except String Storage := do
  let permits ← parseStoredCrossDetailPermits storage.crossDetailPermits
  let expiries := leaseExpiries storage.brc1Permits now ++
    (permits.entries.map fun e => e.2.expiresAt).filter (· > now) ++ leaseExpiries storage.crossDetailLeases now
  return { storage with alarm := expiries.min? }

def storePermits (storage : Storage) (permits : Record Nat) (now : Nat) : Except String Storage :=
  rescheduleAlarm { storage with brc1Permits := stored permits } now

def storeCrossDetailPermits (storage : Storage) (permits : Record StoredCrossDetailPermit) (now : Nat) :
    Except String Storage :=
  rescheduleAlarm { storage with crossDetailPermits := stored permits } now

def storeCrossDetailLeases (storage : Storage) (leases : Record Nat) (now : Nat) : Except String Storage :=
  rescheduleAlarm { storage with crossDetailLeases := stored leases } now

/-! ## Operations -/

section
variable (storage : Storage) (now : Nat)

def acquireBrc1Permit (randomHex32 : String) : Except String (VnuBrc1PermitResult × Storage) := do
  let permits := activePermits storage now
  if permits.size ≥ vnuBrc1PermitLimit then
    return (.refused 1, storage)
  let leaseId := randomHex32
  let expiresAt := now + vnuBrc1PermitLeaseMs
  let next ← rescheduleAlarm { storage with brc1Permits := some (permits.set leaseId expiresAt) } now
  return (.allowed leaseId expiresAt, next)

def releaseBrc1Permit (leaseId : String) : Except String Storage :=
  let permits := activePermits storage now
  if !isHex 32 leaseId then .ok storage
  else if (permits.get? leaseId).isNone then .ok storage
  else storePermits storage (permits.delete leaseId) now

/-- The stored record is the one presented, and not consumed. -/
def permitMatches (record : StoredCrossDetailPermit) (input : VnuCrossDetailConsumeInput) : Bool :=
  record.consumedAt.isNone && record.nonce == input.nonce && record.requesterHmac == input.requesterHmac &&
    record.targetHmac == input.targetHmac && record.revisionHmac == input.revisionHmac &&
    record.rowHmac == input.rowHmac && record.policyVersion == input.policyVersion

def consumeCrossDetailPermit (input : VnuCrossDetailConsumeInput) (limits : VnuCrossDetailLimits)
    (randomHex32 : String) : Except String (VnuCrossDetailConsumeResult × Storage) := do
  assertValidVnuCrossDetailLimits limits
  match assertValidVnuCrossDetailConsumeInput input with
  | .error _ => return (.invalid, storage)
  | .ok _ =>
    let permits ← activeCrossDetailPermits storage.crossDetailPermits now
    let leases := activeCrossDetailLeases storage now
    match (permits.get? input.permitHash).filter (permitMatches · input) with
    | none => return (.invalid, storage)
    | some record =>
      let storedWindow ← parseStoredWindow storage.crossDetailWindow
      match consumeBudgetWindow storedWindow 1 now limits.budget limits.windowSeconds with
      | (_, .refused retryAfterSeconds) => return (.budget retryAfterSeconds, storage)
      | (window, .allowed) =>
        if leases.size ≥ limits.concurrency then
          return (.busy 1, storage)
        let leaseId := randomHex32
        let expiresAt := now + vnuCrossDetailLeaseMs
        let next ← rescheduleAlarm
          { storage with
            crossDetailPermits := some (permits.set input.permitHash { record with consumedAt := some now })
            crossDetailWindow := some window
            crossDetailLeases := some (leases.set leaseId expiresAt) } now
        return (.allowed leaseId expiresAt record.envelope, next)

def issueCrossDetailPermits (permits : List VnuCrossDetailIssuedPermit) (limits : VnuCrossDetailLimits) :
    Except String Storage := do
  assertValidVnuCrossDetailLimits limits
  assertValidVnuCrossDetailIssuedPermits permits limits
  let active ← activeCrossDetailPermits storage.crossDetailPermits now
  let next := permits.foldl (fun map permit => map.set permit.permitHash { permit.record with }) active
  rescheduleAlarm { storage with crossDetailPermits := some next } now

def releaseCrossDetailLease (leaseId : String) : Except String Storage :=
  let leases := activeCrossDetailLeases storage now
  if !isHex 32 leaseId then .ok storage
  else if (leases.get? leaseId).isNone then .ok storage
  else storeCrossDetailLeases storage (leases.delete leaseId) now

def alarm : Except String Storage := do
  let pruned ← storePermits storage (activePermits storage now) now
  let permits ← activeCrossDetailPermits pruned.crossDetailPermits now
  let pruned ← storeCrossDetailPermits pruned permits now
  storeCrossDetailLeases pruned (activeCrossDetailLeases pruned now) now

/-- `consume(amount)` is `reserve(amount)`. -/
def reserve (amount : Nat) : Except String (VnuProbeBudgetResult × Storage) := do
  require "VNU probe-budget amount is invalid" (isPositiveSafe amount && amount ≤ vnuProbeBudgetLimit)
  let window ← parseStoredWindow storage.window
  match consumeBudgetWindow window amount now vnuProbeBudgetLimit vnuProbeBudgetWindowSeconds with
  | (_, .refused retryAfterSeconds) => return (.refused retryAfterSeconds, storage)
  | (window, .allowed) => return (.allowed, { storage with window := some window })

end

/-- The object's method for each call. The runtime clears the alarm before it
runs the handler. -/
def handle (limits : VnuCrossDetailLimits) (storage : Storage) (call : Call) :
    Except String (OperationResult × Storage) :=
  match call.operation with
  | .acquireBrc1Permit => Prod.map .brc1Permit id <$> acquireBrc1Permit storage call.now call.randomHex32
  | .releaseBrc1Permit leaseId => (.done, ·) <$> releaseBrc1Permit storage call.now leaseId
  | .consumeCrossDetailPermit input =>
    Prod.map .consume id <$> consumeCrossDetailPermit storage call.now input limits call.randomHex32
  | .issueCrossDetailPermits permits => (.done, ·) <$> issueCrossDetailPermits storage call.now permits limits
  | .releaseCrossDetailLease leaseId => (.done, ·) <$> releaseCrossDetailLease storage call.now leaseId
  | .reserve amount => Prod.map .reserve id <$> reserve storage call.now amount
  | .alarm => (.done, ·) <$> alarm { storage with alarm := none } call.now

/-- A throw leaves storage as it was. -/
def serve (limits : VnuCrossDetailLimits) (storage : Storage) (call : Call) : Except String OperationResult × Storage :=
  match handle limits storage call with
  | .ok (result, next) => (.ok result, next)
  | .error error => (.error error, storage)

theorem serve_of_handle {limits : VnuCrossDetailLimits} {storage next : Storage} {call : Call} {result : OperationResult}
    (h : handle limits storage call = .ok (result, next)) : serve limits storage call = (.ok result, next) := by
  unfold serve
  rw [h]

/-! ## What each operation does to storage -/

/-- Every stored permit can be read back. -/
def PermitsValid (map : Option (Record StoredCrossDetailPermit)) : Prop :=
  ∀ e ∈ (map.getD .empty).entries, storedPermitOk e.1 e.2 = true

/-- The permits a map holds at `now`. -/
def livePermits (map : Option (Record StoredCrossDetailPermit)) (now : Nat) : Record StoredCrossDetailPermit :=
  (map.getD .empty).filter fun record => record.expiresAt > now

/-- The expiries after `now` of the permits and of the leases. -/
def Storage.expiries (storage : Storage) (now : Nat) : List Nat :=
  leaseExpiries storage.brc1Permits now ++
    (((storage.crossDetailPermits.getD .empty).entries.map fun e => e.2.expiresAt).filter (· > now)) ++
    leaseExpiries storage.crossDetailLeases now

/-- The alarm at the earliest of them. -/
def Storage.rescheduled (storage : Storage) (now : Nat) : Storage :=
  { storage with alarm := (storage.expiries now).min? }

section
variable {storage next : Storage} {now : Nat}

theorem parseStoredCrossDetailPermits_eq_ok {map : Option (Record StoredCrossDetailPermit)}
    {permits : Record StoredCrossDetailPermit} :
    parseStoredCrossDetailPermits map = .ok permits ↔ PermitsValid map ∧ permits = map.getD .empty := by
  simp only [parseStoredCrossDetailPermits, PermitsValid, bind_eq_ok, require_eq_ok, pure_eq_ok, List.all_eq_true]
  constructor
  · rintro ⟨_, hvalid, h⟩
    exact ⟨hvalid, h.symm⟩
  · rintro ⟨hvalid, h⟩
    exact ⟨(), hvalid, h.symm⟩

theorem activeCrossDetailPermits_eq_ok {map : Option (Record StoredCrossDetailPermit)}
    {permits : Record StoredCrossDetailPermit} :
    activeCrossDetailPermits map now = .ok permits ↔ PermitsValid map ∧ permits = livePermits map now := by
  simp only [activeCrossDetailPermits, bind_eq_ok, parseStoredCrossDetailPermits_eq_ok, pure_eq_ok, livePermits]
  constructor
  · rintro ⟨_, ⟨hvalid, rfl⟩, h⟩
    exact ⟨hvalid, h.symm⟩
  · rintro ⟨hvalid, h⟩
    exact ⟨_, ⟨hvalid, rfl⟩, h.symm⟩

theorem rescheduleAlarm_eq_ok :
    rescheduleAlarm storage now = .ok next ↔ PermitsValid storage.crossDetailPermits ∧ next = storage.rescheduled now := by
  simp only [rescheduleAlarm, bind_eq_ok, parseStoredCrossDetailPermits_eq_ok, pure_eq_ok]
  constructor
  · rintro ⟨_, ⟨hvalid, rfl⟩, h⟩
    exact ⟨hvalid, h.symm⟩
  · rintro ⟨hvalid, h⟩
    exact ⟨_, ⟨hvalid, rfl⟩, h.symm⟩

@[simp] theorem stored_getD {α : Type} (map : Record α) : (stored map).getD .empty = map := by
  unfold stored
  split
  · rename_i h
    exact (Record.ext_entries (List.length_eq_zero_iff.1 h)).symm
  · rfl

theorem PermitsValid.live {map : Option (Record StoredCrossDetailPermit)} (h : PermitsValid map) (now : Nat) :
    ∀ e ∈ (livePermits map now).entries, storedPermitOk e.1 e.2 = true :=
  fun e he => h e (Record.mem_entries_filter.1 he).1

theorem PermitsValid.pruned {map : Option (Record StoredCrossDetailPermit)} (h : PermitsValid map) (now : Nat) :
    PermitsValid (stored (livePermits map now)) := by
  unfold PermitsValid
  rw [stored_getD]
  exact h.live now

/-- What the alarm leaves: the three maps without what has expired. -/
def Storage.pruned (storage : Storage) (now : Nat) : Storage :=
  { storage with
    brc1Permits := stored (activePermits storage now)
    crossDetailPermits := stored (livePermits storage.crossDetailPermits now)
    crossDetailLeases := stored (activeCrossDetailLeases storage now) }

theorem alarm_eq_ok :
    alarm storage now = .ok next ↔
      PermitsValid storage.crossDetailPermits ∧ next = (storage.pruned now).rescheduled now := by
  simp only [alarm, storePermits, storeCrossDetailPermits, storeCrossDetailLeases, bind_eq_ok, rescheduleAlarm_eq_ok,
    activeCrossDetailPermits_eq_ok]
  constructor
  · rintro ⟨_, ⟨hvalid, rfl⟩, _, ⟨-, rfl⟩, _, ⟨-, rfl⟩, -, h⟩
    exact ⟨hvalid, h⟩
  · rintro ⟨hvalid, h⟩
    have hlive : PermitsValid (stored (livePermits storage.crossDetailPermits now)) := hvalid.pruned now
    exact ⟨_, ⟨hvalid, rfl⟩, _, ⟨hvalid, rfl⟩, _, ⟨hlive, rfl⟩, hlive, h⟩

end

end Hyeboard.ProbeBudget
