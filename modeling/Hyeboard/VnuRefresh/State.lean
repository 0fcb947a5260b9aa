import Hyeboard.Lib.JsValue
/-!
# The stored state of a VNU refresh principal

`apps/worker/src/vnu/vnu-refresh-control.ts`: the record kept for one
principal, and the checks it passes when it is read back from storage.
`Valid` is what `parseVnuRefreshControlState` accepts of a state the code
wrote (`parse_toJs`); everything it accepts is valid (`parse_valid`).
-/

namespace Hyeboard.VnuRefresh

def vnuRefreshAttemptLimit : Nat := 5
def vnuRefreshWindowMs : Nat := 15 * 60 * 1000
def vnuManualActivationLimit : Nat := 5
def vnuManualActivationWindowSeconds : Nat := 900
def vnuManualActivationWindowMs : Nat := vnuManualActivationWindowSeconds * 1000
def vnuRefreshLeaseMs : Nat := 2 * 60 * 1000

structure LinkedPair where
  accessTokenId : String
  accessExpiresAt : Nat
  grantId : String
  grantExpiresAt : Nat
deriving DecidableEq, Repr

structure RefreshLease where
  pair : LinkedPair
  expiresAt : Nat
deriving DecidableEq, Repr

structure RefreshWindow where
  count : Nat
  resetAt : Nat
deriving DecidableEq, Repr

/-- A revoked grant's tombstone; with `refreshSuccessor` when a refresh
replaced the pair. -/
structure LinkedGrantTombstone where
  accessTokenId : String
  accessExpiresAt : Nat
  grantExpiresAt : Nat
  refreshSuccessor : Option LinkedPair := none
deriving DecidableEq, Repr

/-- A bare expiry is the form older deployments stored. -/
inductive RevokedGrantTombstone where
  | legacy (expiresAt : Nat)
  | linked (tombstone : LinkedGrantTombstone)
deriving DecidableEq, Repr

structure VnuRefreshControlState where
  active : Option LinkedPair
  lease : Option RefreshLease
  revokedAccess : Record Nat
  revokedGrants : Record RevokedGrantTombstone
  window : RefreshWindow
  activationWindow : Option RefreshWindow
deriving DecidableEq

/-! ## Checks on untyped values -/

def invalidPair : String := "Invalid VNU refresh pair"
def invalidState : String := "Invalid VNU refresh state"

/-- `/^[A-Za-z0-9_-]{22}$/`, the format of both identifiers. -/
def isIdentifier (s : String) : Bool :=
  s.length == 22 && s.toList.all (fun c => c.isAlphanum || c == '_' || c == '-')

open JsValue

def assertLinkedPair (value : JsValue) : Except String LinkedPair := do
  let pair ← value.asObject invalidPair
  require invalidPair (sortedKeys pair == ["accessExpiresAt", "accessTokenId", "grantExpiresAt", "grantId"])
  let accessTokenId ← (field pair "accessTokenId").asString invalidPair isIdentifier
  let grantId ← (field pair "grantId").asString invalidPair isIdentifier
  let accessExpiresAt ← (field pair "accessExpiresAt").asPositiveSafe invalidPair
  let grantExpiresAt ← (field pair "grantExpiresAt").asPositiveSafe invalidPair
  return { accessTokenId, accessExpiresAt, grantId, grantExpiresAt }

/-- A check made only when the property is there. -/
def unlessUndefined {α : Type} (check : JsValue → Except String α) : JsValue → Except String (Option α)
  | .undefined => .ok none
  | value => some <$> check value

/-- The checks `parseVnuRefreshControlState` makes on `state.lease`. -/
def assertRefreshLease (value : JsValue) : Except String RefreshLease := do
  let lease ← value.asObject invalidState
  require invalidState (",".intercalate (sortedKeys lease) == "expiresAt,pair")
  let pair ← assertLinkedPair (field lease "pair")
  let expiresAt ← (field lease "expiresAt").asPositiveSafe invalidState
  return { pair, expiresAt }

/-- A window with a count from `low` to `limit`: `state.window` (from 0) and
`assertActivationWindow` (from 1). -/
def assertWindow (low limit : Nat) (value : JsValue) : Except String RefreshWindow := do
  let window ← value.asObject invalidState
  require invalidState (",".intercalate (sortedKeys window) == "count,resetAt")
  let count ← (field window "count").asBounded invalidState low limit
  let resetAt ← (field window "resetAt").asPositiveSafe invalidState
  return { count, resetAt }

def assertActivationWindow (value : JsValue) : Except String RefreshWindow :=
  assertWindow 1 vnuManualActivationLimit value

/-- The successor recorded for a rotated pair: other identifiers, same grant
expiry. -/
def successorOk (tombstone : LinkedGrantTombstone) (revokedGrantId : String) : Bool :=
  match tombstone.refreshSuccessor with
  | none => true
  | some successor =>
    successor.accessTokenId != tombstone.accessTokenId && successor.grantId != revokedGrantId &&
      successor.grantExpiresAt == tombstone.grantExpiresAt

def assertLinkedGrantTombstone (value : JsValue) (revokedGrantId : String) : Except String LinkedGrantTombstone := do
  let tombstone ← value.asObject invalidState
  let keys := ",".intercalate (sortedKeys tombstone)
  require invalidState (keys == "accessExpiresAt,accessTokenId,grantExpiresAt" ||
    keys == "accessExpiresAt,accessTokenId,grantExpiresAt,refreshSuccessor")
  let accessTokenId ← (field tombstone "accessTokenId").asString invalidState isIdentifier
  let accessExpiresAt ← (field tombstone "accessExpiresAt").asPositiveSafe invalidState
  let grantExpiresAt ← (field tombstone "grantExpiresAt").asPositiveSafe invalidState
  let refreshSuccessor ← unlessUndefined assertLinkedPair (field tombstone "refreshSuccessor")
  let result : LinkedGrantTombstone := { accessTokenId, accessExpiresAt, grantExpiresAt, refreshSuccessor }
  require invalidState (successorOk result revokedGrantId)
  return result

def assertRevokedAccess (value : JsValue) : Except String (Record Nat) := do
  let fields ← value.asObject invalidState
  let entries ← fields.mapM fun e => do
    require invalidState (isIdentifier e.1)
    let expiry ← e.2.asPositiveSafe invalidState
    return (e.1, expiry)
  return Record.ofList entries

/-- A tombstone in either form. -/
def assertRevokedGrantTombstone (value : JsValue) (grantId : String) : Except String RevokedGrantTombstone :=
  match value with
  | .integer _ | .nonInteger => .legacy <$> value.asPositiveSafe invalidState
  | _ => .linked <$> assertLinkedGrantTombstone value grantId

def assertRevokedGrants (value : JsValue) : Except String (Record RevokedGrantTombstone) := do
  let fields ← value.asObject invalidState
  let entries ← fields.mapM fun e => do
    require invalidState (isIdentifier e.1)
    let tombstone ← assertRevokedGrantTombstone e.2 e.1
    return (e.1, tombstone)
  return Record.ofList entries

/-- `samePair(left, right)`: equal in all four fields. -/
def samePair (left : Option LinkedPair) (right : LinkedPair) : Bool :=
  match left with
  | none => false
  | some l =>
    l.accessTokenId == right.accessTokenId && l.accessExpiresAt == right.accessExpiresAt &&
      l.grantId == right.grantId && l.grantExpiresAt == right.grantExpiresAt

/-- A lease belongs to the active pair and ends no later than its grant. -/
def leaseOk (state : VnuRefreshControlState) : Bool :=
  match state.lease with
  | none => true
  | some lease => samePair state.active lease.pair && lease.expiresAt ≤ lease.pair.grantExpiresAt

/-- The active pair is in no tombstone map. -/
def activeOk (state : VnuRefreshControlState) : Bool :=
  match state.active with
  | none => true
  | some active =>
    (state.revokedAccess.get? active.accessTokenId).isNone && (state.revokedGrants.get? active.grantId).isNone

def parseVnuRefreshControlState : JsValue → Except String (Option VnuRefreshControlState)
  | .undefined => .ok none
  | value => do
    let state ← value.asObject invalidState
    let allowed := ["active", "lease", "revokedAccess", "revokedGrants", "window", "activationWindow"]
    require invalidState ((state.map Prod.fst).all (fun key => key ∈ allowed))
    let active ← unlessUndefined assertLinkedPair (field state "active")
    let lease ← unlessUndefined assertRefreshLease (field state "lease")
    let revokedAccess ← assertRevokedAccess (field state "revokedAccess")
    let revokedGrants ← assertRevokedGrants (field state "revokedGrants")
    let window ← assertWindow 0 vnuRefreshAttemptLimit (field state "window")
    let activationWindow ← unlessUndefined assertActivationWindow (field state "activationWindow")
    let parsed := { active, lease, revokedAccess, revokedGrants, window, activationWindow }
    require invalidState (leaseOk parsed)
    require invalidState (activeOk parsed)
    return some parsed

/-! ## What is stored -/

def LinkedPair.toJs (pair : LinkedPair) : JsValue :=
  .object [("accessTokenId", .string pair.accessTokenId), ("accessExpiresAt", .ofNat pair.accessExpiresAt),
    ("grantId", .string pair.grantId), ("grantExpiresAt", .ofNat pair.grantExpiresAt)]

def RefreshLease.toJs (lease : RefreshLease) : JsValue :=
  .object [("pair", lease.pair.toJs), ("expiresAt", .ofNat lease.expiresAt)]

def RefreshWindow.toJs (window : RefreshWindow) : JsValue :=
  .object [("count", .ofNat window.count), ("resetAt", .ofNat window.resetAt)]

def LinkedGrantTombstone.toJs (tombstone : LinkedGrantTombstone) : JsValue :=
  .object ([("accessTokenId", .string tombstone.accessTokenId), ("accessExpiresAt", .ofNat tombstone.accessExpiresAt),
    ("grantExpiresAt", .ofNat tombstone.grantExpiresAt)] ++
    optionalField "refreshSuccessor" LinkedPair.toJs tombstone.refreshSuccessor)

def RevokedGrantTombstone.toJs : RevokedGrantTombstone → JsValue
  | .legacy expiresAt => .ofNat expiresAt
  | .linked tombstone => tombstone.toJs

/-- The stored record. Absent optional fields are left out, as `JSON.stringify`
does; a stored `undefined` reads the same. -/
def VnuRefreshControlState.toJs (state : VnuRefreshControlState) : JsValue :=
  .object (optionalField "active" LinkedPair.toJs state.active ++ optionalField "lease" RefreshLease.toJs state.lease ++
    [("revokedAccess", .object (state.revokedAccess.entries.map fun e => (e.1, .ofNat e.2))),
      ("revokedGrants", .object (state.revokedGrants.entries.map fun e => (e.1, e.2.toJs))),
      ("window", state.window.toJs)] ++
    optionalField "activationWindow" RefreshWindow.toJs state.activationWindow)

/-- What a storage slot reads as. -/
def rawState : Option VnuRefreshControlState → JsValue
  | none => .undefined
  | some state => state.toJs

/-! ## Validity -/

structure LinkedPair.Valid (pair : LinkedPair) : Prop where
  access_id : isIdentifier pair.accessTokenId = true
  grant_id : isIdentifier pair.grantId = true
  access_expiry : PositiveSafe pair.accessExpiresAt
  grant_expiry : PositiveSafe pair.grantExpiresAt

/-- A tombstone stored under `grantId`. -/
def RevokedGrantTombstone.Valid (grantId : String) : RevokedGrantTombstone → Prop
  | .legacy expiresAt => PositiveSafe expiresAt
  | .linked t => isIdentifier t.accessTokenId = true ∧ PositiveSafe t.accessExpiresAt ∧ PositiveSafe t.grantExpiresAt ∧
      (∀ successor, t.refreshSuccessor = some successor → successor.Valid) ∧ successorOk t grantId = true

structure RefreshWindow.Valid (low limit : Nat) (window : RefreshWindow) : Prop where
  low_le : low ≤ window.count
  le_limit : window.count ≤ limit
  reset : PositiveSafe window.resetAt

/-- The states `parseVnuRefreshControlState` accepts. -/
structure VnuRefreshControlState.Valid (state : VnuRefreshControlState) : Prop where
  active : ∀ pair, state.active = some pair → pair.Valid
  lease_expiry : ∀ lease, state.lease = some lease → PositiveSafe lease.expiresAt
  lease_active : ∀ lease, state.lease = some lease → state.active = some lease.pair
  lease_le : ∀ lease, state.lease = some lease → lease.expiresAt ≤ lease.pair.grantExpiresAt
  access : ∀ e ∈ state.revokedAccess.entries, isIdentifier e.1 = true ∧ PositiveSafe e.2
  grants : ∀ e ∈ state.revokedGrants.entries, isIdentifier e.1 = true ∧ e.2.Valid e.1
  window : state.window.Valid 0 vnuRefreshAttemptLimit
  activation : ∀ window, state.activationWindow = some window → window.Valid 1 vnuManualActivationLimit
  active_access : ∀ pair, state.active = some pair → state.revokedAccess.get? pair.accessTokenId = none
  active_grant : ∀ pair, state.active = some pair → state.revokedGrants.get? pair.grantId = none

@[simp] theorem samePair_iff {left : Option LinkedPair} {right : LinkedPair} :
    samePair left right = true ↔ left = some right := by
  cases left with
  | none => simp [samePair]
  | some l => cases l; cases right; simp [samePair, and_assoc]

@[simp] theorem samePair_false_iff {left : Option LinkedPair} {right : LinkedPair} :
    samePair left right = false ↔ left ≠ some right := by
  rw [Ne, ← samePair_iff, Bool.not_eq_true]

end Hyeboard.VnuRefresh
