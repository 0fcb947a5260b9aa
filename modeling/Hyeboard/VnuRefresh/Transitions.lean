import Hyeboard.VnuRefresh.State
/-!
# The transitions of the refresh authority

`apps/worker/src/vnu/vnu-refresh-control.ts` from `linkedGrantTombstone` to
`isQuiescentVnuRefreshState`. Each transition takes what storage held, `none`
when it held nothing, and either throws or says what to store, what to answer
and whether anything changed.
-/

namespace Hyeboard.VnuRefresh

inductive ActivatePairResult where
  | activated
  | rateLimited (retryAfterSeconds limit windowSeconds : Nat)
deriving DecidableEq, Repr

inductive BeginRefreshResult where
  | accepted (leaseExpiresAt : Nat)
  | inProgress (retryAfterSeconds : Nat)
  | rateLimited (retryAfterSeconds limit windowSeconds : Nat)
  | revoked
deriving DecidableEq, Repr

inductive CompleteRefreshResult where
  | completed
  | revoked
deriving DecidableEq, Repr

inductive AbortRefreshResult where
  | aborted
  | revoked
deriving DecidableEq, Repr

inductive RevokeResult where
  | revoked
  | mismatch
  | expired
deriving DecidableEq, Repr

inductive AccessCheckResult where
  | active
  | revoked
deriving DecidableEq, Repr

structure TransitionOutput (α : Type) where
  state : VnuRefreshControlState
  result : α
  changed : Bool
deriving DecidableEq

/-! ## Helpers -/

def linkedGrantTombstone (pair : LinkedPair) : LinkedGrantTombstone :=
  { accessTokenId := pair.accessTokenId
    accessExpiresAt := pair.accessExpiresAt
    grantExpiresAt := pair.grantExpiresAt }

def refreshSuccessorGrantTombstone (old next : LinkedPair) : LinkedGrantTombstone :=
  { linkedGrantTombstone old with refreshSuccessor := some next }

def grantTombstoneExpiresAt : RevokedGrantTombstone → Nat
  | .legacy expiresAt => expiresAt
  | .linked tombstone => tombstone.grantExpiresAt

/-- A legacy tombstone links no pair. -/
def exactlyLinksGrantTombstone (tombstone : Option RevokedGrantTombstone) (pair : LinkedPair) : Bool :=
  match tombstone with
  | some (.linked t) =>
    t.accessTokenId == pair.accessTokenId && t.accessExpiresAt == pair.accessExpiresAt &&
      t.grantExpiresAt == pair.grantExpiresAt
  | _ => false

def refreshSuccessor (tombstone : Option RevokedGrantTombstone) : Option LinkedPair :=
  match tombstone with
  | some (.linked t) => t.refreshSuccessor
  | _ => none

/-- `state.revokedAccess[id]` as a condition: `undefined` and `0` are false. -/
def accessRevoked (state : VnuRefreshControlState) (id : String) : Bool :=
  (state.revokedAccess.get? id).getD 0 != 0

/-- `state.revokedGrants[id]` as a condition: only `undefined` and a bare `0`
are false. -/
def grantRevoked (state : VnuRefreshControlState) (id : String) : Bool :=
  match state.revokedGrants.get? id with
  | none => false
  | some (.legacy expiresAt) => expiresAt != 0
  | some (.linked _) => true

def sameVnuRefreshState (left : Option VnuRefreshControlState) (right : VnuRefreshControlState) : Bool :=
  left == some right

def emptyState (now : Nat) : VnuRefreshControlState :=
  { active := none
    lease := none
    revokedAccess := .empty
    revokedGrants := .empty
    window := { count := 0, resetAt := now + vnuRefreshWindowMs }
    activationWindow := none }

/-- `Math.max(1, Math.ceil((at - now) / 1000))`. -/
def retryAfterSeconds (deadline now : Nat) : Nat := max 1 ((deadline - now + 999) / 1000)

def cleanVnuRefreshState (input : Option VnuRefreshControlState) (now : Nat) : VnuRefreshControlState :=
  let source := input.getD (emptyState now)
  { active := source.active.filter (fun active => active.grantExpiresAt > now)
    lease := source.lease.filter (fun lease => lease.expiresAt > now && lease.pair.grantExpiresAt > now)
    revokedAccess := source.revokedAccess.filter (fun expiresAt => expiresAt > now)
    revokedGrants := source.revokedGrants.filter (fun tombstone => grantTombstoneExpiresAt tombstone > now)
    window :=
      if now ≥ source.window.resetAt then { count := 0, resetAt := now + vnuRefreshWindowMs } else source.window
    activationWindow := source.activationWindow.filter (fun window => window.count > 0 && now < window.resetAt) }

def unchanged {α : Type} (stored : Option VnuRefreshControlState) (now : Nat) (result : α) : TransitionOutput α :=
  { state := stored.getD (emptyState now), result, changed := false }

def changed {α : Type} (stored : Option VnuRefreshControlState) (state : VnuRefreshControlState) (result : α) :
    TransitionOutput α :=
  { state, result, changed := !sameVnuRefreshState stored state }

def revokeExact (state : VnuRefreshControlState) (pair : LinkedPair) (grantTombstone : LinkedGrantTombstone) :
    VnuRefreshControlState :=
  { state with
    active := none
    lease := if samePair (state.lease.map (·.pair)) pair then none else state.lease
    revokedAccess := state.revokedAccess.set pair.accessTokenId pair.accessExpiresAt
    revokedGrants := state.revokedGrants.set pair.grantId (.linked grantTombstone) }

/-! ## Transitions -/

def applyActivatePair (stored : Option VnuRefreshControlState) (pair : LinkedPair) (now : Nat) :
    Except String (TransitionOutput ActivatePairResult) := do
  let _ ← assertLinkedPair pair.toJs
  if samePair (stored.bind (·.active)) pair && (stored.bind (·.lease)).isNone then
    return unchanged stored now .activated
  let state := cleanVnuRefreshState stored now
  match state.activationWindow with
  | some window =>
    if window.count ≥ vnuManualActivationLimit then
      return unchanged stored now
        (.rateLimited (retryAfterSeconds window.resetAt now) vnuManualActivationLimit vnuManualActivationWindowSeconds)
  | none => pure ()
  let replaced :=
    match state.active with
    | some active => if samePair (some active) pair then state else revokeExact state active (linkedGrantTombstone active)
    | none => state
  let activationWindow : RefreshWindow :=
    match state.activationWindow with
    | some window => { window with count := window.count + 1 }
    | none => { count := 1, resetAt := now + vnuManualActivationWindowMs }
  return changed stored { replaced with active := some pair, lease := none, activationWindow := some activationWindow }
    .activated

def applyBeginRefresh (stored : Option VnuRefreshControlState) (pair : LinkedPair) (now : Nat) :
    Except String (TransitionOutput BeginRefreshResult) := do
  let _ ← assertLinkedPair pair.toJs
  let state := cleanVnuRefreshState stored now
  if pair.grantExpiresAt ≤ now || accessRevoked state pair.accessTokenId || grantRevoked state pair.grantId ||
      !samePair state.active pair then
    return unchanged stored now .revoked
  match state.lease with
  | some lease =>
    if samePair (some lease.pair) pair then
      return unchanged stored now (.inProgress (retryAfterSeconds lease.expiresAt now))
  | none => pure ()
  if state.window.count ≥ vnuRefreshAttemptLimit then
    return unchanged stored now (.rateLimited (retryAfterSeconds state.window.resetAt now) 5 900)
  let leaseExpiresAt := min (now + vnuRefreshLeaseMs) pair.grantExpiresAt
  return changed stored
    { state with
      lease := some { pair, expiresAt := leaseExpiresAt }
      window := { state.window with count := state.window.count + 1 } }
    (.accepted leaseExpiresAt)

def applyCompleteRefresh (stored : Option VnuRefreshControlState) (old next : LinkedPair) (now : Nat) :
    Except String (TransitionOutput CompleteRefreshResult) := do
  let _ ← assertLinkedPair old.toJs
  let _ ← assertLinkedPair next.toJs
  if next.grantExpiresAt != old.grantExpiresAt then
    throw "VNU refresh grant expiry changed"
  if next.accessTokenId == old.accessTokenId || next.grantId == old.grantId then
    throw "Invalid VNU refresh rotation identifiers"
  if (stored.bind (·.revokedAccess.get? next.accessTokenId)).isSome ||
      (stored.bind (·.revokedGrants.get? next.grantId)).isSome then
    throw "Invalid VNU refresh rotation collision"
  let state := cleanVnuRefreshState stored now
  if old.grantExpiresAt ≤ now || !samePair state.active old || !samePair (state.lease.map (·.pair)) old then
    return unchanged stored now .revoked
  let revoked := revokeExact state old (refreshSuccessorGrantTombstone old next)
  return changed stored { revoked with active := some next } .completed

def applyAbortRefresh (stored : Option VnuRefreshControlState) (pair : LinkedPair) (terminal : Bool) (now : Nat) :
    Except String (TransitionOutput AbortRefreshResult) := do
  let _ ← assertLinkedPair pair.toJs
  let state := cleanVnuRefreshState stored now
  if accessRevoked state pair.accessTokenId || grantRevoked state pair.grantId then
    return unchanged stored now .revoked
  if !samePair (state.lease.map (·.pair)) pair || !samePair state.active pair then
    return unchanged stored now .aborted
  if !terminal then
    return changed stored { state with lease := none } .aborted
  -- `state.active` is `pair` here
  return changed stored (revokeExact state pair (linkedGrantTombstone pair)) .revoked

def applyRevokeLinkedPairByAccess (stored : Option VnuRefreshControlState) (pair : LinkedPair) (now : Nat) :
    Except String (TransitionOutput RevokeResult) := do
  let _ ← assertLinkedPair pair.toJs
  if pair.accessExpiresAt ≤ now && pair.grantExpiresAt ≤ now then
    return unchanged stored now .expired
  let state := cleanVnuRefreshState stored now
  let grantTombstone := state.revokedGrants.get? pair.grantId
  if state.revokedAccess.get? pair.accessTokenId == some pair.accessExpiresAt &&
      exactlyLinksGrantTombstone grantTombstone pair then
    return unchanged stored now .revoked
  if pair.accessExpiresAt ≤ now && exactlyLinksGrantTombstone grantTombstone pair then
    return unchanged stored now .revoked
  if state.active.isSome && !samePair state.active pair then
    return unchanged stored now .mismatch
  if !samePair state.active pair then
    return unchanged stored now .mismatch
  return changed stored (revokeExact state pair (linkedGrantTombstone pair)) .revoked

def applyRevokePrincipalByLinkedGrant (stored : Option VnuRefreshControlState) (proof : LinkedPair) (now : Nat) :
    Except String (TransitionOutput RevokeResult) := do
  let _ ← assertLinkedPair proof.toJs
  if proof.grantExpiresAt ≤ now then
    return unchanged stored now .expired
  let state := cleanVnuRefreshState stored now
  let exactActiveProof := samePair state.active proof
  let tombstone := state.revokedGrants.get? proof.grantId
  let exactGrantTombstone := exactlyLinksGrantTombstone tombstone proof
  if !exactActiveProof && !exactGrantTombstone then
    return unchanged stored now .mismatch
  match state.active with
  | none => return unchanged stored now .revoked
  | some current =>
    if !exactActiveProof then
      let exactSuccessorAuthority :=
        match refreshSuccessor tombstone with
        | none => false
        | some successor =>
          samePair state.active successor &&
            (state.lease.isNone || samePair (state.lease.map (·.pair)) successor)
      if !exactSuccessorAuthority then
        return unchanged stored now .mismatch
    let revoked := revokeExact
      { state with
        revokedAccess := state.revokedAccess.set proof.accessTokenId proof.accessExpiresAt
        revokedGrants := state.revokedGrants.set proof.grantId (.linked (linkedGrantTombstone proof)) }
      current (linkedGrantTombstone current)
    return changed stored revoked .revoked

def applyCheckAccess (stored : Option VnuRefreshControlState) (access : LinkedPair) (now : Nat) :
    Except String (TransitionOutput AccessCheckResult) := do
  let _ ← assertLinkedPair access.toJs
  let state := cleanVnuRefreshState stored now
  let didChange := stored.isSome && !sameVnuRefreshState stored state
  let active := samePair state.active access && access.accessExpiresAt > now
  return {
    state
    changed := didChange
    result :=
      if active && !accessRevoked state access.accessTokenId && !grantRevoked state access.grantId then .active
      else .revoked }

/-! ## Alarms -/

def nextVnuRefreshAlarm (state : VnuRefreshControlState) : Option Nat :=
  let values :=
    state.revokedAccess.entries.map Prod.snd ++
      state.revokedGrants.entries.map (fun e => grantTombstoneExpiresAt e.2) ++
      (state.active.map (·.grantExpiresAt)).toList ++
      (state.lease.map (·.expiresAt)).toList ++
      (if state.window.count > 0 then [state.window.resetAt] else []) ++
      ((state.activationWindow.filter (fun window => window.count > 0)).map (·.resetAt)).toList
  values.min?

def isQuiescentVnuRefreshState (state : VnuRefreshControlState) : Bool :=
  state.active.isNone && state.lease.isNone && state.revokedAccess.size == 0 && state.revokedGrants.size == 0 &&
    state.window.count == 0 && state.activationWindow.isNone

end Hyeboard.VnuRefresh
