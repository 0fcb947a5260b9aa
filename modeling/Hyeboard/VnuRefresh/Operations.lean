import Hyeboard.VnuRefresh.Parse
import Hyeboard.VnuRefresh.Transitions
/-!
# What an operation does

The eight transitions share a shape: check the arguments, answer some calls
at once, clean the stored state, and then refuse (storage keeps what it held)
or store a new state. `applyOperation_eq_ok` puts all eight in that form:
`verdict` is what happens after cleaning.
-/

namespace Hyeboard.VnuRefresh

/-- The calls a principal gets, and the alarm that cleans it. -/
inductive Operation where
  | activatePair (pair : LinkedPair)
  | beginRefresh (pair : LinkedPair)
  | completeRefresh (old next : LinkedPair)
  | abortRefresh (pair : LinkedPair) (terminal : Bool)
  | revokeLinkedPairByAccess (pair : LinkedPair)
  | revokePrincipalByLinkedGrant (proof : LinkedPair)
  | checkAccess (access : LinkedPair)
  | alarm
deriving DecidableEq, Repr

inductive OperationResult where
  | activatePair (result : ActivatePairResult)
  | beginRefresh (result : BeginRefreshResult)
  | completeRefresh (result : CompleteRefreshResult)
  | abortRefresh (result : AbortRefreshResult)
  | revoke (result : RevokeResult)
  | checkAccess (result : AccessCheckResult)
  | alarm
deriving DecidableEq, Repr

def TransitionOutput.map {α β : Type} (f : α → β) (output : TransitionOutput α) : TransitionOutput β :=
  { state := output.state, result := f output.result, changed := output.changed }

/-- What the alarm handler applies. -/
def applyAlarm (stored : Option VnuRefreshControlState) (now : Nat) : TransitionOutput OperationResult :=
  let next := cleanVnuRefreshState stored now
  { state := next, result := .alarm, changed := stored.isSome && !sameVnuRefreshState stored next }

/-- The transition behind each call. (`revokeExactLinkedPair` is another name
for `revokeLinkedPairByAccess`.) -/
def applyOperation (operation : Operation) (stored : Option VnuRefreshControlState) (now : Nat) :
    Except String (TransitionOutput OperationResult) :=
  match operation with
  | .activatePair pair => TransitionOutput.map .activatePair <$> applyActivatePair stored pair now
  | .beginRefresh pair => TransitionOutput.map .beginRefresh <$> applyBeginRefresh stored pair now
  | .completeRefresh old next => TransitionOutput.map .completeRefresh <$> applyCompleteRefresh stored old next now
  | .abortRefresh pair terminal => TransitionOutput.map .abortRefresh <$> applyAbortRefresh stored pair terminal now
  | .revokeLinkedPairByAccess pair => TransitionOutput.map .revoke <$> applyRevokeLinkedPairByAccess stored pair now
  | .revokePrincipalByLinkedGrant proof =>
    TransitionOutput.map .revoke <$> applyRevokePrincipalByLinkedGrant stored proof now
  | .checkAccess access => TransitionOutput.map .checkAccess <$> applyCheckAccess stored access now
  | .alarm => .ok (applyAlarm stored now)

/-! ## The common shape -/

/-- The pairs a call carries. -/
def Operation.pairs : Operation → List LinkedPair
  | .activatePair pair | .beginRefresh pair | .abortRefresh pair _ | .revokeLinkedPairByAccess pair
  | .revokePrincipalByLinkedGrant pair | .checkAccess pair => [pair]
  | .completeRefresh old next => [old, next]
  | .alarm => []

/-- `assertLinkedPair` accepts every pair of the call. -/
def Operation.ArgumentsValid (operation : Operation) : Prop := ∀ pair ∈ operation.pairs, pair.Valid

/-- What `completeRefresh` throws on. -/
def Operation.RotationOk (stored : Option VnuRefreshControlState) : Operation → Prop
  | .completeRefresh old next =>
    next.grantExpiresAt = old.grantExpiresAt ∧ next.accessTokenId ≠ old.accessTokenId ∧ next.grantId ≠ old.grantId ∧
      ∀ state, stored = some state →
        state.revokedAccess.get? next.accessTokenId = none ∧ state.revokedGrants.get? next.grantId = none
  | _ => True

/-- The calls answered before the state is cleaned. -/
def Operation.shortcut (stored : Option VnuRefreshControlState) (now : Nat) : Operation → Option OperationResult
  | .activatePair pair =>
    if stored.bind (·.active) = some pair ∧ stored.bind (·.lease) = none then some (.activatePair .activated) else none
  | .revokeLinkedPairByAccess pair =>
    if pair.accessExpiresAt ≤ now ∧ pair.grantExpiresAt ≤ now then some (.revoke .expired) else none
  | .revokePrincipalByLinkedGrant proof => if proof.grantExpiresAt ≤ now then some (.revoke .expired) else none
  | _ => none

/-- What follows from the cleaned state: storage keeps what it held, gets a new
state, or gets the cleaned state itself. -/
inductive Verdict where
  | refuse (result : OperationResult)
  | store (result : OperationResult) (state : VnuRefreshControlState)
  | clean (result : OperationResult)
deriving DecidableEq

/-- The activation window with one more activation counted, started now if none
is running. -/
def countActivation (state : VnuRefreshControlState) (now : Nat) : RefreshWindow :=
  match state.activationWindow with
  | some window => { window with count := window.count + 1 }
  | none => { count := 1, resetAt := now + vnuManualActivationWindowMs }

/-- The state after `activatePair pair`. -/
def activated (state : VnuRefreshControlState) (pair : LinkedPair) (now : Nat) : VnuRefreshControlState :=
  let replaced :=
    match state.active with
    | some active => if samePair (some active) pair then state else revokeExact state active (linkedGrantTombstone active)
    | none => state
  { replaced with
    active := some pair
    lease := none
    activationWindow := some (countActivation state now) }

/-- The end of the lease `beginRefresh pair` grants. -/
def leaseEnd (pair : LinkedPair) (now : Nat) : Nat := min (now + vnuRefreshLeaseMs) pair.grantExpiresAt

/-- The state after `beginRefresh pair`. -/
def begun (state : VnuRefreshControlState) (pair : LinkedPair) (now : Nat) : VnuRefreshControlState :=
  { state with
    lease := some { pair, expiresAt := leaseEnd pair now }
    window := { state.window with count := state.window.count + 1 } }

/-- The state after `completeRefresh old next`. -/
def rotated (state : VnuRefreshControlState) (old next : LinkedPair) : VnuRefreshControlState :=
  { revokeExact state old (refreshSuccessorGrantTombstone old next) with active := some next }

/-- The state after `revokePrincipalByLinkedGrant proof`. -/
def principalRevoked (state : VnuRefreshControlState) (proof current : LinkedPair) : VnuRefreshControlState :=
  revokeExact
    { state with
      revokedAccess := state.revokedAccess.set proof.accessTokenId proof.accessExpiresAt
      revokedGrants := state.revokedGrants.set proof.grantId (.linked (linkedGrantTombstone proof)) }
    current (linkedGrantTombstone current)

/-- Whether the lease is one for `pair`. -/
def leasedTo (state : VnuRefreshControlState) (pair : LinkedPair) : Prop := state.lease.map (·.pair) = some pair

instance (state : VnuRefreshControlState) (pair : LinkedPair) : Decidable (leasedTo state pair) :=
  inferInstanceAs (Decidable (_ = _))

/-- The tombstone stored for `proof`'s grant records exactly `proof`, and that a
refresh replaced it by `current`. -/
def ProvesSuccessor (state : VnuRefreshControlState) (proof current : LinkedPair) : Prop :=
  state.revokedGrants.get? proof.grantId = some (.linked (refreshSuccessorGrantTombstone proof current))

instance (state : VnuRefreshControlState) (proof current : LinkedPair) : Decidable (ProvesSuccessor state proof current) :=
  inferInstanceAs (Decidable (_ = _))

def Operation.verdict (state : VnuRefreshControlState) (now : Nat) : Operation → Verdict
  | .activatePair pair =>
    match state.activationWindow with
    | some window =>
      if window.count ≥ vnuManualActivationLimit then
        .refuse (.activatePair (.rateLimited (retryAfterSeconds window.resetAt now) vnuManualActivationLimit
          vnuManualActivationWindowSeconds))
      else .store (.activatePair .activated) (activated state pair now)
    | none => .store (.activatePair .activated) (activated state pair now)
  | .beginRefresh pair =>
    if pair.grantExpiresAt ≤ now ∨ accessRevoked state pair.accessTokenId ∨ grantRevoked state pair.grantId ∨
        state.active ≠ some pair then
      .refuse (.beginRefresh .revoked)
    else if leasedTo state pair then
      .refuse (.beginRefresh (.inProgress (retryAfterSeconds ((state.lease.map (·.expiresAt)).getD 0) now)))
    else if state.window.count ≥ vnuRefreshAttemptLimit then
      .refuse (.beginRefresh (.rateLimited (retryAfterSeconds state.window.resetAt now) 5 900))
    else .store (.beginRefresh (.accepted (leaseEnd pair now))) (begun state pair now)
  | .completeRefresh old next =>
    if old.grantExpiresAt ≤ now ∨ state.active ≠ some old ∨ ¬ leasedTo state old then
      .refuse (.completeRefresh .revoked)
    else .store (.completeRefresh .completed) (rotated state old next)
  | .abortRefresh pair terminal =>
    if accessRevoked state pair.accessTokenId ∨ grantRevoked state pair.grantId then .refuse (.abortRefresh .revoked)
    else if ¬ leasedTo state pair ∨ state.active ≠ some pair then .refuse (.abortRefresh .aborted)
    else if terminal then .store (.abortRefresh .revoked) (revokeExact state pair (linkedGrantTombstone pair))
    else .store (.abortRefresh .aborted) { state with lease := none }
  | .revokeLinkedPairByAccess pair =>
    if (state.revokedAccess.get? pair.accessTokenId = some pair.accessExpiresAt ∨ pair.accessExpiresAt ≤ now) ∧
        exactlyLinksGrantTombstone (state.revokedGrants.get? pair.grantId) pair then
      .refuse (.revoke .revoked)
    else if state.active ≠ some pair then .refuse (.revoke .mismatch)
    else .store (.revoke .revoked) (revokeExact state pair (linkedGrantTombstone pair))
  | .revokePrincipalByLinkedGrant proof =>
    match state.active with
    | none =>
      if exactlyLinksGrantTombstone (state.revokedGrants.get? proof.grantId) proof then .refuse (.revoke .revoked)
      else .refuse (.revoke .mismatch)
    | some current =>
      if current = proof ∨ ProvesSuccessor state proof current ∧ (state.lease = none ∨ leasedTo state current) then
        .store (.revoke .revoked) (principalRevoked state proof current)
      else .refuse (.revoke .mismatch)
  | .checkAccess access =>
    .clean (.checkAccess
      (if state.active = some access ∧ access.accessExpiresAt > now ∧ ¬ accessRevoked state access.accessTokenId ∧
          ¬ grantRevoked state access.grantId then .active
        else .revoked))
  | .alarm => .clean .alarm

/-- The output of a call that does not throw. -/
def Operation.output (operation : Operation) (stored : Option VnuRefreshControlState) (now : Nat) :
    TransitionOutput OperationResult :=
  let state := cleanVnuRefreshState stored now
  match operation.shortcut stored now with
  | some result => unchanged stored now result
  | none =>
    match operation.verdict state now with
    | .refuse result => unchanged stored now result
    | .store result next => changed stored next result
    | .clean result => { state, result, changed := stored.isSome && !sameVnuRefreshState stored state }

/-! ## Each transition has that shape -/

section Shape
variable {stored : Option VnuRefreshControlState} {now : Nat} {out : TransitionOutput OperationResult}

theorem assertLinkedPair_bind {α : Type} {pair : LinkedPair} {rest : LinkedPair → Except String α} {b : α} :
    assertLinkedPair pair.toJs >>= rest = .ok b ↔ pair.Valid ∧ rest pair = .ok b := by
  simp only [bind_eq_ok, assertLinkedPair_toJs]
  constructor
  · rintro ⟨_, ⟨rfl, hv⟩, h⟩; exact ⟨hv, h⟩
  · rintro ⟨hv, h⟩; exact ⟨pair, ⟨rfl, hv⟩, h⟩

@[simp] theorem map_pure_output {α β : Type} (f : α → β) (output : TransitionOutput α) :
    TransitionOutput.map f <$> (pure output : Except String (TransitionOutput α)) = .ok (output.map f) := rfl

@[simp] theorem map_unchanged_output {α β : Type} (f : α → β) (result : α) :
    (unchanged stored now result).map f = unchanged stored now (f result) := rfl

@[simp] theorem map_changed_output {α β : Type} (f : α → β) (state : VnuRefreshControlState) (result : α) :
    (changed stored state result).map f = changed stored state (f result) := rfl

/-- The arguments are checked first; what is left is `body`. -/
theorem shape_of_body {α : Type} {pair : LinkedPair} {f : α → OperationResult}
    {body : Except String (TransitionOutput α)} {output : TransitionOutput OperationResult}
    (h : TransitionOutput.map f <$> body = .ok output) :
    TransitionOutput.map f <$> (assertLinkedPair pair.toJs >>= fun _ => body) = .ok out ↔ pair.Valid ∧ out = output := by
  rw [map_eq_ok] at h ⊢
  obtain ⟨a, rfl, rfl⟩ := h
  simp only [assertLinkedPair_bind, Except.ok.injEq]
  constructor
  · rintro ⟨_, ⟨hv, rfl⟩, rfl⟩; exact ⟨hv, rfl⟩
  · rintro ⟨hv, rfl⟩; exact ⟨a, ⟨hv, rfl⟩, rfl⟩

theorem activatePair_shape (pair : LinkedPair) :
    applyOperation (.activatePair pair) stored now = .ok out ↔
      pair.Valid ∧ out = (Operation.activatePair pair).output stored now := by
  unfold applyOperation applyActivatePair
  refine shape_of_body ?_
  have hcond : (samePair (stored.bind (·.active)) pair && (stored.bind (·.lease)).isNone) = true ↔
      stored.bind (·.active) = some pair ∧ stored.bind (·.lease) = none := by
    rw [Bool.and_eq_true, samePair_iff, Option.isNone_iff_eq_none]
  simp only [Operation.output, Operation.shortcut, Operation.verdict]
  by_cases hsame : stored.bind (·.active) = some pair ∧ stored.bind (·.lease) = none
  · simp only [if_pos hsame, if_pos (hcond.2 hsame), map_pure_output, map_unchanged_output]
  simp only [if_neg hsame, if_neg (mt hcond.1 hsame)]
  generalize cleanVnuRefreshState stored now = state
  cases hw : state.activationWindow with
  | none =>
    have hcount : countActivation state now = { count := 1, resetAt := now + vnuManualActivationWindowMs } := by
      rw [countActivation, hw]
    simp only [map_pure_output, map_changed_output]
    unfold activated
    generalize countActivation state now = started at hcount ⊢
    subst hcount
    rfl
  | some window =>
    by_cases hfull : window.count ≥ vnuManualActivationLimit
    · simp only [if_pos hfull, map_pure_output, map_unchanged_output]
    · have hcount : countActivation state now = { window with count := window.count + 1 } := by
        rw [countActivation, hw]
      simp only [if_neg hfull, map_pure_output, map_changed_output]
      unfold activated
      generalize countActivation state now = started at hcount ⊢
      subst hcount
      rfl

theorem beginRefresh_shape (pair : LinkedPair) :
    applyOperation (.beginRefresh pair) stored now = .ok out ↔
      pair.Valid ∧ out = (Operation.beginRefresh pair).output stored now := by
  unfold applyOperation applyBeginRefresh
  refine shape_of_body ?_
  simp only [Operation.output, Operation.shortcut, Operation.verdict]
  generalize cleanVnuRefreshState stored now = state
  by_cases hdead : pair.grantExpiresAt ≤ now ∨ accessRevoked state pair.accessTokenId ∨ grantRevoked state pair.grantId ∨
      state.active ≠ some pair
  · simp [-map_eq_ok, hdead, or_assoc]
  simp only [if_neg hdead, Bool.or_eq_true, Bool.not_eq_true', samePair_false_iff, decide_eq_true_eq, or_assoc]
  unfold leasedTo begun leaseEnd
  clear hdead
  obtain ⟨active, lease, revokedAccess, revokedGrants, window, activationWindow⟩ := state
  cases lease with
  | none => by_cases hfull : window.count ≥ vnuRefreshAttemptLimit <;> simp [-map_eq_ok, hfull]
  | some lease =>
    by_cases hp : lease.pair = pair
    · simp [-map_eq_ok, hp]
    · by_cases hfull : window.count ≥ vnuRefreshAttemptLimit <;> simp [-map_eq_ok, hfull, hp]

/-- The guard against a collision reads the stored state, not the cleaned one. -/
theorem rotationOk_iff {old next : LinkedPair} :
    (Operation.completeRefresh old next).RotationOk stored ↔
      next.grantExpiresAt = old.grantExpiresAt ∧ ¬ (next.accessTokenId = old.accessTokenId ∨ next.grantId = old.grantId) ∧
        ¬ ((stored.bind (·.revokedAccess.get? next.accessTokenId)).isSome = true ∨
          (stored.bind (·.revokedGrants.get? next.grantId)).isSome = true) := by
  cases stored <;> simp [Operation.RotationOk, not_or, and_assoc]

theorem completeRefresh_shape (old next : LinkedPair) :
    applyOperation (.completeRefresh old next) stored now = .ok out ↔
      (old.Valid ∧ next.Valid) ∧ (Operation.completeRefresh old next).RotationOk stored ∧
        out = (Operation.completeRefresh old next).output stored now := by
  unfold applyOperation applyCompleteRefresh
  rw [rotationOk_iff, and_assoc]
  simp only [map_eq_ok, assertLinkedPair_bind, Operation.output, Operation.shortcut, Operation.verdict]
  generalize cleanVnuRefreshState stored now = state
  by_cases hexpiry : next.grantExpiresAt = old.grantExpiresAt
  swap
  · simp [hexpiry]
  by_cases hids : next.accessTokenId = old.accessTokenId ∨ next.grantId = old.grantId
  · simp [hexpiry, hids]
  by_cases hcollision : (stored.bind (·.revokedAccess.get? next.accessTokenId)).isSome = true ∨
      (stored.bind (·.revokedGrants.get? next.grantId)).isSome = true
  · simp [hexpiry, hids, hcollision]
  simp only [hexpiry, bne_self_eq_false, Bool.false_eq_true, if_false, Bool.or_eq_true, beq_iff_eq, hids, hcollision,
    not_false_eq_true, true_and, decide_eq_true_eq, Bool.not_eq_true', samePair_false_iff, or_assoc]
  have hleased : (state.lease.map (·.pair) ≠ some old) = ¬ leasedTo state old := rfl
  simp only [hleased]
  by_cases hlive : old.grantExpiresAt ≤ now ∨ state.active ≠ some old ∨ ¬ leasedTo state old
  all_goals
    simp only [hlive, if_true, if_false, pure_eq_ok]
    constructor
    · rintro ⟨_, ⟨ho, hn, rfl⟩, rfl⟩; exact ⟨ho, hn, rfl⟩
    · rintro ⟨ho, hn, rfl⟩; exact ⟨_, ⟨ho, hn, rfl⟩, rfl⟩

theorem abortRefresh_shape (pair : LinkedPair) (terminal : Bool) :
    applyOperation (.abortRefresh pair terminal) stored now = .ok out ↔
      pair.Valid ∧ out = (Operation.abortRefresh pair terminal).output stored now := by
  unfold applyOperation applyAbortRefresh
  refine shape_of_body ?_
  simp only [Operation.output, Operation.shortcut, Operation.verdict, leasedTo]
  generalize cleanVnuRefreshState stored now = state
  by_cases hrev : accessRevoked state pair.accessTokenId ∨ grantRevoked state pair.grantId
  · simp [-map_eq_ok, hrev]
  by_cases hidle : state.lease.map (·.pair) = some pair ∧ state.active = some pair
  · cases terminal <;> simp [-map_eq_ok, -Option.map_eq_some_iff, hrev, hidle]
  · rw [not_and_or] at hidle
    simp [-map_eq_ok, -Option.map_eq_some_iff, hrev, hidle]

theorem revokeLinkedPairByAccess_shape (pair : LinkedPair) :
    applyOperation (.revokeLinkedPairByAccess pair) stored now = .ok out ↔
      pair.Valid ∧ out = (Operation.revokeLinkedPairByAccess pair).output stored now := by
  unfold applyOperation applyRevokeLinkedPairByAccess
  refine shape_of_body ?_
  simp only [Operation.output, Operation.shortcut, Operation.verdict]
  generalize cleanVnuRefreshState stored now = state
  by_cases hexp : pair.accessExpiresAt ≤ now ∧ pair.grantExpiresAt ≤ now
  · simp [-map_eq_ok, hexp]
  simp only [if_neg hexp, Bool.and_eq_true, decide_eq_true_eq]
  by_cases hlink : exactlyLinksGrantTombstone (state.revokedGrants.get? pair.grantId) pair
  · by_cases ha : state.revokedAccess.get? pair.accessTokenId = some pair.accessExpiresAt
    · simp [-map_eq_ok, hlink, ha]
    by_cases hlate : pair.accessExpiresAt ≤ now
    · simp [-map_eq_ok, hlink, ha, hlate]
    · by_cases hs : state.active = some pair <;> simp [-map_eq_ok, hlink, ha, hlate, hs]
  · by_cases hs : state.active = some pair <;> simp [-map_eq_ok, hlink, hs]

/-- The two tests of the stored tombstone, together. -/
theorem provesSuccessor_iff {state : VnuRefreshControlState} {proof current : LinkedPair} :
    ProvesSuccessor state proof current ↔
      exactlyLinksGrantTombstone (state.revokedGrants.get? proof.grantId) proof = true ∧
        refreshSuccessor (state.revokedGrants.get? proof.grantId) = some current := by
  unfold ProvesSuccessor
  generalize state.revokedGrants.get? proof.grantId = tombstone
  match tombstone with
  | none => simp [refreshSuccessor]
  | some (.legacy expiresAt) => simp [refreshSuccessor]
  | some (.linked t) =>
    cases t
    simp [exactlyLinksGrantTombstone, refreshSuccessor, refreshSuccessorGrantTombstone, linkedGrantTombstone, and_assoc]

theorem revokePrincipalByLinkedGrant_shape (proof : LinkedPair) :
    applyOperation (.revokePrincipalByLinkedGrant proof) stored now = .ok out ↔
      proof.Valid ∧ out = (Operation.revokePrincipalByLinkedGrant proof).output stored now := by
  unfold applyOperation applyRevokePrincipalByLinkedGrant
  refine shape_of_body ?_
  simp only [Operation.output, Operation.shortcut, Operation.verdict]
  generalize cleanVnuRefreshState stored now = state
  by_cases hexp : proof.grantExpiresAt ≤ now
  · simp [-map_eq_ok, hexp]
  simp only [if_neg hexp]
  cases hactive : state.active with
  | none =>
    by_cases hlink : exactlyLinksGrantTombstone (state.revokedGrants.get? proof.grantId) proof <;>
      simp [-map_eq_ok, hlink]
  | some current =>
    by_cases hproof : current = proof
    · simp [-map_eq_ok, hproof, principalRevoked, hactive]
    have hmap : (state.lease.map (·.pair) = some current) = leasedTo state current := rfl
    by_cases hlink : exactlyLinksGrantTombstone (state.revokedGrants.get? proof.grantId) proof
    · cases hsucc : refreshSuccessor (state.revokedGrants.get? proof.grantId) with
      | none => simp [-map_eq_ok, hproof, provesSuccessor_iff, hlink, hsucc]
      | some successor =>
        by_cases hs : successor = current
        · subst hs
          have hguard : (state.lease.isSome = true ∧ ¬ leasedTo state successor) ↔
              ¬ (state.lease = none ∨ leasedTo state successor) := by
            rw [not_or, Option.isSome_iff_ne_none]
          by_cases hlease : state.lease = none ∨ leasedTo state successor <;>
            simp [-map_eq_ok, -Option.map_eq_some_iff, -not_or, hproof, provesSuccessor_iff, hlink, hsucc, hmap, hguard,
              hlease, principalRevoked, hactive]
        · simp [-map_eq_ok, hproof, provesSuccessor_iff, hlink, hsucc, hs, Ne.symm hs]
    · simp [-map_eq_ok, hproof, provesSuccessor_iff, hlink]

theorem checkAccess_shape (access : LinkedPair) :
    applyOperation (.checkAccess access) stored now = .ok out ↔
      access.Valid ∧ out = (Operation.checkAccess access).output stored now := by
  unfold applyOperation applyCheckAccess
  refine shape_of_body ?_
  simp only [Operation.output, Operation.shortcut, Operation.verdict]
  generalize cleanVnuRefreshState stored now = state
  simp [-map_eq_ok, TransitionOutput.map, and_assoc]

end Shape

/-- Every call checks its arguments, `completeRefresh` its rotation too, and
then answers `output`. -/
theorem applyOperation_eq_ok {operation : Operation} {stored : Option VnuRefreshControlState} {now : Nat}
    {out : TransitionOutput OperationResult} :
    applyOperation operation stored now = .ok out ↔
      operation.ArgumentsValid ∧ operation.RotationOk stored ∧ out = operation.output stored now := by
  unfold Operation.ArgumentsValid
  cases operation with
  | activatePair pair => rw [activatePair_shape]; simp [Operation.pairs, Operation.RotationOk]
  | beginRefresh pair => rw [beginRefresh_shape]; simp [Operation.pairs, Operation.RotationOk]
  | completeRefresh old next => rw [completeRefresh_shape]; simp [Operation.pairs]
  | abortRefresh pair terminal => rw [abortRefresh_shape]; simp [Operation.pairs, Operation.RotationOk]
  | revokeLinkedPairByAccess pair => rw [revokeLinkedPairByAccess_shape]; simp [Operation.pairs, Operation.RotationOk]
  | revokePrincipalByLinkedGrant proof =>
    rw [revokePrincipalByLinkedGrant_shape]; simp [Operation.pairs, Operation.RotationOk]
  | checkAccess access => rw [checkAccess_shape]; simp [Operation.pairs, Operation.RotationOk]
  | alarm => simp [applyOperation, applyAlarm, Operation.pairs, Operation.RotationOk, Operation.output,
      Operation.shortcut, Operation.verdict, eq_comm]

end Hyeboard.VnuRefresh
