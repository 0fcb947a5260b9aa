import Hyeboard.VnuRefresh.Cleaning
import Hyeboard.VnuRefresh.Operations
/-!
# The ways a call writes

`Stores` lists the seven ways a call stores a new state, each with its guard;
`output_cases` says that every other call leaves storage as it was, or stores
the cleaned state (`checkAccess` and the alarm). Later proofs about the
transitions are case analyses over these two.
-/

namespace Hyeboard.VnuRefresh

/-- The calls that store a new state, with the guard each passed and the state
it stores. -/
inductive Stores (stored : Option VnuRefreshControlState) (now : Nat) :
    Operation → OperationResult → VnuRefreshControlState → Prop
  | activate (pair : LinkedPair)
      (hslow : ¬ (stored.bind (·.active) = some pair ∧ stored.bind (·.lease) = none))
      (hroom : ∀ window, (cleanVnuRefreshState stored now).activationWindow = some window →
        window.count < vnuManualActivationLimit) :
      Stores stored now (.activatePair pair) (.activatePair .activated)
        (activated (cleanVnuRefreshState stored now) pair now)
  | begin (pair : LinkedPair) (hlive : now < pair.grantExpiresAt)
      (hrevoked : accessRevoked (cleanVnuRefreshState stored now) pair.accessTokenId = false ∧
        grantRevoked (cleanVnuRefreshState stored now) pair.grantId = false)
      (hactive : (cleanVnuRefreshState stored now).active = some pair)
      (hidle : ¬ leasedTo (cleanVnuRefreshState stored now) pair)
      (hroom : (cleanVnuRefreshState stored now).window.count < vnuRefreshAttemptLimit) :
      Stores stored now (.beginRefresh pair) (.beginRefresh (.accepted (leaseEnd pair now)))
        (begun (cleanVnuRefreshState stored now) pair now)
  | complete (old next : LinkedPair) (hlive : now < old.grantExpiresAt)
      (hactive : (cleanVnuRefreshState stored now).active = some old)
      (hleased : leasedTo (cleanVnuRefreshState stored now) old) :
      Stores stored now (.completeRefresh old next) (.completeRefresh .completed)
        (rotated (cleanVnuRefreshState stored now) old next)
  | release (pair : LinkedPair)
      (hrevoked : accessRevoked (cleanVnuRefreshState stored now) pair.accessTokenId = false ∧
        grantRevoked (cleanVnuRefreshState stored now) pair.grantId = false)
      (hactive : (cleanVnuRefreshState stored now).active = some pair)
      (hleased : leasedTo (cleanVnuRefreshState stored now) pair) :
      Stores stored now (.abortRefresh pair false) (.abortRefresh .aborted)
        { cleanVnuRefreshState stored now with lease := none }
  | abort (pair : LinkedPair)
      (hrevoked : accessRevoked (cleanVnuRefreshState stored now) pair.accessTokenId = false ∧
        grantRevoked (cleanVnuRefreshState stored now) pair.grantId = false)
      (hactive : (cleanVnuRefreshState stored now).active = some pair)
      (hleased : leasedTo (cleanVnuRefreshState stored now) pair) :
      Stores stored now (.abortRefresh pair true) (.abortRefresh .revoked)
        (revokeExact (cleanVnuRefreshState stored now) pair (linkedGrantTombstone pair))
  | revoke (pair : LinkedPair) (hlive : now < pair.accessExpiresAt ∨ now < pair.grantExpiresAt)
      (hnew : ¬ (((cleanVnuRefreshState stored now).revokedAccess.get? pair.accessTokenId = some pair.accessExpiresAt ∨
          pair.accessExpiresAt ≤ now) ∧
        exactlyLinksGrantTombstone ((cleanVnuRefreshState stored now).revokedGrants.get? pair.grantId) pair = true))
      (hactive : (cleanVnuRefreshState stored now).active = some pair) :
      Stores stored now (.revokeLinkedPairByAccess pair) (.revoke .revoked)
        (revokeExact (cleanVnuRefreshState stored now) pair (linkedGrantTombstone pair))
  | revokePrincipal (proof current : LinkedPair) (hlive : now < proof.grantExpiresAt)
      (hactive : (cleanVnuRefreshState stored now).active = some current)
      (hproof : current = proof ∨ ProvesSuccessor (cleanVnuRefreshState stored now) proof current ∧
        ((cleanVnuRefreshState stored now).lease = none ∨ leasedTo (cleanVnuRefreshState stored now) current)) :
      Stores stored now (.revokePrincipalByLinkedGrant proof) (.revoke .revoked)
        (principalRevoked (cleanVnuRefreshState stored now) proof current)

section Stores
variable {stored : Option VnuRefreshControlState} {now : Nat} {operation : Operation} {result : OperationResult}
  {next : VnuRefreshControlState}

theorem stores_of_verdict (hs : operation.shortcut stored now = none)
    (hv : operation.verdict (cleanVnuRefreshState stored now) now = .store result next) :
    Stores stored now operation result next := by
  cases operation with
  | activatePair pair =>
    simp only [Operation.shortcut, ite_eq_right_iff, reduceCtorEq, imp_false] at hs
    simp only [Operation.verdict] at hv
    split at hv
    · rename_i window hw
      split at hv
      · cases hv
      · rename_i hroom
        cases hv
        refine .activate pair hs fun w h => ?_
        rw [hw] at h
        cases h
        omega
    · rename_i hw
      cases hv
      refine .activate pair hs fun w h => ?_
      rw [hw] at h
      cases h
  | beginRefresh pair =>
    simp only [Operation.verdict] at hv
    split at hv
    · cases hv
    rename_i hlive
    split at hv
    · cases hv
    rename_i hidle
    split at hv
    · cases hv
    rename_i hroom
    cases hv
    simp only [not_or, Nat.not_le, Bool.not_eq_true, ne_eq, Decidable.not_not] at hlive
    exact .begin pair hlive.1 ⟨hlive.2.1, hlive.2.2.1⟩ hlive.2.2.2 hidle (by omega)
  | completeRefresh old next =>
    simp only [Operation.verdict] at hv
    split at hv
    · cases hv
    rename_i hlive
    cases hv
    simp only [not_or, Nat.not_le, ne_eq, Decidable.not_not] at hlive
    exact .complete old next hlive.1 hlive.2.1 hlive.2.2
  | abortRefresh pair terminal =>
    simp only [Operation.verdict] at hv
    split at hv
    · cases hv
    rename_i hrevoked
    split at hv
    · cases hv
    rename_i hidle
    simp only [not_or, Bool.not_eq_true, ne_eq, Decidable.not_not] at hrevoked hidle
    cases terminal with
    | false => cases hv; exact .release pair hrevoked hidle.2 hidle.1
    | true => cases hv; exact .abort pair hrevoked hidle.2 hidle.1
  | revokeLinkedPairByAccess pair =>
    simp only [Operation.shortcut, ite_eq_right_iff, reduceCtorEq, imp_false] at hs
    simp only [Operation.verdict] at hv
    split at hv
    · cases hv
    rename_i hnew
    split at hv
    · cases hv
    rename_i hactive
    cases hv
    exact .revoke pair (by omega) hnew (Decidable.not_not.1 hactive)
  | revokePrincipalByLinkedGrant proof =>
    simp only [Operation.shortcut, ite_eq_right_iff, reduceCtorEq, imp_false] at hs
    simp only [Operation.verdict] at hv
    split at hv
    · split at hv <;> cases hv
    rename_i current hactive
    split at hv
    · rename_i hproof
      cases hv
      exact .revokePrincipal proof current (by omega) hactive hproof
    · cases hv
  | checkAccess access => cases hv
  | alarm => cases hv

theorem Stores.verdict (h : Stores stored now operation result next) :
    operation.shortcut stored now = none ∧
      operation.verdict (cleanVnuRefreshState stored now) now = .store result next := by
  cases h with
  | activate pair hslow hroom =>
    refine ⟨if_neg hslow, ?_⟩
    simp only [Operation.verdict]
    split
    · rename_i window hw
      exact if_neg (by have := hroom window hw; omega)
    · rfl
  | begin pair hlive hrevoked hactive hidle hroom =>
    refine ⟨rfl, ?_⟩
    have h1 : ¬ pair.grantExpiresAt ≤ now := by omega
    have h2 : ¬ (cleanVnuRefreshState stored now).window.count ≥ vnuRefreshAttemptLimit := by omega
    simp [Operation.verdict, h1, hrevoked, hactive, hidle, h2]
  | complete old next hlive hactive hleased =>
    have h1 : ¬ old.grantExpiresAt ≤ now := by omega
    exact ⟨rfl, by simp [Operation.verdict, h1, hactive, hleased]⟩
  | release pair hrevoked hactive hleased =>
    exact ⟨rfl, by simp [Operation.verdict, hrevoked, hactive, hleased]⟩
  | abort pair hrevoked hactive hleased =>
    exact ⟨rfl, by simp [Operation.verdict, hrevoked, hactive, hleased]⟩
  | revoke pair hlive hnew hactive =>
    refine ⟨if_neg (by omega), ?_⟩
    simp only [Operation.verdict, if_neg hnew, hactive, ne_eq, not_true_eq_false, if_false]
  | revokePrincipal proof current hlive hactive hproof =>
    refine ⟨if_neg (by omega), ?_⟩
    simp only [Operation.verdict, hactive, if_pos hproof]

/-! ## What is stored differs from what was held -/

theorem not_quiescent_of_active {state : VnuRefreshControlState} {pair : LinkedPair} (h : state.active = some pair) :
    isQuiescentVnuRefreshState state = false := by
  rw [← Bool.not_eq_true, isQuiescent_iff, h]
  exact fun hq => nomatch hq.1

theorem not_quiescent_revokeExact (state : VnuRefreshControlState) (pair : LinkedPair)
    (tombstone : LinkedGrantTombstone) : isQuiescentVnuRefreshState (revokeExact state pair tombstone) = false := by
  rw [← Bool.not_eq_true, isQuiescent_iff]
  rintro ⟨-, -, haccess, -⟩
  have hget : (revokeExact state pair tombstone).revokedAccess.get? pair.accessTokenId = some pair.accessExpiresAt := by
    simp [revokeExact]
  rw [haccess] at hget
  cases hget

/-- A stored state that has lost its active pair differs from what was held. -/
theorem ne_of_active_none {pair : LinkedPair} (hactive : (cleanVnuRefreshState stored now).active = some pair)
    (hnone : next.active = none) : stored ≠ some next := by
  intro heq
  have h := (clean_active_eq_some.1 hactive).1
  rw [heq, Option.bind_some, hnone] at h
  cases h

theorem countActivation_live (state : VnuRefreshControlState) (now : Nat)
    (h : ∀ window, state.activationWindow = some window → now < window.resetAt) :
    0 < (countActivation state now).count ∧ now < (countActivation state now).resetAt := by
  unfold countActivation
  split
  · rename_i window hw
    exact ⟨Nat.succ_pos _, h window hw⟩
  · refine ⟨Nat.one_pos, ?_⟩
    have hpos : 0 < vnuManualActivationWindowMs := by decide
    exact Nat.lt_add_of_pos_right hpos

/-- A call that stores a new state stores one that differs from what storage
held, and one that is not quiescent. -/
theorem Stores.fresh (h : Stores stored now operation result next) (hrot : operation.RotationOk stored) :
    stored ≠ some next ∧ isQuiescentVnuRefreshState next = false := by
  cases h with
  | activate pair hslow hroom =>
    refine ⟨fun heq => ?_, not_quiescent_of_active (show _ = some pair from rfl)⟩
    -- the stored activation window would be live, so this call would have counted one more in it
    have hlive := countActivation_live (cleanVnuRefreshState stored now) now
      fun window hw => (clean_activationWindow_eq_some.1 hw).2.2
    have hclean : (cleanVnuRefreshState stored now).activationWindow =
        some (countActivation (cleanVnuRefreshState stored now) now) :=
      clean_activationWindow_eq_some.2 ⟨congrArg (fun slot => slot.bind (·.activationWindow)) heq, hlive⟩
    generalize cleanVnuRefreshState stored now = state at hclean
    have hcount : (countActivation state now).count = (countActivation state now).count + 1 := by
      conv => lhs; rw [countActivation, hclean]
    omega
  | begin pair hlive hrevoked hactive hidle hroom =>
    refine ⟨fun heq => ?_, not_quiescent_of_active hactive⟩
    have hlt := lt_clean_resetAt stored now
    rcases clean_window_cases stored now with ⟨state, hs, -, hw⟩ | ⟨hold, -⟩
    · have hcount : stored.map (·.window.count) = some ((cleanVnuRefreshState stored now).window.count + 1) :=
        congrArg (fun slot => slot.map (·.window.count)) heq
      rw [hw, hs, Option.map_some, Option.some.injEq] at hcount
      omega
    · exact absurd (hold _ heq) (Nat.not_le.2 hlt)
  | complete old next hlive hactive hleased =>
    refine ⟨fun heq => ?_, not_quiescent_of_active (show _ = some next from rfl)⟩
    have h := (clean_active_eq_some.1 hactive).1
    rw [heq] at h
    cases h
    exact hrot.2.1 rfl
  | release pair hrevoked hactive hleased =>
    refine ⟨fun heq => ?_, not_quiescent_of_active hactive⟩
    obtain ⟨expiresAt, hlease, -⟩ := leasedTo_clean.1 hleased
    rw [heq] at hlease
    cases hlease
  | abort pair hrevoked hactive hleased => exact ⟨ne_of_active_none hactive rfl, not_quiescent_revokeExact _ _ _⟩
  | revoke pair hlive hnew hactive => exact ⟨ne_of_active_none hactive rfl, not_quiescent_revokeExact _ _ _⟩
  | revokePrincipal proof current hlive hactive hproof =>
    exact ⟨ne_of_active_none hactive rfl, not_quiescent_revokeExact _ _ _⟩

/-! ## The three kinds of call -/

/-- The call is answered `result` and nothing is stored. -/
def Operation.Refuses (operation : Operation) (stored : Option VnuRefreshControlState) (now : Nat)
    (result : OperationResult) : Prop :=
  operation.shortcut stored now = some result ∨
    operation.shortcut stored now = none ∧ operation.verdict (cleanVnuRefreshState stored now) now = .refuse result

/-- `checkAccess` and the alarm, which store the cleaned state if it differs. -/
def Operation.Cleans : Operation → Prop
  | .checkAccess _ | .alarm => True
  | _ => False

theorem cleans_of_verdict {state : VnuRefreshControlState} (hv : operation.verdict state now = .clean result) :
    operation.Cleans := by
  cases operation with
  | checkAccess access => trivial
  | alarm => trivial
  | _ =>
    simp only [Operation.verdict] at hv
    repeat' split at hv
    all_goals cases hv

theorem Operation.Refuses.output_eq (h : operation.Refuses stored now result) :
    operation.output stored now = unchanged stored now result := by
  rcases h with h | ⟨hs, hv⟩
  · simp only [Operation.output, h]
  · simp only [Operation.output, hs, hv]

theorem Stores.output_eq (h : Stores stored now operation result next) (hrot : operation.RotationOk stored) :
    operation.output stored now = { state := next, result, changed := true } := by
  have hne : (stored == some next) = false := by simpa using (h.fresh hrot).1
  simp only [Operation.output, h.verdict.1, h.verdict.2, changed, sameVnuRefreshState, hne, Bool.not_false]

theorem Operation.Cleans.output_eq (h : operation.Cleans) (stored : Option VnuRefreshControlState) (now : Nat) :
    ∃ result, operation.verdict (cleanVnuRefreshState stored now) now = .clean result ∧ operation.output stored now =
      { state := cleanVnuRefreshState stored now
        result
        changed := stored.isSome && !sameVnuRefreshState stored (cleanVnuRefreshState stored now) } := by
  cases operation with
  | checkAccess access => exact ⟨_, rfl, rfl⟩
  | alarm => exact ⟨_, rfl, rfl⟩
  | _ => exact h.elim

theorem output_cases (operation : Operation) (stored : Option VnuRefreshControlState) (now : Nat) :
    (∃ result, operation.Refuses stored now result) ∨ (∃ result next, Stores stored now operation result next) ∨
      operation.Cleans := by
  cases hs : operation.shortcut stored now with
  | some result => exact .inl ⟨result, .inl hs⟩
  | none =>
    cases hv : operation.verdict (cleanVnuRefreshState stored now) now with
    | refuse result => exact .inl ⟨result, .inr ⟨hs, hv⟩⟩
    | store result next => exact .inr (.inl ⟨result, next, stores_of_verdict hs hv⟩)
    | clean result => exact .inr (.inr (cleans_of_verdict hv))

end Stores

end Hyeboard.VnuRefresh
