import Hyeboard.VnuRefresh.DurableObject
/-!
# What an earlier cleanup changes

The durable object's alarm stores the cleaned state, PostgreSQL has no alarm.
Every call cleans what it reads, so an alarm in between is seen by two calls
only: `activatePair` looks for its pair and for a lease, and `completeRefresh`
for tombstones of the new identifiers, before they clean
(`cleanup_unobserved_iff`).
-/

namespace Hyeboard.VnuRefresh

/-- What a call answers, or throws. -/
def answer (operation : Operation) (stored : Option VnuRefreshControlState) (now : Nat) : Except String OperationResult :=
  (·.result) <$> applyOperation operation stored now

/-- Five activations are counted in a window that runs. -/
def ActivationsUsedUp (state : VnuRefreshControlState) (now : Nat) : Prop :=
  ∃ window, state.activationWindow = some window ∧ vnuManualActivationLimit ≤ window.count ∧ now < window.resetAt

/-- The condition: at `earlier` neither an unleased active pair nor the lease of
a live one had expired of the pair `activatePair` is called with while no
activation is left; and of the tombstones `completeRefresh` looks for, not
all had. -/
def Operation.UnmovedBy (operation : Operation) (state : VnuRefreshControlState) (earlier now : Nat) : Prop :=
  match operation with
  | .activatePair pair => ActivationsUsedUp state now → state.active = some pair →
      (state.lease = none → earlier < pair.grantExpiresAt) ∧
        ∀ lease, state.lease = some lease → lease.expiresAt ≤ earlier → pair.grantExpiresAt ≤ earlier
  | .completeRefresh old next => next.grantExpiresAt = old.grantExpiresAt → next.accessTokenId ≠ old.accessTokenId →
      next.grantId ≠ old.grantId → (∀ expiresAt, state.revokedAccess.get? next.accessTokenId = some expiresAt → expiresAt ≤ earlier) →
      (∀ tombstone, state.revokedGrants.get? next.grantId = some tombstone → grantTombstoneExpiresAt tombstone ≤ earlier) →
      state.revokedAccess.get? next.accessTokenId = none ∧ state.revokedGrants.get? next.grantId = none
  | _ => True

/-! ## Cleaning twice -/

/-- The same state but for a refresh window that counts nothing in either. -/
structure SameButIdleWindow (left right : VnuRefreshControlState) : Prop where
  active : left.active = right.active
  lease : left.lease = right.lease
  revokedAccess : left.revokedAccess = right.revokedAccess
  revokedGrants : left.revokedGrants = right.revokedGrants
  activationWindow : left.activationWindow = right.activationWindow
  window : left.window = right.window ∨ left.window.count = 0 ∧ right.window.count = 0

section
variable {state left right : VnuRefreshControlState} {earlier now : Nat}

theorem filter_filter_of_imp {α : Type} (r : Record α) {first second : α → Bool}
    (h : ∀ value, second value = true → first value = true) : (r.filter first).filter second = r.filter second := by
  apply Record.ext_entries
  simp only [Record.filter, List.filter_filter]
  apply List.filter_congr
  intro e _
  cases hsecond : second e.2 with
  | false => rfl
  | true => rw [h _ hsecond]; rfl

theorem option_filter_filter_of_imp {α : Type} (o : Option α) {first second : α → Bool}
    (h : ∀ value, second value = true → first value = true) : (o.filter first).filter second = o.filter second := by
  cases o with
  | none => rfl
  | some value =>
    cases hsecond : second value with
    | false => cases hfirst : first value <;> simp [Option.filter, hfirst, hsecond]
    | true => simp [Option.filter, hsecond, h _ hsecond]

/-- A window that runs at `now` ran at `earlier`; one that has ended counts
nothing after either cleaning. -/
theorem clean_clean_window (state : VnuRefreshControlState) (hle : earlier ≤ now) :
    (cleanVnuRefreshState (some (cleanVnuRefreshState (some state) earlier)) now).window =
        (cleanVnuRefreshState (some state) now).window ∨
      (cleanVnuRefreshState (some (cleanVnuRefreshState (some state) earlier)) now).window.count = 0 ∧
        (cleanVnuRefreshState (some state) now).window.count = 0 := by
  have hagain := clean_window_cases (some (cleanVnuRefreshState (some state) earlier)) now
  rcases clean_window_cases (some state) now with ⟨_, ⟨⟩, hlive, hw⟩ | ⟨hover, hw⟩
  · have hkept : (cleanVnuRefreshState (some state) earlier).window = state.window := by
      rcases clean_window_cases (some state) earlier with ⟨_, ⟨⟩, -, hkept⟩ | ⟨hover, -⟩
      · exact hkept
      · have hended := hover state rfl
        omega
    rcases hagain with ⟨_, ⟨⟩, -, hsame⟩ | ⟨hover, -⟩
    · exact .inl (by rw [hsame, hkept, hw])
    · have hended := hover _ rfl
      rw [hkept] at hended
      omega
  · refine .inr ⟨?_, by rw [hw]⟩
    rcases hagain with ⟨_, ⟨⟩, hlive, hsame⟩ | ⟨-, hsame⟩
    · rw [hsame]
      rcases clean_window_cases (some state) earlier with ⟨_, ⟨⟩, -, hkept⟩ | ⟨-, hfresh⟩
      · have hended := hover state rfl
        rw [hkept] at hlive
        omega
      · rw [hfresh]
    · rw [hsame]

/-- What has expired by `earlier` has expired by `now`. -/
theorem clean_clean (state : VnuRefreshControlState) (hle : earlier ≤ now) :
    SameButIdleWindow (cleanVnuRefreshState (some (cleanVnuRefreshState (some state) earlier)) now)
      (cleanVnuRefreshState (some state) now) := by
  constructor
  · change (state.active.filter _).filter _ = state.active.filter _
    apply option_filter_filter_of_imp
    intro active hlive
    simp only [decide_eq_true_eq] at hlive ⊢
    omega
  · change (state.lease.filter _).filter _ = state.lease.filter _
    apply option_filter_filter_of_imp
    intro lease hlive
    simp only [Bool.and_eq_true, decide_eq_true_eq] at hlive ⊢
    omega
  · simp only [cleanVnuRefreshState, Option.getD_some]
    apply filter_filter_of_imp
    intro expiresAt hlive
    simp only [decide_eq_true_eq] at hlive ⊢
    omega
  · simp only [cleanVnuRefreshState, Option.getD_some]
    apply filter_filter_of_imp
    intro tombstone hlive
    simp only [decide_eq_true_eq] at hlive ⊢
    omega
  · change (state.activationWindow.filter _).filter _ = state.activationWindow.filter _
    apply option_filter_filter_of_imp
    intro window hlive
    simp only [Bool.and_eq_true, decide_eq_true_eq] at hlive ⊢
    omega
  · exact clean_clean_window state hle

end

/-! ## What a call answers -/

def Verdict.result : Verdict → OperationResult
  | .refuse result | .store result _ | .clean result => result

section
variable {operation : Operation} {stored : Option VnuRefreshControlState} {state left right : VnuRefreshControlState}
  {pair : LinkedPair} {earlier now : Nat}

theorem verdict_result_congr (h : SameButIdleWindow left right) (operation : Operation) (now : Nat) :
    (operation.verdict left now).result = (operation.verdict right now).result := by
  have haccess : ∀ id, accessRevoked left id = accessRevoked right id := by
    intro id
    rw [accessRevoked, accessRevoked, h.revokedAccess]
  have hgrant : ∀ id, grantRevoked left id = grantRevoked right id := by
    intro id
    rw [grantRevoked, grantRevoked, h.revokedGrants]
  cases operation with
  | activatePair pair =>
    simp only [Operation.verdict, h.activationWindow]
    cases right.activationWindow with
    | none => rfl
    | some window =>
      simp only
      split_ifs <;> rfl
  | beginRefresh pair =>
    have hleased : leasedTo left pair ↔ leasedTo right pair := by rw [leasedTo, leasedTo, h.lease]
    simp only [Operation.verdict, haccess, hgrant, h.active, h.lease, hleased]
    by_cases hdead : pair.grantExpiresAt ≤ now ∨ accessRevoked right pair.accessTokenId = true ∨
        grantRevoked right pair.grantId = true ∨ right.active ≠ some pair
    · simp only [if_pos hdead]
    by_cases hidle : leasedTo right pair
    · simp only [if_neg hdead, if_pos hidle, Verdict.result]
    rcases h.window with hwindow | ⟨hleft, hright⟩
    · by_cases hfull : right.window.count ≥ vnuRefreshAttemptLimit
      · simp only [if_neg hdead, if_neg hidle, hwindow, if_pos hfull, Verdict.result]
      · simp only [if_neg hdead, if_neg hidle, hwindow, if_neg hfull, Verdict.result]
    · have hroom : ¬ 0 ≥ vnuRefreshAttemptLimit := by decide
      simp only [if_neg hdead, if_neg hidle, hleft, hright, if_neg hroom, Verdict.result]
  | completeRefresh old next =>
    have hleased : leasedTo left old ↔ leasedTo right old := by rw [leasedTo, leasedTo, h.lease]
    simp only [Operation.verdict, h.active, hleased]
    by_cases hdead : old.grantExpiresAt ≤ now ∨ right.active ≠ some old ∨ ¬ leasedTo right old
    · simp only [if_pos hdead]
    · simp only [if_neg hdead, Verdict.result]
  | abortRefresh pair terminal =>
    have hleased : leasedTo left pair ↔ leasedTo right pair := by rw [leasedTo, leasedTo, h.lease]
    simp only [Operation.verdict, haccess, hgrant, h.active, hleased]
    by_cases hrevoked : accessRevoked right pair.accessTokenId = true ∨ grantRevoked right pair.grantId = true
    · simp only [if_pos hrevoked]
    by_cases hidle : ¬ leasedTo right pair ∨ right.active ≠ some pair
    · simp only [if_neg hrevoked, if_pos hidle]
    · simp only [if_neg hrevoked, if_neg hidle]
      cases terminal <;> rfl
  | revokeLinkedPairByAccess pair =>
    simp only [Operation.verdict, h.active, h.revokedAccess, h.revokedGrants]
    split_ifs <;> rfl
  | revokePrincipalByLinkedGrant proof =>
    simp only [Operation.verdict, h.active, h.revokedGrants]
    cases right.active with
    | none =>
      simp only
    | some current =>
      have hproves : ProvesSuccessor left proof current ↔ ProvesSuccessor right proof current := by
        rw [ProvesSuccessor, ProvesSuccessor, h.revokedGrants]
      have hleased : leasedTo left current ↔ leasedTo right current := by rw [leasedTo, leasedTo, h.lease]
      simp only [hproves, hleased, h.lease]
      by_cases hproof : current = proof ∨ ProvesSuccessor right proof current ∧ (right.lease = none ∨ leasedTo right current)
      · simp only [if_pos hproof, Verdict.result]
      · simp only [if_neg hproof]
  | checkAccess access => simp only [Operation.verdict, haccess, hgrant, h.active]
  | alarm => rfl

/-- What `completeRefresh` throws on a rotation that is not one. -/
def rotationError (old next : LinkedPair) : String :=
  if next.grantExpiresAt ≠ old.grantExpiresAt then "VNU refresh grant expiry changed"
  else if next.accessTokenId = old.accessTokenId ∨ next.grantId = old.grantId then "Invalid VNU refresh rotation identifiers"
  else "Invalid VNU refresh rotation collision"

/-- The answer of a call that does not throw. -/
def outcome (operation : Operation) (stored : Option VnuRefreshControlState) (now : Nat) : OperationResult :=
  (operation.shortcut stored now).getD (operation.verdict (cleanVnuRefreshState stored now) now).result

theorem output_result (operation : Operation) (stored : Option VnuRefreshControlState) (now : Nat) :
    (operation.output stored now).result = outcome operation stored now := by
  unfold Operation.output outcome
  cases operation.shortcut stored now with
  | some result => rfl
  | none =>
    simp only [Option.getD_none]
    cases operation.verdict (cleanVnuRefreshState stored now) now <;> rfl

theorem answer_of_rotationOk (hargs : operation.ArgumentsValid) (hrot : operation.RotationOk stored) (now : Nat) :
    answer operation stored now = .ok (outcome operation stored now) := by
  rw [answer, applyOperation_eq_ok.2 ⟨hargs, hrot, rfl⟩, ← output_result]
  rfl

theorem answer_of_not_rotationOk {old next : LinkedPair} (hargs : (Operation.completeRefresh old next).ArgumentsValid)
    (hrot : ¬ (Operation.completeRefresh old next).RotationOk stored) (now : Nat) :
    answer (.completeRefresh old next) stored now = .error (rotationError old next) := by
  rw [rotationOk_iff] at hrot
  have hold : assertLinkedPair old.toJs = .ok old := assertLinkedPair_toJs.2 ⟨rfl, hargs old (by simp [Operation.pairs])⟩
  have hnext : assertLinkedPair next.toJs = .ok next := assertLinkedPair_toJs.2 ⟨rfl, hargs next (by simp [Operation.pairs])⟩
  have happly : applyCompleteRefresh stored old next now = .error (rotationError old next) := by
    unfold applyCompleteRefresh rotationError
    simp only [hold, hnext, bind, Except.bind]
    by_cases hexpiry : next.grantExpiresAt = old.grantExpiresAt
    · by_cases hids : next.accessTokenId = old.accessTokenId ∨ next.grantId = old.grantId
      · simp [hexpiry, hids]
        rfl
      · have hcollision : (stored.bind (·.revokedAccess.get? next.accessTokenId)).isSome = true ∨
            (stored.bind (·.revokedGrants.get? next.grantId)).isSome = true := by
          by_contra hfree
          exact hrot ⟨hexpiry, hids, hfree⟩
        simp [hexpiry, hids, hcollision]
        rfl
    · simp [hexpiry]
      rfl
  rw [answer, applyOperation, happly]
  rfl

/-! ## Where the two states differ for a call -/

theorem outcome_clean (operation : Operation) (hle : earlier ≤ now)
    (hshortcut : operation.shortcut (some (cleanVnuRefreshState (some state) earlier)) now = operation.shortcut (some state) now) :
    outcome operation (some (cleanVnuRefreshState (some state) earlier)) now = outcome operation (some state) now := by
  rw [outcome, outcome, hshortcut, verdict_result_congr (clean_clean state hle)]

theorem outcome_activatePair (hcount : ∀ window, state.activationWindow = some window → 0 < window.count) (pair : LinkedPair)
    (now : Nat) : (outcome (.activatePair pair) (some state) now = .activatePair .activated) ↔
      (ActivationsUsedUp state now → state.active = some pair ∧ state.lease = none) := by
  unfold outcome Operation.shortcut
  simp only [Option.bind_some]
  split
  · rename_i hsame
    simp only [Option.getD_some, true_iff]
    exact fun _ => hsame
  · rename_i hslow
    simp only [Option.getD_none, Operation.verdict, hslow, imp_false]
    cases hwindow : (cleanVnuRefreshState (some state) now).activationWindow with
    | none =>
      simp only [Verdict.result, true_iff]
      rintro ⟨window, hw, hfull, hlive⟩
      have hclean : (cleanVnuRefreshState (some state) now).activationWindow = some window :=
        clean_activationWindow_eq_some.2 ⟨hw, hcount window hw, hlive⟩
      rw [hclean] at hwindow
      cases hwindow
    | some window =>
      obtain ⟨hw, -, hlive⟩ := clean_activationWindow_eq_some.1 hwindow
      simp only
      split
      · rename_i hfull
        simp only [Verdict.result, OperationResult.activatePair.injEq, reduceCtorEq, false_iff, not_not]
        exact ⟨window, hw, hfull, hlive⟩
      · rename_i hroom
        simp only [Verdict.result, true_iff]
        rintro ⟨other, hother, hfull, -⟩
        rw [Option.bind_some, hother] at hw
        cases hw
        exact hroom hfull

/-- `activatePair` finds its pair active and unleased. -/
def FastPath (state : VnuRefreshControlState) (pair : LinkedPair) : Prop := state.active = some pair ∧ state.lease = none

theorem shortcut_activatePair (h : FastPath left pair ↔ FastPath right pair) :
    (Operation.activatePair pair).shortcut (some left) now = (Operation.activatePair pair).shortcut (some right) now := by
  unfold FastPath at h
  simp only [Operation.shortcut, Option.bind_some, h]

theorem clean_usedUp (hcount : ∀ window, state.activationWindow = some window → 0 < window.count) (hle : earlier ≤ now) :
    ActivationsUsedUp (cleanVnuRefreshState (some state) earlier) now ↔ ActivationsUsedUp state now := by
  constructor
  · rintro ⟨window, hw, hfull, hlive⟩
    exact ⟨window, (clean_activationWindow_eq_some.1 hw).1, hfull, hlive⟩
  · rintro ⟨window, hw, hfull, hlive⟩
    exact ⟨window, clean_activationWindow_eq_some.2 ⟨hw, hcount window hw, Nat.lt_of_le_of_lt hle hlive⟩, hfull, hlive⟩

/-- A valid state's lease is of its active pair, so of the two it expires first. -/
theorem clean_lease_eq_none (hvalid : state.Valid) (hactive : state.active = some pair) (hlive : earlier < pair.grantExpiresAt) :
    (cleanVnuRefreshState (some state) earlier).lease = none ↔
      ∀ lease, state.lease = some lease → lease.expiresAt ≤ earlier := by
  constructor
  · intro hnone lease hlease
    by_contra hopen
    have hpair : lease.pair = pair := Option.some.inj ((hvalid.lease_active lease hlease).symm.trans hactive)
    have hclean : (cleanVnuRefreshState (some state) earlier).lease = some lease :=
      clean_lease_eq_some.2 ⟨hlease, Nat.lt_of_not_le hopen, hpair ▸ hlive⟩
    rw [hnone] at hclean
    cases hclean
  · intro hended
    rw [Option.eq_none_iff_forall_ne_some]
    intro lease hclean
    obtain ⟨hlease, hopen, -⟩ := clean_lease_eq_some.1 hclean
    exact absurd (hended lease hlease) (Nat.not_le.2 hopen)

theorem unmovedBy_activatePair (hvalid : state.Valid) :
    (Operation.activatePair pair).UnmovedBy state earlier now ↔
      (ActivationsUsedUp state now → (FastPath (cleanVnuRefreshState (some state) earlier) pair ↔ FastPath state pair)) := by
  apply imp_congr_right
  intro _
  have hclean : (cleanVnuRefreshState (some state) earlier).active = some pair ↔
      state.active = some pair ∧ earlier < pair.grantExpiresAt := clean_active_eq_some
  unfold FastPath
  rw [hclean]
  by_cases hactive : state.active = some pair
  · by_cases hlive : earlier < pair.grantExpiresAt
    · rw [clean_lease_eq_none hvalid hactive hlive]
      simp only [hactive, hlive, Nat.not_le.2 hlive, true_and, imp_true_iff, imp_false, forall_true_left]
      cases state.lease <;> simp
    · simp only [hactive, hlive, Nat.le_of_not_lt hlive, true_and, and_false, false_and, false_iff, imp_false, forall_true_left,
        imp_true_iff, and_true]
  · simp only [hactive, false_and, IsEmpty.forall_iff]

theorem unmovedBy_completeRefresh {old next : LinkedPair} :
    (Operation.completeRefresh old next).UnmovedBy state earlier now ↔
      ((Operation.completeRefresh old next).RotationOk (some (cleanVnuRefreshState (some state) earlier)) →
        (Operation.completeRefresh old next).RotationOk (some state)) := by
  have haccess : (cleanVnuRefreshState (some state) earlier).revokedAccess.get? next.accessTokenId = none ↔
      ∀ expiresAt, state.revokedAccess.get? next.accessTokenId = some expiresAt → expiresAt ≤ earlier := by
    simp only [Option.eq_none_iff_forall_ne_some, ne_eq, clean_access_eq_some, Option.bind_some, not_and, Nat.not_lt]
  have hgrants : (cleanVnuRefreshState (some state) earlier).revokedGrants.get? next.grantId = none ↔
      ∀ tombstone, state.revokedGrants.get? next.grantId = some tombstone → grantTombstoneExpiresAt tombstone ≤ earlier := by
    simp only [Option.eq_none_iff_forall_ne_some, ne_eq, clean_grant_eq_some, Option.bind_some, not_and, Nat.not_lt]
  simp only [Operation.UnmovedBy, Operation.RotationOk, Option.some.injEq, forall_eq', haccess, hgrants]
  constructor
  · rintro h ⟨hexpiry, hid, hgrant, hold⟩
    exact ⟨hexpiry, hid, hgrant, h hexpiry hid hgrant hold.1 hold.2⟩
  · intro h hexpiry hid hgrant ha hg
    exact (h ⟨hexpiry, hid, hgrant, ha, hg⟩).2.2.2

/-- Cleaning forgets tombstones, so it allows more rotations. -/
theorem rotationOk_clean (h : operation.RotationOk (some state)) :
    operation.RotationOk (some (cleanVnuRefreshState (some state) earlier)) := by
  cases operation with
  | completeRefresh old next =>
    obtain ⟨hexpiry, hid, hgrant, hfree⟩ := h
    obtain ⟨haccess, hgrants⟩ := hfree state rfl
    refine ⟨hexpiry, hid, hgrant, ?_⟩
    rintro _ ⟨⟩
    simp [cleanVnuRefreshState, Record.get?_filter, haccess, hgrants]
  | _ => trivial

end

/-- An earlier cleanup is seen by a call exactly when it moved what the call
looks for before it cleans. -/
theorem cleanup_unobserved_iff (operation : Operation) (state : VnuRefreshControlState) (earlier now : Nat)
    (hparse : parseVnuRefreshControlState (rawState (some state)) = .ok (some state)) (hargs : operation.ArgumentsValid)
    (hle : earlier ≤ now) :
    answer operation (some (cleanVnuRefreshState (some state) earlier)) now = answer operation (some state) now ↔
      operation.UnmovedBy state earlier now := by
  have hvalid : state.Valid := by
    rw [parse_rawState] at hparse
    exact hparse.2 state rfl
  cases operation with
  | activatePair pair =>
    have hcount : ∀ window, state.activationWindow = some window → 0 < window.count :=
      fun window hw => (hvalid.activation window hw).low_le
    have hcleanCount : ∀ window, (cleanVnuRefreshState (some state) earlier).activationWindow = some window → 0 < window.count :=
      fun window hw => (clean_activationWindow_eq_some.1 hw).2.1
    rw [answer_of_rotationOk hargs trivial, answer_of_rotationOk hargs trivial, Except.ok.injEq, unmovedBy_activatePair hvalid]
    by_cases hfast : FastPath (cleanVnuRefreshState (some state) earlier) pair ↔ FastPath state pair
    · rw [outcome_clean (.activatePair pair) hle (shortcut_activatePair hfast)]
      exact ⟨fun _ _ => hfast, fun _ => rfl⟩
    · -- one of the two takes the fast path, so they agree exactly when the other still has an activation
      have hleft := outcome_activatePair hcleanCount pair now
      have hright := outcome_activatePair hcount pair now
      rw [clean_usedUp hcount hle] at hleft
      constructor
      · intro heq hused
        rw [heq] at hleft
        exact absurd ⟨fun h => (hright.1 (hleft.2 fun _ => h)) hused, fun h => (hleft.1 (hright.2 fun _ => h)) hused⟩ hfast
      · intro hroom
        have hfree : ¬ ActivationsUsedUp state now := fun hused => hfast (hroom hused)
        rw [hleft.2 fun hused => absurd hused hfree, hright.2 fun hused => absurd hused hfree]
  | completeRefresh old next =>
    rw [unmovedBy_completeRefresh]
    by_cases hrot : (Operation.completeRefresh old next).RotationOk (some state)
    · rw [answer_of_rotationOk hargs hrot, answer_of_rotationOk hargs (rotationOk_clean hrot),
        outcome_clean (.completeRefresh old next) hle rfl]
      exact ⟨fun _ _ => hrot, fun _ => rfl⟩
    · rw [answer_of_not_rotationOk hargs hrot]
      by_cases hclean : (Operation.completeRefresh old next).RotationOk (some (cleanVnuRefreshState (some state) earlier))
      · rw [answer_of_rotationOk hargs hclean]
        simp only [reduceCtorEq, hclean, hrot, imp_false, not_true_eq_false]
      · rw [answer_of_not_rotationOk hargs hclean]
        simp only [hclean, IsEmpty.forall_iff]
  | _ =>
    rw [answer_of_rotationOk hargs trivial, answer_of_rotationOk hargs trivial, outcome_clean _ hle rfl]
    exact ⟨fun _ => trivial, fun _ => rfl⟩

/-- Five activations, then a refresh whose lease has run out. -/
def spentState : VnuRefreshControlState :=
  { active := some oldPair
    lease := some { pair := oldPair, expiresAt := testNow + vnuRefreshLeaseMs }
    revokedAccess := .empty
    revokedGrants := .empty
    window := { count := 1, resetAt := testNow + vnuRefreshWindowMs }
    activationWindow := some { count := 5, resetAt := testNow + vnuManualActivationWindowMs } }

/-- Without an alarm the pair's next activation is refused, after one it is a
repetition. -/
theorem cleanup_observed :
    ¬ ∀ (operation : Operation) (state : VnuRefreshControlState) (earlier now : Nat),
      parseVnuRefreshControlState (rawState (some state)) = .ok (some state) → operation.ArgumentsValid → earlier ≤ now →
        answer operation (some (cleanVnuRefreshState (some state) earlier)) now = answer operation (some state) now := by
  intro hall
  have hargs : (Operation.activatePair oldPair).ArgumentsValid := by
    simpa [Operation.ArgumentsValid, Operation.pairs] using oldPair_valid
  have hsame := hall (.activatePair oldPair) spentState (testNow + vnuRefreshLeaseMs) (testNow + vnuRefreshLeaseMs + 1)
    (by decide +kernel) hargs (Nat.le_succ _)
  exact absurd hsame (by decide +kernel)

theorem cleanup_unobserved_begin :
    answer (.beginRefresh oldPair) (some (cleanVnuRefreshState (some spentState) (testNow + vnuRefreshLeaseMs)))
        (testNow + vnuRefreshLeaseMs + 1) =
      answer (.beginRefresh oldPair) (some spentState) (testNow + vnuRefreshLeaseMs + 1) := by
  have hargs : (Operation.beginRefresh oldPair).ArgumentsValid := by
    simpa [Operation.ArgumentsValid, Operation.pairs] using oldPair_valid
  exact (cleanup_unobserved_iff (.beginRefresh oldPair) spentState _ _ (by decide +kernel) hargs (Nat.le_succ _)).2 trivial

end Hyeboard.VnuRefresh
