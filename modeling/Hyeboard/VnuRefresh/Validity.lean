import Hyeboard.VnuRefresh.DurableObject
import Hyeboard.VnuRefresh.Revocation
/-!
# When a transition keeps the record readable

Every record storage reads back is `Valid`. A transition returns a valid state
exactly when it starts no window that would end past `Number.MAX_SAFE_INTEGER`
and does not activate a pair one of whose identifiers is still in use:
`applyActivatePair`, unlike `applyCompleteRefresh`, does not look. The record
it then stores fails `parseVnuRefreshControlState`, and so does every later call
of the principal.
-/

namespace Hyeboard.VnuRefresh

section
variable {stored : Option VnuRefreshControlState} {now : Nat} {operation : Operation} {result : OperationResult}
  {state next : VnuRefreshControlState} {pair current : LinkedPair}

/-! ## Cleaning -/

/-- The stored refresh window has ended, or nothing is stored. -/
def WindowOver (stored : Option VnuRefreshControlState) (now : Nat) : Prop :=
  ∀ state, stored = some state → state.window.resetAt ≤ now

def ActivationWindowOver (stored : Option VnuRefreshControlState) (now : Nat) : Prop :=
  ∀ window, stored.bind (·.activationWindow) = some window → window.resetAt ≤ now

theorem clean_window_reset_iff (hvalid : SlotValid stored) :
    PositiveSafe (cleanVnuRefreshState stored now).window.resetAt ↔
      (WindowOver stored now → now + vnuRefreshWindowMs ≤ maxSafeInteger) := by
  have hpos : 0 < vnuRefreshWindowMs := by decide
  rcases clean_window_cases stored now with ⟨state, rfl, hlive, hw⟩ | ⟨hover, hw⟩
  · rw [hw]
    refine ⟨fun _ hover => ?_, fun _ => (hvalid state rfl).window.reset⟩
    have := hover state rfl
    omega
  · rw [hw]
    refine ⟨fun h _ => h.2, fun h => ⟨?_, h hover⟩⟩
    show 0 < now + vnuRefreshWindowMs
    omega

/-- Cleaning keeps everything valid but a window it starts. -/
theorem clean_valid (hvalid : SlotValid stored)
    (hreset : PositiveSafe (cleanVnuRefreshState stored now).window.resetAt) :
    (cleanVnuRefreshState stored now).Valid := by
  have hlease : ∀ lease, (cleanVnuRefreshState stored now).lease = some lease → ∃ state, stored = some state ∧
      state.lease = some lease ∧ now < lease.pair.grantExpiresAt := by
    intro lease h
    obtain ⟨hl, -, hlive⟩ := clean_lease_eq_some.1 h
    obtain ⟨state, hs, hl⟩ := Option.bind_eq_some_iff.1 hl
    exact ⟨state, hs, hl, hlive⟩
  refine ⟨?_, ?_, ?_, ?_, ?_, ?_, ?_, ?_, ?_, ?_⟩
  · intro pair h
    obtain ⟨state, hs, ha⟩ := Option.bind_eq_some_iff.1 (clean_active_eq_some.1 h).1
    exact (hvalid state hs).active pair ha
  · intro lease h
    obtain ⟨state, hs, hl, -⟩ := hlease lease h
    exact (hvalid state hs).lease_expiry lease hl
  · intro lease h
    obtain ⟨state, rfl, hl, hlive⟩ := hlease lease h
    exact clean_active_eq_some.2 ⟨(hvalid state rfl).lease_active lease hl, hlive⟩
  · intro lease h
    obtain ⟨state, hs, hl, -⟩ := hlease lease h
    exact (hvalid state hs).lease_le lease hl
  · intro e he
    obtain ⟨⟨state, hs, he⟩, -⟩ := clean_access_entries he
    exact (hvalid state hs).access e he
  · intro e he
    obtain ⟨⟨state, hs, he⟩, -⟩ := clean_grant_entries he
    exact (hvalid state hs).grants e he
  · refine ⟨Nat.zero_le _, ?_, hreset⟩
    rcases clean_window_cases stored now with ⟨state, hs, -, hw⟩ | ⟨-, hw⟩
    · rw [hw]
      exact (hvalid state hs).window.le_limit
    · rw [hw]
      exact Nat.zero_le _
  · intro window h
    obtain ⟨state, hs, hw⟩ := Option.bind_eq_some_iff.1 (clean_activationWindow_eq_some.1 h).1
    exact (hvalid state hs).activation window hw
  · exact fun pair h => clean_active_access hvalid h
  · exact fun pair h => clean_active_grant hvalid h

/-! ## Storing -/

theorem linkedGrantTombstone_valid (h : pair.Valid) (id : String) :
    RevokedGrantTombstone.Valid id (.linked (linkedGrantTombstone pair)) :=
  ⟨h.access_id, h.access_expiry, h.grant_expiry, nofun, rfl⟩

theorem refreshSuccessorGrantTombstone_valid {old next : LinkedPair} (hold : old.Valid) (hnext : next.Valid)
    (hexpiry : next.grantExpiresAt = old.grantExpiresAt) (haccess : next.accessTokenId ≠ old.accessTokenId)
    (hgrant : next.grantId ≠ old.grantId) :
    RevokedGrantTombstone.Valid old.grantId (.linked (refreshSuccessorGrantTombstone old next)) := by
  refine ⟨hold.access_id, hold.access_expiry, hold.grant_expiry, fun successor h => ?_, ?_⟩
  · cases h
    exact hnext
  · simp [successorOk, refreshSuccessorGrantTombstone, linkedGrantTombstone, hexpiry, haccess, hgrant]

/-- A state with no active pair is valid when its maps and windows are. -/
theorem valid_of_inactive (hactive : state.active = none) (hlease : state.lease = none)
    (haccess : ∀ e ∈ state.revokedAccess.entries, isIdentifier e.1 = true ∧ PositiveSafe e.2)
    (hgrants : ∀ e ∈ state.revokedGrants.entries, isIdentifier e.1 = true ∧ e.2.Valid e.1)
    (hwindow : state.window.Valid 0 vnuRefreshAttemptLimit)
    (hactivation : ∀ window, state.activationWindow = some window → window.Valid 1 vnuManualActivationLimit) :
    state.Valid := by
  constructor
  case access => exact haccess
  case grants => exact hgrants
  case window => exact hwindow
  case activation => exact hactivation
  all_goals simp only [hactive, hlease, reduceCtorEq, false_implies, implies_true]

/-- The lease of a valid state is for its active pair, so it goes with it. -/
theorem revokeExact_lease (h : state.Valid) (hactive : state.active = some current) (g : LinkedGrantTombstone) :
    (revokeExact state current g).lease = none := by
  cases hl : state.lease with
  | none => simp [revokeExact, hl]
  | some lease =>
    have hsame : lease.pair = current := Option.some.inj ((h.lease_active lease hl).symm.trans hactive)
    simp [revokeExact, hl, hsame]

/-- Revoking the active pair of a valid state. -/
theorem revokeExact_valid (h : state.Valid) (hactive : state.active = some current) {g : LinkedGrantTombstone}
    (hg : RevokedGrantTombstone.Valid current.grantId (.linked g)) : (revokeExact state current g).Valid := by
  have hpair := h.active current hactive
  refine valid_of_inactive rfl (revokeExact_lease h hactive g) ?_ ?_ h.window h.activation
  · intro e he
    rcases Record.mem_entries_set he with rfl | he
    · exact ⟨hpair.access_id, hpair.access_expiry⟩
    · exact h.access e he
  · intro e he
    rcases Record.mem_entries_set he with rfl | he
    · exact ⟨hpair.grant_id, hg⟩
    · exact h.grants e he

theorem principalRevoked_valid {proof : LinkedPair} (h : state.Valid) (hproof : proof.Valid)
    (hactive : state.active = some current) : (principalRevoked state proof current).Valid := by
  have hpair := h.active current hactive
  refine valid_of_inactive rfl (revokeExact_lease h hactive (linkedGrantTombstone current)) ?_ ?_ h.window h.activation
  · intro e he
    rcases Record.mem_entries_set he with rfl | he
    · exact ⟨hpair.access_id, hpair.access_expiry⟩
    rcases Record.mem_entries_set he with rfl | he
    · exact ⟨hproof.access_id, hproof.access_expiry⟩
    · exact h.access e he
  · intro e he
    rcases Record.mem_entries_set he with rfl | he
    · exact ⟨hpair.grant_id, linkedGrantTombstone_valid hpair _⟩
    rcases Record.mem_entries_set he with rfl | he
    · exact ⟨hproof.grant_id, linkedGrantTombstone_valid hproof _⟩
    · exact h.grants e he

theorem begun_valid (h : state.Valid) (hactive : state.active = some pair) (hlive : now < pair.grantExpiresAt)
    (hroom : state.window.count < vnuRefreshAttemptLimit) : (begun state pair now).Valid := by
  have hgrant := (h.active pair hactive).grant_expiry
  have hpos : 0 < vnuRefreshLeaseMs := by decide
  have hend : leaseEnd pair now ≤ pair.grantExpiresAt := Nat.min_le_right _ _
  refine { h with lease_expiry := ?_, lease_active := ?_, lease_le := ?_, window := ?_ }
  · rintro lease ⟨⟩
    refine ⟨?_, Nat.le_trans hend hgrant.2⟩
    show 0 < min (now + vnuRefreshLeaseMs) pair.grantExpiresAt
    omega
  · rintro lease ⟨⟩
    exact hactive
  · rintro lease ⟨⟩
    exact hend
  · exact ⟨Nat.zero_le _, hroom, h.window.reset⟩

theorem released_valid (h : state.Valid) : VnuRefreshControlState.Valid { state with lease := none } :=
  { h with lease_expiry := nofun, lease_active := nofun, lease_le := nofun }

/-- A valid inactive state with a new active pair, free in both maps. -/
theorem activate_valid {window : Option RefreshWindow} (h : state.Valid) (hpair : pair.Valid)
    (haccess : state.revokedAccess.get? pair.accessTokenId = none)
    (hgrant : state.revokedGrants.get? pair.grantId = none)
    (hwindow : ∀ w, window = some w → w.Valid 1 vnuManualActivationLimit) :
    VnuRefreshControlState.Valid { state with active := some pair, lease := none, activationWindow := window } := by
  refine { h with active := ?_, lease_expiry := nofun, lease_active := nofun, lease_le := nofun, activation := hwindow, active_access := ?_, active_grant := ?_ }
  · rintro _ ⟨⟩
    exact hpair
  · rintro _ ⟨⟩
    exact haccess
  · rintro _ ⟨⟩
    exact hgrant

theorem rotated_valid {old next : LinkedPair} (h : state.Valid) (hactive : state.active = some old) (hnext : next.Valid)
    (hexpiry : next.grantExpiresAt = old.grantExpiresAt) (haccess : next.accessTokenId ≠ old.accessTokenId)
    (hgrant : next.grantId ≠ old.grantId) (hfreeAccess : state.revokedAccess.get? next.accessTokenId = none)
    (hfreeGrant : state.revokedGrants.get? next.grantId = none) : (rotated state old next).Valid := by
  have htombstone := refreshSuccessorGrantTombstone_valid (h.active old hactive) hnext hexpiry haccess hgrant
  have hrevoked := revokeExact_valid h hactive htombstone
  have hlease := revokeExact_lease h hactive (refreshSuccessorGrantTombstone old next)
  have hvalid := activate_valid hrevoked hnext (by simpa [revokeExact, Record.get?_set, haccess] using hfreeAccess)
    (by simpa [revokeExact, Record.get?_set, hgrant] using hfreeGrant) h.activation
  rwa [← hlease] at hvalid

/-! ## Activation -/

/-- One of the pair's identifiers has a live tombstone, or is the replaced
pair's. -/
def Reuses (stored : Option VnuRefreshControlState) (now : Nat) (pair : LinkedPair) : Prop :=
  (∃ expiresAt, stored.bind (·.revokedAccess.get? pair.accessTokenId) = some expiresAt ∧ now < expiresAt) ∨
    (∃ tombstone, stored.bind (·.revokedGrants.get? pair.grantId) = some tombstone ∧
      now < grantTombstoneExpiresAt tombstone) ∨
    ∃ active, stored.bind (·.active) = some active ∧ now < active.grantExpiresAt ∧ active ≠ pair ∧
      (active.accessTokenId = pair.accessTokenId ∨ active.grantId = pair.grantId)

theorem countActivation_reset_iff (hvalid : SlotValid stored) :
    PositiveSafe (countActivation (cleanVnuRefreshState stored now) now).resetAt ↔
      (ActivationWindowOver stored now → now + vnuRefreshWindowMs ≤ maxSafeInteger) := by
  have hpos : 0 < vnuManualActivationWindowMs := by decide
  have hsame : vnuManualActivationWindowMs = vnuRefreshWindowMs := by decide
  unfold countActivation
  split
  · rename_i window hw
    obtain ⟨hw, -, hlive⟩ := clean_activationWindow_eq_some.1 hw
    obtain ⟨state, hs, hwindow⟩ := Option.bind_eq_some_iff.1 hw
    refine ⟨fun _ hover => ?_, fun _ => ((hvalid state hs).activation window hwindow).reset⟩
    have := hover window hw
    omega
  · rename_i hnone
    have hover : ActivationWindowOver stored now := by
      intro window hw
      obtain ⟨state, hs, hwindow⟩ := Option.bind_eq_some_iff.1 hw
      by_contra hlive
      have hcount := ((hvalid state hs).activation window hwindow).low_le
      rw [clean_activationWindow_eq_some.2 ⟨hw, hcount, Nat.lt_of_not_le hlive⟩] at hnone
      cases hnone
    show 0 < now + vnuManualActivationWindowMs ∧ now + vnuManualActivationWindowMs ≤ maxSafeInteger ↔ _
    rw [hsame] at hpos ⊢
    refine ⟨fun h _ => h.2, fun h => ⟨by omega, h hover⟩⟩

/-- `replaced` of `applyActivatePair`: the cleaned state, with another active
pair revoked. -/
theorem activated_cases (state : VnuRefreshControlState) (pair : LinkedPair) (now : Nat) :
    (∃ active, state.active = some active ∧ active ≠ pair ∧ activated state pair now =
      { revokeExact state active (linkedGrantTombstone active) with
        active := some pair, lease := none, activationWindow := some (countActivation state now) }) ∨
    ((∀ active, state.active = some active → active = pair) ∧ activated state pair now =
      { state with active := some pair, lease := none, activationWindow := some (countActivation state now) }) := by
  unfold activated
  cases ha : state.active with
  | none => exact .inr ⟨nofun, by simp⟩
  | some active =>
    by_cases hsame : active = pair
    · refine .inr ⟨?_, by simp [hsame]⟩
      rintro _ ⟨⟩
      exact hsame
    · exact .inl ⟨active, rfl, hsame, by simp [hsame]⟩

theorem countActivation_valid
    (hroom : ∀ window, state.activationWindow = some window → window.count < vnuManualActivationLimit)
    (hreset : PositiveSafe (countActivation state now).resetAt) :
    (countActivation state now).Valid 1 vnuManualActivationLimit := by
  refine ⟨?_, ?_, hreset⟩
  · unfold countActivation
    split
    · exact Nat.le_add_left _ _
    · exact Nat.le_refl _
  · unfold countActivation
    split
    · rename_i window hw
      exact hroom window hw
    · show 1 ≤ vnuManualActivationLimit
      decide

theorem reuses_iff :
    Reuses stored now pair ↔ (cleanVnuRefreshState stored now).revokedAccess.get? pair.accessTokenId ≠ none ∨
      (cleanVnuRefreshState stored now).revokedGrants.get? pair.grantId ≠ none ∨
      ∃ active, (cleanVnuRefreshState stored now).active = some active ∧ active ≠ pair ∧
        (active.accessTokenId = pair.accessTokenId ∨ active.grantId = pair.grantId) := by
  simp only [Reuses, Option.ne_none_iff_exists', clean_access_eq_some, clean_grant_eq_some, clean_active_eq_some,
    and_assoc]

theorem activated_valid_iff (hvalid : SlotValid stored) (hpair : pair.Valid)
    (hroom : ∀ window, (cleanVnuRefreshState stored now).activationWindow = some window →
      window.count < vnuManualActivationLimit) :
    (activated (cleanVnuRefreshState stored now) pair now).Valid ↔
      PositiveSafe (cleanVnuRefreshState stored now).window.resetAt ∧
        PositiveSafe (countActivation (cleanVnuRefreshState stored now) now).resetAt ∧ ¬ Reuses stored now pair := by
  rw [reuses_iff]
  constructor
  · intro h
    have hactive : (activated (cleanVnuRefreshState stored now) pair now).active = some pair := rfl
    have haccess := h.active_access pair hactive
    have hgrant := h.active_grant pair hactive
    refine ⟨?_, (h.activation _ rfl).reset, ?_⟩
    · rcases activated_cases (cleanVnuRefreshState stored now) pair now with ⟨active, -, -, heq⟩ | ⟨-, heq⟩
      all_goals
        rw [heq] at h
        exact h.window.reset
    · rcases activated_cases (cleanVnuRefreshState stored now) pair now with ⟨active, ha, hne, heq⟩ | ⟨hsame, heq⟩
      · rw [heq] at haccess hgrant
        simp only [revokeExact, Record.get?_set] at haccess hgrant
        split at haccess
        · cases haccess
        split at hgrant
        · cases hgrant
        rename_i hid hgid
        rintro (hu | hu | ⟨active', ha', -, hu | hu⟩)
        · exact hu haccess
        · exact hu hgrant
        · rw [ha, Option.some.injEq] at ha'
          exact hid (ha' ▸ hu.symm)
        · rw [ha, Option.some.injEq] at ha'
          exact hgid (ha' ▸ hu.symm)
      · rw [heq] at haccess hgrant
        rintro (hu | hu | ⟨active, ha, hne, -⟩)
        · exact hu haccess
        · exact hu hgrant
        · exact hne (hsame active ha)
  · rintro ⟨hreset, hcount, hfree⟩
    have hclean := clean_valid hvalid hreset
    have hwindow : ∀ w, some (countActivation (cleanVnuRefreshState stored now) now) = some w →
        w.Valid 1 vnuManualActivationLimit := by
      rintro _ ⟨⟩
      exact countActivation_valid hroom hcount
    simp only [not_or, Decidable.not_not, not_exists, not_and] at hfree
    obtain ⟨haccess, hgrant, hactive⟩ := hfree
    rcases activated_cases (cleanVnuRefreshState stored now) pair now with ⟨active, ha, hne, heq⟩ | ⟨-, heq⟩
    · obtain ⟨hid, hgid⟩ := hactive active ha hne
      rw [heq]
      refine activate_valid (revokeExact_valid hclean ha (linkedGrantTombstone_valid (hclean.active active ha) _)) hpair
        ?_ ?_ hwindow
      · simpa [revokeExact, Record.get?_set, Ne.symm hid] using haccess
      · simpa [revokeExact, Record.get?_set, Ne.symm hgid] using hgrant
    · rw [heq]
      exact activate_valid hclean hpair haccess hgrant hwindow

/-! ## Which calls write -/

/-- The stored active pair, unexpired. -/
def LiveActive (stored : Option VnuRefreshControlState) (now : Nat) (pair : LinkedPair) : Prop :=
  stored.bind (·.active) = some pair ∧ now < pair.grantExpiresAt

/-- The stored lease is for the pair, and unexpired. -/
def LiveLease (stored : Option VnuRefreshControlState) (now : Nat) (pair : LinkedPair) : Prop :=
  ∃ expiresAt, stored.bind (·.lease) = some { pair, expiresAt } ∧ now < expiresAt

/-- The call passes its guards: it stores a new state, or the cleaned one. -/
def Operation.Writes (stored : Option VnuRefreshControlState) (now : Nat) : Operation → Prop
  | .activatePair pair => ¬ (stored.bind (·.active) = some pair ∧ stored.bind (·.lease) = none) ∧
      ∀ window, stored.bind (·.activationWindow) = some window → now < window.resetAt →
        window.count < vnuManualActivationLimit
  | .beginRefresh pair => LiveActive stored now pair ∧ ¬ LiveLease stored now pair ∧
      ∀ state, stored = some state → now < state.window.resetAt → state.window.count < vnuRefreshAttemptLimit
  | .completeRefresh old _ => LiveActive stored now old ∧ LiveLease stored now old
  | .abortRefresh pair _ => LiveActive stored now pair ∧ LiveLease stored now pair
  | .revokeLinkedPairByAccess pair => LiveActive stored now pair
  | .revokePrincipalByLinkedGrant proof => now < proof.grantExpiresAt ∧ ∃ current, LiveActive stored now current ∧
      (current = proof ∨ stored.bind (·.revokedGrants.get? proof.grantId) =
        some (.linked (refreshSuccessorGrantTombstone proof current)))
  | .checkAccess _ | .alarm => True

theorem liveActive_iff : LiveActive stored now pair ↔ (cleanVnuRefreshState stored now).active = some pair :=
  clean_active_eq_some.symm

theorem liveLease_iff (hlive : now < pair.grantExpiresAt) :
    LiveLease stored now pair ↔ leasedTo (cleanVnuRefreshState stored now) pair := by
  unfold leasedTo LiveLease
  rw [leasedTo_clean]
  simp only [hlive, and_true]

theorem clean_lease_active (hvalid : SlotValid stored) {lease : RefreshLease}
    (h : (cleanVnuRefreshState stored now).lease = some lease) :
    (cleanVnuRefreshState stored now).active = some lease.pair := by
  obtain ⟨hl, -, hlive⟩ := clean_lease_eq_some.1 h
  obtain ⟨state, rfl, hl⟩ := Option.bind_eq_some_iff.1 hl
  exact clean_active_eq_some.2 ⟨(hvalid state rfl).lease_active lease hl, hlive⟩

/-- The active pair of a slot that parses is not revoked. -/
theorem not_revoked_of_active (hvalid : SlotValid stored) (h : (cleanVnuRefreshState stored now).active = some pair) :
    accessRevoked (cleanVnuRefreshState stored now) pair.accessTokenId = false ∧
      grantRevoked (cleanVnuRefreshState stored now) pair.grantId = false := by
  simp [accessRevoked, grantRevoked, clean_active_access hvalid h, clean_active_grant hvalid h]

theorem Stores.writes (hvalid : SlotValid stored) (h : Stores stored now operation result next) :
    operation.Writes stored now := by
  cases h with
  | activate pair hslow hroom =>
    refine ⟨hslow, fun window hw hlive => hroom window ?_⟩
    obtain ⟨state, hs, hwindow⟩ := Option.bind_eq_some_iff.1 hw
    exact clean_activationWindow_eq_some.2 ⟨hw, ((hvalid state hs).activation window hwindow).low_le, hlive⟩
  | begin pair hlive hrevoked hactive hidle hroom =>
    refine ⟨liveActive_iff.2 hactive, mt (liveLease_iff hlive).1 hidle, ?_⟩
    rintro state rfl hopen
    rcases clean_window_cases (some state) now with ⟨_, ⟨⟩, -, hw⟩ | ⟨hover, -⟩
    · rwa [hw] at hroom
    · exact absurd (hover state rfl) (Nat.not_le.2 hopen)
  | complete old next hlive hactive hleased => exact ⟨liveActive_iff.2 hactive, (liveLease_iff hlive).2 hleased⟩
  | release pair hrevoked hactive hleased =>
    have hlive := (liveActive_iff.2 hactive).2
    exact ⟨liveActive_iff.2 hactive, (liveLease_iff hlive).2 hleased⟩
  | abort pair hrevoked hactive hleased =>
    have hlive := (liveActive_iff.2 hactive).2
    exact ⟨liveActive_iff.2 hactive, (liveLease_iff hlive).2 hleased⟩
  | revoke pair hlive hnew hactive => exact liveActive_iff.2 hactive
  | revokePrincipal proof current hlive hactive hproof =>
    refine ⟨hlive, current, liveActive_iff.2 hactive, hproof.imp_right fun h => ?_⟩
    exact (clean_grant_eq_some.1 h.1).1

theorem stores_of_writes (hvalid : SlotValid stored) (h : operation.Writes stored now) (hclean : ¬ operation.Cleans) :
    ∃ result next, Stores stored now operation result next := by
  cases operation with
  | activatePair pair =>
    refine ⟨_, _, .activate pair h.1 fun window hw => ?_⟩
    obtain ⟨hw, -, hlive⟩ := clean_activationWindow_eq_some.1 hw
    exact h.2 window hw hlive
  | beginRefresh pair =>
    obtain ⟨hactive, hidle, hroom⟩ := h
    have hclean := liveActive_iff.1 hactive
    refine ⟨_, _, .begin pair hactive.2 (not_revoked_of_active hvalid hclean) hclean
      (mt (liveLease_iff hactive.2).2 hidle) ?_⟩
    rcases clean_window_cases stored now with ⟨state, hs, hopen, hw⟩ | ⟨-, hw⟩
    · rw [hw]
      exact hroom state hs hopen
    · rw [hw]
      show 0 < vnuRefreshAttemptLimit
      decide
  | completeRefresh old next =>
    exact ⟨_, _, .complete old next h.1.2 (liveActive_iff.1 h.1) ((liveLease_iff h.1.2).1 h.2)⟩
  | abortRefresh pair terminal =>
    have hactive := liveActive_iff.1 h.1
    have hrevoked := not_revoked_of_active hvalid hactive
    have hleased := (liveLease_iff h.1.2).1 h.2
    cases terminal with
    | false => exact ⟨_, _, .release pair hrevoked hactive hleased⟩
    | true => exact ⟨_, _, .abort pair hrevoked hactive hleased⟩
  | revokeLinkedPairByAccess pair =>
    have hactive := liveActive_iff.1 h
    refine ⟨_, _, .revoke pair (.inr h.2) ?_ hactive⟩
    rw [clean_active_grant hvalid hactive]
    rintro ⟨-, ⟨⟩⟩
  | revokePrincipalByLinkedGrant proof =>
    obtain ⟨hlive, current, hcurrent, hproof⟩ := h
    have hactive := liveActive_iff.1 hcurrent
    refine ⟨_, _, .revokePrincipal proof current hlive hactive (hproof.imp_right fun h => ⟨?_, ?_⟩)⟩
    · exact clean_grant_eq_some.2 ⟨h, hlive⟩
    · cases hl : (cleanVnuRefreshState stored now).lease with
      | none => exact .inl rfl
      | some lease =>
        have hsame : lease.pair = current := Option.some.inj ((clean_lease_active hvalid hl).symm.trans hactive)
        exact .inr (by simp [leasedTo, hl, hsame])
  | checkAccess access => exact absurd trivial hclean
  | alarm => exact absurd trivial hclean

/-! ## The exact condition -/

/-- The returned state has a window this call starts: the empty state's, one
cleaning restarts, or the first activation's. -/
def Operation.StartsWindow (operation : Operation) (stored : Option VnuRefreshControlState) (now : Nat) : Prop :=
  stored = none ∨ operation.Writes stored now ∧ (WindowOver stored now ∨
    (∃ pair, operation = .activatePair pair) ∧ ActivationWindowOver stored now)

/-- An activation of a pair whose identifiers are still in use. -/
def Operation.Collides (operation : Operation) (stored : Option VnuRefreshControlState) (now : Nat) : Prop :=
  ∃ pair, operation = .activatePair pair ∧ operation.Writes stored now ∧ Reuses stored now pair

/-- The call throws, or it starts no window past the last safe integer and
activates no pair that is still in use. -/
def Operation.KeepsReadable (operation : Operation) (stored : Option VnuRefreshControlState) (now : Nat) : Prop :=
  operation.RotationOk stored → (operation.StartsWindow stored now → now + vnuRefreshWindowMs ≤ maxSafeInteger) ∧
    ¬ operation.Collides stored now

theorem emptyState_valid_iff : (emptyState now).Valid ↔ now + vnuRefreshWindowMs ≤ maxSafeInteger := by
  constructor
  · exact fun h => h.window.reset.2
  · intro h
    refine valid_of_inactive rfl rfl nofun nofun ⟨Nat.zero_le _, Nat.zero_le _, ?_, h⟩ nofun
    show 0 < now + 15 * 60 * 1000
    omega

/-- The state a storing call other than `activatePair` leaves is as valid as
its window. -/
theorem Stores.valid_iff (h : Stores stored now operation result next) (hvalid : SlotValid stored)
    (hargs : operation.ArgumentsValid) (hrot : operation.RotationOk stored)
    (hop : ∀ pair, operation ≠ .activatePair pair) :
    next.Valid ↔ PositiveSafe (cleanVnuRefreshState stored now).window.resetAt := by
  have hclean : PositiveSafe _ → (cleanVnuRefreshState stored now).Valid := clean_valid hvalid
  cases h with
  | activate pair _ _ => exact absurd rfl (hop pair)
  | begin pair hlive hrevoked hactive hidle hroom =>
    exact ⟨fun h => h.window.reset, fun h => begun_valid (hclean h) hactive hlive hroom⟩
  | complete old next hlive hactive hleased =>
    refine ⟨fun h => h.window.reset, fun h => ?_⟩
    obtain ⟨hexpiry, haccess, hgrant, hfree⟩ := hrot
    obtain ⟨state, hs, -⟩ := Option.bind_eq_some_iff.1 (clean_active_eq_some.1 hactive).1
    obtain ⟨hfreeAccess, hfreeGrant⟩ := hfree state hs
    refine rotated_valid (hclean h) hactive (hargs next (by simp [Operation.pairs])) hexpiry haccess hgrant ?_ ?_
    · rw [Option.eq_none_iff_forall_ne_some]
      intro e he
      have hget := (clean_access_eq_some.1 he).1
      rw [hs, Option.bind_some, hfreeAccess] at hget
      cases hget
    · rw [Option.eq_none_iff_forall_ne_some]
      intro t ht
      have hget := (clean_grant_eq_some.1 ht).1
      rw [hs, Option.bind_some, hfreeGrant] at hget
      cases hget
  | release pair hrevoked hactive hleased => exact ⟨fun h => h.window.reset, fun h => released_valid (hclean h)⟩
  | abort pair hrevoked hactive hleased =>
    exact ⟨fun h => h.window.reset, fun h => revokeExact_valid (hclean h) hactive
      (linkedGrantTombstone_valid ((hclean h).active pair hactive) _)⟩
  | revoke pair hlive hnew hactive =>
    exact ⟨fun h => h.window.reset, fun h => revokeExact_valid (hclean h) hactive
      (linkedGrantTombstone_valid ((hclean h).active pair hactive) _)⟩
  | revokePrincipal proof current hlive hactive hproof =>
    exact ⟨fun h => h.window.reset, fun h => principalRevoked_valid (hclean h)
      (hargs proof (by simp [Operation.pairs])) hactive⟩

theorem refuses_not_writes (hvalid : SlotValid stored) (h : operation.Refuses stored now result)
    (hw : operation.Writes stored now) : False := by
  by_cases hc : operation.Cleans
  · rcases h with h | ⟨-, h⟩ <;> cases operation <;> first | exact hc.elim | cases h
  · obtain ⟨result', next, hs⟩ := stores_of_writes hvalid hw hc
    rcases h with h | ⟨-, h⟩
    · rw [hs.verdict.1] at h
      cases h
    · rw [hs.verdict.2] at h
      cases h

theorem output_valid_iff (hvalid : SlotValid stored) (hargs : operation.ArgumentsValid)
    (hrot : operation.RotationOk stored) :
    (operation.output stored now).state.Valid ↔
      (operation.StartsWindow stored now → now + vnuRefreshWindowMs ≤ maxSafeInteger) ∧
        ¬ operation.Collides stored now := by
  have hnone : stored = none → WindowOver stored now := by
    rintro rfl
    nofun
  -- a writing call that is no activation can only restart the refresh window
  have hplain : operation.Writes stored now → (¬ ∃ pair, operation = .activatePair pair) →
      ((operation.StartsWindow stored now → now + vnuRefreshWindowMs ≤ maxSafeInteger) ∧
        ¬ operation.Collides stored now ↔ (WindowOver stored now → now + vnuRefreshWindowMs ≤ maxSafeInteger)) := by
    intro hw hop
    have hstarts : operation.StartsWindow stored now ↔ WindowOver stored now := by
      refine ⟨?_, fun h => .inr ⟨hw, .inl h⟩⟩
      rintro (h | ⟨-, h | ⟨h, -⟩⟩)
      · exact hnone h
      · exact h
      · exact absurd h hop
    have hcollides : ¬ operation.Collides stored now := fun ⟨pair, h, _⟩ => hop ⟨pair, h⟩
    rw [hstarts]
    exact and_iff_left hcollides
  rcases output_cases operation stored now with ⟨result, hr⟩ | ⟨result, next, hs⟩ | hc
  · -- Case: refused
    have hnw := refuses_not_writes hvalid hr
    have hcollides : ¬ operation.Collides stored now := fun ⟨_, _, hw, _⟩ => hnw hw
    rw [hr.output_eq]
    cases stored with
    | none =>
      have hstarts : operation.StartsWindow none now := .inl rfl
      simp only [hcollides, hstarts, true_implies, not_false_eq_true, and_true]
      exact emptyState_valid_iff
    | some state =>
      have hstarts : ¬ operation.StartsWindow (some state) now := by
        rintro (h | ⟨hw, -⟩)
        · cases h
        · exact hnw hw
      simp only [hcollides, hstarts, false_implies, not_false_eq_true, and_true, iff_true]
      exact hvalid state rfl
  · -- Case: stored
    have hw := hs.writes hvalid
    rw [hs.output_eq hrot]
    by_cases hop : ∃ pair, operation = .activatePair pair
    · obtain ⟨pair, rfl⟩ := hop
      cases hs with
      | activate _ hslow hroom =>
        show (activated _ pair now).Valid ↔ _
        rw [activated_valid_iff hvalid (hargs pair (by simp [Operation.pairs])) hroom, clean_window_reset_iff hvalid,
          countActivation_reset_iff hvalid]
        have hstarts : (Operation.activatePair pair).StartsWindow stored now ↔
            WindowOver stored now ∨ ActivationWindowOver stored now := by
          refine ⟨?_, fun h => .inr ⟨hw, h.imp_right fun h => ⟨⟨pair, rfl⟩, h⟩⟩⟩
          rintro (h | ⟨-, h | ⟨-, h⟩⟩)
          · exact .inl (hnone h)
          · exact .inl h
          · exact .inr h
        have hcollides : (Operation.activatePair pair).Collides stored now ↔ Reuses stored now pair := by
          refine ⟨?_, fun h => ⟨pair, rfl, hw, h⟩⟩
          rintro ⟨_, ⟨⟩, -, h⟩
          exact h
        rw [hstarts, hcollides, or_imp, and_assoc]
    · rw [hs.valid_iff hvalid hargs hrot (fun pair h => hop ⟨pair, h⟩), clean_window_reset_iff hvalid]
      exact (hplain hw hop).symm
  · -- Case: cleaned
    have hw : operation.Writes stored now := by
      cases operation with
      | checkAccess access => trivial
      | alarm => trivial
      | _ => exact hc.elim
    have hop : ¬ ∃ pair, operation = .activatePair pair := by
      rintro ⟨pair, rfl⟩
      exact hc
    obtain ⟨result, -, ho⟩ := hc.output_eq stored now
    rw [ho, hplain hw hop, ← clean_window_reset_iff hvalid]
    exact ⟨fun h => h.window.reset, clean_valid hvalid⟩

theorem rawState_some_parses : parseVnuRefreshControlState (rawState (some state)) = .ok (some state) ↔ state.Valid := by
  rw [parse_rawState]
  simp

theorem rawState_parses : parseVnuRefreshControlState (rawState stored) = .ok stored ↔ SlotValid stored := by
  rw [parse_rawState]
  simp [SlotValid]

theorem Effect.keeps_readable {slot slot' : Option VnuRefreshControlState} {answer : Except String OperationResult}
    (h : Effect slot now operation answer slot') (hvalid : SlotValid slot) (hkeeps : operation.KeepsReadable slot now) :
    SlotValid slot' := by
  cases h with
  | threw error h => exact hvalid
  | refused result _ hargs hrot h => exact hvalid
  | stored result next _ hargs hrot h =>
    have hnext := (output_valid_iff hvalid hargs hrot).2 (hkeeps hrot)
    rw [h.output_eq hrot] at hnext
    rintro _ ⟨⟩
    exact hnext
  | cleaned result _ hargs h hv =>
    have hrot : operation.RotationOk slot := by
      cases operation with
      | completeRefresh old next => exact h.elim
      | _ => trivial
    have hclean := (output_valid_iff hvalid hargs hrot).2 (hkeeps hrot)
    obtain ⟨_, -, ho⟩ := h.output_eq slot now
    rw [ho] at hclean
    intro state hstate
    rcases cleanedSlot_cases slot now with hc | ⟨hc, -⟩
    · rw [hc] at hstate
      cases hstate
      exact hclean
    · rw [hc] at hstate
      cases hstate

end

/-- Every state a transition returns is readable exactly when the call keeps it
so; and in a run of calls that all do, storage is always readable. -/
theorem transition_readable_iff (stored : Option VnuRefreshControlState) (operation : Operation) (now : Nat)
    (trace : List Served) (storage : Storage) (clock : Nat) :
    (parseVnuRefreshControlState (rawState stored) = .ok stored → operation.ArgumentsValid → PositiveSafe now →
      ((∀ out, applyOperation operation stored now = .ok out →
          parseVnuRefreshControlState (rawState (some out.state)) = .ok (some out.state)) ↔
        operation.KeepsReadable stored now)) ∧
    (Run serve Call.now (fun _ storage call => call.operation.ArgumentsValid ∧ PositiveSafe call.now ∧
        call.operation.KeepsReadable storage.state call.now) Storage.empty trace storage clock →
      parseVnuRefreshControlState (rawState storage.state) = .ok storage.state) := by
  refine ⟨fun hparse hargs _ => ?_, fun h => ?_⟩
  · have hvalid := rawState_parses.1 hparse
    simp only [rawState_some_parses, Operation.KeepsReadable]
    constructor
    · intro h hrot
      exact (output_valid_iff hvalid hargs hrot).1 (h _ (applyOperation_eq_ok.2 ⟨hargs, hrot, rfl⟩))
    · intro h out ho
      obtain ⟨-, hrot, rfl⟩ := applyOperation_eq_ok.1 ho
      exact (output_valid_iff hvalid hargs hrot).2 (h hrot)
  · refine rawState_parses.2 (h.invariant (fun _ storage _ => SlotValid storage.state) ?_ ?_)
    · intro state h
      cases h
    intro trace s clock c _ hvalid _ hok
    exact (serve_effect s c).keeps_readable hvalid hok.2.2

/-- A pair is activated, revoked and activated again. -/
def reactivatedCalls : List Call :=
  [⟨.activatePair oldPair, testNow⟩, ⟨.revokeLinkedPairByAccess oldPair, testNow + 1⟩,
    ⟨.activatePair oldPair, testNow + 2⟩, ⟨.checkAccess oldPair, testNow + 3⟩, ⟨.activatePair nextPair, testNow + 4⟩,
    ⟨.alarm, testExpiry⟩]

/-- The third call reads a good record and is answered, but what it stores no
later call can read, the alarm included. -/
theorem reactivated_unreadable :
    (∃ stored out, stored = (executed reactivatedCalls)[1].after.state ∧
      parseVnuRefreshControlState (rawState stored) = .ok stored ∧ (Operation.activatePair oldPair).ArgumentsValid ∧
      PositiveSafe (testNow + 2) ∧ applyOperation (.activatePair oldPair) stored (testNow + 2) = .ok out ∧
      parseVnuRefreshControlState (rawState (some out.state)) = .error invalidState) ∧
    (executed reactivatedCalls).map Step.result =
      [.ok (.activatePair .activated), .ok (.revoke .revoked), .ok (.activatePair .activated),
        .error invalidState, .error invalidState, .error invalidState] := by
  refine ⟨⟨_, (Operation.activatePair oldPair).output (executed reactivatedCalls)[1].after.state (testNow + 2), rfl,
    by decide, ?_, by decide, by decide, by decide⟩, by decide⟩
  simpa [Operation.ArgumentsValid, Operation.pairs] using oldPair_valid

end Hyeboard.VnuRefresh
