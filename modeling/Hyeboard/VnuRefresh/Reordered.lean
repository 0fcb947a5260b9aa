import Hyeboard.VnuRefresh.DurableObject
/-!
# Records up to the order of their tombstones

A table gives its rows back in any order. No transition looks at the order of the tombstones
of a record: two records with the same tombstones are answered alike, and what is stored has
the same tombstones again.
-/

namespace Hyeboard.VnuRefresh

structure Reordered (left right : VnuRefreshControlState) : Prop where
  active : left.active = right.active
  lease : left.lease = right.lease
  revokedAccess : left.revokedAccess.Equiv right.revokedAccess
  revokedGrants : left.revokedGrants.Equiv right.revokedGrants
  window : left.window = right.window
  activationWindow : left.activationWindow = right.activationWindow

/-- What two slots hold is the same but for the order. -/
abbrev SlotReordered : Option VnuRefreshControlState → Option VnuRefreshControlState → Prop := Option.Rel Reordered

section
variable {left right : VnuRefreshControlState} {stored stored' : Option VnuRefreshControlState} {operation : Operation} {now : Nat}

@[refl] theorem Reordered.refl (state : VnuRefreshControlState) : Reordered state state := ⟨rfl, rfl, .refl _, .refl _, rfl, rfl⟩

theorem Reordered.symm (h : Reordered left right) : Reordered right left :=
  ⟨h.active.symm, h.lease.symm, h.revokedAccess.symm, h.revokedGrants.symm, h.window.symm, h.activationWindow.symm⟩

theorem Reordered.trans {state : VnuRefreshControlState} (h : Reordered left state) (h' : Reordered state right) : Reordered left right :=
  ⟨h.active.trans h'.active, h.lease.trans h'.lease, h.revokedAccess.trans h'.revokedAccess, h.revokedGrants.trans h'.revokedGrants,
    h.window.trans h'.window, h.activationWindow.trans h'.activationWindow⟩

theorem Reordered.valid (h : Reordered left right) (hvalid : left.Valid) : right.Valid := by
  have haccess := (Record.equiv_iff_perm.1 h.revokedAccess).symm
  have hgrants := (Record.equiv_iff_perm.1 h.revokedGrants).symm
  constructor
  · rw [← h.active]
    exact hvalid.active
  · rw [← h.lease]
    exact hvalid.lease_expiry
  · rw [← h.lease, ← h.active]
    exact hvalid.lease_active
  · rw [← h.lease]
    exact hvalid.lease_le
  · exact fun e he => hvalid.access e (haccess.mem_iff.1 he)
  · exact fun e he => hvalid.grants e (hgrants.mem_iff.1 he)
  · rw [← h.window]
    exact hvalid.window
  · rw [← h.activationWindow]
    exact hvalid.activation
  · intro pair hpair
    rw [← h.revokedAccess]
    exact hvalid.active_access pair (h.active ▸ hpair)
  · intro pair hpair
    rw [← h.revokedGrants]
    exact hvalid.active_grant pair (h.active ▸ hpair)

theorem Reordered.valid_iff (h : Reordered left right) : left.Valid ↔ right.Valid := ⟨h.valid, h.symm.valid⟩

theorem Reordered.quiescent (h : Reordered left right) : isQuiescentVnuRefreshState left = isQuiescentVnuRefreshState right := by
  unfold isQuiescentVnuRefreshState
  rw [h.active, h.lease, h.revokedAccess.size_eq, h.revokedGrants.size_eq, h.window, h.activationWindow]

theorem Reordered.clean (h : SlotReordered stored stored') (now : Nat) :
    Reordered (cleanVnuRefreshState stored now) (cleanVnuRefreshState stored' now) := by
  have hsource : Reordered (stored.getD (emptyState now)) (stored'.getD (emptyState now)) := by
    cases h with
    | some h => exact h
    | none => exact .refl _
  unfold cleanVnuRefreshState
  simp only
  rw [hsource.active, hsource.lease, hsource.window, hsource.activationWindow]
  exact ⟨rfl, rfl, hsource.revokedAccess.filter _, hsource.revokedGrants.filter _, rfl, rfl⟩

/-- Cleaning changes both or neither. -/
theorem Reordered.clean_eq_self (h : Reordered left right) (hsame : cleanVnuRefreshState (some left) now = left) :
    cleanVnuRefreshState (some right) now = right := by
  have haccess := (Record.equiv_iff_perm.1 h.revokedAccess).symm
  have hgrants := (Record.equiv_iff_perm.1 h.revokedGrants).symm
  obtain ⟨active, lease, revokedAccess, revokedGrants, window, activationWindow⟩ := left
  obtain ⟨active', lease', revokedAccess', revokedGrants', window', activationWindow'⟩ := right
  obtain ⟨rfl, rfl, -, -, rfl, rfl⟩ := h
  simp only [cleanVnuRefreshState, Option.getD_some, VnuRefreshControlState.mk.injEq, Record.filter_eq_self] at hsame ⊢
  obtain ⟨hactive, hlease, hkeepAccess, hkeepGrants, hwindow, hactivation⟩ := hsame
  exact ⟨hactive, hlease, fun e he => hkeepAccess e (haccess.mem_iff.1 he), fun e he => hkeepGrants e (hgrants.mem_iff.1 he),
    hwindow, hactivation⟩

theorem Reordered.revokeExact (h : Reordered left right) (pair : LinkedPair) (tombstone : LinkedGrantTombstone) :
    Reordered (revokeExact left pair tombstone) (revokeExact right pair tombstone) := by
  unfold VnuRefresh.revokeExact
  rw [h.lease]
  exact ⟨rfl, rfl, h.revokedAccess.set _ _, h.revokedGrants.set _ _, h.window, h.activationWindow⟩

theorem Reordered.activated (h : Reordered left right) (pair : LinkedPair) (now : Nat) :
    Reordered (activated left pair now) (activated right pair now) := by
  have hcount : countActivation left now = countActivation right now := by
    rw [countActivation, countActivation, h.activationWindow]
  unfold VnuRefresh.activated
  rw [h.active, hcount]
  cases right.active with
  | none => exact ⟨rfl, rfl, h.revokedAccess, h.revokedGrants, h.window, rfl⟩
  | some active =>
    simp only
    split
    · exact ⟨rfl, rfl, h.revokedAccess, h.revokedGrants, h.window, rfl⟩
    · have hrevoked := h.revokeExact active (linkedGrantTombstone active)
      exact ⟨rfl, rfl, hrevoked.revokedAccess, hrevoked.revokedGrants, hrevoked.window, rfl⟩

theorem Reordered.begun (h : Reordered left right) (pair : LinkedPair) (now : Nat) :
    Reordered (begun left pair now) (begun right pair now) := by
  unfold VnuRefresh.begun
  rw [h.window]
  exact ⟨h.active, rfl, h.revokedAccess, h.revokedGrants, rfl, h.activationWindow⟩

theorem Reordered.rotated (h : Reordered left right) (old next : LinkedPair) : Reordered (rotated left old next) (rotated right old next) := by
  have hrevoked := h.revokeExact old (refreshSuccessorGrantTombstone old next)
  exact ⟨rfl, hrevoked.lease, hrevoked.revokedAccess, hrevoked.revokedGrants, hrevoked.window, hrevoked.activationWindow⟩

theorem Reordered.principalRevoked (h : Reordered left right) (proof current : LinkedPair) :
    Reordered (principalRevoked left proof current) (principalRevoked right proof current) := by
  unfold VnuRefresh.principalRevoked
  apply Reordered.revokeExact
  exact ⟨h.active, h.lease, h.revokedAccess.set _ _, h.revokedGrants.set _ _, h.window, h.activationWindow⟩

/-! ## What follows from the two -/

inductive VerdictReordered : Verdict → Verdict → Prop
  | refuse (result : OperationResult) : VerdictReordered (.refuse result) (.refuse result)
  | store (result : OperationResult) {state state' : VnuRefreshControlState} (h : Reordered state state') :
      VerdictReordered (.store result state) (.store result state')
  | clean (result : OperationResult) : VerdictReordered (.clean result) (.clean result)

theorem Reordered.verdict (h : Reordered left right) (operation : Operation) (now : Nat) :
    VerdictReordered (operation.verdict left now) (operation.verdict right now) := by
  have haccess : ∀ id, accessRevoked left id = accessRevoked right id := by
    intro id
    rw [accessRevoked, accessRevoked, h.revokedAccess]
  have hgrant : ∀ id, grantRevoked left id = grantRevoked right id := by
    intro id
    rw [grantRevoked, grantRevoked, h.revokedGrants]
  have hleased : ∀ pair, leasedTo left pair ↔ leasedTo right pair := by
    intro pair
    rw [leasedTo, leasedTo, h.lease]
  cases operation with
  | activatePair pair =>
    simp only [Operation.verdict, h.activationWindow]
    cases right.activationWindow with
    | none => exact .store _ (h.activated pair now)
    | some window =>
      simp only
      split_ifs
      · exact .refuse _
      · exact .store _ (h.activated pair now)
  | beginRefresh pair =>
    simp only [Operation.verdict, haccess, hgrant, h.active, h.lease, h.window, hleased]
    split_ifs
    · exact .refuse _
    · exact .refuse _
    · exact .refuse _
    · exact .store _ (h.begun pair now)
  | completeRefresh old next =>
    simp only [Operation.verdict, h.active, hleased]
    split_ifs
    · exact .refuse _
    · exact .store _ (h.rotated old next)
  | abortRefresh pair terminal =>
    simp only [Operation.verdict, haccess, hgrant, h.active, hleased]
    split_ifs
    · exact .refuse _
    · exact .refuse _
    · exact .store _ (h.revokeExact pair _)
    · exact .store _ ⟨rfl, rfl, h.revokedAccess, h.revokedGrants, h.window, h.activationWindow⟩
  | revokeLinkedPairByAccess pair =>
    simp only [Operation.verdict, h.active, h.revokedAccess pair.accessTokenId, h.revokedGrants pair.grantId]
    split_ifs
    · exact .refuse _
    · exact .refuse _
    · exact .store _ (h.revokeExact pair _)
  | revokePrincipalByLinkedGrant proof =>
    simp only [Operation.verdict, h.active, h.revokedGrants proof.grantId]
    cases right.active with
    | none =>
      simp only
      split_ifs
      · exact .refuse _
      · exact .refuse _
    | some current =>
      have hproves : ProvesSuccessor left proof current ↔ ProvesSuccessor right proof current := by
        rw [ProvesSuccessor, ProvesSuccessor, h.revokedGrants]
      simp only [hproves, hleased, h.lease]
      split_ifs
      · exact .store _ (h.principalRevoked proof current)
      · exact .refuse _
  | checkAccess access =>
    simp only [Operation.verdict, haccess, hgrant, h.active]
    exact .clean _
  | alarm => exact .clean _

theorem shortcut_reordered (h : SlotReordered stored stored') : operation.shortcut stored now = operation.shortcut stored' now := by
  cases h with
  | none => rfl
  | some h =>
    cases operation with
    | activatePair pair => simp only [Operation.shortcut, Option.bind_some, h.active, h.lease]
    | _ => rfl

theorem rotationOk_reordered (h : SlotReordered stored stored') : operation.RotationOk stored ↔ operation.RotationOk stored' := by
  cases h with
  | none => exact Iff.rfl
  | some h =>
    cases operation with
    | completeRefresh old next =>
      simp only [Operation.RotationOk, Option.some.injEq, forall_eq', h.revokedAccess next.accessTokenId, h.revokedGrants next.grantId]
    | _ => exact Iff.rfl

theorem slotValid_reordered (h : SlotReordered stored stored') : SlotValid stored ↔ SlotValid stored' := by
  cases h with
  | none => exact Iff.rfl
  | some h =>
    have hslot : ∀ state : VnuRefreshControlState, SlotValid (some state) ↔ state.Valid := by
      intro state
      simp [SlotValid]
    rw [hslot, hslot, h.valid_iff]

/-- The two are answered alike, and change alike. -/
theorem output_reordered (h : SlotReordered stored stored') (hrot : operation.RotationOk stored) (now : Nat) :
    (operation.output stored now).result = (operation.output stored' now).result ∧
      (operation.output stored now).changed = (operation.output stored' now).changed ∧
      ((operation.output stored now).changed = true → Reordered (operation.output stored now).state (operation.output stored' now).state) := by
  have hverdict := (Reordered.clean h now).verdict operation now
  rcases output_cases operation stored now with ⟨result, hr⟩ | ⟨result, next, hs⟩ | hc
  · have hr' : operation.Refuses stored' now result := by
      unfold Operation.Refuses at hr ⊢
      rw [← shortcut_reordered h]
      rcases hr with hr | ⟨hr, hv⟩
      · exact .inl hr
      · rw [hv] at hverdict
        generalize operation.verdict (cleanVnuRefreshState stored' now) now = verdict at hverdict ⊢
        cases hverdict
        exact .inr ⟨hr, rfl⟩
    rw [hr.output_eq, hr'.output_eq]
    exact ⟨rfl, rfl, fun hchanged => by cases hchanged⟩
  · obtain ⟨next', hs', hnext⟩ : ∃ next', Stores stored' now operation result next' ∧ Reordered next next' := by
      rw [hs.verdict.2] at hverdict
      cases hv : operation.verdict (cleanVnuRefreshState stored' now) now with
      | refuse result =>
        rw [hv] at hverdict
        cases hverdict
      | store result next' =>
        rw [hv] at hverdict
        cases hverdict with
        | store _ hnext => exact ⟨next', stores_of_verdict (shortcut_reordered h ▸ hs.verdict.1) hv, hnext⟩
      | clean result =>
        rw [hv] at hverdict
        cases hverdict
    rw [hs.output_eq hrot, hs'.output_eq ((rotationOk_reordered h).1 hrot)]
    exact ⟨rfl, rfl, fun _ => hnext⟩
  · obtain ⟨result, hv, ho⟩ := hc.output_eq stored now
    obtain ⟨result', hv', ho'⟩ := hc.output_eq stored' now
    rw [hv, hv'] at hverdict
    have hsame : (stored.isSome && !sameVnuRefreshState stored (cleanVnuRefreshState stored now)) =
        (stored'.isSome && !sameVnuRefreshState stored' (cleanVnuRefreshState stored' now)) := by
      cases h with
      | none => rfl
      | @some state state' hstate =>
        have hself : state = cleanVnuRefreshState (some state) now ↔ state' = cleanVnuRefreshState (some state') now :=
          ⟨fun heq => (hstate.clean_eq_self heq.symm).symm, fun heq => (hstate.symm.clean_eq_self heq.symm).symm⟩
        simp only [sameVnuRefreshState, Option.isSome_some, Bool.true_and, beq_eq_decide, Option.some.injEq, hself]
    rw [ho, ho']
    cases hverdict
    exact ⟨rfl, hsame, fun _ => Reordered.clean h now⟩

end

end Hyeboard.VnuRefresh
