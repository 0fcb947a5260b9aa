import Hyeboard.VnuRefresh.DurableObject
/-!
# Revocation is permanent

A pair that was active is `Tracked` from then on: it is still the stored active
pair, or it is `Dead`. A dead pair has expired, or its grant has a tombstone
that lasts as long as the grant does; no call undoes either. Whatever retires
an active pair leaves it dead, so no later check accepts it.
-/

namespace Hyeboard.VnuRefresh

/-- No check accepts the pair from `clock` on: its grant expired, or has a
tombstone with the grant's own expiry. -/
def Dead (pair : LinkedPair) (slot : Option VnuRefreshControlState) (clock : Nat) : Prop :=
  pair.grantExpiresAt ≤ clock ∨ ∃ tombstone, slot.bind (·.revokedGrants.get? pair.grantId) = some tombstone ∧
    grantTombstoneExpiresAt tombstone = pair.grantExpiresAt

def Tracked (pair : LinkedPair) (slot : Option VnuRefreshControlState) (clock : Nat) : Prop :=
  slot.bind (·.active) = some pair ∨ Dead pair slot clock

/-- The call took `pair`'s authority away: it was revoked, aborted for good,
replaced or rotated away. -/
def Retires (pair : LinkedPair) (e : Served) : Prop :=
  match e.call.operation, e.result with
  | .activatePair other, .ok (.activatePair .activated) => other ≠ pair
  | .completeRefresh old _, .ok (.completeRefresh .completed) => old = pair
  | .abortRefresh aborted _, .ok (.abortRefresh .revoked) => aborted = pair
  | .revokeLinkedPairByAccess revoked, .ok (.revoke .revoked) => revoked = pair
  | .revokePrincipalByLinkedGrant _, .ok (.revoke .revoked) => True
  | _, _ => False

section
variable {slot slot' : Option VnuRefreshControlState} {now clock : Nat} {operation : Operation}
  {result : OperationResult} {answer : Except String OperationResult} {next : VnuRefreshControlState} {pair : LinkedPair}

theorem get?_revokeExact (state : VnuRefreshControlState) (pair : LinkedPair) (tombstone : LinkedGrantTombstone)
    (id : String) : (revokeExact state pair tombstone).revokedGrants.get? id =
      if id = pair.grantId then some (.linked tombstone) else state.revokedGrants.get? id :=
  Record.get?_set _ _ _ _

theorem get?_principalRevoked (state : VnuRefreshControlState) (proof current : LinkedPair) (id : String) :
    (principalRevoked state proof current).revokedGrants.get? id =
      if id = current.grantId then some (.linked (linkedGrantTombstone current))
      else if id = proof.grantId then some (.linked (linkedGrantTombstone proof))
      else state.revokedGrants.get? id := by
  rw [principalRevoked, get?_revokeExact, Record.get?_set]

/-- A slot that parses has no tombstone for its active pair, cleaned or not. -/
theorem clean_active_grant (hvalid : SlotValid slot) (h : (cleanVnuRefreshState slot now).active = some pair) :
    (cleanVnuRefreshState slot now).revokedGrants.get? pair.grantId = none := by
  obtain ⟨state, rfl, hactive⟩ := Option.bind_eq_some_iff.1 (clean_active_eq_some.1 h).1
  rw [Option.eq_none_iff_forall_ne_some]
  intro tombstone ht
  have hget := (clean_grant_eq_some.1 ht).1
  rw [Option.bind_some, (hvalid state rfl).active_grant pair hactive] at hget
  cases hget

theorem clean_active_access (hvalid : SlotValid slot) (h : (cleanVnuRefreshState slot now).active = some pair) :
    (cleanVnuRefreshState slot now).revokedAccess.get? pair.accessTokenId = none := by
  obtain ⟨state, rfl, hactive⟩ := Option.bind_eq_some_iff.1 (clean_active_eq_some.1 h).1
  rw [Option.eq_none_iff_forall_ne_some]
  intro expiresAt he
  have hget := (clean_access_eq_some.1 he).1
  rw [Option.bind_some, (hvalid state rfl).active_access pair hactive] at hget
  cases hget

/-! ## Tombstones outlast every store -/

theorem grantTombstoneExpiresAt_revokeExact {state : VnuRefreshControlState} {current : LinkedPair}
    {g : LinkedGrantTombstone} {id : String} {tombstone : RevokedGrantTombstone}
    (hfree : state.revokedGrants.get? current.grantId = none)
    (h : state.revokedGrants.get? id = some tombstone) :
    (revokeExact state current g).revokedGrants.get? id = some tombstone := by
  rw [get?_revokeExact, if_neg, h]
  rintro rfl
  rw [hfree] at h
  cases h

/-- A store keeps every live grant tombstone, or replaces it by one that
expires with it. -/
theorem Stores.keeps_tombstone (h : Stores slot now operation result next) (hvalid : SlotValid slot) {id : String}
    {tombstone : RevokedGrantTombstone}
    (ht : (cleanVnuRefreshState slot now).revokedGrants.get? id = some tombstone) :
    ∃ t, next.revokedGrants.get? id = some t ∧ grantTombstoneExpiresAt t = grantTombstoneExpiresAt tombstone := by
  have hkeep : ∀ {current : LinkedPair} {g : LinkedGrantTombstone},
      (cleanVnuRefreshState slot now).active = some current →
      (revokeExact (cleanVnuRefreshState slot now) current g).revokedGrants.get? id = some tombstone :=
    fun hactive => grantTombstoneExpiresAt_revokeExact (clean_active_grant hvalid hactive) ht
  cases h with
  | activate other hslow hroom =>
    refine ⟨tombstone, ?_, rfl⟩
    simp only [activated]
    split
    · rename_i active hactive
      split
      · exact ht
      · exact hkeep hactive
    · exact ht
  | begin _ _ _ _ _ _ => exact ⟨tombstone, ht, rfl⟩
  | complete old next hlive hactive hleased => exact ⟨tombstone, hkeep hactive, rfl⟩
  | release _ _ _ _ => exact ⟨tombstone, ht, rfl⟩
  | abort _ _ hactive _ => exact ⟨tombstone, hkeep hactive, rfl⟩
  | revoke _ _ _ hactive => exact ⟨tombstone, hkeep hactive, rfl⟩
  | revokePrincipal proof current hlive hactive hproof =>
    have hfree := clean_active_grant hvalid hactive
    have hne : id ≠ current.grantId := by
      rintro rfl
      rw [hfree] at ht
      cases ht
    rw [get?_principalRevoked, if_neg hne]
    by_cases hid : id = proof.grantId
    · -- the proof's own tombstone is written again, without its successor
      subst hid
      rcases hproof with rfl | ⟨hproves, -⟩
      · exact absurd rfl hne
      · rw [hproves] at ht
        cases ht
        exact ⟨_, if_pos rfl, rfl⟩
    · exact ⟨tombstone, by rw [if_neg hid, ht], rfl⟩

/-- A store takes the active pair away only by leaving its tombstone. -/
theorem Stores.active_or_tombstone (h : Stores slot now operation result next)
    (hactive : (cleanVnuRefreshState slot now).active = some pair) :
    next.active = some pair ∨ ∃ t, next.revokedGrants.get? pair.grantId = some t ∧
      grantTombstoneExpiresAt t = pair.grantExpiresAt := by
  have hunique : ∀ {current : LinkedPair}, (cleanVnuRefreshState slot now).active = some current → current = pair :=
    fun h => Option.some.inj (h.symm.trans hactive)
  cases h with
  | activate other hslow hroom =>
    by_cases hsame : pair = other
    · exact .inl (congrArg some hsame.symm)
    · refine .inr ⟨.linked (linkedGrantTombstone pair), ?_, rfl⟩
      have hreplaced : samePair (some pair) other = false := by simpa using hsame
      simp [activated, hactive, hreplaced, get?_revokeExact]
  | begin _ _ _ _ _ _ => exact .inl hactive
  | complete old next hlive hold hleased =>
    obtain rfl := hunique hold
    exact .inr ⟨.linked (refreshSuccessorGrantTombstone old next), by simp [rotated, get?_revokeExact], rfl⟩
  | release _ _ _ _ => exact .inl hactive
  | abort aborted _ haborted _ =>
    obtain rfl := hunique haborted
    exact .inr ⟨.linked (linkedGrantTombstone aborted), by simp [get?_revokeExact], rfl⟩
  | revoke revoked _ _ hrevoked =>
    obtain rfl := hunique hrevoked
    exact .inr ⟨.linked (linkedGrantTombstone revoked), by simp [get?_revokeExact], rfl⟩
  | revokePrincipal proof current hlive hcurrent hproof =>
    obtain rfl := hunique hcurrent
    exact .inr ⟨.linked (linkedGrantTombstone current), by simp [get?_principalRevoked], rfl⟩

/-! ## Dead stays dead -/

/-- What is left of `Dead` after cleaning. -/
theorem dead_clean (h : Dead pair slot clock) (hle : clock ≤ now) :
    pair.grantExpiresAt ≤ now ∨ ∃ t, (cleanVnuRefreshState slot now).revokedGrants.get? pair.grantId = some t ∧
      grantTombstoneExpiresAt t = pair.grantExpiresAt := by
  by_cases hexp : pair.grantExpiresAt ≤ now
  · exact .inl hexp
  rcases h with h | ⟨t, ht, he⟩
  · omega
  · exact .inr ⟨t, clean_grant_eq_some.2 ⟨ht, by omega⟩, he⟩

theorem Effect.keeps_dead (h : Effect slot now operation answer slot') (hle : clock ≤ now)
    (hdead : Dead pair slot clock) : Dead pair slot' now := by
  rcases dead_clean hdead hle with hexp | ⟨t, ht, he⟩
  · exact .inl hexp
  cases h with
  | threw error h => exact .inr ⟨t, (clean_grant_eq_some.1 ht).1, he⟩
  | refused result hvalid hargs hrot h => exact .inr ⟨t, (clean_grant_eq_some.1 ht).1, he⟩
  | stored result next hvalid hargs hrot h =>
    obtain ⟨t', ht', he'⟩ := h.keeps_tombstone hvalid ht
    exact .inr ⟨t', ht', he'.trans he⟩
  | cleaned result hvalid hargs h hv =>
    rcases cleanedSlot_cases slot now with hc | ⟨-, hq⟩
    · exact .inr ⟨t, by rw [hc]; exact ht, he⟩
    · rw [(isQuiescent_iff.1 hq).2.2.2.1] at ht
      cases ht

theorem Effect.tracks_active (h : Effect slot now operation answer slot')
    (hactive : slot.bind (·.active) = some pair) : Tracked pair slot' now := by
  by_cases hexp : pair.grantExpiresAt ≤ now
  · exact .inr (.inl hexp)
  have hclean : (cleanVnuRefreshState slot now).active = some pair := clean_active_eq_some.2 ⟨hactive, by omega⟩
  cases h with
  | threw error h => exact .inl hactive
  | refused result hvalid hargs hrot h => exact .inl hactive
  | stored result next hvalid hargs hrot h =>
    rcases h.active_or_tombstone hclean with ha | ht
    · exact .inl ha
    · exact .inr (.inr ht)
  | cleaned result hvalid hargs h hv =>
    rcases cleanedSlot_cases slot now with hc | ⟨-, hq⟩
    · exact .inl (by rw [hc]; exact hclean)
    · rw [(isQuiescent_iff.1 hq).1] at hclean
      cases hclean

theorem Effect.keeps_tracked (h : Effect slot now operation answer slot') (hle : clock ≤ now)
    (ht : Tracked pair slot clock) : Tracked pair slot' now := by
  rcases ht with ha | hd
  · exact h.tracks_active ha
  · exact .inr (h.keeps_dead hle hd)

/-- A check never accepts a dead pair. -/
theorem Effect.rejects_dead (h : Effect slot now (.checkAccess pair) answer slot') (hle : clock ≤ now)
    (hdead : Dead pair slot clock) : answer ≠ .ok (.checkAccess .active) := by
  rintro rfl
  cases h with
  | refused _ _ _ _ h =>
    rcases h with h | ⟨-, h⟩ <;> cases h
  | stored _ _ _ _ _ h => cases h
  | cleaned result hvalid hargs h hv =>
    simp only [Operation.verdict, Verdict.clean.injEq, OperationResult.checkAccess.injEq, ite_eq_left_iff,
      reduceCtorEq, imp_false, Decidable.not_not] at hv
    obtain ⟨hactive, -, -, hgrant⟩ := hv
    have hlive := (clean_active_eq_some.1 hactive).2
    rcases dead_clean hdead hle with hexp | ⟨t, ht, -⟩
    · omega
    · rw [clean_active_grant hvalid hactive] at ht
      cases ht

/-! ## Retiring calls -/

theorem Tracked.dead (h : Tracked pair slot clock) (hn : slot.bind (·.active) ≠ some pair) : Dead pair slot clock :=
  h.resolve_left hn

/-- `activatePair` says yes without a write only to the active pair. -/
theorem active_of_refuses_activatePair {other : LinkedPair}
    (h : (Operation.activatePair other).Refuses slot now (.activatePair .activated)) :
    slot.bind (·.active) = some other := by
  rcases h with h | ⟨-, h⟩
  · simp only [Operation.shortcut, Option.ite_none_right_eq_some, and_true] at h
    exact h.1
  · simp only [Operation.verdict] at h
    repeat' split at h
    all_goals cases h

/-- The active pair of a slot that parses has no tombstone there. -/
theorem slot_active_free (hvalid : SlotValid slot) (ha : slot.bind (·.active) = some pair) :
    slot.bind (·.revokedAccess.get? pair.accessTokenId) = none ∧ slot.bind (·.revokedGrants.get? pair.grantId) = none := by
  obtain ⟨state, rfl, hactive⟩ := Option.bind_eq_some_iff.1 ha
  exact ⟨(hvalid state rfl).active_access pair hactive, (hvalid state rfl).active_grant pair hactive⟩

/-- An abort refused as revoked found a tombstone for one of the pair's
identifiers, so the pair is not active. -/
theorem not_active_of_refuses_abort {terminal : Bool} (hvalid : SlotValid slot)
    (h : (Operation.abortRefresh pair terminal).Refuses slot now (.abortRefresh .revoked)) :
    slot.bind (·.active) ≠ some pair := by
  intro ha
  obtain ⟨haccess, hgrant⟩ := slot_active_free hvalid ha
  rcases h with h | ⟨-, h⟩
  · cases h
  simp only [Operation.verdict] at h
  split at h
  · rename_i hrevoked
    rcases hrevoked with hr | hr
    · cases hg : (cleanVnuRefreshState slot now).revokedAccess.get? pair.accessTokenId with
      | none => simp [accessRevoked, hg] at hr
      | some expiresAt => rw [(clean_access_eq_some.1 hg).1] at haccess; cases haccess
    · cases hg : (cleanVnuRefreshState slot now).revokedGrants.get? pair.grantId with
      | none => simp [grantRevoked, hg] at hr
      | some tombstone => rw [(clean_grant_eq_some.1 hg).1] at hgrant; cases hgrant
  · repeat' split at h
    all_goals cases h

/-- A revocation refused as done found the pair's own tombstone. -/
theorem not_active_of_refuses_revoke (hvalid : SlotValid slot)
    (h : (Operation.revokeLinkedPairByAccess pair).Refuses slot now (.revoke .revoked)) :
    slot.bind (·.active) ≠ some pair := by
  intro ha
  have hgrant := (slot_active_free hvalid ha).2
  rcases h with h | ⟨-, h⟩
  · simp only [Operation.shortcut, Option.ite_none_right_eq_some] at h
    cases h.2
  simp only [Operation.verdict] at h
  split at h
  · rename_i hlinked
    cases hg : (cleanVnuRefreshState slot now).revokedGrants.get? pair.grantId with
    | none => simp [exactlyLinksGrantTombstone, hg] at hlinked
    | some tombstone => rw [(clean_grant_eq_some.1 hg).1] at hgrant; cases hgrant
  · split at h <;> cases h

/-- A principal revocation refused as done found no active pair. -/
theorem no_active_of_refuses_revokePrincipal {proof : LinkedPair}
    (h : (Operation.revokePrincipalByLinkedGrant proof).Refuses slot now (.revoke .revoked)) :
    (cleanVnuRefreshState slot now).active = none := by
  rcases h with h | ⟨-, h⟩
  · simp only [Operation.shortcut, Option.ite_none_right_eq_some] at h
    cases h.2
  · simp only [Operation.verdict] at h
    split at h
    · assumption
    · split at h <;> cases h

/-- After a retiring call the pair is dead, if it was tracked before. -/
theorem Effect.retires {e : Served} (h : Effect slot now e.call.operation e.result slot') (hle : clock ≤ now)
    (ht : Tracked pair slot clock) (hr : Retires pair e) : Dead pair slot' now := by
  have htracked := h.keeps_tracked hle ht
  revert h hr
  unfold Retires
  generalize e.call.operation = operation
  generalize e.result = answer
  intro h hr
  split at hr
  · -- Case: replaced
    rename_i other
    refine htracked.dead fun ha => ?_
    cases h with
    | refused _ hvalid _ _ h =>
      rw [active_of_refuses_activatePair h] at ha
      exact hr (Option.some.inj ha)
    | stored _ _ _ _ _ h =>
      cases h with
      | activate _ _ _ => exact hr (Option.some.inj ha)
    | cleaned _ _ _ h _ => exact h.elim
  · -- Case: rotated away
    rename_i old next
    subst hr
    refine htracked.dead fun ha => ?_
    cases h with
    | refused _ _ _ _ h =>
      rcases h with h | ⟨-, h⟩
      · cases h
      · simp only [Operation.verdict] at h
        split at h <;> cases h
    | stored _ _ _ _ hrot h =>
      cases h with
      | complete _ _ _ _ _ => exact hrot.2.1 (congrArg LinkedPair.accessTokenId (Option.some.inj ha))
    | cleaned _ _ _ h _ => exact h.elim
  · -- Case: aborted
    rename_i aborted terminal
    subst hr
    refine htracked.dead fun ha => ?_
    cases h with
    | refused _ hvalid _ _ h => exact not_active_of_refuses_abort hvalid h ha
    | stored _ _ _ _ _ h =>
      cases h with
      | abort _ _ _ _ => cases ha
    | cleaned _ _ _ h _ => exact h.elim
  · -- Case: revoked by access
    rename_i revoked
    subst hr
    refine htracked.dead fun ha => ?_
    cases h with
    | refused _ hvalid _ _ h => exact not_active_of_refuses_revoke hvalid h ha
    | stored _ _ _ _ _ h =>
      cases h with
      | revoke _ _ _ _ => cases ha
    | cleaned _ _ _ h _ => exact h.elim
  · -- Case: the principal revoked
    cases h with
    | refused _ hvalid _ _ h =>
      by_cases hexp : pair.grantExpiresAt ≤ now
      · exact .inl hexp
      refine htracked.dead fun ha => ?_
      have hclean := clean_active_eq_some.2 ⟨ha, Nat.lt_of_not_le hexp⟩
      rw [no_active_of_refuses_revokePrincipal h] at hclean
      cases hclean
    | stored _ _ _ _ _ h =>
      refine htracked.dead fun ha => ?_
      cases h with
      | revokePrincipal _ _ _ _ _ => cases ha
    | cleaned _ _ _ h _ => exact h.elim
  · exact hr.elim

end

/-- Revocation is permanent: once a pair that was active has been revoked,
aborted for good, replaced or rotated away, no later check in the run accepts
it, whatever calls come between. -/
theorem retired_never_active {trace : List Served} {storage : Storage} {clock : Nat} {pair : LinkedPair}
    {before between after : List Served} {e check : Served} (h : PrincipalRun trace storage clock)
    (htrace : trace = before ++ e :: between ++ check :: after)
    (hactive : ∃ held ∈ before ++ [e], held.before.state.bind (·.active) = some pair) (hretires : Retires pair e)
    (hcheck : check.call.operation = .checkAccess pair) : check.result ≠ .ok (.checkAccess .active) := by
  have htracked : ∀ {pre s clk}, PrincipalRun pre s clk →
      (∃ held ∈ pre, held.before.state.bind (·.active) = some pair) → Tracked pair s.state clk := by
    rintro pre s clk hrun ⟨held, hmem, ha⟩
    obtain ⟨l, r, rfl⟩ := List.append_of_mem hmem
    refine hrun.lasting (fun _ held => held.before.state.bind (·.active) = some pair)
      (fun s clk => Tracked pair s.state clk) ?_ ?_ rfl ha
    · intro _ t _ c _ _ _ ha
      exact (serve_effect t c).tracks_active ha
    · intro _ t _ c _ hle _ ht
      exact (serve_effect t c).keeps_tracked hle ht
  obtain ⟨s, c, clk, hrun, hle, -, rfl⟩ := h.cut htrace
  have hdead : Dead pair s.state clk := by
    refine hrun.lasting
      (fun pre e => (∃ held ∈ pre ++ [e], held.before.state.bind (·.active) = some pair) ∧ Retires pair e)
      (fun s clk => Dead pair s.state clk) ?_ ?_ rfl ⟨hactive, hretires⟩
    · rintro pre t clk c hpre hle - ⟨⟨held, hmem, ha⟩, hr⟩
      have ht : Tracked pair t.state clk := by
        rcases List.mem_append.1 hmem with hmem | hmem
        · exact htracked hpre ⟨held, hmem, ha⟩
        · rw [List.mem_singleton] at hmem
          subst hmem
          exact .inl ha
      exact (serve_effect t c).retires (e := stepOf serve t c) hle ht hr
    · intro _ t _ c _ hle _ hd
      exact (serve_effect t c).keeps_dead hle hd
  have heffect := serve_effect s c
  rw [show c.operation = .checkAccess pair from hcheck] at heffect
  exact heffect.rejects_dead hle hdead

def revokedCalls : List Call :=
  [⟨.activatePair oldPair, testNow⟩, ⟨.revokeLinkedPairByAccess oldPair, testNow + 1⟩,
    ⟨.checkAccess oldPair, testNow + 2⟩]

theorem retired_never_active_revoked :
    (executed revokedCalls)[2].call.operation = .checkAccess oldPair ∧
      (executed revokedCalls)[2].result ≠ .ok (.checkAccess .active) := by
  obtain ⟨storage, clock, h⟩ := executed_run revokedCalls (by decide)
  have htrace : executed revokedCalls =
      [(executed revokedCalls)[0]] ++ (executed revokedCalls)[1] :: [] ++ (executed revokedCalls)[2] :: [] := rfl
  have hrevoked : (executed revokedCalls)[1].result = .ok (.revoke .revoked) := by decide
  have hretires : Retires oldPair (executed revokedCalls)[1] := by
    rw [Retires, hrevoked]
    rfl
  exact ⟨rfl, retired_never_active h htrace ⟨_, List.mem_cons_of_mem _ List.mem_cons_self, by decide⟩ hretires rfl⟩

end Hyeboard.VnuRefresh
