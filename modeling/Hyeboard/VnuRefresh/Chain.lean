import Hyeboard.VnuRefresh.Revocation
/-!
# Refreshing never extends authority

Whatever pair a check accepts goes back, refresh by refresh, to the latest
activation: each refresh replaced the pair that held a lease from `beginRefresh`
for exactly that pair, and none moved the grant's expiry. No pair is refreshed
twice: the first refresh leaves it dead.
-/

namespace Hyeboard.VnuRefresh

/-- The call made `pair` the active pair by an activation. -/
def Activates (pair : LinkedPair) (e : Served) : Prop :=
  e.call.operation = .activatePair pair ∧ e.result = .ok (.activatePair .activated) ∧
    e.before.state.bind (·.active) ≠ e.after.state.bind (·.active)

/-- The call completed a refresh of `old`, to `next`. -/
def Refreshes (old next : LinkedPair) (e : Served) : Prop :=
  e.call.operation = .completeRefresh old next ∧ e.result = .ok (.completeRefresh .completed)

/-- When `e` was served, `pair` held a lease that had not expired and that an
earlier `beginRefresh` of exactly this pair was granted. -/
def HeldLease (earlier : List Served) (e : Served) (pair : LinkedPair) : Prop :=
  ∃ expiresAt, e.before.state.bind (·.lease) = some { pair, expiresAt } ∧ e.call.now < expiresAt ∧
    ∃ begin ∈ earlier, begin.call.operation = .beginRefresh pair ∧
      begin.result = .ok (.beginRefresh (.accepted expiresAt))

/-- `Chain trace first pairs`: the latest activation in `trace` that changed the
active pair activated `first`, and the refreshes since then led from it through
`pairs`, latest pair first. -/
inductive Chain : List Served → LinkedPair → List LinkedPair → Prop
  | activated {earlier : List Served} {e : Served} {first : LinkedPair} (h : Activates first e) :
      Chain (earlier ++ [e]) first [first]
  | refreshed {earlier : List Served} {e : Served} {first old next : LinkedPair} {pairs : List LinkedPair}
      (h : Chain earlier first (old :: pairs)) (hrefresh : Refreshes old next e) (hlease : HeldLease earlier e old) :
      Chain (earlier ++ [e]) first (next :: old :: pairs)
  | other {earlier : List Served} {e : Served} {first : LinkedPair} {pairs : List LinkedPair}
      (h : Chain earlier first pairs) (hactivates : ∀ pair, ¬ Activates pair e)
      (hrefreshes : ∀ old next, ¬ Refreshes old next e) :
      Chain (earlier ++ [e]) first pairs

section
variable {slot slot' : Option VnuRefreshControlState} {now clock : Nat} {answer : Except String OperationResult}
  {operation : Operation} {pair old next : LinkedPair} {earlier : List Served} {e : Served}

/-- A completed refresh was of the active pair, under its lease. -/
theorem Effect.completed (h : Effect slot now (.completeRefresh old next) (.ok (.completeRefresh .completed)) slot') :
    SlotValid slot ∧ next.grantExpiresAt = old.grantExpiresAt ∧ next ≠ old ∧
      (cleanVnuRefreshState slot now).active = some old ∧ leasedTo (cleanVnuRefreshState slot now) old ∧
      slot' = some (rotated (cleanVnuRefreshState slot now) old next) := by
  cases h with
  | refused _ _ _ _ h =>
    rcases h with h | ⟨-, h⟩
    · cases h
    · simp only [Operation.verdict] at h
      split at h <;> cases h
  | stored _ _ hvalid _ hrot h =>
    cases h with
    | complete _ _ _ hactive hleased =>
      exact ⟨hvalid, hrot.1, fun heq => hrot.2.1 (congrArg LinkedPair.accessTokenId heq), hactive, hleased, rfl⟩
  | cleaned _ _ _ h _ => exact h.elim

/-- The active pair after a call was active before, unless the call activated
it or refreshed to it. -/
theorem Effect.active_origin (h : Effect slot now operation answer slot') (ha : slot'.bind (·.active) = some pair) :
    slot.bind (·.active) = some pair ∨
      operation = .activatePair pair ∧ answer = .ok (.activatePair .activated) ∨
      ∃ old, operation = .completeRefresh old pair ∧ answer = .ok (.completeRefresh .completed) := by
  cases h with
  | threw _ _ => exact .inl ha
  | refused _ _ _ _ _ => exact .inl ha
  | stored _ _ _ _ _ h =>
    cases h with
    | activate other _ _ =>
      obtain rfl := Option.some.inj ha
      exact .inr (.inl ⟨rfl, rfl⟩)
    | begin _ _ _ _ _ _ => exact .inl (clean_active_eq_some.1 ha).1
    | complete old _ _ _ _ =>
      obtain rfl := Option.some.inj ha
      exact .inr (.inr ⟨old, rfl, rfl⟩)
    | release _ _ _ _ => exact .inl (clean_active_eq_some.1 ha).1
    | abort _ _ _ _ => cases ha
    | revoke _ _ _ _ => cases ha
    | revokePrincipal _ _ _ _ _ => cases ha
  | cleaned _ _ _ _ _ =>
    rcases cleanedSlot_cases slot now with hc | ⟨hc, -⟩
    · rw [hc] at ha
      exact .inl (clean_active_eq_some.1 ha).1
    · rw [hc] at ha
      cases ha

/-- The lease after a call was there before, or `beginRefresh` granted it now. -/
theorem Effect.lease_origin (h : Effect slot now operation answer slot') {lease : RefreshLease}
    (hl : slot'.bind (·.lease) = some lease) :
    slot.bind (·.lease) = some lease ∨
      operation = .beginRefresh lease.pair ∧ answer = .ok (.beginRefresh (.accepted lease.expiresAt)) := by
  have hrevoke : ∀ (current : LinkedPair) (g : LinkedGrantTombstone),
      (revokeExact (cleanVnuRefreshState slot now) current g).lease = some lease → slot.bind (·.lease) = some lease := by
    intro current g h
    simp only [revokeExact] at h
    split at h
    · cases h
    · exact (clean_lease_eq_some.1 h).1
  cases h with
  | threw _ _ => exact .inl hl
  | refused _ _ _ _ _ => exact .inl hl
  | stored _ _ _ _ _ h =>
    cases h with
    | activate _ _ _ => cases hl
    | begin _ _ _ _ _ _ =>
      obtain rfl := Option.some.inj hl
      exact .inr ⟨rfl, rfl⟩
    | complete old next _ _ _ => exact .inl (hrevoke old (refreshSuccessorGrantTombstone old next) hl)
    | release _ _ _ _ => cases hl
    | abort _ _ _ _ => exact .inl (hrevoke _ _ hl)
    | revoke _ _ _ _ => exact .inl (hrevoke _ _ hl)
    | revokePrincipal _ current _ _ _ => exact .inl (hrevoke current (linkedGrantTombstone current) hl)
  | cleaned _ _ _ _ _ =>
    rcases cleanedSlot_cases slot now with hc | ⟨hc, -⟩
    · rw [hc] at hl
      exact .inl (clean_lease_eq_some.1 hl).1
    · rw [hc] at hl
      cases hl

/-! ## Every run -/

theorem PrincipalRun.lease_granted {trace : List Served} {storage : Storage} (h : PrincipalRun trace storage clock) :
    ∀ lease, storage.state.bind (·.lease) = some lease → ∃ begin ∈ trace,
      begin.call.operation = .beginRefresh lease.pair ∧
        begin.result = .ok (.beginRefresh (.accepted lease.expiresAt)) := by
  refine h.invariant (fun trace storage _ => ∀ lease, storage.state.bind (·.lease) = some lease → ∃ begin ∈ trace,
    begin.call.operation = .beginRefresh lease.pair ∧
      begin.result = .ok (.beginRefresh (.accepted lease.expiresAt))) ?_ ?_
  · intro lease h
    cases h
  · intro trace s clock c _ ih _ _ lease hl
    rcases (serve_effect s c).lease_origin hl with hl | ⟨hop, hans⟩
    · obtain ⟨begin, hmem, hb⟩ := ih lease hl
      exact ⟨begin, List.mem_append_left _ hmem, hb⟩
    · exact ⟨stepOf serve s c, List.mem_append_right _ (List.mem_singleton.2 rfl), hop, hans⟩

/-- The stored active pair always has a chain, all of one grant expiry. -/
theorem PrincipalRun.active_chain {trace : List Served} {storage : Storage} (h : PrincipalRun trace storage clock) :
    ∀ pair, storage.state.bind (·.active) = some pair → ∃ first pairs, Chain trace first (pair :: pairs) ∧
      ∀ linked ∈ pair :: pairs, linked.grantExpiresAt = first.grantExpiresAt := by
  refine h.invariant (fun trace storage _ => ∀ pair, storage.state.bind (·.active) = some pair →
    ∃ first pairs, Chain trace first (pair :: pairs) ∧
      ∀ linked ∈ pair :: pairs, linked.grantExpiresAt = first.grantExpiresAt) ?_ ?_
  · intro pair h
    cases h
  · intro trace s clock c hrun ih _ _ pair hpair
    have he := serve_effect s c
    by_cases hrefresh : ∃ old next, Refreshes old next (stepOf serve s c)
    · -- Case: refreshed
      obtain ⟨old, next, hop, hans⟩ := hrefresh
      have hdone := he
      rw [show c.operation = .completeRefresh old next from hop,
        show (serve s c).1 = .ok (.completeRefresh .completed) from hans] at hdone
      obtain ⟨-, hexpiry, -, hactive, hleased, hslot⟩ := hdone.completed
      obtain ⟨first, pairs, hchain, hsame⟩ := ih old (clean_active_eq_some.1 hactive).1
      have hpair' : next = pair := by
        have hnext : (serve s c).2.state.bind (·.active) = some next := by
          rw [hslot]
          rfl
        exact Option.some.inj (hnext.symm.trans hpair)
      subst hpair'
      obtain ⟨expiresAt, hl, hlive, -⟩ := leasedTo_clean.1 hleased
      refine ⟨first, old :: pairs, .refreshed hchain ⟨hop, hans⟩ ⟨expiresAt, hl, hlive, ?_⟩, ?_⟩
      · exact PrincipalRun.lease_granted hrun _ hl
      · intro linked hmem
        rcases List.mem_cons.1 hmem with rfl | hmem
        · exact hexpiry.trans (hsame old List.mem_cons_self)
        · exact hsame linked hmem
    by_cases hactivates : ∃ pair, Activates pair (stepOf serve s c)
    · -- Case: activated
      obtain ⟨first, hop, hans, hchanged⟩ := hactivates
      have hfirst : first = pair := by
        rcases he.active_origin hpair with hbefore | ⟨hop', -⟩ | ⟨old, hop', -⟩
        · exact absurd (hbefore.trans hpair.symm) hchanged
        · cases hop.symm.trans hop'
          rfl
        · cases hop.symm.trans hop'
      subst hfirst
      refine ⟨first, [], .activated ⟨hop, hans, hchanged⟩, ?_⟩
      rintro linked hmem
      rw [List.mem_singleton.1 hmem]
    · -- Case: neither
      have hbefore : s.state.bind (·.active) = some pair := by
        rcases he.active_origin hpair with hbefore | ⟨hop, hans⟩ | ⟨old, hop, hans⟩
        · exact hbefore
        · by_contra hchanged
          exact hactivates ⟨pair, hop, hans, fun heq => hchanged (heq.trans hpair)⟩
        · exact absurd ⟨old, pair, hop, hans⟩ hrefresh
      obtain ⟨first, pairs, hchain, hsame⟩ := ih pair hbefore
      exact ⟨first, pairs, .other hchain (fun p h => hactivates ⟨p, h⟩) (fun o n h => hrefresh ⟨o, n, h⟩), hsame⟩

/-- A refreshed pair is dead. -/
theorem Effect.refreshed_dead (h : Effect slot now (.completeRefresh old next) (.ok (.completeRefresh .completed)) slot') :
    Dead old slot' now := by
  obtain ⟨-, -, -, -, -, rfl⟩ := h.completed
  exact .inr ⟨.linked (refreshSuccessorGrantTombstone old next), by simp [rotated, get?_revokeExact], rfl⟩

theorem Effect.completed_not_dead
    (h : Effect slot now (.completeRefresh old next) (.ok (.completeRefresh .completed)) slot') (hle : clock ≤ now)
    (hdead : Dead old slot clock) : False := by
  obtain ⟨hvalid, -, -, hactive, -, -⟩ := h.completed
  have hlive := (clean_active_eq_some.1 hactive).2
  rcases dead_clean hdead hle with hexp | ⟨t, ht, -⟩
  · omega
  · rw [clean_active_grant hvalid hactive] at ht
    cases ht

/-- No pair is the old pair of two refreshes of a run. -/
theorem PrincipalRun.refreshed_once {trace : List Served} {storage : Storage} (h : PrincipalRun trace storage clock) :
    trace.Pairwise fun e later => ∀ old next, Refreshes old next e → ∀ next', ¬ Refreshes old next' later := by
  refine h.pairwise (fun e storage clock => ∀ old next, Refreshes old next e → Dead old storage.state clock) ?_ ?_ ?_
  · rintro _ s _ c _ _ _ old next ⟨hop, hans⟩
    have he := serve_effect s c
    rw [show c.operation = .completeRefresh old next from hop,
      show (serve s c).1 = .ok (.completeRefresh .completed) from hans] at he
    exact he.refreshed_dead
  · intro e _ s _ c _ hle _ hdead old next hr
    exact (serve_effect s c).keeps_dead hle (hdead old next hr)
  · rintro e _ s _ c _ hle _ hdead old next hr next' ⟨hop, hans⟩
    have he := serve_effect s c
    rw [show c.operation = .completeRefresh old next' from hop,
      show (serve s c).1 = .ok (.completeRefresh .completed) from hans] at he
    exact he.completed_not_dead hle (hdead old next hr)

/-- A check that says active was of the active pair, with both halves live. -/
theorem Effect.checked (h : Effect slot now (.checkAccess pair) (.ok (.checkAccess .active)) slot') :
    slot.bind (·.active) = some pair ∧ now < pair.grantExpiresAt ∧ now < pair.accessExpiresAt := by
  cases h with
  | refused _ _ _ _ h =>
    rcases h with h | ⟨-, h⟩ <;> cases h
  | stored _ _ _ _ _ h => cases h
  | cleaned result hvalid hargs h hv =>
    simp only [Operation.verdict, Verdict.clean.injEq, OperationResult.checkAccess.injEq, ite_eq_left_iff,
      reduceCtorEq, imp_false, Decidable.not_not] at hv
    obtain ⟨hactive, haccess, -⟩ := hv
    exact ⟨(clean_active_eq_some.1 hactive).1, (clean_active_eq_some.1 hactive).2, haccess⟩

end

/-- Refreshing never extends authority: a pair a check accepts goes back to the
latest activation by leased refreshes that kept the grant's expiry, both its
halves are live, and no pair was refreshed twice. -/
theorem refreshing_never_extends {trace : List Served} {storage : Storage} {clock : Nat}
    (h : PrincipalRun trace storage clock) :
    (∀ earlier check later pair, trace = earlier ++ check :: later → check.call.operation = .checkAccess pair →
      check.result = .ok (.checkAccess .active) →
      ∃ first pairs, Chain earlier first (pair :: pairs) ∧
        (∀ linked ∈ pair :: pairs, linked.grantExpiresAt = first.grantExpiresAt) ∧
        check.call.now < first.grantExpiresAt ∧ check.call.now < pair.accessExpiresAt) ∧
    trace.Pairwise fun e later => ∀ old next, Refreshes old next e → ∀ next', ¬ Refreshes old next' later := by
  refine ⟨fun earlier check later pair htrace hop hans => ?_, PrincipalRun.refreshed_once h⟩
  obtain ⟨s, c, clk, hrun, -, -, rfl⟩ := h.cut htrace
  have he := serve_effect s c
  rw [show c.operation = .checkAccess pair from hop, show (serve s c).1 = .ok (.checkAccess .active) from hans] at he
  obtain ⟨hactive, hgrant, haccess⟩ := he.checked
  obtain ⟨first, pairs, hchain, hsame⟩ := PrincipalRun.active_chain hrun pair hactive
  exact ⟨first, pairs, hchain, hsame, hsame pair List.mem_cons_self ▸ hgrant, haccess⟩

def refreshedCalls : List Call :=
  [⟨.activatePair oldPair, testNow⟩, ⟨.beginRefresh oldPair, testNow + 1⟩,
    ⟨.completeRefresh oldPair nextPair, testNow + 2⟩, ⟨.checkAccess nextPair, testNow + 3⟩]

theorem refreshing_never_extends_refreshed :
    (executed refreshedCalls)[3].result = .ok (.checkAccess .active) ∧
      ∃ first pairs, Chain ((executed refreshedCalls).take 3) first (nextPair :: pairs) := by
  obtain ⟨storage, clock, h⟩ := executed_run refreshedCalls (by decide)
  have hactive : (executed refreshedCalls)[3].result = .ok (.checkAccess .active) := by decide
  obtain ⟨first, pairs, hchain, -⟩ :=
    (refreshing_never_extends h).1 ((executed refreshedCalls).take 3) (executed refreshedCalls)[3] [] nextPair rfl rfl hactive
  exact ⟨hactive, first, pairs, hchain⟩

end Hyeboard.VnuRefresh
