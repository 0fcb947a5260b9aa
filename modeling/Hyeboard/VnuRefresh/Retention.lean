import Hyeboard.VnuRefresh.Chain
import Hyeboard.VnuRefresh.Validity
import Hyeboard.VnuRefresh.RateLimits
/-!
# Bounded retention

Every grant tombstone is of a pair that an activation or a refresh created, and
outlives the write that stores it. Grants last eight hours, so the activations
behind the tombstones lie in one interval of 32 window lengths, and so do the
accepted refreshes: each completed refresh used up the lease of one of them.
-/

namespace Hyeboard.VnuRefresh

open FixedWindow

/-- `VNU_REFRESH_LIFETIME_MS` of `createVnuRefreshGrant`. -/
def vnuRefreshLifetimeMs : Nat := 8 * 60 * 60 * 1000

/-- What callers of `activatePair` promise: the grant was just created. -/
def GrantIssued (call : Call) : Prop :=
  ∀ pair, call.operation = .activatePair pair → pair.grantExpiresAt ≤ call.now + vnuRefreshLifetimeMs

/-- The runs of one principal that activates only fresh grants. -/
abbrev IssuedRun := Run serve Call.now (fun _ _ call => GrantIssued call) Storage.empty

/-! ## Where a tombstone comes from -/

/-- The pair a manual activation created. -/
def activatedPair (e : Served) : Option LinkedPair :=
  match e.call.operation with
  | .activatePair pair => if changedActivation e then some pair else none
  | _ => none

/-- The pair a completed refresh created. -/
def refreshedPair (e : Served) : Option LinkedPair :=
  match e.call.operation, e.result with
  | .completeRefresh _ next, .ok (.completeRefresh .completed) => some next
  | _, _ => none

/-- The revoked pair a grant tombstone records. -/
def tombstonePair (entry : String × RevokedGrantTombstone) : Option LinkedPair :=
  match entry.2 with
  | .legacy _ => none
  | .linked tombstone => some
      { accessTokenId := tombstone.accessTokenId
        accessExpiresAt := tombstone.accessExpiresAt
        grantId := entry.1
        grantExpiresAt := tombstone.grantExpiresAt }

/-- One of the steps created the pair the entry records. -/
def CreatedBy (source : Served → Option LinkedPair) (trace : List Served) (entry : String × RevokedGrantTombstone) : Prop :=
  ∃ e ∈ trace, source e ≠ none ∧ source e = tombstonePair entry

instance (source : Served → Option LinkedPair) (trace : List Served) (entry : String × RevokedGrantTombstone) :
    Decidable (CreatedBy source trace entry) :=
  inferInstanceAs (Decidable (∃ e ∈ trace, _))

/-- How many of the stored grant tombstones are of pairs from `source`. -/
def retained (source : Served → Option LinkedPair) (trace : List Served) (state : VnuRefreshControlState) : Nat :=
  state.revokedGrants.entries.countP fun entry => CreatedBy source trace entry

section
variable {slot slot' : Option VnuRefreshControlState} {now clock : Nat} {operation : Operation}
  {answer : Except String OperationResult} {result : OperationResult} {next : VnuRefreshControlState}
  {pair : LinkedPair} {trace : List Served} {storage : Storage} {entry : String × RevokedGrantTombstone}

/-- The pairs a run created. -/
def Created (trace : List Served) (pair : LinkedPair) : Prop :=
  ∃ e ∈ trace, activatedPair e = some pair ∨ refreshedPair e = some pair

theorem Created.append {e : Served} (h : Created trace pair) : Created (trace ++ [e]) pair := by
  obtain ⟨e', he', h⟩ := h
  exact ⟨e', List.mem_append_left _ he', h⟩

theorem tombstonePair_successor (old next : LinkedPair) :
    tombstonePair (old.grantId, .linked (refreshSuccessorGrantTombstone old next)) = some old := rfl

theorem expiry_of_tombstonePair (h : tombstonePair entry = some pair) :
    grantTombstoneExpiresAt entry.2 = pair.grantExpiresAt ∧ entry.1 = pair.grantId := by
  obtain ⟨id, tombstone⟩ := entry
  cases tombstone with
  | legacy expiresAt => cases h
  | linked t =>
    cases h
    exact ⟨rfl, rfl⟩

/-- A new entry of `revokeExact`, or one that was there. -/
theorem mem_revokeExact {state : VnuRefreshControlState} {current : LinkedPair} {g : LinkedGrantTombstone}
    (h : entry ∈ (revokeExact state current g).revokedGrants.entries) :
    entry = (current.grantId, .linked g) ∨ entry ∈ state.revokedGrants.entries := Record.mem_entries_set h

/-- A stored tombstone is a live one from before, or the active pair's, or the
one of the proof that revoked the principal. -/
theorem Stores.mem_grants (h : Stores slot now operation result next) (hentry : entry ∈ next.revokedGrants.entries) :
    entry ∈ (cleanVnuRefreshState slot now).revokedGrants.entries ∨
      (∃ current, (cleanVnuRefreshState slot now).active = some current ∧ tombstonePair entry = some current) ∨
      ∃ proof current, ProvesSuccessor (cleanVnuRefreshState slot now) proof current ∧
        tombstonePair entry = some proof ∧ now < proof.grantExpiresAt := by
  cases h with
  | activate other _ _ =>
    rcases activated_cases (cleanVnuRefreshState slot now) other now with ⟨current, ha, -, heq⟩ | ⟨-, heq⟩
    · rw [heq] at hentry
      rcases mem_revokeExact hentry with rfl | h
      · exact .inr (.inl ⟨current, ha, rfl⟩)
      · exact .inl h
    · rw [heq] at hentry
      exact .inl hentry
  | begin _ _ _ _ _ _ => exact .inl hentry
  | complete old _ _ hactive _ =>
    rcases mem_revokeExact hentry with rfl | h
    · exact .inr (.inl ⟨old, hactive, rfl⟩)
    · exact .inl h
  | release _ _ _ _ => exact .inl hentry
  | abort aborted _ hactive _ =>
    rcases mem_revokeExact hentry with rfl | h
    · exact .inr (.inl ⟨aborted, hactive, rfl⟩)
    · exact .inl h
  | revoke revoked _ _ hactive =>
    rcases mem_revokeExact hentry with rfl | h
    · exact .inr (.inl ⟨revoked, hactive, rfl⟩)
    · exact .inl h
  | revokePrincipal proof current hlive hactive hproof =>
    rcases mem_revokeExact hentry with rfl | h
    · exact .inr (.inl ⟨current, hactive, rfl⟩)
    rcases Record.mem_entries_set h with rfl | h
    · rcases hproof with rfl | ⟨hproves, -⟩
      · exact .inr (.inl ⟨current, hactive, rfl⟩)
      · exact .inr (.inr ⟨proof, current, hproves, rfl, hlive⟩)
    · exact .inl h

/-! ## Invariants of a run -/

theorem IssuedRun.principal (h : IssuedRun trace storage clock) : PrincipalRun trace storage clock :=
  h.mono fun _ _ _ _ => trivial

/-- The active pair was created by the run, and lasts at most eight hours more. -/
theorem IssuedRun.active_created (h : IssuedRun trace storage clock) :
    ∀ pair, storage.state.bind (·.active) = some pair →
      Created trace pair ∧ pair.grantExpiresAt ≤ clock + vnuRefreshLifetimeMs := by
  refine h.invariant (fun trace storage clock => ∀ pair, storage.state.bind (·.active) = some pair →
    Created trace pair ∧ pair.grantExpiresAt ≤ clock + vnuRefreshLifetimeMs) ?_ ?_
  · intro pair h
    cases h
  intro trace s clock c _ ih hle hissued pair hpair
  have he := serve_effect s c
  have hbefore : s.state.bind (·.active) = some pair →
      Created (trace ++ [stepOf serve s c]) pair ∧ pair.grantExpiresAt ≤ c.now + vnuRefreshLifetimeMs := by
    intro hb
    obtain ⟨hcreated, hexpiry⟩ := ih pair hb
    exact ⟨hcreated.append, by omega⟩
  have hlast : stepOf serve s c ∈ trace ++ [stepOf serve s c] := List.mem_append_right _ (List.mem_singleton.2 rfl)
  rcases he.active_origin hpair with hb | ⟨hop, hans⟩ | ⟨old, hop, hans⟩
  · exact hbefore hb
  · -- Case: activated, or already active
    by_cases hchanged : s.state = (serve s c).2.state
    · rw [← hchanged] at hpair
      exact hbefore hpair
    · refine ⟨⟨_, hlast, .inl ?_⟩, hissued pair hop⟩
      have hc : changedActivation (stepOf serve s c) = true := by
        simpa [changedActivation, isActivation, stepOf, hop] using hchanged
      simp [activatedPair, hc, show (stepOf serve s c).call.operation = _ from hop]
  · -- Case: refreshed
    rw [hop, hans] at he
    obtain ⟨-, hexpiry, -, hactive, -, -⟩ := he.completed
    refine ⟨⟨_, hlast, .inr ?_⟩, ?_⟩
    · simp [refreshedPair, show (stepOf serve s c).call.operation = _ from hop,
        show (stepOf serve s c).result = _ from hans]
    · have := (ih old (clean_active_eq_some.1 hactive).1).2
      omega

/-- Every stored grant tombstone records a pair the run created. -/
theorem IssuedRun.tombstones_created (h : IssuedRun trace storage clock) :
    ∀ state, storage.state = some state → ∀ entry ∈ state.revokedGrants.entries,
      ∃ pair, tombstonePair entry = some pair ∧ Created trace pair := by
  refine h.invariant (fun trace storage _ => ∀ state, storage.state = some state →
    ∀ entry ∈ state.revokedGrants.entries, ∃ pair, tombstonePair entry = some pair ∧ Created trace pair) ?_ ?_
  · intro state h
    cases h
  intro trace s clock c hrun ih hle _ state hstate entry hentry
  have he := serve_effect s c
  have hold : ∀ before, s.state = some before → ∀ entry ∈ before.revokedGrants.entries,
      ∃ pair, tombstonePair entry = some pair ∧ Created (trace ++ [stepOf serve s c]) pair := by
    intro before hb entry hentry
    obtain ⟨pair, hp, hcreated⟩ := ih before hb entry hentry
    exact ⟨pair, hp, hcreated.append⟩
  have hclean : ∀ entry ∈ (cleanVnuRefreshState s.state c.now).revokedGrants.entries,
      ∃ pair, tombstonePair entry = some pair ∧ Created (trace ++ [stepOf serve s c]) pair := by
    intro entry hentry
    obtain ⟨⟨before, hb, hentry⟩, -⟩ := clean_grant_entries hentry
    exact hold before hb entry hentry
  generalize (serve s c).2.state = slot' at he hstate
  generalize (serve s c).1 = answer at he
  cases he with
  | threw _ _ => exact hold state hstate entry hentry
  | refused _ _ _ _ _ => exact hold state hstate entry hentry
  | stored _ _ _ _ _ h =>
    cases hstate
    rcases h.mem_grants hentry with hentry | ⟨current, hactive, hp⟩ | ⟨proof, current, hproves, hp, -⟩
    · exact hclean entry hentry
    · exact ⟨current, hp, (IssuedRun.active_created hrun current (clean_active_eq_some.1 hactive).1).1.append⟩
    · obtain ⟨pair, hpair, hcreated⟩ := hclean _ (Record.get?_eq_some.1 hproves)
      rw [tombstonePair_successor, Option.some.injEq] at hpair
      exact ⟨proof, hp, hpair ▸ hcreated⟩
  | cleaned _ _ _ _ _ =>
    rcases cleanedSlot_cases s.state c.now with hc | ⟨hc, -⟩
    · rw [hc] at hstate
      cases hstate
      exact hclean entry hentry
    · rw [hc] at hstate
      cases hstate

/-- What a call writes has only unexpired grant tombstones. -/
theorem Effect.entries_live (h : Effect slot now operation answer slot') (hne : slot' ≠ slot)
    {state : VnuRefreshControlState} (hstate : slot' = some state) (hentry : entry ∈ state.revokedGrants.entries) :
    now < grantTombstoneExpiresAt entry.2 := by
  cases h with
  | threw _ _ => exact absurd rfl hne
  | refused _ _ _ _ _ => exact absurd rfl hne
  | stored _ _ _ _ _ h =>
    cases hstate
    rcases h.mem_grants hentry with hentry | ⟨current, hactive, hp⟩ | ⟨proof, current, -, hp, hlive⟩
    · exact (clean_grant_entries hentry).2
    · rw [(expiry_of_tombstonePair hp).1]
      exact (clean_active_eq_some.1 hactive).2
    · rw [(expiry_of_tombstonePair hp).1]
      exact hlive
  | cleaned _ _ _ _ _ =>
    rcases cleanedSlot_cases slot now with hc | ⟨hc, -⟩
    · rw [hc] at hstate
      cases hstate
      exact (clean_grant_entries hentry).2
    · rw [hc] at hstate
      cases hstate

/-! ## Leases pay for refreshes -/

/-- A refresh to a grant that lasts past `bound`. -/
def refreshedPast (bound : Nat) (e : Served) : Bool :=
  match refreshedPair e with
  | some next => bound < next.grantExpiresAt
  | none => false

/-- An accepted refresh whose grant may last past `bound`. -/
def acceptedPast (bound : Nat) (e : Served) : Bool :=
  acceptedRefresh e && bound < e.call.now + vnuRefreshLifetimeMs

/-- One if a lease of a grant that lasts past `bound` is stored. -/
def leasedPast (bound : Nat) (slot : Option VnuRefreshControlState) : Nat :=
  match slot.bind (·.lease) with
  | some lease => if bound < lease.pair.grantExpiresAt then 1 else 0
  | none => 0

/-- A call that neither accepts nor completes a refresh grants no lease. -/
theorem Effect.leasedPast_le (h : Effect slot now operation answer slot') (hb : isAccepted answer = false)
    (bound : Nat) : leasedPast bound slot' ≤ leasedPast bound slot := by
  unfold leasedPast
  cases hl : slot'.bind (·.lease) with
  | none => exact Nat.zero_le _
  | some lease =>
    rcases h.lease_origin hl with hl | ⟨-, hans⟩
    · rw [hl]
    · rw [hans] at hb
      cases hb

theorem refreshes_of_refreshedPair {e : Served} {next : LinkedPair} (h : refreshedPair e = some next) : ∃ old, Refreshes old next e := by
  unfold refreshedPair at h
  split at h
  · rename_i old next' hop hans
    cases h
    exact ⟨old, hop, hans⟩
  · cases h

/-- An accepted refresh leases the active pair. -/
theorem Effect.accepted (h : Effect slot now operation answer slot') (hb : isAccepted answer = true) :
    ∃ pair, (cleanVnuRefreshState slot now).active = some pair ∧
      slot' = some (begun (cleanVnuRefreshState slot now) pair now) := by
  cases h with
  | threw _ _ => cases hb
  | refused _ _ _ _ h =>
    rw [refuses_not_accepted h] at hb
    cases hb
  | stored _ _ _ _ _ h =>
    cases h with
    | begin pair _ _ hactive _ _ => exact ⟨pair, hactive, rfl⟩
    | _ => cases hb
  | cleaned _ _ _ h hv =>
    cases operation with
    | checkAccess _ | alarm =>
      cases hv
      cases hb
    | _ => exact h.elim

/-- Refreshes to long grants, and the stored lease of one, never outnumber the
accepted refreshes that could have led to them. -/
theorem IssuedRun.leases_pay (h : IssuedRun trace storage clock) (bound : Nat) :
    trace.countP (refreshedPast bound) + leasedPast bound storage.state ≤ trace.countP (acceptedPast bound) := by
  refine h.invariant (fun trace storage _ =>
    trace.countP (refreshedPast bound) + leasedPast bound storage.state ≤ trace.countP (acceptedPast bound))
    (Nat.le_refl _) ?_
  intro trace s clock c hrun ih hle _
  have he := serve_effect s c
  rw [List.countP_append, List.countP_append, List.countP_singleton, List.countP_singleton]
  by_cases hrefresh : ∃ old next, Refreshes old next (stepOf serve s c)
  · -- Case: a refresh completes, and its lease is gone
    obtain ⟨old, next, hop, hans⟩ := hrefresh
    rw [show c.operation = .completeRefresh old next from hop,
      show (serve s c).1 = .ok (.completeRefresh .completed) from hans] at he
    obtain ⟨-, hexpiry, -, -, hleased, hslot⟩ := he.completed
    obtain ⟨expiresAt, hl, -⟩ := leasedTo_clean.1 hleased
    have hbefore : leasedPast bound s.state = if bound < old.grantExpiresAt then 1 else 0 := by
      rw [leasedPast, hl]
    have hsame : samePair ((cleanVnuRefreshState s.state c.now).lease.map (·.pair)) old = true := samePair_iff.2 hleased
    have hafter : leasedPast bound (serve s c).2.state = 0 := by
      rw [hslot, leasedPast]
      simp [rotated, revokeExact, -samePair_iff, hsame]
    have hcounted : refreshedPast bound (stepOf serve s c) = decide (bound < old.grantExpiresAt) := by
      rw [← hexpiry]
      simp [refreshedPast, refreshedPair, show (stepOf serve s c).call.operation = _ from hop,
        show (stepOf serve s c).result = _ from hans]
    rw [hafter, hcounted]
    rw [hbefore] at ih
    simp only [decide_eq_true_eq]
    omega
  have hnone : refreshedPast bound (stepOf serve s c) = false := by
    unfold refreshedPast
    split
    · rename_i next hnext
      obtain ⟨old, h⟩ := refreshes_of_refreshedPair hnext
      exact absurd ⟨old, next, h⟩ hrefresh
    · rfl
  rw [hnone]
  by_cases hb : acceptedRefresh (stepOf serve s c) = true
  · -- Case: a refresh is accepted, for the active pair
    obtain ⟨pair, hactive, hslot⟩ := he.accepted hb
    have hexpiry := (IssuedRun.active_created hrun pair (clean_active_eq_some.1 hactive).1).2
    have hafter : leasedPast bound (serve s c).2.state = if bound < pair.grantExpiresAt then 1 else 0 := by
      rw [hslot]
      simp only [leasedPast, begun, Option.bind_some]
    have hcounted : acceptedPast bound (stepOf serve s c) = decide (bound < c.now + vnuRefreshLifetimeMs) := by
      rw [acceptedPast, hb, Bool.true_and]
      exact decide_eq_decide.2 Iff.rfl
    rw [hafter, hcounted]
    simp only [Bool.false_eq_true, if_false, decide_eq_true_eq]
    split <;> split <;> omega
  · -- Case: neither
    have := he.leasedPast_le (Bool.not_eq_true _ ▸ hb) bound
    simp only [Bool.false_eq_true, if_false]
    omega

/-! ## Counting -/

/-- Distinct keys that each have a step as their source need as many steps. -/
theorem countP_le_of_source {α β γ : Type} {l : List α} {steps : List β} {p : α → Bool} {q : β → Bool} {key : α → γ}
    (source : β → Option γ) (hnodup : (l.map key).Nodup)
    (h : ∀ a ∈ l, p a = true → ∃ b ∈ steps, q b = true ∧ source b = some (key a)) : l.countP p ≤ steps.countP q := by
  have hkeys : ((l.filter p).map key).Nodup := (List.filter_sublist.map key).nodup hnodup
  have hsubset : (l.filter p).map key ⊆ (steps.filter q).filterMap source := by
    intro k hk
    obtain ⟨a, ha, rfl⟩ := List.mem_map.1 hk
    obtain ⟨hal, hap⟩ := List.mem_filter.1 ha
    obtain ⟨b, hb, hq, hs⟩ := h a hal hap
    exact List.mem_filterMap.2 ⟨b, List.mem_filter.2 ⟨hb, hq⟩, hs⟩
  have hlength := (List.subperm_of_subset hkeys hsubset).length_le
  rw [List.length_map] at hlength
  rw [List.countP_eq_length_filter, List.countP_eq_length_filter]
  exact Nat.le_trans hlength (List.length_filterMap_le _ _)

theorem IssuedRun.issued (h : IssuedRun trace storage clock) : ∀ e ∈ trace, GrantIssued e.call := by
  intro e he
  obtain ⟨earlier, later, htrace⟩ := List.append_of_mem he
  obtain ⟨s, c, clk, -, -, hissued, rfl⟩ := h.cut htrace
  exact hissued

theorem activatedPair_eq_some {e : Served} (h : activatedPair e = some pair) :
    e.call.operation = .activatePair pair ∧ changedActivation e = true := by
  unfold activatedPair at h
  split at h
  · rename_i pair' hop
    split at h
    · rename_i hc
      cases h
      exact ⟨hop, hc⟩
    · cases h
  · cases h

/-- Eight hours are 32 windows of either kind. -/
theorem IssuedRun.retained_le (h : IssuedRun trace storage clock) {state : VnuRefreshControlState}
    (hlive : ∀ entry ∈ state.revokedGrants.entries, clock < grantTombstoneExpiresAt entry.2) :
    retained activatedPair trace state ≤ 164 ∧ retained refreshedPair trace state ≤ 165 := by
  have hprincipal := IssuedRun.principal h
  have htime := h.time_le
  -- the times from which a grant can last past the clock
  have hrange : ∀ e ∈ trace, clock < e.call.now + vnuRefreshLifetimeMs →
      clock + 1 - vnuRefreshLifetimeMs ≤ e.call.now ∧
        e.call.now < clock + 1 - vnuRefreshLifetimeMs + vnuRefreshLifetimeMs := by
    intro e he hlt
    have := htime e he
    omega
  constructor
  · have hbound := (PrincipalRun.activation_log hprincipal).anchored_hits_le (by decide) (by decide)
      (clock + 1 - vnuRefreshLifetimeMs) 32
    rw [hits_activation] at hbound
    refine Nat.le_trans (countP_le_of_source (fun e => (activatedPair e).map (·.grantId))
      state.revokedGrants.nodup ?_) hbound
    intro entry hentry hcreated
    obtain ⟨e, he, hne, heq⟩ := of_decide_eq_true hcreated
    obtain ⟨pair, hpair⟩ := Option.ne_none_iff_exists'.1 hne
    rw [hpair] at heq
    obtain ⟨hexpiry, hid⟩ := expiry_of_tombstonePair heq.symm
    obtain ⟨hop, hchanged⟩ := activatedPair_eq_some hpair
    have hissued := IssuedRun.issued h e he pair hop
    have hentryLive := hlive entry hentry
    obtain ⟨hlow, hhigh⟩ := hrange e he (by omega)
    refine ⟨e, he, ?_, by rw [hpair, hid]; rfl⟩
    simp only [hchanged, Bool.true_and, Bool.and_eq_true, decide_eq_true_eq]
    exact ⟨hlow, hhigh⟩
  · have hbound := (PrincipalRun.refresh_log hprincipal).hits_le (by decide) (clock + 1 - vnuRefreshLifetimeMs) 32
    rw [hits_refresh] at hbound
    have hpaid := IssuedRun.leases_pay h clock
    have haccepted : trace.countP (acceptedPast clock) ≤ countBetween acceptedRefresh (clock + 1 - vnuRefreshLifetimeMs)
        (clock + 1 - vnuRefreshLifetimeMs + 32 * vnuRefreshWindowMs) trace := by
      refine List.countP_mono_left fun e he hp => ?_
      simp only [acceptedPast, Bool.and_eq_true, decide_eq_true_eq] at hp
      obtain ⟨hlow, hhigh⟩ := hrange e he hp.2
      simp only [hp.1, Bool.true_and, Bool.and_eq_true, decide_eq_true_eq]
      exact ⟨hlow, hhigh⟩
    have hretained : retained refreshedPair trace state ≤ trace.countP (refreshedPast clock) := by
      refine countP_le_of_source (fun e => (refreshedPair e).map (·.grantId)) state.revokedGrants.nodup ?_
      intro entry hentry hcreated
      obtain ⟨e, he, hne, heq⟩ := of_decide_eq_true hcreated
      obtain ⟨pair, hpair⟩ := Option.ne_none_iff_exists'.1 hne
      rw [hpair] at heq
      obtain ⟨hexpiry, hid⟩ := expiry_of_tombstonePair heq.symm
      have hentryLive := hlive entry hentry
      refine ⟨e, he, ?_, by rw [hpair, hid]; rfl⟩
      simp only [refreshedPast, hpair, decide_eq_true_eq]
      omega
    have hlimit : (32 + 1) * vnuRefreshAttemptLimit = 165 := by decide
    omega

/-- A call that changes nothing creates no pair. -/
theorem no_source_of_same {s : Storage} {c : Call} (hsame : (serve s c).2.state = s.state) :
    activatedPair (stepOf serve s c) = none ∧ refreshedPair (stepOf serve s c) = none := by
  constructor
  · cases hp : activatedPair (stepOf serve s c) with
    | none => rfl
    | some pair =>
      have hchanged := (activatedPair_eq_some hp).2
      simp only [changedActivation, stepOf, hsame, isActivation_self, Bool.false_eq_true] at hchanged
  · cases hp : refreshedPair (stepOf serve s c) with
    | none => rfl
    | some next =>
      obtain ⟨old, hop, hans⟩ := refreshes_of_refreshedPair hp
      have he := serve_effect s c
      rw [show c.operation = .completeRefresh old next from hop,
        show (serve s c).1 = .ok (.completeRefresh .completed) from hans] at he
      obtain ⟨-, -, hne, hactive, -, hslot⟩ := he.completed
      have hbefore := (clean_active_eq_some.1 hactive).1
      rw [← hsame, hslot] at hbefore
      exact absurd (Option.some.inj hbefore) hne

theorem retained_append {source : Served → Option LinkedPair} {e : Served} (h : source e = none)
    (trace : List Served) (state : VnuRefreshControlState) :
    retained source (trace ++ [e]) state = retained source trace state := by
  have hiff : ∀ entry, CreatedBy source (trace ++ [e]) entry ↔ CreatedBy source trace entry := by
    intro entry
    simp [CreatedBy, or_and_right, exists_or, h]
  simp only [retained, hiff]

theorem IssuedRun.counts (h : IssuedRun trace storage clock) : ∀ state, storage.state = some state →
    retained activatedPair trace state ≤ 164 ∧ retained refreshedPair trace state ≤ 165 := by
  refine h.invariant (fun trace storage _ => ∀ state, storage.state = some state →
    retained activatedPair trace state ≤ 164 ∧ retained refreshedPair trace state ≤ 165) ?_ ?_
  · intro state h
    cases h
  intro trace s clock c hrun ih hle hissued state hstate
  by_cases hsame : (serve s c).2.state = s.state
  · obtain ⟨hactivated, hrefreshed⟩ := no_source_of_same hsame
    rw [retained_append hactivated, retained_append hrefreshed]
    exact ih state (hsame ▸ hstate)
  · exact IssuedRun.retained_le (hrun.call c hle hissued) fun entry hentry =>
      (serve_effect s c).entries_live hsame hstate hentry

end

/-- Bounded retention: the stored record holds at most 164 grant tombstones of
manually activated pairs, 165 of refreshed ones, and no others. -/
theorem retention_bounded {trace : List Served} {storage : Storage} {clock : Nat}
    (h : IssuedRun trace storage clock) {state : VnuRefreshControlState} (hstate : storage.state = some state) :
    (∀ entry ∈ state.revokedGrants.entries, CreatedBy activatedPair trace entry ∨ CreatedBy refreshedPair trace entry) ∧
      retained activatedPair trace state ≤ 164 ∧ retained refreshedPair trace state ≤ 165 ∧
      state.revokedGrants.size ≤ 329 := by
  have hsources : ∀ entry ∈ state.revokedGrants.entries,
      CreatedBy activatedPair trace entry ∨ CreatedBy refreshedPair trace entry := by
    intro entry hentry
    obtain ⟨pair, hp, e, he, hs | hs⟩ := IssuedRun.tombstones_created h state hstate entry hentry
    · exact .inl ⟨e, he, by simp [hs], hs.trans hp.symm⟩
    · exact .inr ⟨e, he, by simp [hs], hs.trans hp.symm⟩
  obtain ⟨hmanual, hrefreshed⟩ := IssuedRun.counts h state hstate
  refine ⟨hsources, hmanual, hrefreshed, ?_⟩
  have hrest : state.revokedGrants.entries.countP
      (fun entry => decide ¬decide (CreatedBy activatedPair trace entry) = true) ≤ retained refreshedPair trace state := by
    refine List.countP_mono_left fun entry hentry hnot => ?_
    have hnot : ¬ CreatedBy activatedPair trace entry := by simpa using hnot
    exact decide_eq_true ((hsources entry hentry).resolve_left hnot)
  have hsplit : state.revokedGrants.size = retained activatedPair trace state + _ :=
    List.length_eq_countP_add_countP (fun entry => decide (CreatedBy activatedPair trace entry))
  omega

/-- `oldPair`, then `nextPair` in its place. -/
def replacedStorage : Storage :=
  (serve (serve Storage.empty ⟨.activatePair oldPair, testNow⟩).2 ⟨.activatePair nextPair, testNow + 1⟩).2

theorem retention_bounded_replaced :
    ∃ state, replacedStorage.state = some state ∧ state.revokedGrants.size ≤ 329 := by
  have hissued : ∀ (pair : LinkedPair) (now : Nat), pair.grantExpiresAt ≤ now + vnuRefreshLifetimeMs →
      GrantIssued ⟨.activatePair pair, now⟩ := by
    rintro pair now h _ ⟨⟩
    exact h
  have hfirst : IssuedRun _ _ _ := Run.start.call (Call.mk (.activatePair oldPair) testNow) (Nat.zero_le _)
    (hissued oldPair testNow (by decide))
  have h : IssuedRun _ replacedStorage (testNow + 1) := hfirst.call (Call.mk (.activatePair nextPair) (testNow + 1))
    (Nat.le_succ _) (hissued nextPair (testNow + 1) (by decide))
  obtain ⟨state, hstate⟩ := Option.isSome_iff_exists.1 (show replacedStorage.state.isSome = true by decide)
  exact ⟨state, hstate, (retention_bounded h hstate).2.2.2⟩

end Hyeboard.VnuRefresh
