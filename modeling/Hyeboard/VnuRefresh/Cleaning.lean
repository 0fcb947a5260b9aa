import Hyeboard.VnuRefresh.Transitions
/-!
# Cleaning

What `cleanVnuRefreshState` leaves of each field: exactly the parts that have
not expired. Every transition decides on the cleaned state, so these are the
facts the invariants rest on.
-/

namespace Hyeboard.VnuRefresh

section
variable {stored : Option VnuRefreshControlState} {now : Nat}

theorem clean_active_eq_some {pair : LinkedPair} :
    (cleanVnuRefreshState stored now).active = some pair ↔
      stored.bind (·.active) = some pair ∧ now < pair.grantExpiresAt := by
  cases stored <;> simp [cleanVnuRefreshState, emptyState, Option.filter_eq_some_iff]

theorem clean_lease_eq_some {lease : RefreshLease} :
    (cleanVnuRefreshState stored now).lease = some lease ↔
      stored.bind (·.lease) = some lease ∧ now < lease.expiresAt ∧ now < lease.pair.grantExpiresAt := by
  cases stored <;> simp [cleanVnuRefreshState, emptyState, Option.filter_eq_some_iff]

theorem clean_access_eq_some {id : String} {expiresAt : Nat} :
    (cleanVnuRefreshState stored now).revokedAccess.get? id = some expiresAt ↔
      stored.bind (·.revokedAccess.get? id) = some expiresAt ∧ now < expiresAt := by
  simp only [cleanVnuRefreshState, Record.get?_filter, Option.filter_eq_some_iff, decide_eq_true_eq]
  cases stored <;> simp [emptyState]

theorem clean_grant_eq_some {id : String} {tombstone : RevokedGrantTombstone} :
    (cleanVnuRefreshState stored now).revokedGrants.get? id = some tombstone ↔
      stored.bind (·.revokedGrants.get? id) = some tombstone ∧ now < grantTombstoneExpiresAt tombstone := by
  simp only [cleanVnuRefreshState, Record.get?_filter, Option.filter_eq_some_iff, decide_eq_true_eq]
  cases stored <;> simp [emptyState]

theorem clean_activationWindow_eq_some {window : RefreshWindow} :
    (cleanVnuRefreshState stored now).activationWindow = some window ↔
      stored.bind (·.activationWindow) = some window ∧ 0 < window.count ∧ now < window.resetAt := by
  cases stored <;> simp [cleanVnuRefreshState, emptyState, Option.filter_eq_some_iff]

/-- The refresh window runs on, or a fresh one starts now. -/
theorem clean_window_cases (stored : Option VnuRefreshControlState) (now : Nat) :
    (∃ state, stored = some state ∧ now < state.window.resetAt ∧ (cleanVnuRefreshState stored now).window = state.window) ∨
      ((∀ state, stored = some state → state.window.resetAt ≤ now) ∧
        (cleanVnuRefreshState stored now).window = { count := 0, resetAt := now + vnuRefreshWindowMs }) := by
  cases stored with
  | none =>
    right
    refine ⟨by simp, ?_⟩
    exact ite_self _
  | some state =>
    by_cases h : now < state.window.resetAt
    · exact .inl ⟨state, rfl, h, by simp [cleanVnuRefreshState, Nat.not_le.2 h]⟩
    · exact .inr ⟨by simpa using Nat.le_of_not_lt h, by simp [cleanVnuRefreshState, Nat.le_of_not_lt h]⟩

theorem lt_clean_resetAt (stored : Option VnuRefreshControlState) (now : Nat) :
    now < (cleanVnuRefreshState stored now).window.resetAt := by
  rcases clean_window_cases stored now with ⟨state, -, h, hw⟩ | ⟨-, hw⟩
  · rwa [hw]
  · rw [hw]
    simp only [vnuRefreshWindowMs]
    omega

@[simp] theorem clean_none (now : Nat) : cleanVnuRefreshState none now = emptyState now := by
  simp [cleanVnuRefreshState, emptyState, Record.filter, Record.empty, vnuRefreshWindowMs]

theorem clean_access_entries {e : String × Nat} (h : e ∈ (cleanVnuRefreshState stored now).revokedAccess.entries) :
    (∃ state, stored = some state ∧ e ∈ state.revokedAccess.entries) ∧ now < e.2 := by
  obtain ⟨he, hlt⟩ := clean_access_eq_some.1 (Record.get?_eq_some.2 h)
  obtain ⟨state, hs, hg⟩ := Option.bind_eq_some_iff.1 he
  exact ⟨⟨state, hs, Record.get?_eq_some.1 hg⟩, hlt⟩

theorem clean_grant_entries {e : String × RevokedGrantTombstone}
    (h : e ∈ (cleanVnuRefreshState stored now).revokedGrants.entries) :
    (∃ state, stored = some state ∧ e ∈ state.revokedGrants.entries) ∧ now < grantTombstoneExpiresAt e.2 := by
  obtain ⟨he, hlt⟩ := clean_grant_eq_some.1 (Record.get?_eq_some.2 h)
  obtain ⟨state, hs, hg⟩ := Option.bind_eq_some_iff.1 he
  exact ⟨⟨state, hs, Record.get?_eq_some.1 hg⟩, hlt⟩

/-- The lease of a cleaned state that is to `pair`. -/
theorem leasedTo_clean {pair : LinkedPair} :
    (cleanVnuRefreshState stored now).lease.map (·.pair) = some pair ↔
      ∃ expiresAt, stored.bind (·.lease) = some { pair, expiresAt } ∧ now < expiresAt ∧ now < pair.grantExpiresAt := by
  rw [Option.map_eq_some_iff]
  constructor
  · rintro ⟨⟨p, e⟩, h, rfl⟩
    exact ⟨e, clean_lease_eq_some.1 h⟩
  · rintro ⟨e, h⟩
    exact ⟨_, clean_lease_eq_some.2 h, rfl⟩

end

/-! ## Emptiness -/

theorem isQuiescent_iff {state : VnuRefreshControlState} :
    isQuiescentVnuRefreshState state = true ↔
      state.active = none ∧ state.lease = none ∧ state.revokedAccess = .empty ∧ state.revokedGrants = .empty ∧
        state.window.count = 0 ∧ state.activationWindow = none := by
  have hsize : ∀ {α : Type} {r : Record α}, r.size = 0 ↔ r = .empty := by
    intro α r
    rw [Record.size, List.length_eq_zero_iff]
    exact ⟨fun h => Record.ext_entries h, fun h => h ▸ rfl⟩
  simp [isQuiescentVnuRefreshState, hsize, and_assoc]

end Hyeboard.VnuRefresh
