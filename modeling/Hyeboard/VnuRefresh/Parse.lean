import Hyeboard.VnuRefresh.State
/-!
# Reading back what was stored

`parse_valid`: whatever `parseVnuRefreshControlState` accepts is valid.
`parse_toJs`: of the states the code writes it accepts exactly the valid ones,
and gives them back unchanged.
-/

namespace Hyeboard.VnuRefresh

open JsValue

/-! ## Pairs -/

theorem assertLinkedPair_valid {value : JsValue} {pair : LinkedPair} (h : assertLinkedPair value = .ok pair) :
    pair.Valid := by
  simp only [assertLinkedPair, bind_eq_ok, asString_eq_ok, asPositiveSafe_eq_ok, pure_eq_ok] at h
  obtain ⟨_, -, _, -, a, ⟨-, ha⟩, g, ⟨-, hg⟩, ae, ⟨-, hae⟩, ge, ⟨-, hge⟩, rfl⟩ := h
  exact ⟨ha, hg, hae, hge⟩

theorem sortedKeys_pair (a ae g ge : JsValue) :
    sortedKeys [("accessTokenId", a), ("accessExpiresAt", ae), ("grantId", g), ("grantExpiresAt", ge)] =
      ["accessExpiresAt", "accessTokenId", "grantExpiresAt", "grantId"] := by
  simp only [sortedKeys, List.map_cons, List.map_nil]
  decide

theorem assertLinkedPair_toJs {pair result : LinkedPair} :
    assertLinkedPair pair.toJs = .ok result ↔ result = pair ∧ pair.Valid := by
  simp [assertLinkedPair, LinkedPair.toJs, sortedKeys_pair, field]
  constructor
  · rintro ⟨ha, hg, hae, hge, rfl⟩
    exact ⟨rfl, ha, hg, hae, hge⟩
  · rintro ⟨rfl, ha, hg, hae, hge⟩
    exact ⟨ha, hg, hae, hge, rfl⟩

theorem unlessUndefined_optional {α : Type} {check : JsValue → Except String α} {encode : α → JsValue}
    (hne : ∀ a, encode a ≠ .undefined) {P : α → Prop} (h : ∀ a b, check (encode a) = .ok b ↔ b = a ∧ P a)
    {o r : Option α} :
    unlessUndefined check ((o.map encode).getD .undefined) = .ok r ↔ r = o ∧ ∀ a, o = some a → P a := by
  cases o with
  | none => simp [unlessUndefined, eq_comm]
  | some a =>
    have e : unlessUndefined check (encode a) = some <$> check (encode a) := by
      have := hne a
      revert this
      cases encode a <;> simp [unlessUndefined]
    simp only [Option.map_some, Option.getD_some, e, map_eq_ok, h, Option.some.injEq, forall_eq']
    constructor
    · rintro ⟨b, ⟨rfl, hb⟩, rfl⟩; exact ⟨rfl, hb⟩
    · rintro ⟨rfl, ha⟩; exact ⟨a, ⟨rfl, ha⟩, rfl⟩

theorem unlessUndefined_some {α : Type} {check : JsValue → Except String α} {value : JsValue} {o : Option α} {a : α}
    (h : unlessUndefined check value = .ok o) (ho : o = some a) : check value = .ok a := by
  subst ho
  cases value <;> simp_all [unlessUndefined]

/-! ## Leases and windows -/

theorem assertRefreshLease_valid {value : JsValue} {lease : RefreshLease}
    (h : assertRefreshLease value = .ok lease) : lease.pair.Valid ∧ PositiveSafe lease.expiresAt := by
  simp only [assertRefreshLease, bind_eq_ok, asPositiveSafe_eq_ok, pure_eq_ok] at h
  obtain ⟨_, -, _, -, pair, hp, expiresAt, ⟨-, he⟩, rfl⟩ := h
  exact ⟨assertLinkedPair_valid hp, he⟩

theorem sortedKeys_lease (p e : JsValue) : sortedKeys [("pair", p), ("expiresAt", e)] = ["expiresAt", "pair"] := by
  simp only [sortedKeys, List.map_cons, List.map_nil]
  decide

theorem assertRefreshLease_toJs {lease result : RefreshLease} :
    assertRefreshLease lease.toJs = .ok result ↔
      result = lease ∧ lease.pair.Valid ∧ PositiveSafe lease.expiresAt := by
  simp [assertRefreshLease, RefreshLease.toJs, sortedKeys_lease, field, assertLinkedPair_toJs]
  constructor
  · rintro ⟨hp, he, rfl⟩; exact ⟨rfl, hp, he⟩
  · rintro ⟨rfl, hp, he⟩; exact ⟨hp, he, rfl⟩

theorem assertWindow_valid {low limit : Nat} (hl : limit ≤ maxSafeInteger) {value : JsValue} {window : RefreshWindow}
    (h : assertWindow low limit value = .ok window) : window.Valid low limit := by
  simp only [assertWindow, bind_eq_ok, asPositiveSafe_eq_ok, asBounded_eq_ok hl, pure_eq_ok] at h
  obtain ⟨_, -, _, -, count, ⟨-, hlow, hle⟩, resetAt, ⟨-, hr⟩, rfl⟩ := h
  exact ⟨hlow, hle, hr⟩

theorem sortedKeys_window (c r : JsValue) : sortedKeys [("count", c), ("resetAt", r)] = ["count", "resetAt"] := by
  simp only [sortedKeys, List.map_cons, List.map_nil]
  decide

theorem assertWindow_toJs {low limit : Nat} (hl : limit ≤ maxSafeInteger) {window result : RefreshWindow} :
    assertWindow low limit window.toJs = .ok result ↔ result = window ∧ window.Valid low limit := by
  simp [assertWindow, RefreshWindow.toJs, sortedKeys_window, field, asBounded_eq_ok hl]
  constructor
  · rintro ⟨⟨hlow, hle⟩, hr, rfl⟩; exact ⟨rfl, hlow, hle, hr⟩
  · rintro ⟨rfl, hlow, hle, hr⟩; exact ⟨⟨hlow, hle⟩, hr, rfl⟩

theorem attemptLimit_le : vnuRefreshAttemptLimit ≤ maxSafeInteger := by decide
theorem activationLimit_le : vnuManualActivationLimit ≤ maxSafeInteger := by decide

theorem assertActivationWindow_toJs {window result : RefreshWindow} :
    assertActivationWindow window.toJs = .ok result ↔ result = window ∧ window.Valid 1 vnuManualActivationLimit :=
  assertWindow_toJs activationLimit_le

/-! ## Tombstones -/

theorem assertLinkedGrantTombstone_valid {value : JsValue} {grantId : String} {tombstone : LinkedGrantTombstone}
    (h : assertLinkedGrantTombstone value grantId = .ok tombstone) :
    (RevokedGrantTombstone.linked tombstone).Valid grantId := by
  simp only [assertLinkedGrantTombstone, bind_eq_ok, asString_eq_ok, asPositiveSafe_eq_ok, pure_eq_ok,
    require_eq_ok] at h
  obtain ⟨_, -, _, -, a, ⟨-, ha⟩, ae, ⟨-, hae⟩, ge, ⟨-, hge⟩, succ, hs, _, hok, rfl⟩ := h
  refine ⟨ha, hae, hge, fun successor hsucc => ?_, hok⟩
  exact assertLinkedPair_valid (unlessUndefined_some hs hsucc)

theorem sortedKeys_tombstone (a ae ge : JsValue) :
    sortedKeys [("accessTokenId", a), ("accessExpiresAt", ae), ("grantExpiresAt", ge)] =
      ["accessExpiresAt", "accessTokenId", "grantExpiresAt"] := by
  simp only [sortedKeys, List.map_cons, List.map_nil]
  decide

theorem sortedKeys_successor_tombstone (a ae ge s : JsValue) :
    sortedKeys [("accessTokenId", a), ("accessExpiresAt", ae), ("grantExpiresAt", ge), ("refreshSuccessor", s)] =
      ["accessExpiresAt", "accessTokenId", "grantExpiresAt", "refreshSuccessor"] := by
  simp only [sortedKeys, List.map_cons, List.map_nil]
  decide

theorem LinkedPair.toJs_ne_undefined (pair : LinkedPair) : pair.toJs ≠ .undefined := by simp [LinkedPair.toJs]

theorem RefreshLease.toJs_ne_undefined (lease : RefreshLease) : lease.toJs ≠ .undefined := by simp [RefreshLease.toJs]

theorem RefreshWindow.toJs_ne_undefined (window : RefreshWindow) : window.toJs ≠ .undefined := by
  simp [RefreshWindow.toJs]

theorem assertLinkedGrantTombstone_toJs {grantId : String} {tombstone result : LinkedGrantTombstone} :
    assertLinkedGrantTombstone tombstone.toJs grantId = .ok result ↔
      result = tombstone ∧ (RevokedGrantTombstone.linked tombstone).Valid grantId := by
  obtain ⟨a, ae, ge, succ⟩ := tombstone
  cases succ with
  | none =>
    simp [assertLinkedGrantTombstone, LinkedGrantTombstone.toJs, optionalField, sortedKeys_tombstone, field, unlessUndefined,
      RevokedGrantTombstone.Valid]
    constructor
    · rintro ⟨ha, hae, hge, hok, rfl⟩; exact ⟨rfl, ha, hae, hge, hok⟩
    · rintro ⟨rfl, ha, hae, hge, hok⟩; exact ⟨ha, hae, hge, hok, rfl⟩
  | some succ =>
    have hs := fun r => unlessUndefined_optional LinkedPair.toJs_ne_undefined (fun _ _ => assertLinkedPair_toJs) (o := some succ) (r := r)
    simp only [Option.map_some, Option.getD_some] at hs
    simp [assertLinkedGrantTombstone, LinkedGrantTombstone.toJs, optionalField, sortedKeys_successor_tombstone, field, hs,
      RevokedGrantTombstone.Valid]
    constructor
    · rintro ⟨ha, hae, hge, hs, hok, rfl⟩; exact ⟨rfl, ha, hae, hge, hs, hok⟩
    · rintro ⟨rfl, ha, hae, hge, hs, hok⟩; exact ⟨ha, hae, hge, hs, hok, rfl⟩

theorem assertRevokedGrantTombstone_valid {value : JsValue} {grantId : String} {tombstone : RevokedGrantTombstone}
    (h : assertRevokedGrantTombstone value grantId = .ok tombstone) : tombstone.Valid grantId := by
  unfold assertRevokedGrantTombstone at h
  split at h
  · simp only [map_eq_ok, asPositiveSafe_eq_ok] at h
    obtain ⟨n, ⟨-, hn⟩, rfl⟩ := h
    exact hn
  · simp only [map_eq_ok, asPositiveSafe_eq_ok] at h
    obtain ⟨n, ⟨-, hn⟩, rfl⟩ := h
    exact hn
  · simp only [map_eq_ok] at h
    obtain ⟨t, ht, rfl⟩ := h
    exact assertLinkedGrantTombstone_valid ht

theorem assertRevokedGrantTombstone_toJs {grantId : String} {tombstone result : RevokedGrantTombstone} :
    assertRevokedGrantTombstone tombstone.toJs grantId = .ok result ↔ result = tombstone ∧ tombstone.Valid grantId := by
  cases tombstone with
  | legacy n =>
    simp only [RevokedGrantTombstone.toJs]
    rw [show assertRevokedGrantTombstone (.ofNat n) grantId = .legacy <$> (JsValue.ofNat n).asPositiveSafe invalidState
      from rfl]
    simp only [map_eq_ok, asPositiveSafe_eq_ok, JsValue.ofNat_inj, RevokedGrantTombstone.Valid]
    constructor
    · rintro ⟨_, ⟨rfl, hn⟩, rfl⟩; exact ⟨rfl, hn⟩
    · rintro ⟨rfl, hn⟩; exact ⟨n, ⟨rfl, hn⟩, rfl⟩
  | linked t =>
    simp only [RevokedGrantTombstone.toJs]
    rw [show assertRevokedGrantTombstone t.toJs grantId = .linked <$> assertLinkedGrantTombstone t.toJs grantId from rfl]
    simp only [map_eq_ok, assertLinkedGrantTombstone_toJs]
    constructor
    · rintro ⟨_, ⟨rfl, hv⟩, rfl⟩; exact ⟨rfl, hv⟩
    · rintro ⟨rfl, hv⟩; exact ⟨t, ⟨rfl, hv⟩, rfl⟩

/-! ## Tombstone maps -/

theorem mapM_encoded {α : Type} (encode : α → JsValue) (check : String × JsValue → Except String (String × α))
    (P : String × α → Prop) (h : ∀ e b, check (e.1, encode e.2) = .ok b ↔ b = e ∧ P e) (l r : List (String × α)) :
    (l.map fun e => (e.1, encode e.2)).mapM check = .ok r ↔ r = l ∧ ∀ e ∈ l, P e := by
  rw [mapM_eq_ok, List.forall₂_map_left_iff]
  simp only [h]
  induction l generalizing r with
  | nil => simp
  | cons e l ih =>
    cases r with
    | nil => simp
    | cons b r =>
      simp only [List.forall₂_cons, ih, List.cons.injEq, List.mem_cons, forall_eq_or_imp]
      tauto

theorem assertRevokedAccess_toJs {r result : Record Nat} :
    assertRevokedAccess (.object (r.entries.map fun e => (e.1, .ofNat e.2))) = .ok result ↔
      result = r ∧ ∀ e ∈ r.entries, isIdentifier e.1 = true ∧ PositiveSafe e.2 := by
  have h := mapM_encoded JsValue.ofNat
    (fun e => do
      require invalidState (isIdentifier e.1)
      let expiry ← e.2.asPositiveSafe invalidState
      return (e.1, expiry))
    (fun e => isIdentifier e.1 = true ∧ PositiveSafe e.2)
    (by rintro ⟨k, n⟩ b; simp; tauto) r.entries
  simp only [assertRevokedAccess, bind_eq_ok, asObject_eq_ok, JsValue.object.injEq, exists_eq_left', h, pure_eq_ok]
  constructor
  · rintro ⟨_, ⟨rfl, hv⟩, rfl⟩; exact ⟨r.ofList_entries, hv⟩
  · rintro ⟨rfl, hv⟩; exact ⟨_, ⟨rfl, hv⟩, result.ofList_entries⟩

theorem assertRevokedGrants_toJs {r result : Record RevokedGrantTombstone} :
    assertRevokedGrants (.object (r.entries.map fun e => (e.1, e.2.toJs))) = .ok result ↔
      result = r ∧ ∀ e ∈ r.entries, isIdentifier e.1 = true ∧ e.2.Valid e.1 := by
  have h := mapM_encoded RevokedGrantTombstone.toJs
    (fun e => do
      require invalidState (isIdentifier e.1)
      let tombstone ← assertRevokedGrantTombstone e.2 e.1
      return (e.1, tombstone))
    (fun e => isIdentifier e.1 = true ∧ e.2.Valid e.1)
    (by rintro ⟨k, t⟩ b; simp [assertRevokedGrantTombstone_toJs]; tauto) r.entries
  simp only [assertRevokedGrants, bind_eq_ok, asObject_eq_ok, JsValue.object.injEq, exists_eq_left', h, pure_eq_ok]
  constructor
  · rintro ⟨_, ⟨rfl, hv⟩, rfl⟩; exact ⟨r.ofList_entries, hv⟩
  · rintro ⟨rfl, hv⟩; exact ⟨_, ⟨rfl, hv⟩, result.ofList_entries⟩

theorem forall₂_right {α β : Type} {R : α → β → Prop} {l : List α} {r : List β} (h : List.Forall₂ R l r) :
    ∀ b ∈ r, ∃ a, R a b := by
  induction h with
  | nil => simp
  | cons hab _ ih => simpa using ⟨⟨_, hab⟩, ih⟩

theorem assertRevokedAccess_valid {value : JsValue} {r : Record Nat} (h : assertRevokedAccess value = .ok r) :
    ∀ e ∈ r.entries, isIdentifier e.1 = true ∧ PositiveSafe e.2 := by
  simp only [assertRevokedAccess, bind_eq_ok, pure_eq_ok, mapM_eq_ok] at h
  obtain ⟨fields, -, entries, hf, rfl⟩ := h
  intro e he
  obtain ⟨v, hv⟩ := forall₂_right hf e (Record.mem_entries_ofList he)
  simp only [require_eq_ok, asPositiveSafe_eq_ok] at hv
  obtain ⟨_, hid, n, ⟨-, hn⟩, rfl⟩ := hv
  exact ⟨hid, hn⟩

theorem assertRevokedGrants_valid {value : JsValue} {r : Record RevokedGrantTombstone}
    (h : assertRevokedGrants value = .ok r) : ∀ e ∈ r.entries, isIdentifier e.1 = true ∧ e.2.Valid e.1 := by
  simp only [assertRevokedGrants, bind_eq_ok, pure_eq_ok, mapM_eq_ok] at h
  obtain ⟨fields, -, entries, hf, rfl⟩ := h
  intro e he
  obtain ⟨v, hv⟩ := forall₂_right hf e (Record.mem_entries_ofList he)
  simp only [require_eq_ok] at hv
  obtain ⟨_, hid, t, ht, rfl⟩ := hv
  exact ⟨hid, assertRevokedGrantTombstone_valid ht⟩

/-! ## States -/

theorem leaseOk_iff {state : VnuRefreshControlState} : leaseOk state = true ↔
    ∀ lease, state.lease = some lease →
      state.active = some lease.pair ∧ lease.expiresAt ≤ lease.pair.grantExpiresAt := by
  unfold leaseOk
  cases state.lease <;> simp

theorem activeOk_iff {state : VnuRefreshControlState} : activeOk state = true ↔
    ∀ pair, state.active = some pair →
      state.revokedAccess.get? pair.accessTokenId = none ∧ state.revokedGrants.get? pair.grantId = none := by
  unfold activeOk
  cases state.active <;> simp

/-- Whatever is accepted is valid. -/
theorem parse_valid {value : JsValue} {state : VnuRefreshControlState}
    (h : parseVnuRefreshControlState value = .ok (some state)) : state.Valid := by
  unfold parseVnuRefreshControlState at h
  split at h
  · cases h
  simp only [bind_eq_ok, pure_eq_ok, require_eq_ok, leaseOk_iff, activeOk_iff, Option.some.injEq] at h
  obtain ⟨_, -, _, -, active, ha, lease, hl, access, hacc, grants, hgr, window, hw, activation, hact,
    _, hlease, _, hactive, rfl⟩ := h
  exact {
    active := fun pair hp => assertLinkedPair_valid (unlessUndefined_some ha hp)
    lease_expiry := fun l hp => (assertRefreshLease_valid (unlessUndefined_some hl hp)).2
    lease_active := fun l hp => (hlease l hp).1
    lease_le := fun l hp => (hlease l hp).2
    access := assertRevokedAccess_valid hacc
    grants := assertRevokedGrants_valid hgr
    window := assertWindow_valid attemptLimit_le hw
    activation := fun w hp => assertWindow_valid activationLimit_le (unlessUndefined_some hact hp)
    active_access := fun pair hp => (hactive pair hp).1
    active_grant := fun pair hp => (hactive pair hp).2 }

/-- A stored state has no property the parser does not know. -/
theorem VnuRefreshControlState.keys_allowed (state : VnuRefreshControlState) {fields : List (String × JsValue)}
    (h : state.toJs = .object fields) :
    (fields.map Prod.fst).all
      (fun key => key ∈ ["active", "lease", "revokedAccess", "revokedGrants", "window", "activationWindow"]) = true := by
  simp only [VnuRefreshControlState.toJs, JsValue.object.injEq] at h
  subst h
  simp only [List.all_eq_true, List.mem_map, List.mem_append, decide_eq_true_eq]
  rintro key ⟨e, (((he | he) | he) | he), rfl⟩
  · simp [fst_of_mem_optionalField he]
  · simp [fst_of_mem_optionalField he]
  · simp only [List.mem_cons, List.not_mem_nil, or_false] at he
    rcases he with rfl | rfl | rfl <;> simp
  · simp [fst_of_mem_optionalField he]

/-- Of the states the code writes exactly the valid ones are accepted, and
come back unchanged. -/
theorem parse_toJs {state : VnuRefreshControlState} {result : Option VnuRefreshControlState} :
    parseVnuRefreshControlState state.toJs = .ok result ↔ result = some state ∧ state.Valid := by
  have hactive := fun r => unlessUndefined_optional (o := state.active) (r := r) LinkedPair.toJs_ne_undefined
    (fun _ _ => assertLinkedPair_toJs)
  have hlease := fun r => unlessUndefined_optional (o := state.lease) (r := r) RefreshLease.toJs_ne_undefined
    (fun _ _ => assertRefreshLease_toJs)
  have hactivation := fun r => unlessUndefined_optional (o := state.activationWindow) (r := r)
    RefreshWindow.toJs_ne_undefined (fun _ _ => assertActivationWindow_toJs)
  have hkeys := state.keys_allowed rfl
  obtain ⟨active, lease, access, grants, window, activation⟩ := state
  simp only [VnuRefreshControlState.toJs]
  simp only [parseVnuRefreshControlState, bind_eq_ok, asObject_eq_ok, JsValue.object.injEq, exists_eq_left',
    require_eq_ok, hkeys]
  simp only [List.append_assoc, field_optionalField_append, List.cons_append, List.nil_append, field_cons,
    field_optionalField]
  simp [hactive, hlease, hactivation, assertRevokedAccess_toJs, assertRevokedGrants_toJs,
    assertWindow_toJs attemptLimit_le]
  simp only [leaseOk_iff, activeOk_iff]
  constructor
  · rintro ⟨ha, hl, hacc, hgr, hw, hact, hlease, hactive, rfl⟩
    exact ⟨rfl, {
      active := ha
      lease_expiry := fun l h => (hl l h).2
      lease_active := fun l h => (hlease l h).1
      lease_le := fun l h => (hlease l h).2
      access := fun e he => hacc e.1 e.2 he
      grants := fun e he => hgr e.1 e.2 he
      window := hw
      activation := hact
      active_access := fun p h => (hactive p h).1
      active_grant := fun p h => (hactive p h).2 }⟩
  · rintro ⟨rfl, hv⟩
    exact ⟨hv.active, fun l h => ⟨hv.active _ (hv.lease_active l h), hv.lease_expiry l h⟩,
      fun k n h => hv.access _ h, fun k t h => hv.grants _ h, hv.window, hv.activation,
      fun l h => ⟨hv.lease_active l h, hv.lease_le l h⟩,
      fun p h => ⟨hv.active_access p h, hv.active_grant p h⟩, rfl⟩

/-- What a transition reads from a slot: the state in it, unless it is invalid. -/
theorem parse_rawState {slot result : Option VnuRefreshControlState} :
    parseVnuRefreshControlState (rawState slot) = .ok result ↔ result = slot ∧ ∀ state, slot = some state → state.Valid := by
  cases slot with
  | none => simp [rawState, parseVnuRefreshControlState, eq_comm]
  | some state => simp [rawState, parse_toJs]

end Hyeboard.VnuRefresh
