import Hyeboard.VnuRefresh.Retention
/-!
# Logging out twice

Once `revokeLinkedPairByAccess` has answered revoked for a pair, the pair's two
tombstones hold it (`LoggedOut`): the grant's until the grant expires, the access
token's until that expires. No call moves either while identifiers are fresh, so
the same call answers revoked again, and expired once both have gone.
-/

namespace Hyeboard.VnuRefresh

/-- The last time value: `Date.now()` returns no later one. -/
def maxTimeValue : Nat := 8640000000000000

/-- The pair a call means to make active. -/
def Operation.introduces : Operation → Option LinkedPair
  | .activatePair pair => some pair
  | .completeRefresh _ next => some next
  | _ => none

/-- The pair was activated or rotated in. -/
def Introduced (trace : List Served) (pair : LinkedPair) : Prop :=
  ∃ e ∈ trace, e.call.operation.introduces = some pair ∧
    (e.result = .ok (.activatePair .activated) ∨ e.result = .ok (.completeRefresh .completed))

/-- What a run's calls promise: a pair to activate or to rotate in has two
identifiers of its own. -/
def FreshCall (trace : List Served) (call : Call) : Prop :=
  call.now ≤ maxTimeValue ∧ ∀ pair, call.operation.introduces = some pair → ∀ used, Introduced trace used →
    used.accessTokenId ≠ pair.accessTokenId ∧ used.grantId ≠ pair.grantId

abbrev FreshRun := Run serve Call.now (fun trace _ call => FreshCall trace call) Storage.empty

/-- Both tombstones hold the pair, each until it expires. -/
def LoggedOut (pair : LinkedPair) (slot : Option VnuRefreshControlState) (clock : Nat) : Prop :=
  clock < pair.grantExpiresAt →
    exactlyLinksGrantTombstone (slot.bind (·.revokedGrants.get? pair.grantId)) pair = true ∧
      (pair.accessExpiresAt ≤ clock ∨ slot.bind (·.revokedAccess.get? pair.accessTokenId) = some pair.accessExpiresAt)

/-- Whatever the record holds was introduced, and no two introduced pairs share
an identifier. -/
structure Known (trace : List Served) (slot : Option VnuRefreshControlState) : Prop where
  valid : SlotValid slot
  active : ∀ pair, slot.bind (·.active) = some pair → Introduced trace pair
  access : ∀ id expiresAt, slot.bind (·.revokedAccess.get? id) = some expiresAt →
    ∃ pair, Introduced trace pair ∧ pair.accessTokenId = id
  grants : ∀ id tombstone, slot.bind (·.revokedGrants.get? id) = some tombstone →
    ∃ pair, Introduced trace pair ∧ tombstonePair (id, tombstone) = some pair
  distinct : ∀ pair other, Introduced trace pair → Introduced trace other →
    pair.accessTokenId = other.accessTokenId ∨ pair.grantId = other.grantId → pair = other

section
variable {trace : List Served} {e : Served} {slot slot' : Option VnuRefreshControlState} {now clock : Nat}
  {operation : Operation} {result : OperationResult} {answer : Except String OperationResult}
  {next : VnuRefreshControlState} {pair : LinkedPair}

/-! ## Where identifiers come from -/

theorem Introduced.append (h : Introduced trace pair) : Introduced (trace ++ [e]) pair := by
  obtain ⟨held, hmem, h⟩ := h
  exact ⟨held, List.mem_append_left _ hmem, h⟩

theorem introduced_snoc (h : Introduced (trace ++ [e]) pair) :
    Introduced trace pair ∨ e.call.operation.introduces = some pair := by
  obtain ⟨held, hmem, h⟩ := h
  rcases List.mem_append.1 hmem with hmem | hmem
  · exact .inl ⟨held, hmem, h⟩
  · rw [List.mem_singleton.1 hmem] at h
    exact .inr h.1

/-- A new access tombstone is the active pair's, or of the proof that revoked
the principal. -/
theorem Stores.access_origin (h : Stores slot now operation result next) {id : String} {expiresAt : Nat}
    (hget : next.revokedAccess.get? id = some expiresAt) :
    (cleanVnuRefreshState slot now).revokedAccess.get? id = some expiresAt ∨
      (∃ current, (cleanVnuRefreshState slot now).active = some current ∧ current.accessTokenId = id ∧
        current.accessExpiresAt = expiresAt) ∨
      ∃ proof current, ProvesSuccessor (cleanVnuRefreshState slot now) proof current ∧ proof.accessTokenId = id ∧
        proof.accessExpiresAt = expiresAt := by
  have hrevoked : ∀ {held : Record Nat} {current : LinkedPair},
      (held.set current.accessTokenId current.accessExpiresAt).get? id = some expiresAt →
        held.get? id = some expiresAt ∨ current.accessTokenId = id ∧ current.accessExpiresAt = expiresAt := by
    intro held current hget
    rw [Record.get?_set] at hget
    split at hget
    · rename_i hid
      exact .inr ⟨hid.symm, Option.some.inj hget⟩
    · exact .inl hget
  have hactive : ∀ {current : LinkedPair}, (cleanVnuRefreshState slot now).active = some current →
      ((cleanVnuRefreshState slot now).revokedAccess.set current.accessTokenId current.accessExpiresAt).get? id = some expiresAt →
      (cleanVnuRefreshState slot now).revokedAccess.get? id = some expiresAt ∨
        (∃ current, (cleanVnuRefreshState slot now).active = some current ∧ current.accessTokenId = id ∧
          current.accessExpiresAt = expiresAt) ∨
        ∃ proof current, ProvesSuccessor (cleanVnuRefreshState slot now) proof current ∧ proof.accessTokenId = id ∧
          proof.accessExpiresAt = expiresAt := by
    intro current ha hget
    rcases hrevoked hget with hget | h
    · exact .inl hget
    · exact .inr (.inl ⟨current, ha, h⟩)
  cases h with
  | activate other _ _ =>
    rcases activated_cases (cleanVnuRefreshState slot now) other now with ⟨current, ha, -, heq⟩ | ⟨-, heq⟩
    · rw [heq] at hget
      exact hactive ha hget
    · rw [heq] at hget
      exact .inl hget
  | begin _ _ _ _ _ _ => exact .inl hget
  | complete old _ _ ha _ => exact hactive ha hget
  | release _ _ _ _ => exact .inl hget
  | abort _ _ ha _ => exact hactive ha hget
  | revoke _ _ _ ha => exact hactive ha hget
  | revokePrincipal proof current hlive ha hproof =>
    rcases hrevoked hget with hget | h
    · rw [Record.get?_set] at hget
      split at hget
      · rename_i hid
        rcases hproof with rfl | ⟨hproves, -⟩
        · exact .inr (.inl ⟨current, ha, hid.symm, Option.some.inj hget⟩)
        · exact .inr (.inr ⟨proof, current, hproves, hid.symm, Option.some.inj hget⟩)
      · exact .inl hget
    · exact .inr (.inl ⟨current, ha, h⟩)

/-! ## Fresh identifiers keep the record readable -/

theorem known_start : Known [] none := by
  constructor
  · intro state h
    cases h
  · intro pair h
    cases h
  · intro id expiresAt h
    cases h
  · intro id tombstone h
    cases h
  · rintro pair other ⟨e, hmem, -⟩
    cases hmem

/-- A fresh call collides with nothing the record holds. -/
theorem Known.keepsReadable (h : Known trace slot) {call : Call} (hfresh : FreshCall trace call) :
    call.operation.KeepsReadable slot call.now := by
  intro _
  constructor
  · intro _
    have hroom : maxTimeValue + vnuRefreshWindowMs ≤ maxSafeInteger := by decide
    have htime := hfresh.1
    omega
  · rintro ⟨pair, hop, -, hreuses⟩
    have hnew := hfresh.2 pair (by rw [hop]; rfl)
    rcases hreuses with ⟨expiresAt, hget, -⟩ | ⟨tombstone, hget, -⟩ | ⟨active, hactive, -, -, hsame⟩
    · obtain ⟨used, hused, hid⟩ := h.access _ _ hget
      exact (hnew used hused).1 hid
    · obtain ⟨used, hused, htomb⟩ := h.grants _ _ hget
      exact (hnew used hused).2 (expiry_of_tombstonePair htomb).2.symm
    · obtain ⟨haccess, hgrant⟩ := hnew active (h.active active hactive)
      rcases hsame with hsame | hsame
      · exact haccess hsame
      · exact hgrant hsame

theorem Known.distinct_snoc (h : Known trace slot) {s : Storage} {call : Call} (hfresh : FreshCall trace call) (pair other : LinkedPair)
    (hpair : Introduced (trace ++ [stepOf serve s call]) pair) (hother : Introduced (trace ++ [stepOf serve s call]) other)
    (hshared : pair.accessTokenId = other.accessTokenId ∨ pair.grantId = other.grantId) : pair = other := by
  rcases introduced_snoc hpair with hold | hnew <;> rcases introduced_snoc hother with hold' | hnew'
  · exact h.distinct pair other hold hold' hshared
  · obtain ⟨haccess, hgrant⟩ := hfresh.2 other hnew' pair hold
    rcases hshared with hsame | hsame
    · exact absurd hsame haccess
    · exact absurd hsame hgrant
  · obtain ⟨haccess, hgrant⟩ := hfresh.2 pair hnew other hold'
    rcases hshared with hsame | hsame
    · exact absurd hsame.symm haccess
    · exact absurd hsame.symm hgrant
  · exact Option.some.inj (hnew.symm.trans hnew')

/-- What one fresh call preserves. -/
theorem Known.serve {s : Storage} (h : Known trace s.state) {call : Call} (hfresh : FreshCall trace call) :
    Known (trace ++ [stepOf serve s call]) (serve s call).2.state := by
  have heffect := serve_effect s call
  have hlast : stepOf VnuRefresh.serve s call ∈ trace ++ [stepOf VnuRefresh.serve s call] :=
    List.mem_append_right _ (List.mem_singleton_self _)
  have hproof : ∀ {proof current : LinkedPair}, ProvesSuccessor (cleanVnuRefreshState s.state call.now) proof current →
      Introduced trace proof := by
    intro proof current hproves
    obtain ⟨used, hused, htomb⟩ := h.grants _ _ (clean_grant_eq_some.1 hproves).1
    rw [tombstonePair_successor, Option.some.injEq] at htomb
    exact htomb ▸ hused
  constructor
  · exact heffect.keeps_readable h.valid (h.keepsReadable hfresh)
  · intro pair hactive
    rcases heffect.active_origin hactive with hold | ⟨hop, hanswer⟩ | ⟨old, hop, hanswer⟩
    · exact (h.active pair hold).append
    · exact ⟨_, hlast, by rw [stepOf, hop]; rfl, .inl hanswer⟩
    · exact ⟨_, hlast, by rw [stepOf, hop]; rfl, .inr hanswer⟩
  · intro id expiresAt hget
    have hclean : (cleanVnuRefreshState s.state call.now).revokedAccess.get? id = some expiresAt →
        ∃ pair, Introduced (trace ++ [stepOf VnuRefresh.serve s call]) pair ∧ pair.accessTokenId = id := by
      intro hget
      obtain ⟨used, hused, hid⟩ := h.access id expiresAt (clean_access_eq_some.1 hget).1
      exact ⟨used, hused.append, hid⟩
    generalize (VnuRefresh.serve s call).2.state = slot' at heffect hget
    generalize (VnuRefresh.serve s call).1 = answer at heffect
    cases heffect with
    | threw _ _ =>
      obtain ⟨used, hused, hid⟩ := h.access id expiresAt hget
      exact ⟨used, hused.append, hid⟩
    | refused _ _ _ _ _ =>
      obtain ⟨used, hused, hid⟩ := h.access id expiresAt hget
      exact ⟨used, hused.append, hid⟩
    | stored _ _ _ _ _ hstores =>
      rcases hstores.access_origin hget with hget | ⟨current, hactive, hid, -⟩ | ⟨proof, current, hproves, hid, -⟩
      · exact hclean hget
      · exact ⟨current, (h.active current (clean_active_eq_some.1 hactive).1).append, hid⟩
      · exact ⟨proof, (hproof hproves).append, hid⟩
    | cleaned _ _ _ _ _ =>
      rcases cleanedSlot_cases s.state call.now with hc | ⟨hc, -⟩
      · rw [hc] at hget
        exact hclean hget
      · rw [hc] at hget
        cases hget
  · intro id tombstone hget
    have hclean : (cleanVnuRefreshState s.state call.now).revokedGrants.get? id = some tombstone →
        ∃ pair, Introduced (trace ++ [stepOf VnuRefresh.serve s call]) pair ∧ tombstonePair (id, tombstone) = some pair := by
      intro hget
      obtain ⟨used, hused, hid⟩ := h.grants id tombstone (clean_grant_eq_some.1 hget).1
      exact ⟨used, hused.append, hid⟩
    generalize (VnuRefresh.serve s call).2.state = slot' at heffect hget
    generalize (VnuRefresh.serve s call).1 = answer at heffect
    cases heffect with
    | threw _ _ =>
      obtain ⟨used, hused, hid⟩ := h.grants id tombstone hget
      exact ⟨used, hused.append, hid⟩
    | refused _ _ _ _ _ =>
      obtain ⟨used, hused, hid⟩ := h.grants id tombstone hget
      exact ⟨used, hused.append, hid⟩
    | stored _ _ _ _ _ hstores =>
      rcases hstores.mem_grants (Record.get?_eq_some.1 hget) with hentry | ⟨current, hactive, htomb⟩ | ⟨proof, current, hproves, htomb, -⟩
      · exact hclean (Record.get?_eq_some.2 hentry)
      · exact ⟨current, (h.active current (clean_active_eq_some.1 hactive).1).append, htomb⟩
      · exact ⟨proof, (hproof hproves).append, htomb⟩
    | cleaned _ _ _ _ _ =>
      rcases cleanedSlot_cases s.state call.now with hc | ⟨hc, -⟩
      · rw [hc] at hget
        exact hclean hget
      · rw [hc] at hget
        cases hget
  · exact h.distinct_snoc hfresh

/-- What a run of fresh calls preserves. -/
theorem FreshRun.known {storage : Storage} (h : FreshRun trace storage clock) : Known trace storage.state :=
  h.invariant (fun trace storage _ => Known trace storage.state) known_start fun _ _ _ _ _ hknown _ hfresh => hknown.serve hfresh

/-! ## Logged out stays logged out -/

theorem exactlyLinks_iff {tombstone : Option RevokedGrantTombstone} :
    exactlyLinksGrantTombstone tombstone pair = true ↔ ∃ successor, tombstone = some (.linked
      { linkedGrantTombstone pair with refreshSuccessor := successor }) := by
  match tombstone with
  | none => simp [exactlyLinksGrantTombstone]
  | some (.legacy expiresAt) => simp [exactlyLinksGrantTombstone]
  | some (.linked t) =>
    cases t
    simp [exactlyLinksGrantTombstone, linkedGrantTombstone, and_assoc]

/-- What is left of the two tombstones after cleaning. -/
theorem LoggedOut.clean (h : LoggedOut pair slot clock) (hle : clock ≤ now) (hlive : now < pair.grantExpiresAt) :
    exactlyLinksGrantTombstone ((cleanVnuRefreshState slot now).revokedGrants.get? pair.grantId) pair = true ∧
      (pair.accessExpiresAt ≤ now ∨
        (cleanVnuRefreshState slot now).revokedAccess.get? pair.accessTokenId = some pair.accessExpiresAt) := by
  obtain ⟨hlinks, haccess⟩ := h (Nat.lt_of_le_of_lt hle hlive)
  obtain ⟨successor, hgrant⟩ := exactlyLinks_iff.1 hlinks
  constructor
  · exact exactlyLinks_iff.2 ⟨successor, clean_grant_eq_some.2 ⟨hgrant, hlive⟩⟩
  · by_cases hexpired : pair.accessExpiresAt ≤ now
    · exact .inl hexpired
    · rcases haccess with haccess | haccess
      · exact absurd (Nat.le_trans haccess hle) hexpired
      · exact .inr (clean_access_eq_some.2 ⟨haccess, Nat.lt_of_not_le hexpired⟩)

/-- Both tombstones of the cleaned state are tombstones of the slot. -/
theorem loggedOut_of_clean (hlinks : exactlyLinksGrantTombstone ((cleanVnuRefreshState slot now).revokedGrants.get? pair.grantId) pair = true)
    (haccess : pair.accessExpiresAt ≤ now ∨
      (cleanVnuRefreshState slot now).revokedAccess.get? pair.accessTokenId = some pair.accessExpiresAt) :
    LoggedOut pair slot now := by
  intro _
  obtain ⟨successor, hgrant⟩ := exactlyLinks_iff.1 hlinks
  exact ⟨exactlyLinks_iff.2 ⟨successor, (clean_grant_eq_some.1 hgrant).1⟩,
    haccess.imp_right fun haccess => (clean_access_eq_some.1 haccess).1⟩

/-- A store writes the pair's own tombstone again, or none of its grant. -/
theorem Stores.keeps_link (h : Stores slot now operation result next) (hvalid : SlotValid slot)
    (hlinks : exactlyLinksGrantTombstone ((cleanVnuRefreshState slot now).revokedGrants.get? pair.grantId) pair = true) :
    exactlyLinksGrantTombstone (next.revokedGrants.get? pair.grantId) pair = true := by
  have hrevoked : ∀ {current : LinkedPair} {g : LinkedGrantTombstone}, (cleanVnuRefreshState slot now).active = some current →
      exactlyLinksGrantTombstone ((revokeExact (cleanVnuRefreshState slot now) current g).revokedGrants.get? pair.grantId) pair = true := by
    intro current g hactive
    obtain ⟨successor, hgrant⟩ := exactlyLinks_iff.1 hlinks
    rw [grantTombstoneExpiresAt_revokeExact (clean_active_grant hvalid hactive) hgrant]
    exact exactlyLinks_iff.2 ⟨successor, rfl⟩
  cases h with
  | activate other _ _ =>
    rcases activated_cases (cleanVnuRefreshState slot now) other now with ⟨current, hactive, -, heq⟩ | ⟨-, heq⟩
    · rw [heq]
      exact hrevoked hactive
    · rw [heq]
      exact hlinks
  | begin _ _ _ _ _ _ => exact hlinks
  | complete _ _ _ hactive _ => exact hrevoked hactive
  | release _ _ _ _ => exact hlinks
  | abort _ _ hactive _ => exact hrevoked hactive
  | revoke _ _ _ hactive => exact hrevoked hactive
  | revokePrincipal proof current _ hactive hproof =>
    have hfree := clean_active_grant hvalid hactive
    have hne : pair.grantId ≠ current.grantId := by
      intro heq
      rw [heq, hfree] at hlinks
      cases hlinks
    rw [get?_principalRevoked, if_neg hne]
    split
    · rename_i hid
      rcases hproof with rfl | ⟨hproves, -⟩
      · exact absurd hid hne
      · -- the proof that revoked the principal is the pair itself
        rw [hid, hproves] at hlinks
        exact hlinks
    · exact hlinks

theorem Stores.keeps_access (h : Stores slot now operation result next) (hvalid : SlotValid slot)
    (hsole : ∀ proof current, ProvesSuccessor (cleanVnuRefreshState slot now) proof current →
      proof.accessTokenId = pair.accessTokenId → proof = pair)
    (haccess : (cleanVnuRefreshState slot now).revokedAccess.get? pair.accessTokenId = some pair.accessExpiresAt) :
    next.revokedAccess.get? pair.accessTokenId = some pair.accessExpiresAt := by
  have hne : ∀ {current : LinkedPair}, (cleanVnuRefreshState slot now).active = some current →
      pair.accessTokenId ≠ current.accessTokenId := by
    intro current hactive heq
    rw [heq, clean_active_access hvalid hactive] at haccess
    cases haccess
  have hrevoked : ∀ {current : LinkedPair}, (cleanVnuRefreshState slot now).active = some current →
      ((cleanVnuRefreshState slot now).revokedAccess.set current.accessTokenId current.accessExpiresAt).get? pair.accessTokenId =
        some pair.accessExpiresAt := by
    intro current hactive
    rw [Record.get?_set_of_ne _ _ (hne hactive)]
    exact haccess
  cases h with
  | activate other _ _ =>
    rcases activated_cases (cleanVnuRefreshState slot now) other now with ⟨current, hactive, -, heq⟩ | ⟨-, heq⟩
    · rw [heq]
      exact hrevoked hactive
    · rw [heq]
      exact haccess
  | begin _ _ _ _ _ _ => exact haccess
  | complete _ _ _ hactive _ => exact hrevoked hactive
  | release _ _ _ _ => exact haccess
  | abort _ _ hactive _ => exact hrevoked hactive
  | revoke _ _ _ hactive => exact hrevoked hactive
  | revokePrincipal proof current _ hactive hproof =>
    change ((Record.set _ _ _).set current.accessTokenId current.accessExpiresAt).get? pair.accessTokenId = _
    rw [Record.get?_set_of_ne _ _ (hne hactive), Record.get?_set]
    split
    · rename_i hid
      rcases hproof with rfl | ⟨hproves, -⟩
      · exact absurd hid (hne hactive)
      · rw [hsole proof current hproves hid.symm]
    · exact haccess

/-- A pair with its tombstone was introduced, so no other introduced pair has its
access token. -/
theorem Known.sole (h : Known trace slot)
    (hlinks : exactlyLinksGrantTombstone ((cleanVnuRefreshState slot now).revokedGrants.get? pair.grantId) pair = true) :
    ∀ proof current, ProvesSuccessor (cleanVnuRefreshState slot now) proof current →
      proof.accessTokenId = pair.accessTokenId → proof = pair := by
  have hintroduced : ∀ {tombstone : RevokedGrantTombstone} {other : LinkedPair},
      (cleanVnuRefreshState slot now).revokedGrants.get? other.grantId = some tombstone →
      tombstonePair (other.grantId, tombstone) = some other → Introduced trace other := by
    intro tombstone other hget htomb
    obtain ⟨used, hused, hsame⟩ := h.grants _ _ (clean_grant_eq_some.1 hget).1
    rw [htomb, Option.some.injEq] at hsame
    exact hsame ▸ hused
  intro proof current hproves haccess
  obtain ⟨successor, hgrant⟩ := exactlyLinks_iff.1 hlinks
  exact h.distinct proof pair (hintroduced hproves rfl) (hintroduced hgrant rfl) (.inl haccess)

theorem Effect.keeps_loggedOut (h : Effect slot now operation answer slot') (hknown : Known trace slot) (hle : clock ≤ now)
    (hout : LoggedOut pair slot clock) : LoggedOut pair slot' now := by
  intro hlive
  obtain ⟨hlinks, haccess⟩ := hout.clean hle hlive
  have hvalid := hknown.valid
  have hsole := hknown.sole hlinks
  cases h with
  | threw _ _ => exact loggedOut_of_clean hlinks haccess hlive
  | refused _ _ _ _ _ => exact loggedOut_of_clean hlinks haccess hlive
  | stored _ _ _ _ _ hstores =>
    exact ⟨hstores.keeps_link hvalid hlinks, haccess.imp_right (hstores.keeps_access hvalid hsole)⟩
  | cleaned _ _ _ _ _ =>
    rcases cleanedSlot_cases slot now with hc | ⟨-, hquiescent⟩
    · rw [hc]
      exact ⟨hlinks, haccess⟩
    · rw [(isQuiescent_iff.1 hquiescent).2.2.2.1] at hlinks
      cases hlinks

/-- The first logout. -/
theorem Effect.logsOut (h : Effect slot now (.revokeLinkedPairByAccess pair) (.ok (.revoke .revoked)) slot') :
    LoggedOut pair slot' now := by
  cases h with
  | refused _ _ _ _ h =>
    rcases h with h | ⟨-, h⟩
    · simp only [Operation.shortcut, Option.ite_none_right_eq_some] at h
      cases h.2
    · simp only [Operation.verdict] at h
      split at h
      · rename_i hlinked
        exact loggedOut_of_clean hlinked.2 hlinked.1.symm
      · split at h <;> cases h
  | stored _ _ _ _ _ h =>
    cases h with
    | revoke _ _ _ _ =>
      intro _
      refine ⟨?_, .inr (Record.get?_set_self _ _ _)⟩
      exact exactlyLinks_iff.2 ⟨none, Record.get?_set_self _ _ _⟩
  | cleaned _ _ _ h _ => exact h.elim

theorem Effect.argumentsValid (h : Effect slot now operation (.ok result) slot') : operation.ArgumentsValid := by
  cases h with
  | refused _ _ hargs _ _ => exact hargs
  | stored _ _ _ hargs _ _ => exact hargs
  | cleaned _ _ hargs _ _ => exact hargs

/-! ## The later calls -/

/-- A refused call leaves storage as it is. -/
theorem serve_of_refuses {s : Storage} {call : Call} (hvalid : SlotValid s.state) (hargs : call.operation.ArgumentsValid)
    (hrot : call.operation.RotationOk s.state) (hserved : s.served call.operation = s)
    (h : call.operation.Refuses s.state call.now result) : serve s call = (.ok result, s) := by
  have hmutate : mutate (s.served call.operation) (applyOperation call.operation) call.now = .ok (result, s) := by
    rw [hserved, mutate_eq_ok]
    refine ⟨hvalid, _, applyOperation_eq_ok.2 ⟨hargs, hrot, rfl⟩, ?_⟩
    rw [h.output_eq]
    exact ⟨rfl, rfl⟩
  rw [serve, handle_eq_ok.2 hmutate]

theorem LoggedOut.refuses (h : LoggedOut pair slot clock) (hle : clock ≤ now) (hlive : now < pair.grantExpiresAt) :
    (Operation.revokeLinkedPairByAccess pair).Refuses slot now (.revoke .revoked) := by
  obtain ⟨hlinks, haccess⟩ := h.clean hle hlive
  right
  constructor
  · exact if_neg fun hexpired => Nat.not_le.2 hlive hexpired.2
  · exact if_pos ⟨haccess.symm, hlinks⟩

end

/-- After a logout has been answered revoked, every later one is answered
revoked until the grant expires, and expired once both halves have. None of
them changes storage. -/
theorem logout_idempotent {trace before between after : List Served} {storage : Storage} {clock : Nat} {pair : LinkedPair}
    {e later : Served} (h : FreshRun trace storage clock) (htrace : trace = before ++ e :: between ++ later :: after)
    (hlogout : e.call.operation = .revokeLinkedPairByAccess pair) (hrevoked : e.result = .ok (.revoke .revoked))
    (hlater : later.call.operation = .revokeLinkedPairByAccess pair) :
    (later.call.now < pair.grantExpiresAt → later.result = .ok (.revoke .revoked) ∧ later.after = later.before) ∧
      (pair.accessExpiresAt ≤ later.call.now → pair.grantExpiresAt ≤ later.call.now →
        later.result = .ok (.revoke .expired) ∧ later.after = later.before) := by
  obtain ⟨s, call, clk, hrun, hle, -, rfl⟩ := h.cut htrace
  have hvalid := (FreshRun.known hrun).valid
  change call.operation = .revokeLinkedPairByAccess pair at hlater
  have hserved : s.served call.operation = s := by rw [hlater]; rfl
  have hrot : call.operation.RotationOk s.state := by rw [hlater]; trivial
  have hargs : call.operation.ArgumentsValid := by
    obtain ⟨t, first, _, _, _, _, rfl⟩ := hrun.cut rfl
    have heffect := serve_effect t first
    rw [show (serve t first).1 = .ok (.revoke .revoked) from hrevoked] at heffect
    have hargs := heffect.argumentsValid
    rwa [show first.operation = call.operation from hlogout.trans hlater.symm] at hargs
  -- the first logout leaves both tombstones, and every call after it keeps them
  have hout : LoggedOut pair s.state clk := by
    refine hrun.lasting (fun _ e => e.call.operation = .revokeLinkedPairByAccess pair ∧ e.result = .ok (.revoke .revoked))
      (fun s clk => LoggedOut pair s.state clk) ?_ ?_ rfl ⟨hlogout, hrevoked⟩
    · rintro _ t _ c _ _ _ ⟨hop, hres⟩
      have heffect := serve_effect t c
      rw [show c.operation = .revokeLinkedPairByAccess pair from hop, show (serve t c).1 = .ok (.revoke .revoked) from hres] at heffect
      exact heffect.logsOut
    · intro _ t _ c hpre hle _ hout
      exact (serve_effect t c).keeps_loggedOut (FreshRun.known hpre) hle hout
  constructor
  · intro hlive
    have hrefuses := hout.refuses hle hlive
    rw [← hlater] at hrefuses
    have hserve := serve_of_refuses hvalid hargs hrot hserved hrefuses
    simp only [stepOf, hserve, and_self]
  · intro haccess hgrant
    have hrefuses : call.operation.Refuses s.state call.now (.revoke .expired) := by
      rw [hlater]
      exact .inl (if_pos ⟨haccess, hgrant⟩)
    have hserve := serve_of_refuses hvalid hargs hrot hserved hrefuses
    simp only [stepOf, hserve, and_self]

/-- A logout is repeated after the next login. -/
def logoutCalls : List Call :=
  [⟨.activatePair oldPair, testNow⟩, ⟨.revokeLinkedPairByAccess oldPair, testNow + 1⟩,
    ⟨.activatePair nextPair, testNow + 2⟩, ⟨.revokeLinkedPairByAccess oldPair, testNow + 3⟩]

theorem logout_idempotent_repeated :
    (executed logoutCalls)[3].result = .ok (.revoke .revoked) ∧
      (executed logoutCalls)[3].after = (executed logoutCalls)[3].before := by
  have hnothing : ∀ (trace : List Served) (call : Call), call.now ≤ maxTimeValue → call.operation.introduces = none →
      FreshCall trace call := by
    intro trace call htime hnone
    refine ⟨htime, fun pair h => ?_⟩
    rw [hnone] at h
    cases h
  have hstart : FreshRun [] Storage.empty 0 := .start
  have hfirst := hstart.call logoutCalls[0] (by decide) ⟨by decide, by rintro pair - used ⟨e, hmem, -⟩; cases hmem⟩
  have hsecond := hfirst.call logoutCalls[1] (by decide) (hnothing _ _ (by decide) rfl)
  have hthird := hsecond.call logoutCalls[2] (by decide) <| by
    refine ⟨by decide, ?_⟩
    rintro pair hpair used ⟨e, hmem, hop, -⟩
    cases hpair
    simp only [List.nil_append, List.cons_append, List.mem_cons, List.not_mem_nil, or_false] at hmem
    rcases hmem with rfl | rfl
    · cases hop
      decide
    · cases hop
  have hlast := hthird.call logoutCalls[3] (by decide) (hnothing _ _ (by decide) rfl)
  have htrace : executed logoutCalls = [(executed logoutCalls)[0]] ++ (executed logoutCalls)[1] :: [(executed logoutCalls)[2]] ++
      (executed logoutCalls)[3] :: [] := rfl
  exact (logout_idempotent hlast htrace rfl (by decide +kernel) rfl).1 (by decide)

end Hyeboard.VnuRefresh
