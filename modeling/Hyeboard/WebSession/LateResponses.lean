import Hyeboard.WebSession.Accounts
import Hyeboard.WebSession.SingleFlight
/-!
# Late responses

What a response to a request may change is the stored account that sent it. The
guards of `request` compare the account it started with, by id and token, with
the stored one. The replay after a refresh starts with whatever account is
active by then, so it is confined to the account it was sent for only if that is
still active with the token the replay sends.
-/

namespace Hyeboard.WebSession

/-- Nothing but the account `id` changed, and that only if its stored token is the one that was sent. -/
structure Confined (id : String) (sent : Option String) (before after : ClientStorage) : Prop where
  accounts : after.accounts.filter (·.id ≠ id) = before.accounts.filter (·.id ≠ id)
  grants : ∀ other, other ≠ id → after.grants other = before.grants other
  active : after.activeAccountId = before.activeAccountId ∨
    before.activeAccountId = some id ∧ after.getAccountById id = none
  token : after = before ∨ ∃ account ∈ before.accounts, account.id = id ∧ some account.token = sent

theorem Confined.refl (id : String) (sent : Option String) (s : ClientStorage) : Confined id sent s s :=
  ⟨rfl, fun _ _ => rfl, .inl rfl, .inl rfl⟩

/-! ## The storage -/

section
variable {found : StoredAccount → Bool} {f : StoredAccount → StoredAccount} {id : String}

theorem filter_updateFirst (accounts : List StoredAccount) (hfound : ∀ account, found account = true → account.id = id)
    (hid : ∀ account, (f account).id = account.id) :
    (updateFirst found f accounts).filter (·.id ≠ id) = accounts.filter (·.id ≠ id) := by
  induction accounts with
  | nil => rfl
  | cons account rest ih =>
    rw [updateFirst]
    split
    case isTrue h =>
      have hsame := hfound account h
      simp [hid, hsame]
    case isFalse h => rw [List.filter_cons, List.filter_cons, ih]

end

namespace ClientStorage

variable (s : ClientStorage)

theorem findUnchangedStoredAccount_eq {origin account : StoredAccount}
    (h : s.findUnchangedStoredAccount origin = some account) :
    account ∈ s.accounts ∧ account.id = origin.id ∧ account.token = origin.token := by
  refine ⟨List.mem_of_find?_eq_some h, ?_⟩
  have hsame := List.find?_some h
  simpa using hsame

/-- What `removeAccount` leaves of a storage whose grant of the account is gone or not. -/
theorem removeAccount_confined {grants : String → Option String} {account : StoredAccount} (hmem : account ∈ s.accounts)
    (hgrants : ∀ other, other ≠ account.id → grants other = s.grants other) :
    Confined account.id (some account.token) s ({ s with grants }.removeAccount account.id) := by
  have hgone : ((s.accounts.filter (·.id ≠ account.id)).find? (·.id = account.id)) = none := by
    rw [List.find?_eq_none]
    intro other hother
    simpa using (List.mem_filter.1 hother).2
  have htoken : ∃ stored ∈ s.accounts, stored.id = account.id ∧ some stored.token = some account.token :=
    ⟨account, hmem, rfl, rfl⟩
  unfold removeAccount
  split
  case isTrue hactive =>
    exact ⟨by simp [List.filter_filter], hgrants, .inr ⟨hactive, hgone⟩, .inr htoken⟩
  case isFalse => exact ⟨by simp [List.filter_filter], hgrants, .inl rfl, .inr htoken⟩

theorem clearVnuRefreshGrant_other {id other : String} (hne : other ≠ id) :
    (s.clearVnuRefreshGrant id).grants other = s.grants other := Function.update_of_ne hne _ _

theorem removeUnchangedOrigin_confined (origin : StoredAccount) :
    Confined origin.id (some origin.token) s (s.removeUnchangedOrigin origin) := by
  unfold removeUnchangedOrigin
  split
  · exact .refl _ _ s
  case isFalse h =>
    simp only [Bool.or_eq_true, Option.isNone_iff_eq_none, not_or] at h
    obtain ⟨account, hfound⟩ := Option.ne_none_iff_exists'.1 h.2
    obtain ⟨hmem, hid, htoken⟩ := s.findUnchangedStoredAccount_eq hfound
    rw [← hid, ← htoken]
    exact s.removeAccount_confined hmem fun other hne => s.clearVnuRefreshGrant_other hne

theorem removeDeadOriginatingAccount_confined (origin : StoredAccount) :
    Confined origin.id (some origin.token) s (s.removeDeadOriginatingAccount origin) := by
  unfold removeDeadOriginatingAccount
  split
  · exact .refl _ _ s
  case h_2 account hfound =>
    obtain ⟨hmem, hid, htoken⟩ := s.findUnchangedStoredAccount_eq hfound
    rw [← hid, ← htoken]
    split
    · exact s.removeAccount_confined hmem fun other hne => s.clearVnuRefreshGrant_other hne
    · exact s.removeAccount_confined hmem fun _ _ => rfl

theorem setOriginatingSessionToken_confined {origin : StoredAccount} (token : String) :
    Confined origin.id (some origin.token) s (s.setOriginatingSessionToken (some origin) token).2 := by
  unfold setOriginatingSessionToken
  split
  · exact .refl _ _ s
  case h_2 current hfound =>
    obtain ⟨hmem, hid, htoken⟩ := s.findUnchangedStoredAccount_eq hfound
    split
    · exact .refl _ _ s
    · split
      · exact .refl _ _ s
      · refine ⟨?_, fun _ _ => rfl, .inl rfl, .inr ⟨current, hmem, hid, congrArg some htoken⟩⟩
        refine filter_updateFirst s.accounts (fun account h => ?_) fun _ => rfl
        exact (of_decide_eq_true h).trans hid

theorem restoreGrant_grants {id : String} (previousGrant : Option String) {other : String} (hne : other ≠ id) :
    (s.restoreGrant id previousGrant).grants other = s.grants other := by
  unfold restoreGrant
  repeat' split
  all_goals simp [storeVnuRefreshGrant, clearVnuRefreshGrant, hne]

theorem restoreGrant_rest (id : String) (previousGrant : Option String) :
    (s.restoreGrant id previousGrant).accounts = s.accounts ∧
      (s.restoreGrant id previousGrant).activeAccountId = s.activeAccountId := by
  unfold restoreGrant
  repeat' split
  all_goals exact ⟨rfl, rfl⟩

theorem commitVnuRefresh_confined (origin : StoredAccount) (result : AuthResult) :
    Confined origin.id (some origin.token) s (s.commitVnuRefresh origin result).2 := by
  unfold commitVnuRefresh
  split
  · exact .refl _ _ s
  case h_2 grant hgrant =>
    simp only
    split
    · exact .refl _ _ s
    case isFalse h =>
      simp only [Bool.or_eq_true, Bool.not_eq_true', Bool.not_eq_false, not_or, List.any_eq_true, decide_eq_true_eq] at h
      obtain ⟨⟨account, hmem, hid, htoken⟩, -⟩ := h
      have hstored : ∃ stored ∈ s.accounts, stored.id = origin.id ∧ some stored.token = some origin.token :=
        ⟨account, hmem, hid, congrArg some htoken⟩
      have hstore : ∀ other, other ≠ origin.id → (s.storeVnuRefreshGrant origin.id grant).grants other = s.grants other :=
        fun other hne => Function.update_of_ne hne _ _
      split
      · obtain ⟨haccounts, hactive⟩ := s.restoreGrant_rest origin.id (s.grants origin.id)
        exact ⟨congrArg _ haccounts, fun other hne => s.restoreGrant_grants _ hne, .inl hactive, .inr hstored⟩
      · split
        · obtain ⟨haccounts, hactive⟩ := (s.storeVnuRefreshGrant origin.id grant).restoreGrant_rest origin.id (s.grants origin.id)
          refine ⟨congrArg _ haccounts, fun other hne => ?_, .inl hactive, .inr hstored⟩
          exact (restoreGrant_grants _ _ hne).trans (hstore other hne)
        · refine ⟨?_, hstore, .inl rfl, .inr hstored⟩
          exact filter_updateFirst s.accounts (fun account h => (of_decide_eq_true h).1) fun _ => rfl

end ClientStorage

/-! ## The shared refreshes -/

namespace VnuRefreshDeps

section
variable {S : Type} {deps : VnuRefreshDeps S} {t : Refreshes S}

theorem deregister_world (account : StoredAccount) (flight : Nat) :
    (VnuRefreshDeps.deregister t account flight).world = t.world := by
  unfold VnuRefreshDeps.deregister
  split <;> rfl

theorem releaseWaiter_world (flight waiter : Nat) : (deps.releaseWaiter t flight waiter).2.world = t.world := by
  unfold VnuRefreshDeps.releaseWaiter
  split
  · rfl
  · split
    · simp only
      split
      · exact deregister_world _ _
      · rfl
    · rfl

theorem joinFlight_world (flight : Nat) (signal : Option (Option (Option String))) :
    (deps.joinFlight t flight signal).2.world = t.world := by
  unfold VnuRefreshDeps.joinFlight
  cases signal with
  | none => rfl
  | some reason =>
    cases reason with
    | none => rfl
    | some reason => exact releaseWaiter_world _ _

theorem runVnuRefresh_world (account : StoredAccount) (signal : Option (Option (Option String))) :
    (deps.runVnuRefresh t account signal).2.world = t.world ∨
      (deps.runVnuRefresh t account signal).2.world = deps.terminal t.world account := by
  unfold VnuRefreshDeps.runVnuRefresh
  split
  · simp only
    split
    · exact .inr rfl
    · exact .inl rfl
  · split
    · exact .inl (joinFlight_world _ _)
    · exact .inl (joinFlight_world _ _)

theorem abort_world (waiter : Nat) (reason : Option String) : (deps.abort t waiter reason).2.world = t.world := by
  unfold VnuRefreshDeps.abort
  split
  · exact releaseWaiter_world _ _
  · rfl

/-- Only the handlers of a flight commit or clear the account it is for. -/
theorem react_world {flight : Nat} {f : Flight} (hf : t.all[flight]? = some f) :
    (deps.react t flight).2.world = t.world ∨ (∃ auth, (deps.react t flight).2.world = (deps.commit t.world f.account auth).2) ∨
      (deps.react t flight).2.world = deps.terminal t.world f.account := by
  simp only [VnuRefreshDeps.react, hf]
  split
  case h_1 auth _ =>
    unfold VnuRefreshDeps.onFulfilled
    split
    · split
      · exact .inl rfl
      · split
        all_goals
          rename_i hcommit
          exact .inr (.inl ⟨auth, by rw [hcommit]; rfl⟩)
    · exact .inl rfl
  case h_2 =>
    unfold VnuRefreshDeps.onRejected
    split
    · split
      · exact .inr (.inr rfl)
      · exact .inl rfl
    · exact .inl rfl
  case h_3 => exact .inl (deregister_world _ _)
  all_goals exact .inl rfl

/-- A waiter stays with its flight, a flight with its account. -/
structure Carries (t t' : Refreshes S) : Prop where
  waiters : ∀ (waiter : Nat) (w : Waiter), t.waiters[waiter]? = some w → ∃ w' : Waiter, t'.waiters[waiter]? = some w' ∧ w'.flight = w.flight
  all : ∀ (flight : Nat) (f : Flight), t.all[flight]? = some f → ∃ f' : Flight, t'.all[flight]? = some f' ∧ f'.account = f.account

theorem carries_setWorld (world : S) : Carries t { t with world } :=
  ⟨fun _ w hw => ⟨w, hw, rfl⟩, fun _ f hf => ⟨f, hf, rfl⟩⟩

theorem carries_step (h : Consistent t) (turn : RefreshTurn S) : Carries t (deps.step t turn).2 := by
  refine ⟨fun waiter w hw => ⟨_, waiterKept_step turn waiter w hw, rfl⟩, fun flight f hf => ?_⟩
  obtain ⟨f', hf', hevolves⟩ := follows_step deps h hf turn f hf
  exact ⟨f', hf', hevolves.account⟩

/-- The waiter waits for a refresh of the account, by id and token, if it waits at all. -/
def WaitsFor (t : Refreshes S) (waiter : Nat) (account : StoredAccount) : Prop :=
  ∃ w : Waiter, t.waiters[waiter]? = some w ∧
    ∀ flight, w.flight = some flight → ∃ f : Flight, t.all[flight]? = some f ∧ flightKey f.account = flightKey account

theorem WaitsFor.carry {t' : Refreshes S} {waiter : Nat} {account : StoredAccount} (h : WaitsFor t waiter account)
    (hcarries : Carries t t') : WaitsFor t' waiter account := by
  obtain ⟨w, hw, hflight⟩ := h
  obtain ⟨w', hw', hsame⟩ := hcarries.waiters waiter w hw
  refine ⟨w', hw', fun flight heq => ?_⟩
  obtain ⟨f, hf, hkey⟩ := hflight flight (hsame ▸ heq)
  obtain ⟨f', hf', haccount⟩ := hcarries.all flight f hf
  exact ⟨f', hf', haccount ▸ hkey⟩

theorem joinFlight_waitsFor {flight : Nat} {f : Flight} {account : StoredAccount} (hf : t.all[flight]? = some f)
    (hkey : flightKey f.account = flightKey account) (signal : Option (Option (Option String))) :
    WaitsFor (deps.joinFlight t flight signal).2 t.waiters.length account := by
  refine ⟨_, joinFlight_called signal, fun joined heq => ?_⟩
  obtain rfl := Option.some.inj heq
  have hfollows : Follows True flight t (deps.joinFlight t flight signal).2 := follows_joinFlight fun _ => trivial
  obtain ⟨f', hf', hevolves⟩ := hfollows f hf
  exact ⟨f', hf', hevolves.account ▸ hkey⟩

theorem runVnuRefresh_waitsFor (h : Consistent t) (account : StoredAccount) (signal : Option (Option (Option String))) :
    WaitsFor (deps.runVnuRefresh t account signal).2 t.waiters.length account := by
  unfold VnuRefreshDeps.runVnuRefresh
  split
  case h_1 =>
    simp only
    split <;> exact ⟨_, List.getElem?_concat_length, fun flight heq => by cases heq⟩
  case h_2 grant _ =>
    split
    case h_1 flight hregistered =>
      obtain ⟨f, hf, hkey, -⟩ := h.registered _ flight hregistered
      exact joinFlight_waitsFor hf hkey signal
    case h_2 =>
      have hcreated : (VnuRefreshDeps.createFlight t account grant).2.all[t.all.length]? =
          some { account, grant, waiters := [], aborted := false, phase := .fetching } := List.getElem?_concat_length
      exact joinFlight_waitsFor hcreated rfl signal

end

end VnuRefreshDeps

/-! ## Requests -/

/-- What holds of every request: what it compares with is the account it started with. -/
structure Tracks (t : Refreshes ClientStorage) (r : Request) : Prop where
  origin : ∀ account origin, r.account = some account → r.originatingAccount = some origin →
    origin.id = account.id ∧ r.failedToken = some origin.token
  waiting : ∀ waiter policy error, r.phase = .refreshing waiter policy error → ∃ account, r.account = some account ∧
    r.failedToken = some account.token ∧ VnuRefreshDeps.WaitsFor t waiter account

theorem Tracks.carry {t t' : Refreshes ClientStorage} {r : Request} (h : Tracks t r)
    (hcarries : VnuRefreshDeps.Carries t t') : Tracks t' r := by
  refine ⟨h.origin, fun waiter policy error hphase => ?_⟩
  obtain ⟨account, haccount, hsent, hwaits⟩ := h.waiting waiter policy error hphase
  exact ⟨account, haccount, hsent, hwaits.carry hcarries⟩

namespace Client

variable {s : Client}

structure Kept (s : Client) : Prop where
  consistent : VnuRefreshDeps.Consistent s.refreshes
  requests : ∀ r ∈ s.requests, Tracks s.refreshes r
  /-- Only the first send of a request recovers a session. -/
  first : ∀ r ∈ s.requests, r.noRefresh = false → r.originatingAccount = r.account

/-- The request `i` becomes `r`, and the refreshes go on. -/
theorem Kept.update (h : s.Kept) {t : Refreshes ClientStorage} (hconsistent : VnuRefreshDeps.Consistent t)
    (hcarries : VnuRefreshDeps.Carries s.refreshes t) (i : Nat) {r : Request} (hr : Tracks t r)
    (hfirst : r.noRefresh = false → r.originatingAccount = r.account) : ({ s with refreshes := t }.setRequest i r).Kept := by
  refine ⟨hconsistent, fun other hmem => ?_, fun other hmem => ?_⟩
  · rcases List.mem_or_eq_of_mem_set hmem with hmem | rfl
    · exact (h.requests other hmem).carry hcarries
    · exact hr
  · rcases List.mem_or_eq_of_mem_set hmem with hmem | rfl
    · exact h.first other hmem
    · exact hfirst

theorem Kept.refreshes (h : s.Kept) {t : Refreshes ClientStorage} (hconsistent : VnuRefreshDeps.Consistent t)
    (hcarries : VnuRefreshDeps.Carries s.refreshes t) : Kept { s with refreshes := t } :=
  ⟨hconsistent, fun r hmem => (h.requests r hmem).carry hcarries, h.first⟩

theorem Kept.refresh (h : s.Kept) (turn : RefreshTurn ClientStorage) : (s.refresh turn).2.Kept :=
  h.refreshes (h.consistent.step turn) (VnuRefreshDeps.carries_step h.consistent turn)

theorem Kept.setStorage (h : s.Kept) (storage : ClientStorage) : (s.setStorage storage).Kept :=
  h.refreshes (h.consistent.setWorld storage) (VnuRefreshDeps.carries_setWorld storage)

/-- A request ends. -/
theorem Kept.finish (h : s.Kept) {i : Nat} {r : Request} (hr : r ∈ s.requests) (result : Except Thrown Unit) :
    (s.finish i r result).Kept := by
  refine h.update h.consistent (VnuRefreshDeps.carries_setWorld s.refreshes.world) i ⟨(h.requests r hr).origin, ?_⟩ (h.first r hr)
  intro waiter policy error hphase
  cases hphase

theorem Kept.finishWith (h : s.Kept) {i : Nat} {r : Request} (hr : r ∈ s.requests) (storage : ClientStorage)
    (result : Except Thrown Unit) : ((s.setStorage storage).finish i r result).Kept :=
  (h.setStorage storage).finish hr result

theorem Kept.recover (h : s.Kept) {i : Nat} {r : Request} (hr : r ∈ s.requests) {origin : StoredAccount}
    (horigin : r.originatingAccount = some origin) (code : Option String) : (s.recover i r origin code).2.Kept := by
  unfold Client.recover
  split
  · exact h.finish hr _
  · simp only
    split
    · exact h.finish hr _
    case isFalse hpolicy =>
      split
      · exact h.finish hr _
      · split
        · exact h.finishWith hr _ _
        · simp only [Bool.or_eq_true, decide_eq_true_eq, not_or, Bool.not_eq_true] at hpolicy
          have haccount : r.account = some origin := (h.first r hr hpolicy.1).symm.trans horigin
          refine h.update (h.consistent.runVnuRefresh origin r.signal)
            (VnuRefreshDeps.carries_step h.consistent (.call origin r.signal)) i ?_ (h.first r hr)
          refine ⟨(h.requests r hr).origin, fun waiter policy error hphase => ?_⟩
          obtain rfl : s.refreshes.waiters.length = waiter := by cases hphase; rfl
          exact ⟨origin, haccount, ((h.requests r hr).origin origin origin haccount horigin).2,
            VnuRefreshDeps.runVnuRefresh_waitsFor h.consistent origin r.signal⟩

theorem Kept.reply (h : s.Kept) (i : Nat) (answer : Reply) (reauth : Bool) : (s.reply i answer reauth).2.Kept := by
  unfold Client.reply
  split
  · exact h
  case h_2 r hget =>
    have hr := List.mem_of_getElem? hget
    split
    · exact h
    · exact h
    · split
      · split
        · exact h.finish hr _
        · exact h.finishWith hr _ _
      · exact h.finish hr _
      · unfold Client.refused
        split
        case h_1 origin horigin => exact h.recover hr (Option.filter_eq_some_iff.1 horigin).1 _
        case h_2 => exact h.finishWith hr _ _

theorem Kept.abort (h : s.Kept) (i : Nat) (reason : Option String) : (s.abort i reason).2.Kept := by
  unfold Client.abort
  split
  · exact h
  case h_2 r hget =>
    have hr := List.mem_of_getElem? hget
    split
    · have hset := h.update h.consistent (VnuRefreshDeps.carries_setWorld s.refreshes.world) i
        (Tracks.mk (r := { r with signal := some (some reason) }) (h.requests r hr).origin (h.requests r hr).waiting) (h.first r hr)
      simp only
      split
      · exact hset.refresh (.abort _ reason)
      · exact hset
      · exact hset
    · exact h

/-- The request goes on to its replay, which sends `token`. -/
structure Replays (s : Client) (i : Nat) (r : Request) (token : String) : Prop where
  found : s.requests[i]? = some r
  refreshed : ∃ waiter policy error auth, r.phase = .refreshing waiter policy error ∧ policy ≠ .refreshNoReplay ∧
    (s.refreshes.waiters[waiter]?).bind (·.result) = some (.ok (.committed auth)) ∧ auth.token = token
  unaborted : ∀ reason, r.signal ≠ some (some reason)

theorem resume_cases (i : Nat) : s.resume i = s ∨
    (∃ r result, s.requests[i]? = some r ∧ s.resume i = s.finish i r result) ∨
      ∃ r token, Replays s i r token ∧ s.resume i = s.replay i r token := by
  unfold Client.resume
  split
  · exact .inl rfl
  case h_2 r hget =>
    split
    · exact .inl rfl
    · exact .inl rfl
    case h_3 waiter policy error hphase =>
      split
      · exact .inl rfl
      · exact .inr (.inl ⟨r, _, hget, rfl⟩)
      · exact .inr (.inl ⟨r, _, hget, rfl⟩)
      case h_4 auth hresult =>
        split
        · exact .inr (.inl ⟨r, _, hget, rfl⟩)
        case h_2 hsignal =>
          split
          · exact .inr (.inl ⟨r, _, hget, rfl⟩)
          case isFalse hpolicy =>
            exact .inr (.inr ⟨r, auth.token, ⟨hget, ⟨waiter, policy, error, auth, hphase, hpolicy, hresult, rfl⟩, hsignal⟩, rfl⟩)

/-- Where a request starts its replay, the account it started with is active with the token
the replay sends, or no account is. -/
def ReplayUnchanged (s : Client) (turn : ClientTurn) : Prop :=
  ∀ i r token, turn = .resume i → Replays s i r token → ∀ account active, r.account = some account →
    s.storage.getActiveAccount = some active → active.id = account.id ∧ active.token = token

theorem Kept.resume (h : s.Kept) {i : Nat} (hreplay : s.ReplayUnchanged (.resume i)) : (s.resume i).Kept := by
  rcases s.resume_cases i with heq | ⟨r, result, hget, heq⟩ | ⟨r, token, hreplays, heq⟩
  · rw [heq]
    exact h
  · rw [heq]
    exact h.finish (List.mem_of_getElem? hget) result
  · rw [heq]
    refine h.update h.consistent (VnuRefreshDeps.carries_setWorld s.refreshes.world) i ⟨?_, ?_⟩ (fun hfirst => by cases hfirst)
    · intro account origin haccount horigin
      obtain ⟨hid, htoken⟩ := hreplay i r token rfl hreplays account origin haccount horigin
      exact ⟨hid, congrArg some htoken.symm⟩
    · intro waiter policy error hphase
      cases hphase

theorem Kept.step (h : s.Kept) {turn : ClientTurn} (hreplay : s.ReplayUnchanged turn) : (s.step turn).2.Kept := by
  cases turn with
  | start method pathname policy signal =>
    refine ⟨h.consistent, fun r hmem => ?_, fun r hmem => ?_⟩
    · rcases List.mem_append.1 hmem with hmem | hmem
      · exact h.requests r hmem
      · rw [List.mem_singleton.1 hmem]
        refine ⟨fun account origin haccount horigin => ?_, fun waiter policy error hphase => by cases hphase⟩
        have hsame : account = origin := Option.some.inj (haccount.symm.trans horigin)
        exact ⟨congrArg _ hsame.symm, congrArg (Option.map _) horigin⟩
    · rcases List.mem_append.1 hmem with hmem | hmem
      · exact h.first r hmem
      · rw [List.mem_singleton.1 hmem]
        exact fun _ => rfl
  | reply request answer reauth => exact h.reply request answer reauth
  | resume request => exact h.resume hreplay
  | abort request reason => exact h.abort request reason
  | fetched flight result => exact h.refresh _
  | react flight => exact h.refresh _
  | settle waiter => exact h.refresh _
  | other storage => exact h.refresh _

/-! ## What a turn changes -/

/-- The turn acts for the request. -/
inductive OnBehalf (s : Client) : ClientTurn → Request → Prop
  | reply {i : Nat} {r : Request} (answer : Reply) (reauth : Bool) (found : s.requests[i]? = some r) :
      OnBehalf s (.reply i answer reauth) r
  | resume {i : Nat} {r : Request} (found : s.requests[i]? = some r) : OnBehalf s (.resume i) r
  | abort {i : Nat} {r : Request} (reason : Option String) (found : s.requests[i]? = some r) : OnBehalf s (.abort i reason) r
  /-- The handlers of a flight act for all who wait for it. -/
  | react {flight waiter : Nat} {policy : VnuRequestPolicy} {error : Thrown} {r : Request} {w : Waiter} (found : r ∈ s.requests)
      (waits : r.phase = .refreshing waiter policy error) (joined : s.refreshes.waiters[waiter]? = some w)
      (flightOf : w.flight = some flight) : OnBehalf s (.react flight) r

theorem sessionDeath_confined {r : Request} {origin : StoredAccount} (horigin : r.originatingAccount = some origin)
    (code : Option String) (reauth : Bool) :
    Confined origin.id (some origin.token) s.storage (s.sessionDeath r code reauth) := by
  unfold Client.sessionDeath
  simp only [horigin, Option.bind_some]
  split
  · split
    · exact .refl _ _ _
    case h_2 current hfound =>
      obtain ⟨-, hid, htoken⟩ := s.storage.findUnchangedStoredAccount_eq hfound
      split
      · exact .refl _ _ _
      · split
        · rw [← hid, ← htoken]
          exact s.storage.removeDeadOriginatingAccount_confined current
        · exact .refl _ _ _
  · exact .refl _ _ _

theorem recover_confined (i : Nat) (r : Request) (origin : StoredAccount) (code : Option String) :
    Confined origin.id (some origin.token) s.storage (s.recover i r origin code).2.storage := by
  unfold Client.recover
  split
  · exact .refl _ _ _
  · simp only
    split
    · exact .refl _ _ _
    · split
      · exact .refl _ _ _
      · split
        · exact s.storage.removeUnchangedOrigin_confined origin
        · have hworld : (refreshDeps.runVnuRefresh s.refreshes origin r.signal).2.world = s.storage ∨
              (refreshDeps.runVnuRefresh s.refreshes origin r.signal).2.world = s.storage.removeUnchangedOrigin origin :=
            VnuRefreshDeps.runVnuRefresh_world origin r.signal
          show Confined _ _ s.storage (refreshDeps.runVnuRefresh s.refreshes origin r.signal).2.world
          rcases hworld with heq | heq
          · rw [heq]
            exact .refl _ _ _
          · rw [heq]
            exact s.storage.removeUnchangedOrigin_confined origin

/-- A response changes what its own call of `request` took for the active account. -/
theorem reply_confined {i : Nat} {r : Request} {origin : StoredAccount} (hget : s.requests[i]? = some r)
    (horigin : r.originatingAccount = some origin) (answer : Reply) (reauth : Bool) :
    Confined origin.id (some origin.token) s.storage (s.reply i answer reauth).2.storage := by
  simp only [Client.reply, hget]
  split
  · exact .refl _ _ _
  · exact .refl _ _ _
  · split
    · split
      · exact .refl _ _ _
      case h_2 token _ =>
        rw [horigin]
        exact s.storage.setOriginatingSessionToken_confined token
    · exact .refl _ _ _
    · unfold Client.refused
      split
      case h_1 other hother =>
        obtain rfl : other = origin := Option.some.inj ((Option.filter_eq_some_iff.1 hother).1.symm.trans horigin)
        exact recover_confined i r other _
      case h_2 => exact sessionDeath_confined horigin _ reauth

theorem reply_storage {i : Nat} {r : Request} (hget : s.requests[i]? = some r) (horigin : r.originatingAccount = none)
    (answer : Reply) (reauth : Bool) : (s.reply i answer reauth).2.storage = s.storage := by
  simp only [Client.reply, hget]
  split
  · rfl
  · rfl
  · split
    · split
      · rfl
      · rw [horigin]
        rfl
    · rfl
    · simp only [Client.refused, horigin, Option.filter_none]
      show s.sessionDeath r _ reauth = s.storage
      unfold Client.sessionDeath
      simp [horigin]

theorem resume_storage (i : Nat) : (s.resume i).storage = s.storage := by
  rcases s.resume_cases i with heq | ⟨r, result, -, heq⟩ | ⟨r, token, -, heq⟩
  · rw [heq]
  · rw [heq]
    rfl
  · rw [heq]
    rfl

theorem abort_storage (i : Nat) (reason : Option String) : (s.abort i reason).2.storage = s.storage := by
  unfold Client.abort
  split
  · rfl
  · split
    · simp only
      split
      · exact VnuRefreshDeps.abort_world _ reason
      · rfl
      · rfl
    · rfl

theorem react_confined {flight : Nat} {f : Flight} (hf : s.refreshes.all[flight]? = some f) :
    Confined f.account.id (some f.account.token) s.storage (s.refresh (.react flight)).2.storage := by
  show Confined _ _ s.storage (refreshDeps.react s.refreshes flight).2.world
  rcases VnuRefreshDeps.react_world hf with heq | ⟨auth, heq⟩ | heq
  · rw [heq]
    exact .refl _ _ _
  · rw [heq]
    exact s.storage.commitVnuRefresh_confined f.account auth
  · rw [heq]
    exact s.storage.removeUnchangedOrigin_confined f.account

/-- What a turn changes on behalf of a request is the account the request started with. -/
theorem Kept.confined (h : s.Kept) {turn : ClientTurn} {r : Request} (hturn : OnBehalf s turn r) {account : StoredAccount}
    (haccount : r.account = some account) : Confined account.id r.failedToken s.storage (s.step turn).2.storage := by
  cases hturn with
  | reply answer reauth hget =>
    cases horigin : r.originatingAccount with
    | none =>
      simp only [Client.step, reply_storage hget horigin]
      exact .refl _ _ _
    | some origin =>
      obtain ⟨hid, hsent⟩ := (h.requests r (List.mem_of_getElem? hget)).origin account origin haccount horigin
      rw [← hid, hsent]
      exact reply_confined hget horigin answer reauth
  | resume hget =>
    simp only [Client.step, resume_storage]
    exact .refl _ _ _
  | abort reason hget =>
    simp only [Client.step, abort_storage]
    exact .refl _ _ _
  | react hmem hphase hw hflight =>
    obtain ⟨waited, hwaited, hsent, w', hw', hfor⟩ := (h.requests r hmem).waiting _ _ _ hphase
    obtain rfl : waited = account := Option.some.inj (hwaited.symm.trans haccount)
    rw [hw] at hw'
    obtain rfl := Option.some.inj hw'
    obtain ⟨f, hf, hkey⟩ := hfor _ hflight
    have hid : f.account.id = waited.id := congrArg FlightKey.id hkey
    have htoken : f.account.token = waited.token := congrArg FlightKey.token hkey
    rw [hsent, ← hid, ← htoken]
    exact react_confined hf

/-! ## Runs -/

/-- The turns of a client, in any order. -/
abbrev ClientRun (storage : ClientStorage) :=
  Run Client.step (fun _ => 0) (fun _ _ _ => True) (opened storage)

/-- A late response never touches another account. -/
structure LateConfined (s : Client) (turn : ClientTurn) (s' : Client) : Prop where
  /-- What acts for a request changes the account it started with alone, and that only while
  it holds the token that was sent. -/
  confined : ∀ r account, OnBehalf s turn r → r.account = some account →
    Confined account.id r.failedToken s.storage s'.storage
  quiet : ∀ method pathname policy signal, turn = .start method pathname policy signal → s'.storage = s.storage

theorem kept_opened (storage : ClientStorage) : (opened storage).Kept :=
  ⟨VnuRefreshDeps.consistent_start storage, fun r hmem => (by cases hmem), fun r hmem => by cases hmem⟩

section
variable {storage : ClientStorage} {trace : List (Step Client ClientTurn (List DepCall))} {clock : Nat}

theorem kept_run (h : ClientRun storage trace s clock) (hreplays : ∀ e ∈ trace, ReplayUnchanged e.before e.call) :
    s.Kept ∧ ∀ e ∈ trace, e.before.Kept ∧ e.after = (Client.step e.before e.call).2 := by
  induction h with
  | start => exact ⟨kept_opened storage, fun e hmem => by cases hmem⟩
  | @call trace s clock turn _ _ _ ih =>
    obtain ⟨hkept, hsteps⟩ := ih fun e hmem => hreplays e (List.mem_append_left _ hmem)
    have hreplay := hreplays (stepOf Client.step s turn) (List.mem_append_right _ List.mem_cons_self)
    refine ⟨hkept.step hreplay, fun e hmem => ?_⟩
    rcases List.mem_append.1 hmem with hmem | hmem
    · exact hsteps e hmem
    · rw [List.mem_singleton.1 hmem]
      exact ⟨hkept, rfl⟩

/-- In a run whose replays all start with the account they are for, no response touches another account. -/
theorem late_response_confined (h : ClientRun storage trace s clock)
    (hreplays : ∀ e ∈ trace, ReplayUnchanged e.before e.call) : ∀ e ∈ trace, LateConfined e.before e.call e.after := by
  intro e hmem
  obtain ⟨hkept, hafter⟩ := (kept_run h hreplays).2 e hmem
  rw [hafter]
  refine ⟨fun r account hturn haccount => hkept.confined hturn haccount, ?_⟩
  intro method pathname policy signal hcall
  rw [hcall]
  rfl

end

/-! ## A switch before the replay -/

def firstAccount : StoredAccount := { id := "alpha", universityId := "vnu", token := "t", studentCode := none }

def secondAccount : StoredAccount := { id := "beta", universityId := "vnu", token := "u", studentCode := some "21020001" }

def twoAccounts : ClientStorage where
  accounts := [firstAccount, secondAccount]
  activeAccountId := some "alpha"
  grants id := if id = "alpha" then some "g" else none
  suppressed := []
  localFull := false
  sessionFull := false

/-- A request whose session expired, and its refresh. -/
def refreshTurns : List ClientTurn :=
  [.start "GET" "/api/vnu/grades" none none, .reply 0 (.failed (some "VNU_SESSION_EXPIRED") none) false,
    .fetched 0 (.ok { token := "t2", refreshGrant := some "g2", studentCode := none }), .react 0, .react 0, .settle 0]

/-- Its replay, whose response rotates the token. -/
def replayTurns : List ClientTurn := [.resume 0, .reply 0 (.ok (some "t3")) false]

def refreshed : Client := stateAfter Client.step (opened twoAccounts) refreshTurns

theorem client_run (turns : List ClientTurn) : ∃ clock, ClientRun twoAccounts (execute Client.step (opened twoAccounts) turns)
    (stateAfter Client.step (opened twoAccounts) turns) clock := by
  have hstart : ClientRun twoAccounts [] (opened twoAccounts) 0 := .start
  exact hstart.follow turns (by simp [List.pairwise_cons]) fun _ _ _ => trivial

/-- The replay of an untouched client starts with the account it is for. -/
theorem refreshed_unchanged : refreshed.ReplayUnchanged (.resume 0) := by
  intro i r token hturn hreplays account active haccount hactive
  obtain rfl : 0 = i := by cases hturn; rfl
  have hrequest : refreshed.requests[0]? = some
      { account := some firstAccount, method := "GET", pathname := "/api/vnu/grades", policy := none, signal := none,
        originatingAccount := some firstAccount, failedToken := some "t", noRefresh := false,
        phase := .refreshing 0 .safeReplay (.api (some "VNU_SESSION_EXPIRED")) } := by decide +kernel
  have hstored : refreshed.storage.getActiveAccount = some (firstAccount.setToken "t2") := by decide +kernel
  have hwaiter : (refreshed.refreshes.waiters[0]?).bind (·.result) =
      some (.ok (.committed { token := "t2", refreshGrant := some "g2", studentCode := none })) := by decide +kernel
  have hr := Option.some.inj (hreplays.found.symm.trans hrequest)
  obtain ⟨waiter, policy, error, auth, hphase, -, hresult, rfl⟩ := hreplays.refreshed
  obtain rfl := Option.some.inj (hactive.symm.trans hstored)
  subst hr
  obtain rfl := Option.some.inj haccount
  cases hphase
  rw [hwaiter] at hresult
  cases hresult
  exact ⟨rfl, rfl⟩

theorem late_response_confined_sample :
    (stateAfter Client.step (opened twoAccounts) (refreshTurns ++ replayTurns)).storage.accounts =
        [firstAccount.setToken "t3", secondAccount] ∧
      ∀ e ∈ execute Client.step (opened twoAccounts) (refreshTurns ++ replayTurns), LateConfined e.before e.call e.after := by
  obtain ⟨clock, hrun⟩ := client_run (refreshTurns ++ replayTurns)
  refine ⟨by decide +kernel, late_response_confined hrun fun e hmem => ?_⟩
  simp only [refreshTurns, replayTurns, List.cons_append, List.nil_append, execute, List.mem_cons, List.not_mem_nil,
    or_false] at hmem
  rcases hmem with rfl | rfl | rfl | rfl | rfl | rfl | rfl | rfl
  case inr.inr.inr.inr.inr.inr.inl => exact refreshed_unchanged
  all_goals
    intro i r token hturn
    cases hturn

/-- The user switches to another account between the refresh and the replay: the token of
the response to the replay becomes the token of that account. -/
theorem late_response_touches_other : ¬ ∀ trace s clock, ClientRun twoAccounts trace s clock →
    ∀ e ∈ trace, LateConfined e.before e.call e.after := by
  intro h
  let turns : List ClientTurn := refreshTurns ++ .other (refreshed.storage.switchAccount "beta") :: replayTurns
  obtain ⟨clock, hrun⟩ := client_run turns
  let before : Client := stateAfter Client.step (opened twoAccounts) (turns.take 8)
  have hmem : stepOf Client.step before (.reply 0 (.ok (some "t3")) false) ∈ execute Client.step (opened twoAccounts) turns := by
    simp [turns, before, refreshTurns, replayTurns, execute, stateAfter]
  have hrequest : before.requests[0]? = some
      { account := some firstAccount, method := "GET", pathname := "/api/vnu/grades", policy := none, signal := none,
        originatingAccount := some secondAccount, failedToken := some "t2", noRefresh := true, phase := .sending } := by
    decide +kernel
  have hconfined := (h _ _ _ hrun _ hmem).confined _ firstAccount (.reply _ _ hrequest) rfl
  have hkept := hconfined.accounts
  revert hkept
  decide +kernel

end Client

end Hyeboard.WebSession
