import Hyeboard.WebSession.LateResponses
/-!
# Requests that are sent again

A request is sent a second time at most, and that only when its session expired, a
refresh of just this session was committed, and its route may be replayed. Whatever
the caller overrides, the route alone allows a replay.
-/

namespace Hyeboard.WebSession

/-! ## Routes -/

theorem safePaths_plain : ∀ pathname ∈ safePaths,
    startsWith pathname "/api/vnu/auth/" = false ∧ startsWith pathname "/api/vnu/cross-lookup/" = false := by
  decide +kernel

/-- The routes of safe replays. -/
theorem requestPolicyFor_safeReplay {method pathname : String} :
    requestPolicyFor method pathname = .safeReplay ↔ method.toUpper = "GET" ∧ pathname ∈ safePaths := by
  constructor
  · intro h
    unfold requestPolicyFor at h
    simp only at h
    split at h
    · cases h
    · split at h
      · cases h
      · split at h
        · cases h
        · split at h
          · cases h
          · split at h
            · cases h
            · split at h
              case isTrue hget _ _ hsafe => exact ⟨not_not.1 hget, hsafe⟩
              case isFalse => cases h
  · rintro ⟨hget, hsafe⟩
    obtain ⟨hauth, hlookup⟩ := safePaths_plain pathname hsafe
    simp [requestPolicyFor, hget, hauth, hlookup, hsafe]

/-- An override allows no replay that the route forbids. -/
theorem route_of_reducedPolicy {routePolicy : VnuRequestPolicy} {override : Option VnuRequestPolicy}
    (h : reducedPolicy routePolicy override = .safeReplay) : routePolicy = .safeReplay := by
  cases routePolicy with
  | safeReplay => rfl
  | refreshNoReplay =>
    rcases override with _ | _ | _ | _
    · cases h
    · cases h
    · cases h
    · cases h
  | never =>
    rcases override with _ | _ | _ | _
    · cases h
    · cases h
    · cases h
    · cases h

/-! ## Flights that committed -/

namespace VnuRefreshDeps

/-- What a flight committed, once it has. -/
def committedAs : FlightPhase → Option AuthResult
  | .handled (.ok (.committed auth)) | .settled (.ok (.committed auth)) => some auth
  | _ => none

theorem committedAs_settled (outcome : Except Thrown VnuRefreshOutcome) : committedAs (.settled outcome) = committedAs (.handled outcome) := by
  rcases outcome with _ | _ | _
  · rfl
  · rfl
  · rfl

section
variable {S : Type} {deps : VnuRefreshDeps S} {s t u : Refreshes S}

/-- No flight has committed more than before. -/
def NoneCommits (s t : Refreshes S) : Prop :=
  ∀ (flight : Nat) (f' : Flight) auth, t.all[flight]? = some f' → committedAs f'.phase = some auth →
    ∃ f : Flight, s.all[flight]? = some f ∧ f.account = f'.account ∧ committedAs f.phase = some auth

theorem NoneCommits.of_all (h : t.all = s.all) : NoneCommits s t := fun _ f' _ hf' hcommitted => ⟨f', h ▸ hf', rfl, hcommitted⟩

theorem NoneCommits.trans (h : NoneCommits s t) (h' : NoneCommits t u) : NoneCommits s u := by
  intro flight f' auth hf' hcommitted
  obtain ⟨g, hg, haccount, hg'⟩ := h' flight f' auth hf' hcommitted
  obtain ⟨f, hf, haccount', hf''⟩ := h flight g auth hg hg'
  exact ⟨f, hf, haccount'.trans haccount, hf''⟩

/-- A flight that changes has not committed since. -/
theorem NoneCommits.setFlight {changed : Nat} {f : Flight → Flight}
    (h : ∀ g, s.all[changed]? = some g → (f g).account = g.account ∧ ∀ auth, committedAs (f g).phase = some auth → committedAs g.phase = some auth) :
    NoneCommits s (VnuRefreshDeps.setFlight s changed f) := by
  intro flight f' auth hf' hcommitted
  rw [setFlight_get] at hf'
  split at hf'
  case isTrue heq =>
    subst heq
    obtain ⟨g, hg, rfl⟩ := Option.map_eq_some_iff.1 hf'
    obtain ⟨haccount, hkept⟩ := h g hg
    exact ⟨g, hg, haccount.symm, hkept auth hcommitted⟩
  case isFalse => exact ⟨f', hf', rfl, hcommitted⟩

theorem noneCommits_setPhase {changed : Nat} {phase : FlightPhase}
    (h : ∀ g : Flight, s.all[changed]? = some g → ∀ auth, committedAs phase = some auth → committedAs g.phase = some auth) :
    NoneCommits s (VnuRefreshDeps.setPhase s changed phase) :=
  NoneCommits.setFlight fun g hg => ⟨rfl, h g hg⟩

theorem noneCommits_waiters (changed : Nat) (waiters : Flight → List Nat) :
    NoneCommits s (VnuRefreshDeps.setFlight s changed fun f => { f with waiters := waiters f }) :=
  NoneCommits.setFlight fun _ _ => ⟨rfl, fun _ h => h⟩

theorem noneCommits_releaseWaiter (released waiter : Nat) : NoneCommits s (deps.releaseWaiter s released waiter).2 := by
  unfold VnuRefreshDeps.releaseWaiter
  split
  · exact .of_all rfl
  case h_2 f _ =>
    split
    · have hleft := noneCommits_waiters (s := s) released fun _ => f.waiters.filter (· ≠ waiter)
      simp only
      split
      · refine (hleft.trans (.of_all (deregister_all f.account released))).trans ?_
        exact NoneCommits.setFlight (f := ({ · with aborted := true })) fun _ _ => ⟨rfl, fun _ h => h⟩
      · exact hleft
    · exact .of_all rfl

theorem noneCommits_joinFlight (changed : Nat) (signal : Option (Option (Option String))) :
    NoneCommits s (deps.joinFlight s changed signal).2 := by
  unfold VnuRefreshDeps.joinFlight
  have hjoined : NoneCommits s { VnuRefreshDeps.setFlight s changed (fun f => { f with waiters := f.waiters ++ [s.waiters.length] }) with
      waiters := s.waiters ++ [{ flight := some changed, hasSignal := signal.isSome, result := none }] } :=
    (noneCommits_waiters changed fun f => f.waiters ++ [s.waiters.length]).trans (.of_all rfl)
  split
  · exact hjoined.trans ((noneCommits_releaseWaiter _ _).trans (.of_all rfl))
  · exact hjoined

theorem noneCommits_runVnuRefresh (account : StoredAccount) (signal : Option (Option (Option String))) :
    NoneCommits s (deps.runVnuRefresh s account signal).2 := by
  unfold VnuRefreshDeps.runVnuRefresh
  split
  · simp only
    split
    · exact .of_all rfl
    · exact .of_all rfl
  case h_2 grant _ =>
    split
    · exact noneCommits_joinFlight _ _
    · have hcreated : NoneCommits s (VnuRefreshDeps.createFlight s account grant).2 := by
        intro flight f' auth hf' hcommitted
        rcases Nat.lt_or_ge flight s.all.length with hlt | hge
        · refine ⟨f', ?_, rfl, hcommitted⟩
          simpa [VnuRefreshDeps.createFlight, List.getElem?_append_left hlt] using hf'
        · simp only [VnuRefreshDeps.createFlight, List.getElem?_append_right hge, List.getElem?_singleton] at hf'
          split at hf'
          · cases hf'
            cases hcommitted
          · cases hf'
      exact hcreated.trans (noneCommits_joinFlight _ _)

/-- The turn commits what its flight fetched. -/
structure CommitsFlight (deps : VnuRefreshDeps S) (s t : Refreshes S) (flight : Nat) (f : Flight) (auth : AuthResult) : Prop where
  found : s.all[flight]? = some f
  fetched : f.phase = .fulfilled auth
  committed : deps.commit s.world f.account auth = (.ok true, t.world)

theorem noneCommits_onRejected (changed : Nat) (f : Flight) (error : Thrown) : NoneCommits s (deps.onRejected s changed f error).2 := by
  unfold VnuRefreshDeps.onRejected
  split
  · split
    · exact (NoneCommits.of_all rfl).trans (noneCommits_setPhase fun _ _ _ h => by cases h)
    · exact noneCommits_setPhase fun _ _ _ h => by cases h
  · exact noneCommits_setPhase fun _ _ _ h => by cases h

/-- Only `commit` itself lets a flight commit. -/
theorem committed_onFulfilled {changed flight : Nat} {f f' : Flight} {fetched auth : AuthResult} (hf : s.all[changed]? = some f)
    (hphase : f.phase = .fulfilled fetched) (hf' : (deps.onFulfilled s changed f fetched).2.all[flight]? = some f')
    (hcommitted : committedAs f'.phase = some auth) :
    (∃ f : Flight, s.all[flight]? = some f ∧ f.account = f'.account ∧ committedAs f.phase = some auth) ∨
      (RefreshTurn.react changed = (.react flight : RefreshTurn S) ∧
        ∃ g, CommitsFlight deps s (deps.onFulfilled s changed f fetched).2 flight g auth ∧ g.account = f'.account) := by
  have hquiet : ∀ {t : Refreshes S}, NoneCommits s t → t.all[flight]? = some f' →
      ∃ f : Flight, s.all[flight]? = some f ∧ f.account = f'.account ∧ committedAs f.phase = some auth :=
    fun hnone hthere => hnone flight f' auth hthere hcommitted
  unfold VnuRefreshDeps.onFulfilled at hf' ⊢
  by_cases hmay : deps.mayHandle s f.account changed f.waiters = true
  · simp only [hmay, if_true] at hf' ⊢
    split at hf'
    · exact .inl (hquiet (noneCommits_setPhase fun _ _ _ h => by cases h) hf')
    case isFalse hgrant =>
      simp only [hgrant]
      cases hcommit : deps.commit s.world f.account fetched with
      | mk answer world =>
        simp only [hcommit] at hf' ⊢
        rcases answer with error | _ | _
        · exact .inl (hquiet ((NoneCommits.of_all rfl).trans (noneCommits_setPhase fun _ _ _ h => by cases h)) hf')
        · exact .inl (hquiet ((NoneCommits.of_all rfl).trans (noneCommits_setPhase fun _ _ _ h => by cases h)) hf')
        · simp only [VnuRefreshDeps.setPhase, setFlight_get] at hf'
          split at hf'
          case isFalse => exact .inl ⟨f', hf', rfl, hcommitted⟩
          case isTrue heq =>
            subst heq
            rw [hf, Option.map_some, Option.some_inj] at hf'
            subst hf'
            cases hcommitted
            exact .inr ⟨rfl, f, ⟨hf, hphase, hcommit⟩, rfl⟩
  · simp only [hmay] at hf'
    exact .inl (hquiet (noneCommits_setPhase fun _ _ _ h => by cases h) hf')

/-- A flight has committed before a turn, or commits in it. -/
theorem committed_step (turn : RefreshTurn S) {flight : Nat} {f' : Flight} {auth : AuthResult}
    (hf' : (deps.step s turn).2.all[flight]? = some f') (hcommitted : committedAs f'.phase = some auth) :
    (∃ f : Flight, s.all[flight]? = some f ∧ f.account = f'.account ∧ committedAs f.phase = some auth) ∨
      (turn = .react flight ∧ ∃ f, CommitsFlight deps s (deps.step s turn).2 flight f auth ∧ f.account = f'.account) := by
  cases turn with
  | call account signal => exact .inl (noneCommits_runVnuRefresh account signal flight f' auth hf' hcommitted)
  | fetched changed result =>
    left
    have hnone : NoneCommits s (VnuRefreshDeps.fetched s changed result) := by
      unfold VnuRefreshDeps.fetched
      split
      · split
        · exact noneCommits_setPhase fun _ _ _ h => by cases h
        · exact noneCommits_setPhase fun _ _ _ h => by cases h
      · exact .of_all rfl
    exact hnone flight f' auth hf' hcommitted
  | react changed =>
    simp only [VnuRefreshDeps.step] at hf' ⊢
    cases hf : s.all[changed]? with
    | none =>
      simp only [VnuRefreshDeps.react, hf] at hf'
      exact .inl ⟨f', hf', rfl, hcommitted⟩
    | some f =>
      cases hphase : f.phase with
      | fetching =>
        simp only [VnuRefreshDeps.react, hf, hphase] at hf'
        exact .inl ⟨f', hf', rfl, hcommitted⟩
      | fulfilled fetched =>
        have hstep : deps.react s changed = deps.onFulfilled s changed f fetched := by simp only [VnuRefreshDeps.react, hf, hphase]
        rw [hstep] at hf' ⊢
        exact committed_onFulfilled hf hphase hf' hcommitted
      | rejected error =>
        have hnone : NoneCommits s (deps.react s changed).2 := by
          simp only [VnuRefreshDeps.react, hf, hphase]
          exact noneCommits_onRejected changed f error
        exact .inl (hnone flight f' auth hf' hcommitted)
      | handled outcome =>
        have hnone : NoneCommits s (deps.react s changed).2 := by
          simp only [VnuRefreshDeps.react, hf, hphase]
          refine (NoneCommits.of_all (deregister_all f.account changed)).trans (noneCommits_setPhase fun g hg other hother => ?_)
          rw [deregister_all, hf] at hg
          cases hg
          rwa [hphase, ← committedAs_settled]
        exact .inl (hnone flight f' auth hf' hcommitted)
      | settled outcome =>
        simp only [VnuRefreshDeps.react, hf, hphase] at hf'
        exact .inl ⟨f', hf', rfl, hcommitted⟩
  | settle waiter =>
    left
    have hnone : NoneCommits s (VnuRefreshDeps.settle s waiter) := by
      unfold VnuRefreshDeps.settle
      split
      · split
        · exact (NoneCommits.of_all rfl).trans (noneCommits_waiters _ _)
        · exact .of_all rfl
      · exact .of_all rfl
    exact hnone flight f' auth hf' hcommitted
  | abort waiter reason =>
    left
    have hnone : NoneCommits s (deps.abort s waiter reason).2 := by
      unfold VnuRefreshDeps.abort
      split
      · exact (noneCommits_releaseWaiter _ _).trans (.of_all rfl)
      · exact .of_all rfl
    exact hnone flight f' auth hf' hcommitted
  | other world => exact .inl ⟨f', hf', rfl, hcommitted⟩

/-! ## Waiters that got a commit -/

theorem length_joinFlight_waiters (changed : Nat) (signal : Option (Option (Option String))) :
    (deps.joinFlight s changed signal).2.waiters.length = s.waiters.length + 1 := by
  unfold VnuRefreshDeps.joinFlight
  split
  · simp [VnuRefreshDeps.setResult, releaseWaiter_waiters, VnuRefreshDeps.setFlight]
  · simp [VnuRefreshDeps.setFlight]

/-- A new waiter has got no commit. -/
theorem joinFlight_uncommitted {changed waiter : Nat} {signal : Option (Option (Option String))} {w : Waiter}
    (hw : (deps.joinFlight s changed signal).2.waiters[waiter]? = some w) (hnew : s.waiters[waiter]? = none) (auth : AuthResult) :
    w.result ≠ some (.ok (.committed auth)) := by
  have hlt := (List.getElem?_eq_some_iff.1 hw).1
  rw [length_joinFlight_waiters] at hlt
  obtain rfl : waiter = s.waiters.length := Nat.le_antisymm (Nat.le_of_lt_succ hlt) (List.getElem?_eq_none_iff.1 hnew)
  rw [joinFlight_called signal, Option.some_inj] at hw
  subst hw
  rcases signal with _ | _ | _
  · simp [firstResult]
  · simp [firstResult]
  · simp [firstResult]

theorem uncommitted_step (turn : RefreshTurn S) {waiter : Nat} {w : Waiter} (hw : (deps.step s turn).2.waiters[waiter]? = some w)
    (hnew : s.waiters[waiter]? = none) (auth : AuthResult) : w.result ≠ some (.ok (.committed auth)) := by
  have hsame : ∀ {t : Refreshes S}, t.waiters.length = s.waiters.length → t.waiters[waiter]? = none := by
    intro t hlength
    rw [List.getElem?_eq_none_iff] at hnew ⊢
    omega
  have hgone : ∀ {t : Refreshes S}, t.waiters.length = s.waiters.length → t.waiters[waiter]? = some w → False := by
    intro t hlength hthere
    rw [hsame hlength] at hthere
    cases hthere
  cases turn with
  | call account signal =>
    simp only [VnuRefreshDeps.step, VnuRefreshDeps.runVnuRefresh] at hw
    split at hw
    · have hrefused : ∀ refused : Waiter, (∀ auth, refused.result ≠ some (.ok (.committed auth))) →
          (s.waiters ++ [refused])[waiter]? = some w → w.result ≠ some (.ok (.committed auth)) := by
        intro refused hresult hthere
        rw [List.getElem?_append_right (List.getElem?_eq_none_iff.1 hnew), List.getElem?_singleton] at hthere
        split at hthere
        · cases hthere
          exact hresult auth
        · cases hthere
      split at hw
      · exact hrefused _ (fun _ => by simp) hw
      · exact hrefused _ (fun _ => by simp) hw
    · split at hw
      · exact joinFlight_uncommitted hw hnew auth
      · exact joinFlight_uncommitted hw hnew auth
  | fetched changed result =>
    simp only [VnuRefreshDeps.step, VnuRefreshDeps.fetched] at hw
    repeat' split at hw
    all_goals exact (hgone rfl hw).elim
  | react changed => exact (hgone (congrArg List.length (react_waiters changed)) hw).elim
  | settle other =>
    simp only [VnuRefreshDeps.step, VnuRefreshDeps.settle] at hw
    repeat' split at hw
    · exact (hgone (by simp [VnuRefreshDeps.setFlight, VnuRefreshDeps.setResult]) hw).elim
    · exact (hgone rfl hw).elim
    · exact (hgone rfl hw).elim
  | abort other reason =>
    simp only [VnuRefreshDeps.step, VnuRefreshDeps.abort] at hw
    split at hw
    · exact (hgone (by simp [VnuRefreshDeps.setResult, releaseWaiter_waiters]) hw).elim
    · exact (hgone rfl hw).elim
  | other world => exact (hgone rfl hw).elim

/-- Who got a commit got that of its flight. -/
def CommitsSettled (s : Refreshes S) : Prop :=
  ∀ (waiter : Nat) (w : Waiter) auth, s.waiters[waiter]? = some w → w.result = some (.ok (.committed auth)) →
    ∃ (flight : Nat) (f : Flight), w.flight = some flight ∧ s.all[flight]? = some f ∧ f.phase = .settled (.ok (.committed auth))

theorem CommitsSettled.step (h : CommitsSettled s) (hconsistent : Consistent s) (turn : RefreshTurn S) :
    CommitsSettled (deps.step s turn).2 := by
  intro waiter w' auth hw' hresult
  cases hw : s.waiters[waiter]? with
  | none => exact absurd hresult (uncommitted_step turn hw' hw auth)
  | some w =>
    have hkept := @waiterKept_step S deps s turn waiter w hw
    rw [hw', Option.some_inj] at hkept
    subst hkept
    have hsettled : ∃ (flight : Nat) (f : Flight), w.flight = some flight ∧ s.all[flight]? = some f ∧
        f.phase = .settled (.ok (.committed auth)) := by
      cases hbefore : w.result with
      | some result =>
        simp only [nextResult, hbefore] at hresult
        exact h waiter w auth hw (hbefore.trans hresult)
      | none =>
        simp only [nextResult, hbefore] at hresult
        cases turn with
        | settle other =>
          simp only at hresult
          split at hresult
          · cases hflight : w.flight with
            | none => simp [outcomeOf, hflight] at hresult
            | some flight =>
              rw [hflight] at hresult
              obtain ⟨f, hf, hphase⟩ := outcomeOf_eq hresult
              exact ⟨flight, f, rfl, hf, hphase⟩
          · cases hresult
        | abort other reason =>
          simp only at hresult
          split at hresult
          · cases hresult
          · cases hresult
        | call account signal => cases hresult
        | fetched flight result => cases hresult
        | react flight => cases hresult
        | other world => cases hresult
    obtain ⟨flight, f, hflight, hf, hphase⟩ := hsettled
    obtain ⟨f', hf', hevolves⟩ := follows_step deps hconsistent hf turn f hf
    exact ⟨flight, f', hflight, hf', hevolves.settled _ hphase⟩

end

end VnuRefreshDeps

namespace Client

variable {s : Client}

/-! ## What a turn makes of the requests -/

/-- Every turn of a client is one of its refreshes, or other code to them. -/
theorem refreshes_step (turn : ClientTurn) : ∃ t, (s.step turn).2.refreshes = (refreshDeps.step s.refreshes t).2 ∧
    ∀ flight, t = .react flight → turn = .react flight := by
  have hsame : ∀ {c : Client}, c.refreshes = s.refreshes → ∃ t, c.refreshes = (refreshDeps.step s.refreshes t).2 ∧
      ∀ flight, t = .react flight → turn = .react flight := by
    intro c h
    exact ⟨.other s.refreshes.world, h, fun flight hreact => by cases hreact⟩
  have hworld : ∀ {c : Client} (world : ClientStorage), c.refreshes = { s.refreshes with world } →
      ∃ t, c.refreshes = (refreshDeps.step s.refreshes t).2 ∧ ∀ flight, t = .react flight → turn = .react flight := by
    intro c world h
    exact ⟨.other world, h, fun flight hreact => by cases hreact⟩
  cases turn with
  | start method pathname policy signal => exact hsame rfl
  | reply request answer reauth =>
    simp only [Client.step, Client.reply]
    split
    · exact hsame rfl
    · split
      · exact hsame rfl
      · exact hsame rfl
      · split
        · split
          · exact hsame rfl
          · exact hworld _ rfl
        · exact hsame rfl
        · unfold Client.refused
          split
          case h_1 origin _ =>
            unfold Client.recover
            split
            · exact hsame rfl
            · simp only
              split
              · exact hsame rfl
              · split
                · exact hsame rfl
                · split
                  · exact hworld _ rfl
                  · exact ⟨.call origin _, rfl, fun flight hreact => by cases hreact⟩
          case h_2 => exact hworld _ rfl
  | resume request =>
    simp only [Client.step]
    rcases s.resume_cases request with heq | ⟨r, result, -, heq⟩ | ⟨r, token, -, heq⟩
    · exact hsame (by rw [heq])
    · exact hsame (by rw [heq]; rfl)
    · exact hsame (by rw [heq]; rfl)
  | abort request reason =>
    simp only [Client.step, Client.abort]
    split
    · exact hsame rfl
    · split
      · split
        case h_1 waiter _ _ _ => exact ⟨.abort waiter reason, rfl, fun flight hreact => by cases hreact⟩
        · exact hsame rfl
        · exact hsame rfl
      · exact hsame rfl
  | fetched flight result => exact ⟨.fetched flight result, rfl, fun flight hreact => by cases hreact⟩
  | react flight =>
    refine ⟨.react flight, rfl, fun other hreact => ?_⟩
    cases hreact
    rfl
  | settle waiter => exact ⟨.settle waiter, rfl, fun flight hreact => by cases hreact⟩
  | other storage => exact ⟨.other storage, rfl, fun flight hreact => by cases hreact⟩

/-- What a turn makes of the request `i`. -/
inductive Moves (s : Client) (turn : ClientTurn) (i : Nat) (r : Request) : Request → Prop
  | aborted (reason : Option String) : Moves s turn i r { r with signal := some (some reason) }
  | done (result : Except Thrown Unit) : Moves s turn i r { r with phase := .done result }
  /-- The session of a first send expired, and its refresh is awaited. -/
  | expired {origin : StoredAccount} {code reason : Option String} {reauth : Bool} (call : turn = .reply i (.failed code reason) reauth)
      (sending : r.phase = .sending) (found : r.originatingAccount = some origin) (university : origin.universityId = "vnu")
      (recoverable : classifyVnuRecovery code reason = true) (first : r.noRefresh = false)
      (allowed : reducedPolicy (requestPolicyFor r.method r.pathname) r.policy ≠ .never)
      (refreshes : (s.step turn).2.refreshes = (refreshDeps.runVnuRefresh s.refreshes origin r.signal).2) :
      Moves s turn i r { r with
        phase := .refreshing s.refreshes.waiters.length (reducedPolicy (requestPolicyFor r.method r.pathname) r.policy) (.api code) }
  | replayed {token : String} (call : turn = .resume i) (replays : Replays s i r token) :
      Moves s turn i r { r with
        originatingAccount := s.storage.getActiveAccount, failedToken := some token, noRefresh := true, phase := .sending }

/-- A turn starts a request, moves one on, or leaves them as they are. -/
theorem requests_step (turn : ClientTurn) :
    (∃ method pathname policy signal, turn = .start method pathname policy signal ∧
      (s.step turn).2.requests = s.requests ++ [{
        account := s.storage.getActiveAccount, method, pathname, policy, signal, originatingAccount := s.storage.getActiveAccount,
        failedToken := s.storage.getActiveAccount.map (·.token), noRefresh := false, phase := .sending }]) ∨
    (∃ (i : Nat) (r r' : Request), s.requests[i]? = some r ∧ Moves s turn i r r' ∧ (s.step turn).2.requests = s.requests.set i r') ∨
      (s.step turn).2.requests = s.requests := by
  cases turn with
  | start method pathname policy signal => exact .inl ⟨method, pathname, policy, signal, rfl, rfl⟩
  | reply i answer reauth =>
    right
    cases hget : s.requests[i]? with
    | none =>
      right
      simp only [Client.step, Client.reply, hget]
    | some r =>
      have hdone : ∀ {result : Except Thrown Unit} {c : Client}, c.requests = s.requests.set i { r with phase := .done result } →
          ∃ (j : Nat) (q r' : Request), s.requests[j]? = some q ∧ Moves s (.reply i answer reauth) j q r' ∧ c.requests = s.requests.set j r' :=
        fun h => ⟨i, r, _, hget, .done _, h⟩
      cases hphase : r.phase with
      | refreshing waiter policy error =>
        right
        simp only [Client.step, Client.reply, hget, hphase]
      | done result =>
        right
        simp only [Client.step, Client.reply, hget, hphase]
      | sending =>
        left
        cases answer with
        | ok refreshedToken =>
          simp only [Client.step, Client.reply, hget, hphase]
          split
          · exact hdone rfl
          · exact hdone rfl
        | thrown error =>
          simp only [Client.step, Client.reply, hget, hphase]
          exact hdone rfl
        | failed code reason =>
          have hstep : s.step (.reply i (.failed code reason) reauth) = s.refused i r code reason reauth := by
            simp only [Client.step, Client.reply, hget, hphase]
          rw [hstep]
          unfold Client.refused
          split
          case h_2 => exact hdone rfl
          case h_1 origin horigin =>
            obtain ⟨hfound, hvnu⟩ := Option.filter_eq_some_iff.1 horigin
            rw [Bool.and_eq_true, decide_eq_true_eq] at hvnu
            have hrefused : (s.step (.reply i (.failed code reason) reauth)).2.refreshes = (s.recover i r origin code).2.refreshes := by
              rw [hstep]
              simp only [Client.refused, horigin]
            unfold Client.recover at hrefused ⊢
            split
            · exact hdone rfl
            case h_2 hsignal =>
              simp only at hrefused ⊢
              split
              · exact hdone rfl
              case isFalse hpolicy =>
                split
                · exact hdone rfl
                case isFalse hsuppressed =>
                  split
                  · exact hdone rfl
                  case isFalse hgrant =>
                    rw [if_neg hpolicy, if_neg hsuppressed, if_neg hgrant] at hrefused
                    simp only [Bool.or_eq_true, decide_eq_true_eq, not_or, Bool.not_eq_true] at hpolicy
                    exact ⟨i, r, _, hget, .expired rfl hphase hfound hvnu.1 hvnu.2 hpolicy.1 hpolicy.2 hrefused, rfl⟩
  | resume i =>
    right
    rcases s.resume_cases i with heq | ⟨r, result, hget, heq⟩ | ⟨r, token, hreplays, heq⟩
    · exact .inr (congrArg Client.requests heq)
    · exact .inl ⟨i, r, _, hget, .done _, congrArg Client.requests heq⟩
    · exact .inl ⟨i, r, _, hreplays.found, .replayed rfl hreplays, congrArg Client.requests heq⟩
  | abort i reason =>
    right
    cases hget : s.requests[i]? with
    | none =>
      right
      simp only [Client.step, Client.abort, hget]
    | some r =>
      simp only [Client.step, Client.abort, hget]
      split
      case isFalse => exact .inr rfl
      case isTrue =>
        left
        refine ⟨i, r, _, hget, .aborted reason, ?_⟩
        split
        · rfl
        · rfl
        · rfl
  | fetched flight result => exact .inr (.inr rfl)
  | react flight => exact .inr (.inr rfl)
  | settle waiter => exact .inr (.inr rfl)
  | other storage => exact .inr (.inr rfl)

/-! ## Sends -/

/-- A step of the client, and the trace of a run. -/
abbrev ClientStep := Step Client ClientTurn (List DepCall)

def isSending (s : Client) (i : Nat) : Bool := (s.requests[i]?).any (·.phase = .sending)

/-- The request `i` is sent in this step. -/
def sends (e : ClientStep) (i : Nat) : Bool := isSending e.after i && !isSending e.before i

/-- The request `i` starts, with `account` active. -/
def Starts (e : ClientStep) (i : Nat) (r : Request) : Prop :=
  (∃ signal, e.call = .start r.method r.pathname r.policy signal) ∧ e.before.requests.length = i ∧
    e.before.storage.getActiveAccount = r.account

/-- The first send of the request `i`, from `origin`, is refused with an expiry that a refresh recovers. -/
structure Expires (e : ClientStep) (i : Nat) (origin : StoredAccount) : Prop where
  answer : ∃ code reason reauth, e.call = .reply i (.failed code reason) reauth ∧ classifyVnuRecovery code reason = true
  sent : ∃ r, e.before.requests[i]? = some r ∧ r.phase = .sending ∧ r.noRefresh = false ∧ r.account = some origin ∧
    r.failedToken = some origin.token

/-- A refresh of the account with this token is committed. -/
def CommitsRefresh (e : ClientStep) (account : StoredAccount) (auth : AuthResult) : Prop :=
  ∃ flight, e.call = .react flight ∧ ∃ f, VnuRefreshDeps.CommitsFlight refreshDeps e.before.refreshes e.after.refreshes flight f auth ∧
    flightKey f.account = flightKey account

/-- What a second send rests on. -/
structure Replay (pre : List ClientStep) (e : ClientStep) (i : Nat) (r : Request) : Prop where
  /-- The request started with a VNU account, and its own route may be replayed. -/
  origin : ∃ origin, r.account = some origin ∧ origin.universityId = "vnu" ∧ (∃ first ∈ pre, Starts first i r) ∧
    (∃ refused ∈ pre, Expires refused i origin) ∧
    ∃ auth, (∃ refresh ∈ pre, CommitsRefresh refresh origin auth) ∧
      ∃ r', e.after.requests[i]? = some r' ∧ r'.failedToken = some auth.token
  method : r.method.toUpper = "GET"
  pathname : r.pathname ∈ safePaths
  unaborted : ∀ reason, r.signal ≠ some (some reason)

/-- What is recorded of a request. -/
structure RequestOk (trace : List ClientStep) (t : Refreshes ClientStorage) (i : Nat) (r : Request) : Prop where
  started : ∃ first ∈ trace, Starts first i r
  first : r.noRefresh = false → r.originatingAccount = r.account ∧ r.failedToken = r.account.map (·.token)
  refreshing : ∀ waiter policy error, r.phase = .refreshing waiter policy error → r.noRefresh = false ∧
    policy = reducedPolicy (requestPolicyFor r.method r.pathname) r.policy ∧ policy ≠ .never ∧
    ∃ origin, r.account = some origin ∧ origin.universityId = "vnu" ∧ (∃ e ∈ trace, Expires e i origin) ∧
      VnuRefreshDeps.WaitsFor t waiter origin

/-- How often a request has been sent at most. -/
def timesSent (s : Client) (i : Nat) : Nat :=
  match s.requests[i]? with
  | none => 0
  | some r => if r.noRefresh then 2 else 1

theorem timesSent_none {s : Client} {i : Nat} (h : s.requests[i]? = none) : timesSent s i = 0 := by
  rw [timesSent, h]

theorem timesSent_some {s : Client} {i : Nat} {r : Request} (h : s.requests[i]? = some r) : timesSent s i = if r.noRefresh then 2 else 1 := by
  rw [timesSent, h]

/-- What is recorded of a run. -/
structure Recorded (trace : List ClientStep) (s : Client) : Prop where
  consistent : VnuRefreshDeps.Consistent s.refreshes
  waiters : VnuRefreshDeps.CommitsSettled s.refreshes
  requests : ∀ (i : Nat) (r : Request), s.requests[i]? = some r → RequestOk trace s.refreshes i r
  flights : ∀ (flight : Nat) (f : Flight) auth, s.refreshes.all[flight]? = some f → VnuRefreshDeps.committedAs f.phase = some auth →
    ∃ e ∈ trace, CommitsRefresh e f.account auth
  sent : ∀ i, trace.countP (sends · i) ≤ timesSent s i

theorem recorded_opened (storage : ClientStorage) : Recorded [] (opened storage) where
  consistent := VnuRefreshDeps.consistent_start storage
  waiters := fun _ _ _ h => by simp [opened, VnuRefreshDeps.start] at h
  requests := fun _ _ h => by simp [opened] at h
  flights := fun _ _ _ h => by simp [opened, VnuRefreshDeps.start] at h
  sent := fun _ => Nat.zero_le _

variable {trace : List ClientStep} {turn : ClientTurn} {i : Nat} {r r' : Request}

theorem Starts.keep {e : ClientStep} (h : Starts e i r) (hmethod : r'.method = r.method) (hpathname : r'.pathname = r.pathname)
    (hpolicy : r'.policy = r.policy) (haccount : r'.account = r.account) : Starts e i r' := by
  rw [Starts, hmethod, hpathname, hpolicy, haccount]
  exact h

theorem RequestOk.keep (h : RequestOk trace s.refreshes i r) (e : ClientStep) {t : Refreshes ClientStorage}
    (hcarries : VnuRefreshDeps.Carries s.refreshes t) : RequestOk (trace ++ [e]) t i r := by
  obtain ⟨first, hfirst, hstarts⟩ := h.started
  refine ⟨⟨first, List.mem_append_left _ hfirst, hstarts⟩, h.first, fun waiter policy error hphase => ?_⟩
  obtain ⟨hsend, hpolicy, hnever, origin, haccount, hvnu, ⟨refused, hrefused, hexpires⟩, hwaits⟩ := h.refreshing waiter policy error hphase
  exact ⟨hsend, hpolicy, hnever, origin, haccount, hvnu, ⟨refused, List.mem_append_left _ hrefused, hexpires⟩, hwaits.carry hcarries⟩

/-- What a turn makes of a request is recorded. -/
theorem RequestOk.move (h : RequestOk trace s.refreshes i r) (hconsistent : VnuRefreshDeps.Consistent s.refreshes)
    (hget : s.requests[i]? = some r) (hmoves : Moves s turn i r r')
    (hcarries : VnuRefreshDeps.Carries s.refreshes (s.step turn).2.refreshes) :
    RequestOk (trace ++ [stepOf Client.step s turn]) (s.step turn).2.refreshes i r' := by
  have hkept := h.keep (stepOf Client.step s turn) hcarries
  cases hmoves with
  | aborted reason => exact ⟨hkept.started, hkept.first, hkept.refreshing⟩
  | done result => exact ⟨hkept.started, hkept.first, nofun⟩
  | @expired origin code reason reauth hcall hsending hfound hvnu hrecoverable hfirst hallowed hrefreshes =>
    refine ⟨hkept.started, hkept.first, ?_⟩
    rintro _ _ _ ⟨⟩
    obtain ⟨horigin, htoken⟩ := h.first hfirst
    have haccount : r.account = some origin := horigin.symm.trans hfound
    refine ⟨hfirst, rfl, hallowed, origin, haccount, hvnu, ⟨_, List.mem_append_right _ List.mem_cons_self, ?_⟩, ?_⟩
    · refine ⟨⟨code, reason, reauth, hcall, hrecoverable⟩, r, hget, hsending, hfirst, haccount, ?_⟩
      rw [htoken, haccount]
      rfl
    · rw [hrefreshes]
      exact VnuRefreshDeps.runVnuRefresh_waitsFor hconsistent origin r.signal
  | replayed hcall hreplays =>
    obtain ⟨first, hmem, hstarts⟩ := hkept.started
    exact ⟨⟨first, hmem, hstarts⟩, nofun, nofun⟩

theorem Recorded.sent_step (h : Recorded trace s) (turn : ClientTurn) (i : Nat) :
    (trace ++ [stepOf Client.step s turn]).countP (sends · i) ≤ timesSent (s.step turn).2 i := by
  have hbefore := h.sent i
  rw [List.countP_append, List.countP_singleton]
  have hquiet : isSending (s.step turn).2 i = false ∨ isSending s i = true → sends (stepOf Client.step s turn) i = false := by
    rintro (h | h)
    · simp [sends, stepOf, h]
    · simp [sends, stepOf, h]
  have hold : (s.step turn).2.requests[i]? = s.requests[i]? →
      trace.countP (sends · i) + (if sends (stepOf Client.step s turn) i = true then 1 else 0) ≤ timesSent (s.step turn).2 i := by
    intro hget
    have hsends : sends (stepOf Client.step s turn) i = false := by simp [sends, stepOf, isSending, hget]
    rw [hsends, timesSent, hget]
    exact hbefore
  rcases s.requests_step turn with ⟨method, pathname, policy, signal, -, hrequests⟩ | ⟨j, r, r', hget, hmoves, hrequests⟩ | hrequests
  · by_cases hlt : i < s.requests.length
    · exact hold (by rw [hrequests, List.getElem?_append_left hlt])
    · -- nothing of a request is recorded before it starts
      rw [timesSent_none (List.getElem?_eq_none (Nat.le_of_not_lt hlt))] at hbefore
      by_cases heq : i = s.requests.length
      · subst heq
        rw [timesSent_some (hrequests ▸ List.getElem?_concat_length)]
        simp only [Bool.false_eq_true, if_false]
        split <;> omega
      · exact hold (by rw [hrequests, List.getElem?_eq_none (by simp; omega), List.getElem?_eq_none (by omega)])
  · by_cases hne : j = i
    · subst hne
      have hlt := (List.getElem?_eq_some_iff.1 hget).1
      have hafter : (s.step turn).2.requests[j]? = some r' := by rw [hrequests, List.getElem?_set_self hlt]
      rw [timesSent_some hget] at hbefore
      rw [timesSent_some hafter]
      cases hmoves with
      | aborted reason =>
        have hsame : isSending (s.step turn).2 j = isSending s j := by simp only [isSending, hafter, hget, Option.any_some]
        rw [hquiet (hsame ▸ (Bool.eq_false_or_eq_true (isSending s j)).symm)]
        exact hbefore
      | done result =>
        rw [hquiet (.inl (by simp [isSending, hafter]))]
        exact hbefore
      | expired =>
        rw [hquiet (.inl (by simp [isSending, hafter]))]
        exact hbefore
      | replayed hcall hreplays =>
        obtain ⟨waiter, policy, error, auth, hphase, -⟩ := hreplays.refreshed
        rw [((h.requests j r hget).refreshing waiter policy error hphase).1] at hbefore
        simp only [Bool.false_eq_true, if_false, if_true] at hbefore ⊢
        split <;> omega
    · exact hold (by rw [hrequests, List.getElem?_set_ne hne])
  · exact hold (by rw [hrequests])

theorem Recorded.step (h : Recorded trace s) (turn : ClientTurn) : Recorded (trace ++ [stepOf Client.step s turn]) (s.step turn).2 := by
  obtain ⟨t, hrefreshes, hreact⟩ := s.refreshes_step turn
  have hcarries : VnuRefreshDeps.Carries s.refreshes (s.step turn).2.refreshes := by
    rw [hrefreshes]
    exact VnuRefreshDeps.carries_step h.consistent t
  constructor
  · rw [hrefreshes]
    exact h.consistent.step t
  · rw [hrefreshes]
    exact h.waiters.step h.consistent t
  · intro i r hget
    rcases s.requests_step turn with ⟨method, pathname, policy, signal, hturn, hrequests⟩ | ⟨j, q, q', hq, hmoves, hrequests⟩ | hrequests
    · rw [hrequests, List.getElem?_append] at hget
      split at hget
      · exact (h.requests i r hget).keep _ hcarries
      case isFalse hlt =>
        rw [List.getElem?_singleton] at hget
        split at hget
        case isFalse => cases hget
        case isTrue hzero =>
          cases hget
          refine ⟨⟨_, List.mem_append_right _ List.mem_cons_self, ⟨signal, hturn⟩, ?_, rfl⟩, fun _ => ⟨rfl, rfl⟩, nofun⟩
          exact (by omega : s.requests.length = i)
    · rw [hrequests, List.getElem?_set] at hget
      split at hget
      case isTrue heq =>
        subst heq
        split at hget
        · cases hget
          exact (h.requests j q hq).move h.consistent hq hmoves hcarries
        · cases hget
      case isFalse => exact (h.requests i r hget).keep _ hcarries
    · rw [hrequests] at hget
      exact (h.requests i r hget).keep _ hcarries
  · intro flight f' auth hf' hcommitted
    rw [hrefreshes] at hf'
    rcases VnuRefreshDeps.committed_step t hf' hcommitted with ⟨f, hf, haccount, hbefore⟩ | ⟨hturn, f, hcommits, haccount⟩
    · obtain ⟨e, hmem, hcommits⟩ := h.flights flight f auth hf hbefore
      exact ⟨e, List.mem_append_left _ hmem, haccount ▸ hcommits⟩
    · refine ⟨_, List.mem_append_right _ List.mem_cons_self, flight, hreact flight hturn, f, ?_, congrArg flightKey haccount⟩
      show VnuRefreshDeps.CommitsFlight refreshDeps s.refreshes (s.step turn).2.refreshes flight f auth
      rw [hrefreshes]
      exact hcommits
  · exact h.sent_step turn

theorem recorded_run {storage : ClientStorage} {clock : Nat} (h : ClientRun storage trace s clock) : Recorded trace s :=
  h.invariant (fun trace s _ => Recorded trace s) (recorded_opened storage) fun _ _ _ turn _ hrecorded _ _ => hrecorded.step turn

/-- A request that goes on to its replay. -/
theorem Recorded.replay (h : Recorded trace s) {token : String} (hreplays : Replays s i r token)
    (hafter : (s.step turn).2.requests[i]? = some r') (htoken : r'.failedToken = some token) :
    Replay trace (stepOf Client.step s turn) i r := by
  obtain ⟨waiter, policy, error, auth, hphase, hreplayed, hresult, rfl⟩ := hreplays.refreshed
  obtain ⟨-, hpolicy, hnever, origin, haccount, hvnu, hexpires, w, hw, hflight⟩ := (h.requests i r hreplays.found).refreshing _ _ _ hphase
  have hroute : requestPolicyFor r.method r.pathname = .safeReplay := by
    apply @route_of_reducedPolicy _ r.policy
    rw [← hpolicy]
    cases policy with
    | safeReplay => rfl
    | refreshNoReplay => exact absurd rfl hreplayed
    | never => exact absurd rfl hnever
  obtain ⟨hmethod, hpathname⟩ := requestPolicyFor_safeReplay.1 hroute
  rw [hw, Option.bind_some] at hresult
  obtain ⟨flight, f, hjoined, hf, hsettled⟩ := h.waiters waiter w auth hw hresult
  obtain ⟨g, hg, hkey⟩ := hflight flight hjoined
  obtain rfl : f = g := Option.some.inj (hf.symm.trans hg)
  have hcommitted : VnuRefreshDeps.committedAs f.phase = some auth := by
    rw [hsettled]
    rfl
  obtain ⟨refresh, hmem, flight', hreact, f', hcommits, hkey'⟩ := h.flights flight f auth hf hcommitted
  refine ⟨⟨origin, haccount, hvnu, (h.requests i r hreplays.found).started, hexpires, auth, ?_, r', hafter, htoken⟩, hmethod, hpathname,
    hreplays.unaborted⟩
  exact ⟨refresh, hmem, flight', hreact, f', hcommits, hkey'.trans hkey⟩

/-- A request is sent twice at most. It is sent again only when its method is GET and its path that of a safe replay, its session
expired, a refresh of just this account and token was committed, and its signal has not aborted; and then with the new token. -/
theorem replays_safe {storage : ClientStorage} {clock : Nat} (h : ClientRun storage trace s clock) :
    (∀ i, trace.countP (sends · i) ≤ 2) ∧
    ∀ pre e post i r, trace = pre ++ e :: post → sends e i = true → e.before.requests[i]? = some r → Replay pre e i r := by
  constructor
  · intro i
    refine Nat.le_trans ((recorded_run h).sent i) ?_
    cases hget : s.requests[i]? with
    | none =>
      rw [timesSent_none hget]
      exact Nat.zero_le _
    | some r =>
      rw [timesSent_some hget]
      split <;> omega
  · intro pre e post i r heq hsends hget
    obtain ⟨t, turn, clk, hrun, -, -, rfl⟩ := h.cut heq
    have hrecorded := recorded_run hrun
    have hget : t.requests[i]? = some r := hget
    have hafter : isSending (t.step turn).2 i = true ∧ isSending t i = false := by
      simpa [sends, stepOf] using hsends
    have hold : (t.step turn).2.requests[i]? ≠ t.requests[i]? := by
      intro hsame
      rw [isSending, hsame] at hafter
      exact absurd (hafter.1.symm.trans hafter.2) (by decide)
    rcases t.requests_step turn with ⟨_, _, _, _, -, hrequests⟩ | ⟨j, q, q', hq, hmoves, hrequests⟩ | hrequests
    · exact absurd (by rw [hrequests, List.getElem?_append_left (List.getElem?_eq_some_iff.1 hget).1]) hold
    · by_cases hne : j = i
      · subst hne
        obtain rfl : q = r := Option.some.inj (hq.symm.trans hget)
        have hmoved : (t.step turn).2.requests[j]? = some q' := by
          rw [hrequests, List.getElem?_set_self (List.getElem?_eq_some_iff.1 hget).1]
        simp only [isSending, hmoved, hget, Option.any_some] at hafter
        cases hmoves with
        | aborted reason => exact absurd (hafter.1.symm.trans hafter.2) (by decide)
        | done result => cases hafter.1
        | expired => cases hafter.1
        | replayed hcall hreplays => exact hrecorded.replay hreplays hmoved rfl
      · exact absurd (by rw [hrequests, List.getElem?_set_ne hne]) hold
    · exact absurd (by rw [hrequests]) hold

/-- The session of a request expires, its refresh is committed, and it is sent again. -/
theorem replays_safe_sample : ∃ pre e r, sends e 0 = true ∧ Replay pre e 0 r := by
  obtain ⟨clock, hrun⟩ := client_run (refreshTurns ++ replayTurns)
  have hsends : sends (stepOf Client.step refreshed (.resume 0)) 0 = true := by decide +kernel
  have hrequest : refreshed.requests[0]? = some
      { account := some firstAccount, method := "GET", pathname := "/api/vnu/grades", policy := none, signal := none,
        originatingAccount := some firstAccount, failedToken := some "t", noRefresh := false,
        phase := .refreshing 0 .safeReplay (.api (some "VNU_SESSION_EXPIRED")) } := by decide +kernel
  exact ⟨_, _, _, hsends, (replays_safe hrun).2 (execute Client.step (opened twoAccounts) refreshTurns) _
    [stepOf Client.step (stateAfter Client.step refreshed [.resume 0]) (.reply 0 (.ok (some "t3")) false)] 0 _ rfl hsends hrequest⟩

end Client

end Hyeboard.WebSession
