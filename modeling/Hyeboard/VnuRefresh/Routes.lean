import Hyeboard.VnuRefresh.Chain
import Hyeboard.VnuRefresh.LogoutTwice
/-!
# The routes that open, refresh and close VNU sessions

`apps/worker/src/app.ts`: sign-in (`issueVnuAuthResult`), `/api/vnu/auth/refresh`,
`/api/vnu/auth/logout` and the access check of every other route, on the object
of one principal. A request is a sequence of calls to the object, with the
portal's answer in between; requests interleave, their calls may fail or be
answered too late, and the portal may answer anything.
-/

namespace Hyeboard.VnuRefresh

/-! ## What the object's answers mean for a pair -/

section
variable {slot slot' : Option VnuRefreshControlState} {now clock : Nat} {operation : Operation} {pair old : LinkedPair}

theorem Dead.mono (h : Dead pair slot clock) (hle : clock ≤ now) : Dead pair slot now :=
  h.imp_left fun hexpired => Nat.le_trans hexpired hle

/-- The active pair of a slot that parses is not dead. -/
theorem not_dead_of_active (hvalid : SlotValid slot) (hactive : (cleanVnuRefreshState slot now).active = some pair)
    (hle : clock ≤ now) : ¬ Dead pair slot clock := by
  intro hdead
  have hlive := (clean_active_eq_some.1 hactive).2
  rcases dead_clean hdead hle with hexpired | ⟨tombstone, ht, -⟩
  · omega
  · rw [clean_active_grant hvalid hactive] at ht
    cases ht

/-- A refresh is begun only of the active pair. -/
theorem Effect.begun {leaseExpiresAt : Nat}
    (h : Effect slot now (.beginRefresh pair) (.ok (.beginRefresh (.accepted leaseExpiresAt))) slot') :
    SlotValid slot ∧ (cleanVnuRefreshState slot now).active = some pair := by
  cases h with
  | refused _ _ _ _ h =>
    rcases h with h | ⟨-, h⟩
    · cases h
    · simp only [Operation.verdict] at h
      repeat' split at h
      all_goals cases h
  | stored _ _ hvalid _ _ h =>
    cases h with
    | begin _ _ _ hactive _ _ => exact ⟨hvalid, hactive⟩
  | cleaned _ _ _ h _ => exact h.elim

/-- A logout that the object does not answer with a mismatch leaves the pair
dead. -/
theorem Effect.logout_dead {result : RevokeResult} (h : Effect slot now operation (.ok (.revoke result)) slot')
    (hop : operation = .revokeLinkedPairByAccess pair ∨ operation = .revokePrincipalByLinkedGrant pair)
    (hresult : result ≠ .mismatch) : Dead pair slot' now := by
  cases h with
  | refused _ _ _ _ h =>
    rcases h with h | ⟨-, h⟩
    · -- Case: expired
      rcases hop with rfl | rfl
      · simp only [Operation.shortcut, Option.ite_none_right_eq_some] at h
        exact .inl h.1.2
      · simp only [Operation.shortcut, Option.ite_none_right_eq_some] at h
        exact .inl h.1
    · -- Case: revoked before
      have hlinks : exactlyLinksGrantTombstone ((cleanVnuRefreshState slot now).revokedGrants.get? pair.grantId) pair = true := by
        rcases hop with rfl | rfl
        · simp only [Operation.verdict] at h
          split at h
          · rename_i hlinked
            exact hlinked.2
          · split at h
            · cases h
              exact absurd rfl hresult
            · cases h
        · simp only [Operation.verdict] at h
          split at h
          · split at h
            · assumption
            · cases h
              exact absurd rfl hresult
          · split at h
            · cases h
            · cases h
              exact absurd rfl hresult
      obtain ⟨successor, ht⟩ := exactlyLinks_iff.1 hlinks
      exact .inr ⟨_, (clean_grant_eq_some.1 ht).1, rfl⟩
  | stored _ _ hvalid _ _ h =>
    cases h with
    | revoke revoked _ _ _ =>
      rcases hop with hop | hop
      · cases hop
        exact .inr ⟨.linked (linkedGrantTombstone pair), by simp [get?_revokeExact], rfl⟩
      · cases hop
    | revokePrincipal proof current _ hactive hproof =>
      rcases hop with hop | hop
      · cases hop
      cases hop
      by_cases hid : pair.grantId = current.grantId
      · rcases hproof with rfl | ⟨hproves, -⟩
        · exact .inr ⟨.linked (linkedGrantTombstone current), by simp [get?_principalRevoked], rfl⟩
        · -- the proof's tombstone would lie under the active pair's grant
          rw [ProvesSuccessor, hid, clean_active_grant hvalid hactive] at hproves
          cases hproves
      · exact .inr ⟨.linked (linkedGrantTombstone pair),
          by rw [Option.bind_some, get?_principalRevoked, if_neg hid, if_pos rfl], rfl⟩
  | cleaned _ _ _ h _ =>
    rcases hop with rfl | rfl
    · exact h.elim
    · exact h.elim

/-- What an activation or a completed refresh names is the active pair. -/
theorem Effect.activated_active (h : Effect slot now (.activatePair pair) (.ok (.activatePair .activated)) slot') :
    slot'.bind (·.active) = some pair := by
  cases h with
  | refused _ _ _ _ h => exact active_of_refuses_activatePair h
  | stored _ _ _ _ _ h =>
    cases h with
    | activate _ _ _ => rfl
  | cleaned _ _ _ h _ => exact h.elim

theorem Effect.completed_active (h : Effect slot now (.completeRefresh old pair) (.ok (.completeRefresh .completed)) slot') :
    slot'.bind (·.active) = some pair := by
  obtain ⟨-, -, -, -, -, rfl⟩ := h.completed
  rfl

end

namespace Routes

structure ErrorDetails where
  retryAfterSeconds : Option Nat := none
  limit : Option Nat := none
  windowSeconds : Option Nat := none
deriving DecidableEq

structure HyeboardError where
  code : String
  message : String
  status : Nat
  details : Option ErrorDetails := none
deriving DecidableEq

/-- What a `catch` gets. -/
inductive Thrown where
  | hyeboardError (error : HyeboardError)
  | other
deriving DecidableEq

def vnuRefreshUnavailable : HyeboardError :=
  ⟨"VNU_REFRESH_UNAVAILABLE", "VNU reconnect is temporarily unavailable. Try again.", 503, some { retryAfterSeconds := some 5 }⟩

def vnuRefreshGrantRevoked : HyeboardError :=
  ⟨"VNU_REFRESH_GRANT_REVOKED", "The VNU reconnect grant has been revoked.", 401, none⟩

def vnuRefreshIdentityMismatch : HyeboardError :=
  ⟨"VNU_REFRESH_IDENTITY_MISMATCH", "The VNU reconnect identity did not match the signed-in account.", 409, none⟩

def sessionExpired : HyeboardError := ⟨"SESSION_EXPIRED", "Session expired", 401, none⟩

def beginResultError : BeginRefreshResult → Option HyeboardError
  | .revoked => some vnuRefreshGrantRevoked
  | .inProgress retryAfterSeconds =>
    some ⟨"VNU_REFRESH_UNAVAILABLE", "VNU reconnect is already in progress. Try again shortly.", 503,
      some { retryAfterSeconds := some retryAfterSeconds }⟩
  | .rateLimited retryAfterSeconds limit windowSeconds =>
    some ⟨"VNU_REFRESH_RATE_LIMITED", "Too many VNU reconnect attempts. Wait and try again.", 429,
      some { retryAfterSeconds := some retryAfterSeconds, limit := some limit, windowSeconds := some windowSeconds }⟩
  | .accepted _ => none

def isTerminalVnuRefreshFailure : Thrown → Bool
  | .hyeboardError error => error.code == "INVALID_VNU_CREDENTIAL" || error.code == "VNU_REFRESH_IDENTITY_MISMATCH"
  | .other => false

/-- `apiErrorDetailsSchema`: whatever is there is positive. -/
def approvedVnuRefreshDetails (error : HyeboardError) : Option ErrorDetails :=
  error.details.filter fun details =>
    details.retryAfterSeconds.all (0 < ·) && details.limit.all (0 < ·) && details.windowSeconds.all (0 < ·)

def vnuRequestFailed (details : Option ErrorDetails) : HyeboardError :=
  ⟨"VNU_REQUEST_FAILED", "The VNU reconnect request failed. Try again.", 502, details⟩

def publicVnuRefreshError : Thrown → HyeboardError
  | .other => vnuRequestFailed none
  | .hyeboardError error =>
    if error.code = "INVALID_VNU_CREDENTIAL" then ⟨error.code, "The VNU username or password is no longer valid.", 401, none⟩
    else if error.code = "VNU_REFRESH_IDENTITY_MISMATCH" then vnuRefreshIdentityMismatch
    else if error.code = "VNU_RATE_LIMITED" then
      ⟨error.code, "VNU is rate limiting requests. Wait and try again.", 429, approvedVnuRefreshDetails error⟩
    else if error.code = "VNU_UPSTREAM_UNAVAILABLE" then
      ⟨error.code, "The VNU portal is temporarily unavailable. Try again.", 502, approvedVnuRefreshDetails error⟩
    else if error.code = "VNU_REQUEST_FAILED" then vnuRequestFailed (approvedVnuRefreshDetails error)
    else if error.code = "VNU_REFRESH_UNAVAILABLE" then vnuRefreshUnavailable
    else if error.code = "VNU_REFRESH_GRANT_REVOKED" then vnuRefreshGrantRevoked
    else if error.code = "VNU_REFRESH_RATE_LIMITED" then
      ⟨error.code, "Too many VNU reconnect attempts. Wait and try again.", 429, approvedVnuRefreshDetails error⟩
    else vnuRequestFailed none

/-! ## Requests -/

/-- A request, by what it does next. The token, the body and the grant have been
accepted, and name these pairs. -/
inductive Request where
  /-- `/api/vnu/auth/refresh`, with whether token and grant are of one student. -/
  | refreshing (old : LinkedPair) (sameStudent : Bool)
  /-- It waits for the portal. -/
  | importing (old : LinkedPair)
  | completing (old next : LinkedPair)
  | aborting (old : LinkedPair) (error : Thrown)
  | signingIn (pair : LinkedPair)
  | signingOut (pair : LinkedPair) (withGrant : Bool)
  | checking (pair : LinkedPair)
deriving DecidableEq

inductive Answer where
  /-- An access token and a reconnect grant for the pair. -/
  | tokens (pair : LinkedPair)
  /-- The access token is honoured: the route goes on with its session. -/
  | session
  | signedOut
  | error (error : HyeboardError)
deriving DecidableEq

/-- How a request begins. -/
def Request.arrives : Request → Bool
  | .refreshing _ _ | .signingIn _ | .signingOut _ _ | .checking _ => true
  | _ => false

/-- The call it makes next. -/
def Request.operation : Request → Option Operation
  | .refreshing old sameStudent => some (if sameStudent then .beginRefresh old else .revokeLinkedPairByAccess old)
  | .importing _ => none
  | .completing old next => some (.completeRefresh old next)
  | .aborting old error => some (.abortRefresh old (isTerminalVnuRefreshFailure error))
  | .signingIn pair => some (.activatePair pair)
  | .signingOut pair withGrant => some (if withGrant then .revokePrincipalByLinkedGrant pair else .revokeLinkedPairByAccess pair)
  | .checking pair => some (.checkAccess pair)

/-- Of a logout answered `expired`: by this process's clock something of the
pair still counts. -/
def stillLive (pair : LinkedPair) (withGrant : Bool) (now : Nat) : Bool :=
  if withGrant then now < pair.grantExpiresAt else now < pair.accessExpiresAt || now < pair.grantExpiresAt

/-- What it does when the call is answered, `none` for a call that throws. -/
def Request.settle (request : Request) (result : Option OperationResult) (now : Nat) : Request ⊕ Answer :=
  match request, result with
  | .refreshing old true, some (.beginRefresh result) =>
    match beginResultError result with
    | none => .inl (.importing old)
    | some error => .inr (.error error)
  | .refreshing _ false, some (.revoke _) => .inr (.error vnuRefreshIdentityMismatch)
  | .completing _ next, some (.completeRefresh .completed) => .inr (.tokens next)
  | .completing _ _, some (.completeRefresh .revoked) => .inr (.error (publicVnuRefreshError (.hyeboardError vnuRefreshGrantRevoked)))
  | .completing old _, none => .inl (.aborting old (.hyeboardError vnuRefreshUnavailable))
  | .aborting _ error, some (.abortRefresh _) => .inr (.error (publicVnuRefreshError error))
  | .signingIn pair, some (.activatePair .activated) => .inr (.tokens pair)
  | .signingIn _, some (.activatePair (.rateLimited retryAfterSeconds _ _)) =>
    .inr (.error ⟨"VNU_MANUAL_ACTIVATION_RATE_LIMITED", "Too many VNU sign-ins. Wait before trying again.", 429,
      some { retryAfterSeconds }⟩)
  | .signingOut _ _, some (.revoke .revoked) => .inr .signedOut
  | .signingOut _ _, some (.revoke .mismatch) => .inr (.error vnuRefreshGrantRevoked)
  | .signingOut pair withGrant, some (.revoke .expired) =>
    .inr (if stillLive pair withGrant now then .error vnuRefreshGrantRevoked else .signedOut)
  | .checking _, some (.checkAccess .active) => .inr .session
  | .checking _, some (.checkAccess .revoked) => .inr (.error sessionExpired)
  | _, _ => .inr (.error vnuRefreshUnavailable)

/-! ## The system -/

structure System where
  storage : Storage
  requests : Nat → Option Request

def System.empty : System := { storage := .empty, requests := fun _ => none }

/-- How a call to the object goes. -/
inductive Delivery where
  | done
  /-- It was served, but the answer did not arrive. -/
  | lost
  /-- It did not arrive. -/
  | failed
deriving DecidableEq

inductive Action where
  | arrive (id : Nat) (request : Request)
  /-- The portal's answer: a session of the same student and the pair minted for
  it, or what was thrown until then. -/
  | portal (id : Nat) (outcome : Except Thrown LinkedPair)
  | call (id : Nat) (delivery : Delivery) (workerNow : Nat)
  | alarm

structure Event where
  now : Nat
  action : Action

/-- A call a request made: what the object did, if it was reached, and the
request's answer, if it was its last. -/
structure Made where
  request : Request
  served : Option (Except String OperationResult)
  answer : Option Answer

def System.goOn (s : System) (id : Nat) (request : Option Request) : System :=
  { s with requests := Function.update s.requests id request }

def step (s : System) (event : Event) : Option Made × System :=
  match event.action with
  | .arrive id request => (none, if s.requests id = none ∧ request.arrives then s.goOn id (some request) else s)
  | .portal id outcome =>
    match s.requests id, outcome with
    | some (.importing old), .ok next => (none, s.goOn id (some (.completing old next)))
    | some (.importing old), .error error => (none, s.goOn id (some (.aborting old error)))
    | _, _ => (none, s)
  | .call id delivery workerNow =>
    match s.requests id with
    | none => (none, s)
    | some request =>
      match request.operation with
      | none => (none, s)
      | some operation =>
        let (result, storage) := serve s.storage ⟨operation, event.now⟩
        let received := if delivery = .done then result.toOption else none
        let settled := request.settle received workerNow
        let made := { request, served := if delivery = .failed then none else some result, answer := settled.getRight? }
        let reached := if delivery = .failed then s else { s with storage }
        (some made, reached.goOn id settled.getLeft?)
  | .alarm => (none, { s with storage := (serve s.storage ⟨.alarm, event.now⟩).2 })

abbrev RouteRun := Run step Event.now (fun _ _ _ => True) System.empty

abbrev RouteStep := Step System Event (Option Made)

/-! ## What a step does -/

/-- The answer follows from what the object answered, where that arrived. -/
def Made.Settled (made : Made) : Prop :=
  ∃ received workerNow, (∀ result, received = some result → made.served = some (.ok result)) ∧
    made.answer = (made.request.settle received workerNow).getRight?

inductive Takes (storage : Storage) (now : Nat) : Option Made → Storage → Prop
  | idle : Takes storage now none storage
  | alarm : Takes storage now none (serve storage ⟨.alarm, now⟩).2
  | missed (made : Made) (hserved : made.served = none) (hsettled : made.Settled) : Takes storage now (some made) storage
  | served (made : Made) (operation : Operation) (hop : made.request.operation = some operation)
      (hserved : made.served = some (serve storage ⟨operation, now⟩).1) (hsettled : made.Settled) :
      Takes storage now (some made) (serve storage ⟨operation, now⟩).2

theorem step_takes (s : System) (event : Event) :
    Takes s.storage event.now (step s event).1 (step s event).2.storage := by
  unfold step
  split
  · -- Case: arrive
    split <;> exact .idle
  · -- Case: portal
    split <;> exact .idle
  · -- Case: call
    rename_i id delivery workerNow _
    split
    · exact .idle
    rename_i request _
    split
    · exact .idle
    rename_i operation hop
    cases delivery with
    | done =>
      refine .served _ operation hop rfl ⟨_, workerNow, fun result h => ?_, rfl⟩
      simp only [if_true, reduceCtorEq, if_false] at h ⊢
      cases hr : (serve s.storage ⟨operation, event.now⟩).1 with
      | ok answer =>
        rw [hr] at h
        rw [Option.some.inj h]
      | error error =>
        rw [hr] at h
        cases h
    | lost => exact .served _ operation hop rfl ⟨none, workerNow, by simp, rfl⟩
    | failed => exact .missed _ rfl ⟨none, workerNow, by simp, rfl⟩
  · -- Case: alarm
    exact .alarm

section
variable {request : Request} {received : Option OperationResult} {workerNow now clock : Nat} {pair old next : LinkedPair}
  {made : Made} {storage storage' : Storage} {result : OperationResult} {r : Option Made}

theorem settle_tokens (h : (request.settle received workerNow).getRight? = some (.tokens pair)) :
    (∃ old, request = .completing old pair ∧ received = some (.completeRefresh .completed)) ∨
      request = .signingIn pair ∧ received = some (.activatePair .activated) := by
  revert h
  unfold Request.settle
  split <;> simp_all
  all_goals split <;> simp

theorem settle_session (h : (request.settle received workerNow).getRight? = some .session) :
    received = some (.checkAccess .active) := by
  revert h
  unfold Request.settle
  split <;> simp_all
  all_goals split <;> simp

theorem settle_signedOut (h : (request.settle received workerNow).getRight? = some .signedOut) :
    ∃ result, received = some (.revoke result) ∧ result ≠ .mismatch := by
  revert h
  unfold Request.settle
  split <;> simp_all
  all_goals split <;> simp

/-- A refresh goes to the portal only with an accepted lease. -/
theorem settle_refreshing (h : ((Request.refreshing pair true).settle received workerNow).getRight? = none) :
    ∃ leaseExpiresAt, received = some (.beginRefresh (.accepted leaseExpiresAt)) := by
  revert h
  unfold Request.settle
  split <;> simp_all
  rename_i result _
  cases result <;> simp [beginResultError]

theorem Takes.settled (h : Takes storage now (some made) storage') : made.Settled := by
  cases h with
  | missed _ _ hsettled => exact hsettled
  | served _ _ _ _ hsettled => exact hsettled

theorem Takes.effect (h : Takes storage now (some made) storage') (hserved : made.served = some (.ok result))
    {operation : Operation} (hop : made.request.operation = some operation) :
    Effect storage.state now operation (.ok result) storage'.state := by
  cases h with
  | missed _ hmissed _ =>
    rw [hmissed] at hserved
    cases hserved
  | served _ called hcalled hanswered _ =>
    obtain rfl := Option.some.inj (hcalled.symm.trans hop)
    have heffect := serve_effect storage ⟨called, now⟩
    rwa [Option.some.inj (hanswered.symm.trans hserved)] at heffect

theorem Takes.tokens (h : Takes storage now (some made) storage') (hanswer : made.answer = some (.tokens next))
    (hrequest : made.request = .completing old next) :
    Effect storage.state now (.completeRefresh old next) (.ok (.completeRefresh .completed)) storage'.state := by
  obtain ⟨received, workerNow, hreceived, hsettle⟩ := h.settled
  rw [hsettle] at hanswer
  rcases settle_tokens hanswer with ⟨_, -, hr⟩ | ⟨hsigningIn, -⟩
  · exact h.effect (hreceived _ hr) (by rw [hrequest]; rfl)
  · rw [hrequest] at hsigningIn
    cases hsigningIn

theorem Takes.session (h : Takes storage now (some made) storage') (hanswer : made.answer = some .session)
    (hrequest : made.request = .checking pair) :
    Effect storage.state now (.checkAccess pair) (.ok (.checkAccess .active)) storage'.state := by
  obtain ⟨received, workerNow, hreceived, hsettle⟩ := h.settled
  rw [hsettle] at hanswer
  exact h.effect (hreceived _ (settle_session hanswer)) (by rw [hrequest]; rfl)

theorem Takes.began (h : Takes storage now (some made) storage') (hanswer : made.answer = none)
    (hrequest : made.request = .refreshing pair true) :
    ∃ leaseExpiresAt, Effect storage.state now (.beginRefresh pair) (.ok (.beginRefresh (.accepted leaseExpiresAt)))
      storage'.state := by
  obtain ⟨received, workerNow, hreceived, hsettle⟩ := h.settled
  rw [hsettle, hrequest] at hanswer
  obtain ⟨leaseExpiresAt, hr⟩ := settle_refreshing hanswer
  exact ⟨leaseExpiresAt, h.effect (hreceived _ hr) (by rw [hrequest]; rfl)⟩

theorem Takes.signedOut_dead {withGrant : Bool} (h : Takes storage now (some made) storage')
    (hanswer : made.answer = some .signedOut) (hrequest : made.request = .signingOut pair withGrant) :
    Dead pair storage'.state now := by
  obtain ⟨received, workerNow, hreceived, hsettle⟩ := h.settled
  rw [hsettle] at hanswer
  obtain ⟨result, hr, hmismatch⟩ := settle_signedOut hanswer
  have heffect := h.effect (hreceived _ hr) (by rw [hrequest]; rfl)
  refine heffect.logout_dead ?_ hmismatch
  cases withGrant with
  | true => exact .inr rfl
  | false => exact .inl rfl

theorem Takes.keeps_dead (h : Takes storage now r storage') (hle : clock ≤ now) (hdead : Dead pair storage.state clock) :
    Dead pair storage'.state now := by
  cases h with
  | idle => exact hdead.mono hle
  | missed _ _ _ => exact hdead.mono hle
  | alarm => exact (serve_effect storage ⟨.alarm, now⟩).keeps_dead hle hdead
  | served _ operation _ _ _ => exact (serve_effect storage ⟨operation, now⟩).keeps_dead hle hdead

end

/-! ## Ended pairs -/

/-- The client has been told that `pair` is over: its refresh was answered with
new tokens, or its logout was answered. -/
def Ends (pair : LinkedPair) (e : RouteStep) : Prop :=
  ∃ made, e.result = some made ∧
    ((∃ next, made.request = .completing pair next ∧ made.answer = some (.tokens next)) ∨
      ∃ withGrant, made.request = .signingOut pair withGrant ∧ made.answer = some .signedOut)

/-- The step goes on with a request on the authority of `pair`: its access token
is honoured, its grant's password goes to the portal, or a refresh of it is
answered with tokens. -/
def Honours (pair : LinkedPair) (e : RouteStep) : Prop :=
  ∃ made, e.result = some made ∧
    (made.request = .checking pair ∧ made.answer = some .session ∨
      made.request = .refreshing pair true ∧ made.answer = none ∨
      ∃ next, made.request = .completing pair next ∧ made.answer = some (.tokens next))

section
variable {s : System} {event : Event} {clock : Nat} {pair : LinkedPair} {trace : List RouteStep}

theorem Ends.dead (h : Ends pair (stepOf step s event)) : Dead pair (step s event).2.storage.state event.now := by
  obtain ⟨made, hmade, h⟩ := h
  have htakes := step_takes s event
  rw [show (step s event).1 = some made from hmade] at htakes
  rcases h with ⟨next, hrequest, hanswer⟩ | ⟨withGrant, hrequest, hanswer⟩
  · exact (htakes.tokens hanswer hrequest).refreshed_dead
  · exact htakes.signedOut_dead hanswer hrequest

theorem Honours.not_dead (h : Honours pair (stepOf step s event)) (hle : clock ≤ event.now) :
    ¬ Dead pair s.storage.state clock := by
  obtain ⟨made, hmade, h⟩ := h
  have htakes := step_takes s event
  rw [show (step s event).1 = some made from hmade] at htakes
  intro hdead
  rcases h with ⟨hrequest, hanswer⟩ | ⟨hrequest, hanswer⟩ | ⟨next, hrequest, hanswer⟩
  · exact (htakes.session hanswer hrequest).rejects_dead hle hdead rfl
  · obtain ⟨leaseExpiresAt, heffect⟩ := htakes.began hanswer hrequest
    exact not_dead_of_active heffect.begun.1 heffect.begun.2 hle hdead
  · exact (htakes.tokens hanswer hrequest).completed_not_dead hle hdead

/-- Once a client has been told that a pair is over, no request goes on with its
authority: not one that arrives later, nor one whose calls were still under way. -/
theorem ended_never_honoured (h : RouteRun trace s clock) :
    trace.Pairwise fun e later => ∀ pair, Ends pair e → ¬ Honours pair later := by
  refine h.pairwise (fun e s clock => ∀ pair, Ends pair e → Dead pair s.storage.state clock) ?_ ?_ ?_
  · intro _ s _ event _ _ _ pair hends
    exact hends.dead
  · intro e _ s clock event _ hle _ hdead pair hends
    exact (step_takes s event).keeps_dead hle (hdead pair hends)
  · intro e _ s clock event _ hle _ hdead pair hends hhonours
    exact hhonours.not_dead hle (hdead pair hends)

end

/-- A sign-in, a refresh of its pair, a check with the old access token that
arrived before the refresh was done, and one with the new. -/
def refreshEvents : List Event :=
  [⟨testNow, .arrive 0 (.signingIn oldPair)⟩, ⟨testNow, .call 0 .done testNow⟩,
    ⟨testNow + 1, .arrive 1 (.refreshing oldPair true)⟩, ⟨testNow + 1, .arrive 2 (.checking oldPair)⟩,
    ⟨testNow + 1, .call 1 .done testNow⟩, ⟨testNow + 2, .portal 1 (.ok nextPair)⟩,
    ⟨testNow + 3, .call 1 .done testNow⟩, ⟨testNow + 4, .call 2 .done testNow⟩,
    ⟨testNow + 5, .arrive 3 (.checking nextPair)⟩, ⟨testNow + 5, .call 3 .done testNow⟩]

theorem ended_never_honoured_refreshed :
    Ends oldPair (execute step .empty refreshEvents)[6] ∧ ¬ Honours oldPair (execute step .empty refreshEvents)[7] := by
  have hstart : RouteRun [] .empty 0 := .start
  obtain ⟨clock, hrun⟩ := hstart.follow refreshEvents (by decide) fun _ _ _ => trivial
  have hends : Ends oldPair (execute step .empty refreshEvents)[6] := ⟨_, rfl, .inl ⟨nextPair, rfl, rfl⟩⟩
  exact ⟨hends, List.pairwise_iff_getElem.1 (ended_never_honoured hrun) 6 7 (by decide) (by decide) (by decide) oldPair hends⟩

/-! ## Opened pairs -/

/-- The object opened `pair`, whether or not the request learnt of it. -/
def Opens (pair : LinkedPair) (e : RouteStep) : Prop :=
  ∃ made, e.result = some made ∧
    (made.request = .signingIn pair ∧ made.served = some (.ok (.activatePair .activated)) ∨
      ∃ old, made.request = .completing old pair ∧ made.served = some (.ok (.completeRefresh .completed)))

/-- Of the pairs opened in `trace`, `pair` was the last. -/
def LastOpened (pair : LinkedPair) (trace : List RouteStep) : Prop :=
  ∃ before opened after, trace = before ++ opened :: after ∧ Opens pair opened ∧ ∀ e ∈ after, ∀ other, ¬ Opens other e

section
variable {s : System} {event : Event} {clock : Nat} {pair : LinkedPair} {trace : List RouteStep}

theorem operation_eq_activatePair {request : Request} (h : request.operation = some (.activatePair pair)) :
    request = .signingIn pair := by
  cases request <;> simp_all [Request.operation]
  all_goals split at h <;> cases h

theorem operation_eq_completeRefresh {request : Request} {old : LinkedPair}
    (h : request.operation = some (.completeRefresh old pair)) : request = .completing old pair := by
  cases request <;> simp_all [Request.operation]
  all_goals split at h <;> cases h

theorem Opens.active (h : Opens pair (stepOf step s event)) :
    (step s event).2.storage.state.bind (·.active) = some pair := by
  obtain ⟨made, hmade, h⟩ := h
  have htakes := step_takes s event
  rw [show (step s event).1 = some made from hmade] at htakes
  rcases h with ⟨hrequest, hserved⟩ | ⟨old, hrequest, hserved⟩
  · exact (htakes.effect hserved (by rw [hrequest]; rfl)).activated_active
  · exact (htakes.effect hserved (by rw [hrequest]; rfl)).completed_active

/-- The active pair was active before, or this step opened it. -/
theorem active_origin (h : (step s event).2.storage.state.bind (·.active) = some pair) :
    s.storage.state.bind (·.active) = some pair ∨ Opens pair (stepOf step s event) := by
  have htakes := step_takes s event
  generalize hresult : (step s event).1 = result at htakes
  generalize hstorage : (step s event).2.storage = storage at htakes h
  cases htakes with
  | idle => exact .inl h
  | missed _ _ _ => exact .inl h
  | alarm =>
    rcases (serve_effect s.storage ⟨.alarm, event.now⟩).active_origin h with h | ⟨h, -⟩ | ⟨_, h, -⟩
    · exact .inl h
    · cases h
    · cases h
  | served made operation hop hserved _ =>
    rcases (serve_effect s.storage ⟨operation, event.now⟩).active_origin h with h | ⟨hactivate, hdone⟩ | ⟨old, hcomplete, hdone⟩
    · exact .inl h
    · obtain rfl : operation = .activatePair pair := hactivate
      exact .inr ⟨made, hresult, .inl ⟨operation_eq_activatePair hop, hserved.trans (congrArg some hdone)⟩⟩
    · obtain rfl : operation = .completeRefresh old pair := hcomplete
      exact .inr ⟨made, hresult, .inr ⟨old, operation_eq_completeRefresh hop, hserved.trans (congrArg some hdone)⟩⟩

theorem lastOpened_of_active (h : RouteRun trace s clock) :
    ∀ pair, s.storage.state.bind (·.active) = some pair → LastOpened pair trace := by
  refine h.invariant (fun trace s _ => ∀ pair, s.storage.state.bind (·.active) = some pair → LastOpened pair trace) ?_ ?_
  · intro pair h
    cases h
  · intro trace s clock event _ ih _ _ pair hactive
    by_cases hopens : Opens pair (stepOf step s event)
    · exact ⟨trace, stepOf step s event, [], rfl, hopens, fun _ he => absurd he List.not_mem_nil⟩
    · have hbefore := (active_origin hactive).resolve_right hopens
      obtain ⟨before, opened, after, rfl, hopened, hafter⟩ := ih pair hbefore
      refine ⟨before, opened, after ++ [stepOf step s event], by simp, hopened, fun e he other hother => ?_⟩
      rcases List.mem_append.1 he with he | he
      · exact hafter e he other hother
      · -- what this step opened would be the active pair
        rw [List.mem_singleton.1 he] at hother
        obtain rfl := Option.some.inj (hother.active.symm.trans hactive)
        exact hopens hother

theorem Honours.active (h : Honours pair (stepOf step s event)) :
    s.storage.state.bind (·.active) = some pair ∧ event.now < pair.grantExpiresAt := by
  obtain ⟨made, hmade, h⟩ := h
  have htakes := step_takes s event
  rw [show (step s event).1 = some made from hmade] at htakes
  rcases h with ⟨hrequest, hanswer⟩ | ⟨hrequest, hanswer⟩ | ⟨next, hrequest, hanswer⟩
  · obtain ⟨hactive, hgrant, -⟩ := (htakes.session hanswer hrequest).checked
    exact ⟨hactive, hgrant⟩
  · obtain ⟨leaseExpiresAt, heffect⟩ := htakes.began hanswer hrequest
    exact clean_active_eq_some.1 heffect.begun.2
  · obtain ⟨-, -, -, hactive, -, -⟩ := (htakes.tokens hanswer hrequest).completed
    exact clean_active_eq_some.1 hactive

theorem Honours.access (h : Honours pair (stepOf step s event))
    (hsession : (stepOf step s event).result.bind (·.answer) = some .session) : event.now < pair.accessExpiresAt := by
  obtain ⟨made, hmade, h⟩ := h
  rw [hmade, Option.bind_some] at hsession
  have htakes := step_takes s event
  rw [show (step s event).1 = some made from hmade] at htakes
  rcases h with ⟨hrequest, hanswer⟩ | ⟨-, hanswer⟩ | ⟨next, -, hanswer⟩
  · exact (htakes.session hanswer hrequest).checked.2.2
  · rw [hanswer] at hsession
    cases hsession
  · rw [hanswer] at hsession
    cases hsession

/-- Tokens are handed out in the step that opens their pair, and a pair is
honoured only while it is the pair opened last and has not expired. -/
theorem honoured_last_opened (h : RouteRun trace s clock) :
    (∀ e ∈ trace, ∀ made, e.result = some made → ∀ pair, made.answer = some (.tokens pair) → Opens pair e) ∧
      ∀ earlier e later pair, trace = earlier ++ e :: later → Honours pair e →
        LastOpened pair earlier ∧ e.call.now < pair.grantExpiresAt ∧
          (e.result.bind (·.answer) = some .session → e.call.now < pair.accessExpiresAt) := by
  refine ⟨fun e he made hmade pair hanswer => ?_, fun earlier e later pair htrace hhonours => ?_⟩
  · obtain ⟨earlier, later, htrace⟩ := List.append_of_mem he
    obtain ⟨s, event, _, -, -, -, rfl⟩ := h.cut htrace
    have htakes := step_takes s event
    rw [show (step s event).1 = some made from hmade] at htakes
    obtain ⟨received, workerNow, hreceived, hsettle⟩ := htakes.settled
    rw [hsettle] at hanswer
    refine ⟨made, hmade, ?_⟩
    rcases settle_tokens hanswer with ⟨old, hrequest, hr⟩ | ⟨hrequest, hr⟩
    · exact .inr ⟨old, hrequest, hreceived _ hr⟩
    · exact .inl ⟨hrequest, hreceived _ hr⟩
  · obtain ⟨s, event, clock, hrun, -, -, rfl⟩ := h.cut htrace
    obtain ⟨hactive, hgrant⟩ := hhonours.active
    exact ⟨lastOpened_of_active hrun pair hactive, hgrant, hhonours.access⟩

end

theorem honoured_last_opened_refreshed :
    Honours nextPair (execute step .empty refreshEvents)[9] ∧
      LastOpened nextPair ((execute step .empty refreshEvents).take 9) := by
  have hstart : RouteRun [] .empty 0 := .start
  obtain ⟨clock, hrun⟩ := hstart.follow refreshEvents (by decide) fun _ _ _ => trivial
  have hhonours : Honours nextPair (execute step .empty refreshEvents)[9] := ⟨_, rfl, .inl ⟨rfl, rfl⟩⟩
  exact ⟨hhonours, ((honoured_last_opened hrun).2 _ _ [] nextPair rfl hhonours).1⟩

end Routes

end Hyeboard.VnuRefresh
