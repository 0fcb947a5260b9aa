import Hyeboard.Sessions.TokenRevocation
/-!
# A logout sticks

A revocation is recorded where it can be, and a check asks where it can.
`Steady` says when the two meet: in every run of such calls a token whose
revocation has returned is revoked until the time it was given (`logout_sticks`).
-/

namespace Hyeboard.Sessions

abbrev RevocationStep := Step RevocationState RevocationCall RevocationOutcome

namespace RevocationCall

def startedAt : RevocationCall → Nat
  | .revokeToken _ _ now _ _ => now
  | .isTokenRevoked _ now _ => now

def finishedAt : RevocationCall → Nat
  | .revokeToken _ _ now delay _ => now + delay
  | .isTokenRevoked _ now _ => now

end RevocationCall

inductive Place where
  | store
  | cache
deriving DecidableEq, Repr

namespace Deployment

variable (deployment : Deployment)

/-- Where a revocation is recorded; the store may throw once it has recorded it. -/
def recordedIn (answer : StoreAnswer) : Place → Bool
  | .store => deployment.storeInstalled && match answer with
    | .answers => true
    | .throws recorded => recorded
  | .cache => !deployment.storeInstalled || match answer with
    | .answers => false
    | .throws _ => true

/-- Where a check looks. -/
def consulted (answer : StoreAnswer) : Place :=
  if deployment.storeInstalled && answer == .answers then .store else .cache

/-- Some call of the trace recorded a revocation of the token there, until then. -/
def Recorded (trace : List RevocationStep) (place : Place) (token : String) (expiresAt : Nat) : Prop :=
  ∃ e ∈ trace, ∃ now delay answer, e.call = .revokeToken token expiresAt now delay answer ∧
    deployment.recordedIn answer place = true

/-- When the entry of a revocation leaves the cache. -/
def cachedUntil (expiresAt now delay : Nat) : Nat := now + delay + ttlSeconds expiresAt now * 1000

/-- The condition on a call. A revocation that goes to the cache has whole seconds
left (up to what the write took), and replaces no entry that lives longer. A check
of a revoked token looks where an unexpired revocation was recorded. -/
def Steady (trace : List RevocationStep) : RevocationCall → Prop
  | .revokeToken token expiresAt now delay answer => deployment.recordedIn answer .cache = true →
      expiresAt ≤ cachedUntil expiresAt now delay ∧
        (0 < ttlSeconds expiresAt now → ∀ other earlier,
          cacheUrl (deployment.revokedTokenKey other) = cacheUrl (deployment.revokedTokenKey token) →
          deployment.Recorded trace .cache other earlier → earlier ≤ cachedUntil expiresAt now delay)
  | .isTokenRevoked token now answer =>
      (∃ place expiresAt, deployment.Recorded trace place token expiresAt ∧ now < expiresAt) →
        ∃ expiresAt, deployment.Recorded trace (deployment.consulted answer) token expiresAt ∧ now < expiresAt

end Deployment

/-- The runs of one call after another, on a clock that never goes back. -/
abbrev RevocationRun (deployment : Deployment) (ok : List RevocationStep → RevocationCall → Prop)
    (trace : List RevocationStep) (s : RevocationState) (clock : Nat) : Prop :=
  Run deployment.handle RevocationCall.startedAt
    (fun trace _ call => (∀ e ∈ trace, e.call.finishedAt ≤ call.startedAt) ∧ ok trace call)
    { store := .empty, cache := .empty } trace s clock

/-- A check after a revocation has returned, and before it expires, finds it. -/
def Sticks (trace : List RevocationStep) : Prop :=
  trace.Pairwise fun e later => ∀ token expiresAt now delay answer now' answer',
    e.call = .revokeToken token expiresAt now delay answer → e.result = .returned →
    later.call = .isTokenRevoked token now' answer' → now' < expiresAt → later.result = .revoked true

/-- What the two places know after a run. -/
structure Kept (deployment : Deployment) (trace : List RevocationStep) (s : RevocationState) : Prop where
  store : ∀ token expiresAt, deployment.Recorded trace .store token expiresAt →
    ∃ known, s.store.get? token = some known ∧ expiresAt ≤ known
  cache : ∀ token expiresAt now, deployment.Recorded trace .cache token expiresAt →
    (∀ e ∈ trace, e.call.finishedAt ≤ now) → now < expiresAt →
    ∃ known, s.cache.get? (cacheUrl (deployment.revokedTokenKey token)) = some known ∧ expiresAt ≤ known

section
variable {deployment : Deployment} {trace : List RevocationStep} {s : RevocationState} {token : String} {expiresAt : Nat}

theorem recorded_snoc {e : RevocationStep} {place : Place} :
    deployment.Recorded (trace ++ [e]) place token expiresAt ↔ deployment.Recorded trace place token expiresAt ∨
      ∃ now delay answer, e.call = .revokeToken token expiresAt now delay answer ∧ deployment.recordedIn answer place = true := by
  simp only [Deployment.Recorded, List.mem_append, List.mem_singleton, or_and_right, exists_or, exists_eq_left]

/-! ## What a call does to each place -/

theorem revokeToken_store (now delay : Nat) (answer : StoreAnswer) :
    (deployment.revokeToken s token expiresAt now delay answer).2.store =
      if deployment.recordedIn answer .store then storeRevoke s.store token expiresAt else s.store := by
  unfold Deployment.revokeToken Deployment.recordedIn
  cases deployment.storeInstalled <;> cases deployment.distributed <;> rcases answer with _ | recorded
  all_goals first | rfl | (cases recorded <;> rfl)

theorem revokeToken_cache (hmode : deployment.distributed = false) (now delay : Nat) (answer : StoreAnswer) :
    (deployment.revokeToken s token expiresAt now delay answer).2.cache =
      if deployment.recordedIn answer .cache then
        cachePut s.cache (deployment.revokedTokenKey token) (ttlSeconds expiresAt now) (now + delay)
      else s.cache := by
  unfold Deployment.revokeToken Deployment.recordedIn
  rw [hmode]
  cases deployment.storeInstalled <;> rcases answer with _ | recorded
  all_goals first | rfl | (cases recorded <;> rfl)

theorem isTokenRevoked_store (now : Nat) (answer : StoreAnswer) :
    (deployment.isTokenRevoked s token now answer).2.store = s.store := by
  unfold Deployment.isTokenRevoked
  cases deployment.storeInstalled <;> cases deployment.distributed <;> cases answer <;> rfl

/-- A check drops at most an entry that has expired. -/
theorem isTokenRevoked_cache (now : Nat) (answer : StoreAnswer) {url : String} {known : Nat}
    (hget : s.cache.get? url = some known) (hlive : now < known) :
    (deployment.isTokenRevoked s token now answer).2.cache.get? url = some known := by
  have hfound : (cacheGet s.cache (deployment.revokedTokenKey token) now).2.get? url = some known := by
    unfold cacheGet cacheMatch
    split
    · exact hget
    · rename_i found hentry
      split
      · rename_i hexpired
        rw [Record.get?_delete]
        split
        · rename_i hurl
          rw [← hurl, hget, Option.some_inj] at hentry
          omega
        · exact hget
      · exact hget
  unfold Deployment.isTokenRevoked
  cases deployment.storeInstalled <;> cases deployment.distributed <;> cases answer
  all_goals first | exact hget | exact hfound

theorem get?_storeRevoke (store : Record Nat) (other : String) :
    (storeRevoke store token expiresAt).get? other =
      if other = token then some (max ((store.get? token).getD 0) expiresAt) else store.get? other :=
  Record.get?_set _ _ _ _

/-! ## Runs -/

theorem Kept.start : Kept deployment [] { store := .empty, cache := .empty } := by
  constructor
  · rintro token expiresAt ⟨e, hmem, -⟩
    cases hmem
  · rintro token expiresAt now ⟨e, hmem, -⟩
    cases hmem

theorem Kept.revokeToken (hmode : deployment.distributed = false) (h : Kept deployment trace s) {now delay : Nat}
    {answer : StoreAnswer} (hsteady : deployment.Steady trace (.revokeToken token expiresAt now delay answer)) :
    Kept deployment (trace ++ [stepOf deployment.handle s (.revokeToken token expiresAt now delay answer)])
      (deployment.revokeToken s token expiresAt now delay answer).2 := by
  constructor
  · intro other earlier hrecorded
    rw [revokeToken_store]
    rcases recorded_snoc.1 hrecorded with hold | ⟨_, _, _, hcall, hplace⟩
    · obtain ⟨known, hget, hle⟩ := h.store other earlier hold
      split
      · rw [get?_storeRevoke]
        split
        · rename_i heq
          subst heq
          rw [hget]
          exact ⟨_, rfl, Nat.le_trans hle (Nat.le_max_left _ _)⟩
        · exact ⟨known, hget, hle⟩
      · exact ⟨known, hget, hle⟩
    · cases hcall
      rw [if_pos hplace, get?_storeRevoke, if_pos rfl]
      exact ⟨_, rfl, Nat.le_max_right _ _⟩
  · intro other earlier t hrecorded hfinished hlive
    rw [revokeToken_cache hmode]
    have htime : now + delay ≤ t := hfinished _ (List.mem_append_right _ (List.mem_singleton.2 rfl))
    have hold := fun hrecorded => h.cache other earlier t hrecorded
      (fun e hmem => hfinished e (List.mem_append_left _ hmem)) hlive
    by_cases hcached : deployment.recordedIn answer .cache = true
    · obtain ⟨huntil, hreplaced⟩ := hsteady hcached
      rw [if_pos hcached, cachePut]
      split
      · rename_i hzero
        rcases recorded_snoc.1 hrecorded with hbefore | ⟨_, _, _, hcall, -⟩
        · exact hold hbefore
        · -- nothing was written, and nothing is left of the time
          cases hcall
          unfold Deployment.cachedUntil at huntil
          omega
      · rename_i hpositive
        rw [cacheStore, Record.get?_set]
        have hpos : 0 < ttlSeconds expiresAt now := Nat.pos_of_ne_zero hpositive
        rcases recorded_snoc.1 hrecorded with hbefore | ⟨_, _, _, hcall, -⟩
        · split
          · rename_i hurl
            exact ⟨_, rfl, hreplaced hpos other earlier hurl hbefore⟩
          · exact hold hbefore
        · cases hcall
          rw [if_pos rfl]
          exact ⟨_, rfl, huntil⟩
    · rw [if_neg hcached]
      rcases recorded_snoc.1 hrecorded with hbefore | ⟨_, _, _, hcall, hplace⟩
      · exact hold hbefore
      · cases hcall
        exact absurd hplace hcached

theorem Kept.isTokenRevoked (h : Kept deployment trace s) {now : Nat} {answer : StoreAnswer} :
    Kept deployment (trace ++ [stepOf deployment.handle s (.isTokenRevoked token now answer)])
      (deployment.isTokenRevoked s token now answer).2 := by
  constructor
  · intro other earlier hrecorded
    rw [isTokenRevoked_store]
    rcases recorded_snoc.1 hrecorded with hbefore | ⟨_, _, _, hcall, -⟩
    · exact h.store other earlier hbefore
    · cases hcall
  · intro other earlier t hrecorded hfinished hlive
    rcases recorded_snoc.1 hrecorded with hbefore | ⟨_, _, _, hcall, -⟩
    · obtain ⟨known, hget, hle⟩ := h.cache other earlier t hbefore
        (fun e hmem => hfinished e (List.mem_append_left _ hmem)) hlive
      have htime : now ≤ t := hfinished _ (List.mem_append_right _ (List.mem_singleton.2 rfl))
      exact ⟨known, isTokenRevoked_cache now answer hget (by omega), hle⟩
    · cases hcall

/-- A steady check of a revoked token finds the revocation. -/
theorem Kept.revoked (hmode : deployment.distributed = false) (h : Kept deployment trace s) {now : Nat} {answer : StoreAnswer}
    (hfinished : ∀ e ∈ trace, e.call.finishedAt ≤ now)
    (hsteady : deployment.Steady trace (.isTokenRevoked token now answer)) {place : Place}
    (hrecorded : deployment.Recorded trace place token expiresAt) (hlive : now < expiresAt) :
    (deployment.isTokenRevoked s token now answer).1 = .revoked true := by
  obtain ⟨latest, hthere, hlater⟩ := hsteady ⟨place, expiresAt, hrecorded, hlive⟩
  have hstore : deployment.consulted answer = .store → storeRevoked s.store token now = true := by
    intro hplace
    rw [hplace] at hthere
    obtain ⟨known, hget, hle⟩ := h.store token latest hthere
    rw [storeRevoked, hget]
    exact decide_eq_true (Nat.lt_of_lt_of_le hlater hle)
  have hcache : deployment.consulted answer = .cache →
      (cacheGet s.cache (deployment.revokedTokenKey token) now).1 = true := by
    intro hplace
    rw [hplace] at hthere
    obtain ⟨known, hget, hle⟩ := h.cache token latest now hthere hfinished hlater
    rw [cacheGet, cacheMatch, hget]
    dsimp only
    rw [if_neg (by omega)]
  unfold Deployment.consulted at hstore hcache
  unfold Deployment.isTokenRevoked
  rw [hmode]
  cases hinstalled : deployment.storeInstalled with
  | false => exact congrArg RevocationOutcome.revoked (hcache (by rw [hinstalled]; rfl))
  | true =>
    cases answer with
    | answers => exact congrArg RevocationOutcome.revoked (hstore (by rw [hinstalled]; rfl))
    | throws _ => exact congrArg RevocationOutcome.revoked (hcache (by rw [hinstalled]; rfl))

/-- Every revocation is recorded somewhere. -/
theorem recordedIn_some (deployment : Deployment) (answer : StoreAnswer) :
    ∃ place, deployment.recordedIn answer place = true := by
  cases hinstalled : deployment.storeInstalled with
  | false => exact ⟨.cache, by simp [Deployment.recordedIn, hinstalled]⟩
  | true =>
    cases answer with
    | answers => exact ⟨.store, by simp [Deployment.recordedIn, hinstalled]⟩
    | throws _ => exact ⟨.cache, by simp [Deployment.recordedIn]⟩

end

/-- Outside distributed mode, a completed logout sticks in every run of steady
calls. -/
theorem logout_sticks {deployment : Deployment} (hmode : deployment.distributed = false) {trace : List RevocationStep}
    {s : RevocationState} {clock : Nat} (h : RevocationRun deployment deployment.Steady trace s clock) : Sticks trace := by
  have hall : Kept deployment trace s ∧ Sticks trace := by
    apply Run.invariant (fun trace s _ => Kept deployment trace s ∧ Sticks trace) ⟨Kept.start, List.Pairwise.nil⟩ _ h
    intro trace s clock call _ ih _ hok
    obtain ⟨hkept, hsticks⟩ := ih
    obtain ⟨hfinished, hsteady⟩ := hok
    constructor
    · cases call with
      | revokeToken token expiresAt now delay answer => exact hkept.revokeToken hmode hsteady
      | isTokenRevoked token now answer => exact hkept.isTokenRevoked
    · unfold Sticks
      rw [List.pairwise_append]
      refine ⟨hsticks, List.pairwise_singleton _ _, ?_⟩
      rintro e hmem later hlater token expiresAt now delay answer now' answer' hcall - hcheck hlive
      rw [List.mem_singleton] at hlater
      subst hlater
      obtain rfl : call = .isTokenRevoked token now' answer' := hcheck
      obtain ⟨place, hplace⟩ := recordedIn_some deployment answer
      exact hkept.revoked hmode hfinished hsteady ⟨e, hmem, now, delay, answer, hcall, hplace⟩ hlive
  exact hall.2

/-! ### Two runs -/

def memoryDeployment : Deployment := { distributed := false, storeInstalled := true, hmacHex := id }

def logoutCall (answer : StoreAnswer) : RevocationCall := .revokeToken "token" 10000 2000 0 answer

def laterCheck (answer : StoreAnswer) : RevocationCall := .isTokenRevoked "token" 9999 answer

theorem logout_run (ok : List RevocationStep → RevocationCall → Prop) (first second : StoreAnswer)
    (hfirst : ok [] (logoutCall first))
    (hsecond : ok [stepOf memoryDeployment.handle { store := .empty, cache := .empty } (logoutCall first)] (laterCheck second)) :
    ∃ s, RevocationRun memoryDeployment ok (execute memoryDeployment.handle { store := .empty, cache := .empty }
      [logoutCall first, laterCheck second]) s 9999 := by
  have hlogout : RevocationRun memoryDeployment ok _ _ 2000 :=
    .call (logoutCall first) .start (Nat.zero_le _) ⟨(fun _ hmem => by cases hmem), hfirst⟩
  have hcheck := hlogout.call (laterCheck second) (by decide : 2000 ≤ 9999) ⟨?_, hsecond⟩
  · exact ⟨_, hcheck⟩
  · intro e hmem
    rw [List.nil_append, List.mem_singleton] at hmem
    subst hmem
    exact (by decide : 2000 + 0 ≤ 9999)

/-- The store is down at the logout and at the check: the cache remembers. -/
theorem logout_sticks_sample : Sticks (execute memoryDeployment.handle { store := .empty, cache := .empty }
    [logoutCall (.throws false), laterCheck (.throws false)]) := by
  have hsteady : memoryDeployment.Steady [] (logoutCall (.throws false)) := by
    refine fun _ => ⟨by decide, fun _ _ _ _ hrecorded => ?_⟩
    obtain ⟨_, hmem, -⟩ := hrecorded
    cases hmem
  have hcheck : memoryDeployment.Steady [stepOf memoryDeployment.handle { store := .empty, cache := .empty }
      (logoutCall (.throws false))] (laterCheck (.throws false)) :=
    fun _ => ⟨10000, ⟨_, List.mem_singleton.2 rfl, 2000, 0, _, rfl, rfl⟩, by decide⟩
  obtain ⟨s, hrun⟩ := logout_run memoryDeployment.Steady _ _ hsteady hcheck
  exact logout_sticks rfl hrun

/-- The store is down at the logout and up again at the check. -/
theorem logout_forgotten : ¬ ∀ (deployment : Deployment), deployment.distributed = false →
    ∀ trace s clock, RevocationRun deployment (fun _ _ => True) trace s clock → Sticks trace := by
  intro hall
  obtain ⟨s, hrun⟩ := logout_run (fun _ _ => True) (.throws false) .answers trivial trivial
  have hsticks := hall memoryDeployment rfl _ _ _ hrun
  have hfound := (List.pairwise_cons.1 hsticks).1 _ (List.mem_singleton.2 rfl) "token" 10000 2000 0 _ 9999 _ rfl
    (by decide +kernel) rfl (by decide)
  exact absurd hfound (by decide +kernel)

end Hyeboard.Sessions
