import Hyeboard.ProbeBudget.Coordinators
import Hyeboard.ProbeBudget.Session
/-!
# The two coordinators agree

The object keeps windows and leases with their ends and marks consumed permits;
Redis keeps counters and sets under keys that vanish, and deletes consumed
permits. `Agree` says that both hold the same at every time from now on; each
call keeps it and is answered alike.
-/

namespace Hyeboard.ProbeBudget

open ExpiringKeys

/-! ## Outcomes -/

/-- What an answer says, apart from texts and from how long a busy session is
asked to wait. -/
inductive Outcome where
  | allowed (answer : Answer)
  | invalid
  | budget (retryAfterSeconds : Nat)
  | busy
  | unavailable
  | rejected (message : String)
deriving DecidableEq, Repr

def outcomeOf : Except CoordinatorError Answer → Outcome
  | .ok answer => .allowed answer
  | .error (.error message) => .rejected message
  | .error (.hyeboard code _ _ details) =>
    if code = "VNU_RATE_LIMITED" then .budget ((details.lookup "retryAfterSeconds").getD 0)
    else if code = "VNU_CROSS_LOOKUP_BUSY" then .busy
    else if code = "VNU_CROSS_DETAIL_PERMIT_INVALID" then .invalid
    else .unavailable

@[simp] theorem outcomeOf_rateLimited (message : String) (retryAfterSeconds limit windowSeconds : Nat) :
    outcomeOf (.error (rateLimited message retryAfterSeconds limit windowSeconds)) = .budget retryAfterSeconds := by
  simp [outcomeOf, rateLimited]

@[simp] theorem outcomeOf_busy (retryAfterSeconds : Nat) : outcomeOf (.error (busy retryAfterSeconds)) = .busy := by
  simp [outcomeOf, busy]

@[simp] theorem outcomeOf_invalid : outcomeOf (.error crossDetailPermitInvalid) = .invalid := by
  simp [outcomeOf, crossDetailPermitInvalid]

/-- The call was let through or refused for one of the three reasons. -/
def Outcome.Decided : Outcome → Prop
  | .allowed _ | .invalid | .budget _ | .busy => True
  | .unavailable | .rejected _ => False

/-! ## Windows -/

def StoredBudgetWindow.toEntry (window : StoredBudgetWindow) : Entry Nat :=
  { value := window.count, expiresAt := some window.resetAt }

/-- The counter and its time to live are the stored window. -/
structure WindowAgrees (window : Option StoredBudgetWindow) (key : Key Nat) : Prop where
  key_eq : key = window.map (·.toEntry)
  counted : ∀ w, window = some w → 0 < w.count
  readable : WindowReadable window

section
variable {window : Option StoredBudgetWindow} {key : Key Nat} {next : StoredBudgetWindow}
  {amount now limit windowSeconds : Nat}

/-- The running window is the live key. -/
theorem live_toEntry (w : StoredBudgetWindow) (now : Nat) :
    Key.live (some w.toEntry) now = if now < w.resetAt then some w.toEntry else none := by
  simp [Key.live, Option.filter_some, Entry.alive, StoredBudgetWindow.toEntry]

theorem currentWindow_running {w : StoredBudgetWindow} (h : now < w.resetAt) :
    currentWindow (some w) now windowSeconds = w := if_neg (Nat.not_le.2 h)

theorem currentWindow_over (h : ∀ w, window = some w → w.resetAt ≤ now) :
    currentWindow window now windowSeconds = { count := 0, resetAt := now + windowSeconds * 1000 } := by
  cases window with
  | none => rfl
  | some w => exact if_pos (h w rfl)

/-- The window a charge meets: it runs in both, or both start afresh. -/
theorem WindowAgrees.running_or_over (h : WindowAgrees window key) (now : Nat) :
    (∃ w, window = some w ∧ now < w.resetAt ∧ key.live now = some w.toEntry) ∨
      ((∀ w, window = some w → w.resetAt ≤ now) ∧ key.live now = none) := by
  rw [h.key_eq]
  cases window with
  | none => exact .inr ⟨nofun, rfl⟩
  | some w =>
    rw [Option.map_some, live_toEntry]
    by_cases hlive : now < w.resetAt
    · exact .inl ⟨w, rfl, hlive, if_pos hlive⟩
    · refine .inr ⟨?_, if_neg hlive⟩
      intro v hv
      cases hv
      exact Nat.le_of_not_lt hlive

theorem WindowAgrees.windowCount_eq (h : WindowAgrees window key) :
    windowCount key now (windowSeconds * 1000) =
      ((currentWindow window now windowSeconds).count, (currentWindow window now windowSeconds).resetAt - now) := by
  unfold windowCount
  rcases h.running_or_over now with ⟨w, rfl, hlive, hkey⟩ | ⟨hover, hkey⟩
  · have hlt : ¬ ((w.resetAt : Int) - now < 1) := by omega
    have httl : ((w.resetAt : Int) - now).toNat = w.resetAt - now := by omega
    rw [Key.pttl_of_live hkey, Key.get_of_live hkey, currentWindow_running hlive]
    dsimp only
    rw [if_neg hlt, httl]
    rfl
  · rw [Key.pttl_of_vanished hkey, currentWindow_over hover]
    dsimp only
    rw [if_pos (by decide), Nat.add_sub_cancel_left]

/-- A charge leaves both with the same window. -/
theorem WindowAgrees.charge (h : WindowAgrees window key) (hamount : 0 < amount)
    (hcharges : Charges window amount now limit windowSeconds next) (hreadable : WindowReadable (some next)) :
    WindowAgrees (some next) (chargeWindow key now amount (windowSeconds * 1000)) := by
  obtain ⟨-, rfl⟩ := hcharges
  refine ⟨?_, ?_, hreadable⟩
  · unfold chargeWindow
    rw [h.windowCount_eq]
    dsimp only
    rcases h.running_or_over now with ⟨w, rfl, hlive, hkey⟩ | ⟨hover, hkey⟩
    · -- INCRBY keeps the time to live, and PEXPIRE sets what is left of it
      have hcount := h.counted w rfl
      have hincr : key.incrBy now amount = some { value := w.count + amount, expiresAt := some w.resetAt } := by
        rw [Key.incrBy, hkey]
        rfl
      have halive : Key.live (some ({ value := w.count + amount, expiresAt := some w.resetAt } : Entry Nat)) now =
          some { value := w.count + amount, expiresAt := some w.resetAt } :=
        Key.live_eq_some.2 ⟨rfl, by simpa [Entry.alive] using hlive⟩
      rw [currentWindow_running hlive, if_neg (Nat.ne_of_gt hcount), hincr, Key.pexpire, halive, Option.map_some,
        Nat.add_sub_cancel' (Nat.le_of_lt hlive)]
      rfl
    · rw [currentWindow_over hover, if_pos rfl, Nat.zero_add]
      rfl
  · intro w hw
    cases hw
    exact Nat.add_pos_right _ hamount

end

/-! ## Leases -/

/-- At every time from `clock` on both hold the same leases. -/
structure LeasesAgree (leases : Option (Record Nat)) (key : Key (Record Nat)) (clock lifetime : Nat) : Prop where
  same : ∀ t, clock ≤ t → (key.unlapsed t).Equiv (activeLeases leases t)
  soon : ∀ leaseId expiresAt, (key.members clock).get? leaseId = some expiresAt → expiresAt ≤ clock + lifetime

section
variable {leases : Option (Record Nat)} {key : Key (Record Nat)} {clock now t lifetime expiresAt : Nat} {leaseId k : String}

theorem LeasesAgree.later (h : LeasesAgree leases key clock lifetime) (hle : clock ≤ now) :
    LeasesAgree leases key now lifetime := by
  constructor
  · exact fun t ht => h.same t (Nat.le_trans hle ht)
  · intro leaseId expiresAt hget
    have := h.soon leaseId expiresAt (Key.members_of_le hle hget)
    omega

/-- The leases active later are those of now that have not expired. -/
theorem get?_activeLeases_later (hle : now ≤ t) :
    (activeLeases leases t).get? k = ((activeLeases leases now).get? k).filter (t < ·) := by
  ext expiresAt
  rw [activeLeases_eq_some, Option.filter_eq_some_iff, activeLeases_eq_some, decide_eq_true_eq]
  constructor
  · exact fun ⟨hget, hhex, hsafe, hlive⟩ => ⟨⟨hget, hhex, hsafe, Nat.lt_of_le_of_lt hle hlive⟩, hlive⟩
  · exact fun ⟨⟨hget, hhex, hsafe, _⟩, hlive⟩ => ⟨hget, hhex, hsafe, hlive⟩

/-- Storing some of the leases active now: those are the ones active later. -/
theorem get?_activeLeases_stored {left : Record Nat} (hleft : ∀ k expiresAt, left.get? k = some expiresAt →
      (activeLeases leases now).get? k = some expiresAt) (k : String) (t : Nat) :
    (activeLeases (stored left) t).get? k = (left.get? k).filter (t < ·) := by
  ext expiresAt
  rw [activeLeases_eq_some, stored_getD, Option.filter_eq_some_iff, decide_eq_true_eq]
  constructor
  · exact fun ⟨hget, _, _, hlive⟩ => ⟨hget, hlive⟩
  · intro ⟨hget, hlive⟩
    obtain ⟨-, hhex, hsafe, -⟩ := activeLeases_eq_some.1 (hleft k expiresAt hget)
    exact ⟨hget, hhex, hsafe, hlive⟩

/-- Dropping what has expired, on either side. -/
theorem LeasesAgree.pruned (h : LeasesAgree leases key now lifetime) :
    LeasesAgree (stored (activeLeases leases now)) key now lifetime := by
  refine ⟨?_, h.soon⟩
  intro t ht k
  rw [h.same t ht k, get?_activeLeases_stored (fun _ _ => id), get?_activeLeases_later ht]

theorem LeasesAgree.zremrangebyscore (h : LeasesAgree leases key now lifetime) :
    LeasesAgree leases (key.zremrangebyscore now now) now lifetime := by
  constructor
  · exact fun t ht => (Key.unlapsed_zremrangebyscore ht).trans (h.same t ht)
  · intro leaseId expiresAt hget
    rw [Key.get?_members_zremrangebyscore (Nat.le_refl now), Option.filter_eq_some_iff] at hget
    exact h.soon leaseId expiresAt hget.1

theorem LeasesAgree.zcard_eq (h : LeasesAgree leases key now lifetime) :
    (key.zremrangebyscore now now).zcard now = (activeLeases leases now).size :=
  Key.zcard_zremrangebyscore.trans (h.same now (Nat.le_refl now)).size_eq

theorem LeasesAgree.zrem (h : LeasesAgree leases key now lifetime) (leaseId : String) :
    LeasesAgree (stored ((activeLeases leases now).delete leaseId)) (key.zrem now leaseId) now lifetime := by
  have hleft : ∀ k expiresAt, ((activeLeases leases now).delete leaseId).get? k = some expiresAt →
      (activeLeases leases now).get? k = some expiresAt := by
    intro k expiresAt hget
    rw [Record.get?_delete] at hget
    split at hget
    · cases hget
    · exact hget
  constructor
  · intro t ht k
    rw [Key.get?_unlapsed_zrem ht, get?_activeLeases_stored hleft, Record.get?_delete]
    split
    · rfl
    · rw [h.same t ht k, get?_activeLeases_later ht]
  · intro k expiresAt hget
    rw [Key.get?_members_zrem (Nat.le_refl now)] at hget
    split at hget
    · cases hget
    · exact h.soon k expiresAt hget

/-- A lease the object does not hold is not held by Redis either. -/
theorem LeasesAgree.zrem_inactive (h : LeasesAgree leases key now lifetime)
    (hnone : (activeLeases leases now).get? leaseId = none) :
    LeasesAgree leases (key.zrem now leaseId) now lifetime := by
  refine ⟨?_, (h.zrem leaseId).soon⟩
  intro t ht k
  rw [Key.get?_unlapsed_zrem ht]
  split
  · rename_i heq
    rw [heq, get?_activeLeases_later ht, hnone]
    rfl
  · exact h.same t ht k

/-- A new lease, which outlives all the others. -/
theorem LeasesAgree.added (h : LeasesAgree leases key now lifetime) (hpos : 0 < lifetime) (hleaseId : isHex 32 leaseId = true)
    (hsafe : isSafe (now + lifetime) = true) :
    LeasesAgree (some ((activeLeases leases now).set leaseId (now + lifetime)))
      ((key.zadd now (now + lifetime) leaseId).pexpire now (max 1 (now + lifetime - now))) now lifetime := by
  have httl : max 1 (now + lifetime - now) = lifetime := by omega
  rw [httl]
  constructor
  · intro t ht k
    ext expiresAt
    rw [Key.unlapsed_eq_some, Key.get?_members_zadd, activeLeases_eq_some, Option.getD_some, Record.get?_set]
    by_cases hk : k = leaseId
    · subst hk
      rw [if_pos rfl, if_pos rfl]
      constructor
      · intro ⟨hget, hlater⟩
        split at hget
        · cases hget
          exact ⟨rfl, hleaseId, hsafe, hlater⟩
        · cases hget
      · intro ⟨hget, _, _, hlater⟩
        cases hget
        exact ⟨if_pos hlater, hlater⟩
    · rw [if_neg hk, if_neg hk]
      have hnow := h.same now (Nat.le_refl now) k
      constructor
      · intro ⟨hget, hlater⟩
        split at hget
        · have hactive : (activeLeases leases now).get? k = some expiresAt := by
            rw [← hnow]
            exact Key.unlapsed_eq_some.2 ⟨hget, Nat.lt_of_le_of_lt ht hlater⟩
          obtain ⟨-, hhex, hsafe, -⟩ := activeLeases_eq_some.1 hactive
          exact ⟨hactive, hhex, hsafe, hlater⟩
        · cases hget
      · intro ⟨hget, _, _, hlater⟩
        rw [← hnow] at hget
        obtain ⟨hget, -⟩ := Key.unlapsed_eq_some.1 hget
        -- the old leases end no later than the new one, so the key outlives them
        have hend := h.soon k expiresAt hget
        exact ⟨by rw [if_pos (Nat.lt_of_lt_of_le hlater hend), hget], hlater⟩
  · intro k expiresAt hget
    rw [Key.get?_members_zadd, if_pos (Nat.lt_add_of_pos_right hpos)] at hget
    split at hget
    · cases hget
      exact Nat.le_refl _
    · exact h.soon k expiresAt hget

end

/-! ## Permits -/

/-- At every time from `clock` on, the permits Redis has, and has not let
expire, are the unconsumed ones of the object. -/
def PermitsAgree (permits : Option (Record StoredCrossDetailPermit)) (keys : String → Key VnuCrossDetailPermitRecord)
    (clock : Nat) : Prop :=
  ∀ t, clock ≤ t → ∀ hash record, (keys hash).get t = some record ∧ t < record.expiresAt ↔
    (livePermits permits t).get? hash = some record.unconsumed

section
variable {permits : Option (Record StoredCrossDetailPermit)} {keys : String → Key VnuCrossDetailPermitRecord}
  {clock now t : Nat} {hash : String} {record : VnuCrossDetailPermitRecord}

theorem PermitsAgree.later (h : PermitsAgree permits keys clock) (hle : clock ≤ now) : PermitsAgree permits keys now :=
  fun t ht => h t (Nat.le_trans hle ht)

/-- The permits live now, put back under either form. -/
theorem PermitsAgree.pruned (h : PermitsAgree permits keys now) {left : Option (Record StoredCrossDetailPermit)}
    (hleft : left.getD .empty = livePermits permits now) : PermitsAgree left keys now := by
  intro t ht hash record
  rw [h t ht hash record, livePermits_eq_some, livePermits_eq_some, hleft, livePermits_eq_some]
  constructor
  · exact fun ⟨hget, hlive⟩ => ⟨⟨hget, Nat.lt_of_le_of_lt ht hlive⟩, hlive⟩
  · exact fun ⟨⟨hget, _⟩, hlive⟩ => ⟨hget, hlive⟩

variable {map : Record StoredCrossDetailPermit}

/-- One permit issued. -/
theorem PermitsAgree.set (h : PermitsAgree (some map) keys now) (permit : VnuCrossDetailIssuedPermit) :
    PermitsAgree (some (map.set permit.permitHash permit.record.unconsumed))
      (Function.update keys permit.permitHash (.setPx permit.record now (max 1 (permit.record.expiresAt - now)))) now := by
  intro t ht hash record
  rw [livePermits_eq_some, Option.getD_some, Record.get?_set]
  by_cases hhash : hash = permit.permitHash
  · subst hhash
    rw [Function.update_self, Key.get_setPx, if_pos rfl]
    constructor
    · intro ⟨hget, hlive⟩
      split at hget
      · cases hget
        exact ⟨rfl, hlive⟩
      · cases hget
    · intro ⟨hrecord, hlive⟩
      have hrecord : permit.record = record :=
        congrArg StoredCrossDetailPermit.toVnuCrossDetailPermitRecord (Option.some.inj hrecord)
      have hlive : t < record.expiresAt := hlive
      subst hrecord
      exact ⟨if_pos (by omega), hlive⟩
  · rw [Function.update_of_ne hhash, if_neg hhash, h t ht hash record, livePermits_eq_some, Option.getD_some]

theorem PermitsAgree.issued (h : PermitsAgree (some map) keys now) (permits : List VnuCrossDetailIssuedPermit) :
    PermitsAgree (some (Storage.issuedInto permits map)) (issuePermitScript keys now permits) now := by
  induction permits generalizing map keys with
  | nil => exact h
  | cons permit rest ih => exact ih (h.set permit)

/-- A permit consumed: marked by the object, deleted by Redis. -/
theorem PermitsAgree.consumed (h : PermitsAgree (some map) keys now) (old : StoredCrossDetailPermit) (consumedAt : Nat) :
    PermitsAgree (some (map.set hash { old with consumedAt := some consumedAt })) (Function.update keys hash none) now := by
  intro t ht k record
  rw [livePermits_eq_some, Option.getD_some, Record.get?_set]
  by_cases hk : k = hash
  · subst hk
    rw [Function.update_self, if_pos rfl]
    constructor
    · intro ⟨hget, _⟩
      cases hget
    · intro ⟨hrecord, _⟩
      cases congrArg StoredCrossDetailPermit.consumedAt (Option.some.inj hrecord)
  · rw [Function.update_of_ne hk, if_neg hk, h t ht k record, livePermits_eq_some, Option.getD_some]

end

/-! ## One call -/

/-- Both hold the same from `clock` on, and the object can read what it holds. -/
structure Agree (storage : Storage) (keys : RedisSession) (clock : Nat) : Prop where
  window : WindowAgrees storage.window keys.probeBudget
  brc1 : LeasesAgree storage.brc1Permits keys.brc1Leases clock vnuBrc1PermitLeaseMs
  permits : PermitsAgree storage.crossDetailPermits keys.crossDetailPermit clock
  detailWindow : WindowAgrees storage.crossDetailWindow keys.crossDetailWindow
  leases : LeasesAgree storage.crossDetailLeases keys.crossDetailLeases clock vnuCrossDetailLeaseMs
  valid : PermitsValid storage.crossDetailPermits

theorem Agree.empty : Agree Storage.empty RedisSession.empty 0 := by
  refine ⟨⟨rfl, nofun, nofun⟩, ⟨?_, nofun⟩, ?_, ⟨rfl, nofun, nofun⟩, ⟨?_, nofun⟩, ?_⟩
  · exact fun _ _ => .refl _
  · intro t _ hash record
    constructor
    · intro ⟨hget, _⟩
      cases hget
    · intro hget
      cases hget
  · exact fun _ _ => .refl _
  · intro e he
    cases he

theorem Agree.later {storage : Storage} {keys : RedisSession} {clock now : Nat} (h : Agree storage keys clock)
    (hle : clock ≤ now) : Agree storage keys now :=
  { h with
    brc1 := h.brc1.later hle
    permits := h.permits.later hle
    leases := h.leases.later hle }

/-- Both answered alike, and agree afterwards. -/
structure AnsweredAlike (durable : Except CoordinatorError Answer × Storage)
    (redis : Except CoordinatorError Answer × RedisSession) (now : Nat) : Prop where
  outcome : outcomeOf durable.1 = outcomeOf redis.1
  decided : (outcomeOf durable.1).Decided
  agree : Agree durable.2 redis.2 now

section
variable {limits : VnuCrossDetailLimits} {storage : Storage} {keys : RedisSession} {now : Nat} {randomHex32 : String}

/-- What the facade makes of the object's answer. -/
theorem coordinateDurably_eq {call : Call} {result : OperationResult} {next : Storage}
    (harguments : assertArguments limits call.operation = .ok ()) (h : handle limits storage call = .ok (result, next)) :
    coordinateDurably limits storage call = (durableAnswer limits result, next) := by
  unfold coordinateDurably
  rw [harguments, serve_of_handle h]

theorem coordinateRedis_eq {call : Call} (harguments : assertArguments limits call.operation = .ok ()) :
    coordinateRedis limits keys call = askRedis limits keys call := by
  unfold coordinateRedis
  rw [harguments]

/-- Every number a script replies with fits. -/
theorem number_eq_ok {n : Nat} (h : n ≤ maxSafeInteger) : number n = .ok n := by
  rw [number, isSafe, if_pos (decide_eq_true h)]

theorem ceilSeconds_le {ms bound : Nat} (h : ms ≤ bound) (hbound : 0 < bound) : ceilSeconds ms ≤ bound := by
  unfold ceilSeconds
  omega

/-! ### `reserve` -/

theorem consumeBudgetWindow_refused {window : Option StoredBudgetWindow} {amount limit windowSeconds : Nat}
    (h : ¬ (currentWindow window now windowSeconds).count + amount ≤ limit) :
    consumeBudgetWindow window amount now limit windowSeconds = (currentWindow window now windowSeconds,
      .refused (retryAfterSeconds (currentWindow window now windowSeconds).resetAt now)) :=
  if_pos (Nat.lt_of_not_le h)

theorem reserve_eq {amount : Nat} (hamount : assertValidConsumeAmount amount = .ok ())
    (hreadable : WindowReadable storage.window) :
    reserve storage now amount =
      match consumeBudgetWindow storage.window amount now vnuProbeBudgetLimit vnuProbeBudgetWindowSeconds with
      | (_, .refused retryAfterSeconds) => .ok (.refused retryAfterSeconds, storage)
      | (window, .allowed) => .ok (.allowed, { storage with window := some window }) := by
  have hrequire : require "VNU probe-budget amount is invalid" (isPositiveSafe amount && amount ≤ vnuProbeBudgetLimit) =
      .ok () := hamount
  unfold reserve
  rw [hrequire, parseStoredWindow_eq_ok.2 ⟨hreadable, rfl⟩]
  rfl

theorem reserve_alike (h : Agree storage keys now) (hclock : now ≤ maxTimeValue) {amount : Nat}
    (harguments : assertArguments limits (.reserve amount) = .ok ()) :
    AnsweredAlike (coordinateDurably limits storage ⟨.reserve amount, now, randomHex32⟩)
      (coordinateRedis limits keys ⟨.reserve amount, now, randomHex32⟩) now := by
  have hpositive : 0 < amount := by
    have hamount := require_eq_ok.1 harguments
    simp only [isPositiveSafe, Bool.and_eq_true, decide_eq_true_eq] at hamount
    exact hamount.1.1
  have hend : now + vnuProbeBudgetWindowSeconds * 1000 ≤ maxSafeInteger :=
    Nat.le_trans (Nat.add_le_add_right hclock _) (by decide)
  have hcount : windowCount keys.probeBudget now (vnuProbeBudgetWindowSeconds * 1000) = _ := h.window.windowCount_eq
  have hreserve : reserve storage now amount = _ := reserve_eq harguments h.window.readable
  rw [coordinateRedis_eq harguments]
  by_cases hroom : (currentWindow storage.window now vnuProbeBudgetWindowSeconds).count + amount ≤ vnuProbeBudgetLimit
  · -- let through
    have hcharges : Charges storage.window amount now vnuProbeBudgetLimit vnuProbeBudgetWindowSeconds
      { currentWindow storage.window now vnuProbeBudgetWindowSeconds with
        count := (currentWindow storage.window now vnuProbeBudgetWindowSeconds).count + amount } := ⟨hroom, rfl⟩
    generalize { currentWindow storage.window now vnuProbeBudgetWindowSeconds with
        count := (currentWindow storage.window now vnuProbeBudgetWindowSeconds).count + amount } = window at hcharges
    rw [consumeBudgetWindow_allowed.2 hcharges] at hreserve
    have hhandle : handle limits storage ⟨.reserve amount, now, randomHex32⟩ =
        .ok (.reserve .allowed, { storage with window := some window }) := by
      simp only [handle, hreserve]
      rfl
    have hredis : askRedis limits keys ⟨.reserve amount, now, randomHex32⟩ =
        (.ok .done, { keys with probeBudget := chargeWindow keys.probeBudget now amount (vnuProbeBudgetWindowSeconds * 1000) }) := by
      simp only [askRedis, consumeFixedWindow, fixedWindowScript, hcount, gt_iff_lt, if_neg (Nat.not_lt.2 hroom),
        number_eq_ok (Nat.zero_le _)]
      rfl
    have hreadable := hcharges.readable (by decide) (by decide) hend h.window.readable
    rw [coordinateDurably_eq harguments hhandle, hredis]
    exact ⟨rfl, trivial, { h with window := h.window.charge hpositive hcharges hreadable }⟩
  · -- over the budget: the time to live is what is left of the window
    rw [consumeBudgetWindow_refused hroom] at hreserve
    have hhandle : handle limits storage ⟨.reserve amount, now, randomHex32⟩ =
        .ok (.reserve (.refused
          (retryAfterSeconds (currentWindow storage.window now vnuProbeBudgetWindowSeconds).resetAt now)), storage) := by
      simp only [handle, hreserve]
      rfl
    have hreset := currentWindow_resetAt_safe (by decide) hend h.window.readable
    have hwait : ceilSeconds ((currentWindow storage.window now vnuProbeBudgetWindowSeconds).resetAt - now) ≤ maxSafeInteger := by
      rw [isPositiveSafe, isSafe, Bool.and_eq_true, decide_eq_true_eq, decide_eq_true_eq] at hreset
      exact ceilSeconds_le (Nat.le_trans (Nat.sub_le _ _) hreset.2) (by decide)
    have hredis : askRedis limits keys ⟨.reserve amount, now, randomHex32⟩ =
        (.error (rateLimited probeLimitMessage
          (ceilSeconds ((currentWindow storage.window now vnuProbeBudgetWindowSeconds).resetAt - now))
          vnuProbeBudgetLimit vnuProbeBudgetWindowSeconds), keys) := by
      simp only [askRedis, consumeFixedWindow, fixedWindowScript, hcount, gt_iff_lt, if_pos (Nat.lt_of_not_le hroom),
        number_eq_ok hwait]
      rfl
    rw [coordinateDurably_eq harguments hhandle, hredis]
    refine ⟨?_, ?_, h⟩
    · rw [durableAnswer, outcomeOf_rateLimited, outcomeOf_rateLimited]
      rfl
    · rw [durableAnswer, outcomeOf_rateLimited]
      trivial

/-! ### Leases -/

theorem acquire_alike (h : Agree storage keys now) (hclock : now ≤ maxTimeValue) (hdrawn : isHex 32 randomHex32 = true) :
    AnsweredAlike (coordinateDurably limits storage ⟨.acquireBrc1Permit, now, randomHex32⟩)
      (coordinateRedis limits keys ⟨.acquireBrc1Permit, now, randomHex32⟩) now := by
  have harguments : assertArguments limits .acquireBrc1Permit = .ok () := rfl
  have hsafe : isSafe (now + vnuBrc1PermitLeaseMs) = true := isSafe_expiry hclock .brc1
  have hexpiry : now + vnuBrc1PermitLeaseMs ≤ maxSafeInteger := of_decide_eq_true hsafe
  have hdropped := h.brc1.zremrangebyscore
  rw [coordinateRedis_eq harguments]
  by_cases hfull : (activePermits storage now).size ≥ vnuBrc1PermitLimit
  · -- full
    have hhandle : handle limits storage ⟨.acquireBrc1Permit, now, randomHex32⟩ = .ok (.brc1Permit (.refused 1), storage) := by
      simp only [handle, acquireBrc1Permit, if_pos hfull]
      rfl
    have hwait : ceilSeconds (((keys.brc1Leases.zremrangebyscore now now).lowestScore now).getD 0 - now) ≤ maxSafeInteger := by
      apply ceilSeconds_le _ (by decide)
      cases hlowest : (keys.brc1Leases.zremrangebyscore now now).lowestScore now with
      | none => exact Nat.le_trans (Nat.sub_le _ _) (Nat.zero_le _)
      | some score =>
        obtain ⟨leaseId, hget⟩ := Key.lowestScore_mem hlowest
        exact Nat.le_trans (Nat.sub_le _ _) (Nat.le_trans (hdropped.soon leaseId score hget) hexpiry)
    have hredis : askRedis limits keys ⟨.acquireBrc1Permit, now, randomHex32⟩ =
        (.error (busy (ceilSeconds (((keys.brc1Leases.zremrangebyscore now now).lowestScore now).getD 0 - now))),
          { keys with brc1Leases := keys.brc1Leases.zremrangebyscore now now }) := by
      have hcard : (keys.brc1Leases.zremrangebyscore now now).zcard now ≥ vnuBrc1PermitLimit := by
        rw [h.brc1.zcard_eq]
        exact hfull
      simp only [askRedis, acquireRedisLease, acquireLeaseScript, if_pos hcard, number_eq_ok hwait]
      rfl
    rw [coordinateDurably_eq harguments hhandle, hredis]
    refine ⟨?_, ?_, { h with brc1 := hdropped }⟩
    · rw [durableAnswer, outcomeOf_busy, outcomeOf_busy]
    · rw [durableAnswer, outcomeOf_busy]
      trivial
  · -- granted
    have hhandle : handle limits storage ⟨.acquireBrc1Permit, now, randomHex32⟩ =
        .ok (.brc1Permit (.allowed randomHex32 (now + vnuBrc1PermitLeaseMs)), storage.acquired now randomHex32) := by
      have halarm : rescheduleAlarm
          { storage with brc1Permits := some ((activePermits storage now).set randomHex32 (now + vnuBrc1PermitLeaseMs)) }
          now = .ok (storage.acquired now randomHex32) := rescheduleAlarm_eq_ok.2 ⟨h.valid, rfl⟩
      simp only [handle, acquireBrc1Permit, if_neg hfull, halarm]
      rfl
    have hredis : askRedis limits keys ⟨.acquireBrc1Permit, now, randomHex32⟩ =
        (.ok (.lease randomHex32 (now + vnuBrc1PermitLeaseMs)),
          { keys with
            brc1Leases := ((keys.brc1Leases.zremrangebyscore now now).zadd now (now + vnuBrc1PermitLeaseMs) randomHex32).pexpire
              now (max 1 (now + vnuBrc1PermitLeaseMs - now)) }) := by
      have hcard : ¬ (keys.brc1Leases.zremrangebyscore now now).zcard now ≥ vnuBrc1PermitLimit := by
        rw [h.brc1.zcard_eq]
        exact hfull
      simp only [askRedis, acquireRedisLease, acquireLeaseScript, if_neg hcard, number_eq_ok hexpiry]
      rfl
    rw [coordinateDurably_eq harguments hhandle, hredis]
    exact ⟨rfl, trivial, { h with brc1 := hdropped.added (by decide) hdrawn hsafe }⟩

theorem releaseBrc1_alike (h : Agree storage keys now) {leaseId : String}
    (harguments : assertArguments limits (.releaseBrc1Permit leaseId) = .ok ()) :
    AnsweredAlike (coordinateDurably limits storage ⟨.releaseBrc1Permit leaseId, now, randomHex32⟩)
      (coordinateRedis limits keys ⟨.releaseBrc1Permit leaseId, now, randomHex32⟩) now := by
  have hhex : isHex 32 leaseId = true := require_eq_ok.1 harguments
  rw [coordinateRedis_eq harguments]
  cases hget : (activePermits storage now).get? leaseId with
  | none =>
    have hhandle : handle limits storage ⟨.releaseBrc1Permit leaseId, now, randomHex32⟩ = .ok (.done, storage) := by
      simp only [handle, releaseBrc1Permit, hhex, hget]
      rfl
    rw [coordinateDurably_eq harguments hhandle]
    exact ⟨rfl, trivial, { h with brc1 := h.brc1.zrem_inactive hget }⟩
  | some expiresAt =>
    have hhandle : handle limits storage ⟨.releaseBrc1Permit leaseId, now, randomHex32⟩ =
        .ok (.done, storage.releasedBrc1 now leaseId) := by
      have hstore : storePermits storage ((activePermits storage now).delete leaseId) now =
          .ok (storage.releasedBrc1 now leaseId) := rescheduleAlarm_eq_ok.2 ⟨h.valid, rfl⟩
      simp only [handle, releaseBrc1Permit, hhex, hget, hstore]
      rfl
    rw [coordinateDurably_eq harguments hhandle]
    exact ⟨rfl, trivial, { h with brc1 := h.brc1.zrem leaseId }⟩

theorem releaseDetail_alike (h : Agree storage keys now) {leaseId : String}
    (harguments : assertArguments limits (.releaseCrossDetailLease leaseId) = .ok ()) :
    AnsweredAlike (coordinateDurably limits storage ⟨.releaseCrossDetailLease leaseId, now, randomHex32⟩)
      (coordinateRedis limits keys ⟨.releaseCrossDetailLease leaseId, now, randomHex32⟩) now := by
  have hhex : isHex 32 leaseId = true := require_eq_ok.1 harguments
  rw [coordinateRedis_eq harguments]
  cases hget : (activeCrossDetailLeases storage now).get? leaseId with
  | none =>
    have hhandle : handle limits storage ⟨.releaseCrossDetailLease leaseId, now, randomHex32⟩ = .ok (.done, storage) := by
      simp only [handle, releaseCrossDetailLease, hhex, hget]
      rfl
    rw [coordinateDurably_eq harguments hhandle]
    exact ⟨rfl, trivial, { h with leases := h.leases.zrem_inactive hget }⟩
  | some expiresAt =>
    have hhandle : handle limits storage ⟨.releaseCrossDetailLease leaseId, now, randomHex32⟩ =
        .ok (.done, storage.releasedDetail now leaseId) := by
      have hstore : storeCrossDetailLeases storage ((activeCrossDetailLeases storage now).delete leaseId) now =
          .ok (storage.releasedDetail now leaseId) := rescheduleAlarm_eq_ok.2 ⟨h.valid, rfl⟩
      simp only [handle, releaseCrossDetailLease, hhex, hget, hstore]
      rfl
    rw [coordinateDurably_eq harguments hhandle]
    exact ⟨rfl, trivial, { h with leases := h.leases.zrem leaseId }⟩

/-! ### Permits -/

theorem issue_alike (h : Agree storage keys now) {permits : List VnuCrossDetailIssuedPermit}
    (harguments : assertArguments limits (.issueCrossDetailPermits permits) = .ok ()) :
    AnsweredAlike (coordinateDurably limits storage ⟨.issueCrossDetailPermits permits, now, randomHex32⟩)
      (coordinateRedis limits keys ⟨.issueCrossDetailPermits permits, now, randomHex32⟩) now := by
  obtain ⟨_, hlimits, hpermits⟩ := bind_eq_ok.1 harguments
  have hissue : issueCrossDetailPermits storage now permits limits = .ok (storage.issued now permits) :=
    issue_allowed hlimits hpermits h.valid
  have hhandle : handle limits storage ⟨.issueCrossDetailPermits permits, now, randomHex32⟩ =
      .ok (.done, storage.issued now permits) := by
    simp only [handle, hissue]
    rfl
  rw [coordinateRedis_eq harguments, coordinateDurably_eq harguments hhandle]
  have hlive : PermitsAgree (some (livePermits storage.crossDetailPermits now)) keys.crossDetailPermit now :=
    h.permits.pruned rfl
  exact ⟨rfl, trivial, { h with permits := hlive.issued permits, valid := h.valid.issued hpermits now }⟩

/-- The object finds an unconsumed permit exactly when the script lets its
record pass. -/
theorem PermitsAgree.found_or_not {permits : Option (Record StoredCrossDetailPermit)}
    {keys : String → ExpiringKeys.Key VnuCrossDetailPermitRecord} (h : PermitsAgree permits keys now)
    (input : VnuCrossDetailConsumeInput) :
    (∃ record, (livePermits permits now).get? input.permitHash = some record.unconsumed ∧
        (keys input.permitHash).get now = some record ∧ ¬ record.expiresAt ≤ now ∧ recordMatches record input = true) ∨
      (((livePermits permits now).get? input.permitHash).filter (permitMatches · input) = none ∧
        ∀ record, (keys input.permitHash).get now = some record → record.expiresAt ≤ now ∨ recordMatches record input = false) := by
  by_cases hfound : ∃ record, (keys input.permitHash).get now = some record ∧ now < record.expiresAt ∧
      recordMatches record input = true
  · obtain ⟨record, hget, hlive, hmatch⟩ := hfound
    exact .inl ⟨record, (h now (Nat.le_refl now) _ record).1 ⟨hget, hlive⟩, hget, Nat.not_le.2 hlive, hmatch⟩
  · refine .inr ⟨?_, ?_⟩
    · rw [Option.filter_eq_none_iff]
      intro stored hstored hmatch
      have hunconsumed : stored = stored.toVnuCrossDetailPermitRecord.unconsumed := by
        simp only [permitMatches, Bool.and_eq_true, Option.isNone_iff_eq_none] at hmatch
        obtain ⟨record, consumedAt⟩ := stored
        have hnone : consumedAt = none := hmatch.1.1.1.1.1.1
        rw [hnone]
        rfl
      rw [hunconsumed] at hstored hmatch
      obtain ⟨hget, hlive⟩ := (h now (Nat.le_refl now) _ _).2 hstored
      exact hfound ⟨_, hget, hlive, hmatch⟩
    · intro record hget
      by_cases hlive : now < record.expiresAt
      · right
        cases hmatch : recordMatches record input with
        | true => exact absurd ⟨record, hget, hlive, hmatch⟩ hfound
        | false => rfl
      · exact .inl (Nat.le_of_not_lt hlive)

/-- What the script does once its record passed. -/
theorem consumeScript_found {input : VnuCrossDetailConsumeInput} {record : VnuCrossDetailPermitRecord}
    {expiresAt count windowTtl : Nat} (hget : (keys.crossDetailPermit input.permitHash).get now = some record)
    (hlive : ¬ record.expiresAt ≤ now) (hmatch : recordMatches record input = true)
    (hcount : windowCount keys.crossDetailWindow now (limits.windowSeconds * 1000) = (count, windowTtl)) :
    consumeCrossDetailScript keys now input limits expiresAt randomHex32 =
      if count + 1 > limits.budget then (.budget (ceilSeconds windowTtl), keys)
      else if (keys.crossDetailLeases.zremrangebyscore now now).zcard now ≥ limits.concurrency then
        (.busy 1, { keys with crossDetailLeases := keys.crossDetailLeases.zremrangebyscore now now })
      else
        (.consumed expiresAt record.envelope,
          { keys with
            crossDetailWindow := chargeWindow keys.crossDetailWindow now 1 (limits.windowSeconds * 1000)
            crossDetailPermit := Function.update keys.crossDetailPermit input.permitHash none
            crossDetailLeases := ((keys.crossDetailLeases.zremrangebyscore now now).zadd now expiresAt randomHex32).pexpire now
              (max 1 (expiresAt - now)) }) := by
  unfold consumeCrossDetailScript
  rw [hget]
  dsimp only
  rw [hmatch, hcount, decide_eq_false hlive]
  rfl

theorem consume_alike (h : Agree storage keys now) (hclock : now ≤ maxTimeValue) (hpositive : 0 < now)
    (hdrawn : isHex 32 randomHex32 = true) (hend : now + limits.windowSeconds * 1000 ≤ maxSafeInteger)
    {input : VnuCrossDetailConsumeInput} (harguments : assertArguments limits (.consumeCrossDetailPermit input) = .ok ()) :
    AnsweredAlike (coordinateDurably limits storage ⟨.consumeCrossDetailPermit input, now, randomHex32⟩)
      (coordinateRedis limits keys ⟨.consumeCrossDetailPermit input, now, randomHex32⟩) now := by
  obtain ⟨_, hlimits, hinput⟩ := bind_eq_ok.1 harguments
  obtain ⟨-, -, hwindowSeconds⟩ := limits_positive hlimits
  have hsafe : isSafe (now + vnuCrossDetailLeaseMs) = true := isSafe_expiry hclock .crossDetail
  have hnow : isPositiveSafe now = true := by
    rw [isPositiveSafe, isSafe, Bool.and_eq_true, decide_eq_true_eq, decide_eq_true_eq]
    exact ⟨hpositive, Nat.le_trans hclock (by decide)⟩
  have hcount : windowCount keys.crossDetailWindow now (limits.windowSeconds * 1000) = _ := h.detailWindow.windowCount_eq
  have hdropped := h.leases.zremrangebyscore
  rw [coordinateRedis_eq harguments]
  rcases h.permits.found_or_not input with ⟨record, hrecord, hget, hlive, hmatch⟩ | ⟨hnone, hrefused⟩
  · have hconsume : consumeCrossDetailPermit storage now input limits randomHex32 = _ :=
      consume_found hlimits hinput h.valid hrecord hmatch hnow h.detailWindow.readable
    have hscript : consumeCrossDetailScript keys now input limits (now + vnuCrossDetailLeaseMs) randomHex32 = _ :=
      consumeScript_found hget hlive hmatch hcount
    have hcard : (keys.crossDetailLeases.zremrangebyscore now now).zcard now = (activeCrossDetailLeases storage now).size :=
      h.leases.zcard_eq
    rw [hcard] at hscript
    by_cases hunit : (currentWindow storage.crossDetailWindow now limits.windowSeconds).count + 1 ≤ limits.budget
    · rw [if_neg (Nat.not_lt.2 hunit)] at hscript
      have hcharges : Charges storage.crossDetailWindow 1 now limits.budget limits.windowSeconds
        { currentWindow storage.crossDetailWindow now limits.windowSeconds with
          count := (currentWindow storage.crossDetailWindow now limits.windowSeconds).count + 1 } := ⟨hunit, rfl⟩
      generalize { currentWindow storage.crossDetailWindow now limits.windowSeconds with
          count := (currentWindow storage.crossDetailWindow now limits.windowSeconds).count + 1 } = window at hcharges
      rw [consumeBudgetWindow_allowed.2 hcharges] at hconsume
      dsimp only at hconsume
      by_cases hfull : (activeCrossDetailLeases storage now).size ≥ limits.concurrency
      · -- busy
        rw [if_pos hfull] at hconsume hscript
        have hhandle : handle limits storage ⟨.consumeCrossDetailPermit input, now, randomHex32⟩ =
            .ok (.consume (.busy 1), storage) := by
          simp only [handle, hconsume]
          rfl
        rw [coordinateDurably_eq harguments hhandle]
        simp only [askRedis, hscript]
        exact ⟨rfl, trivial, { h with leases := hdropped }⟩
      · -- consumed
        rw [if_neg hfull] at hconsume hscript
        have hhandle : handle limits storage ⟨.consumeCrossDetailPermit input, now, randomHex32⟩ =
            .ok (.consume (.allowed randomHex32 (now + vnuCrossDetailLeaseMs) record.envelope),
              storage.consumed now input record.unconsumed window randomHex32) := by
          simp only [handle, hconsume]
          rfl
        rw [coordinateDurably_eq harguments hhandle]
        simp only [askRedis, hscript]
        have hreadable := hcharges.readable (budget_safe hlimits) hwindowSeconds hend h.detailWindow.readable
        have hlive : PermitsAgree (some (livePermits storage.crossDetailPermits now)) keys.crossDetailPermit now :=
          h.permits.pruned rfl
        exact ⟨rfl, trivial,
          { h with
            permits := hlive.consumed record.unconsumed now
            detailWindow := h.detailWindow.charge Nat.one_pos hcharges hreadable
            leases := hdropped.added (by decide) hdrawn hsafe
            valid := h.valid.consumed hrecord hnow }⟩
    · -- over the budget
      rw [if_pos (Nat.lt_of_not_le hunit)] at hscript
      rw [consumeBudgetWindow_refused hunit] at hconsume
      have hhandle : handle limits storage ⟨.consumeCrossDetailPermit input, now, randomHex32⟩ =
          .ok (.consume (.budget (retryAfterSeconds
            (currentWindow storage.crossDetailWindow now limits.windowSeconds).resetAt now)), storage) := by
        simp only [handle, hconsume]
        rfl
      rw [coordinateDurably_eq harguments hhandle]
      simp only [askRedis, hscript]
      refine ⟨?_, ?_, h⟩
      · rw [durableAnswer, outcomeOf_rateLimited, outcomeOf_rateLimited]
        rfl
      · rw [durableAnswer, outcomeOf_rateLimited]
        trivial
  · -- no such permit
    have hhandle : handle limits storage ⟨.consumeCrossDetailPermit input, now, randomHex32⟩ =
        .ok (.consume .invalid, storage) := by
      have hpermits : activeCrossDetailPermits storage.crossDetailPermits now = .ok _ :=
        activeCrossDetailPermits_eq_ok.2 ⟨h.valid, rfl⟩
      simp only [handle, consumeCrossDetailPermit, hlimits, hinput, hpermits, bind, Except.bind, hnone]
      rfl
    have hredis : askRedis limits keys ⟨.consumeCrossDetailPermit input, now, randomHex32⟩ =
        (.error crossDetailPermitInvalid, keys) := by
      have hscript : consumeCrossDetailScript keys now input limits (now + vnuCrossDetailLeaseMs) randomHex32 =
          (.invalid, keys) := by
        unfold consumeCrossDetailScript
        cases hget : (keys.crossDetailPermit input.permitHash).get now with
        | none => rfl
        | some record =>
          apply if_pos
          rcases hrefused record hget with hover | hmatch
          · simp [hover]
          · simp [hmatch]
      simp only [askRedis, hscript]
    rw [coordinateDurably_eq harguments hhandle, hredis]
    refine ⟨rfl, ?_, h⟩
    rw [durableAnswer, outcomeOf_invalid]
    trivial

theorem alarm_alike (h : Agree storage keys now) :
    AnsweredAlike (coordinateDurably limits storage ⟨.alarm, now, randomHex32⟩)
      (coordinateRedis limits keys ⟨.alarm, now, randomHex32⟩) now := by
  have halarm : alarm { storage with alarm := none } now = .ok _ := alarm_eq_ok.2 ⟨h.valid, rfl⟩
  have hhandle : handle limits storage ⟨.alarm, now, randomHex32⟩ =
      .ok (.done, ({ storage with alarm := none }.pruned now).rescheduled now) := by
    simp only [handle, halarm]
    rfl
  rw [coordinateDurably_eq rfl hhandle]
  exact ⟨rfl, trivial,
    { h with
      brc1 := h.brc1.pruned
      permits := h.permits.pruned (stored_getD _)
      leases := h.leases.pruned
      valid := h.valid.pruned now }⟩

/-! ## Runs -/

/-- What one call is answered by the object and by Redis. -/
structure Answers where
  durable : Except CoordinatorError Answer
  redis : Except CoordinatorError Answer

structure Both where
  storage : Storage
  keys : RedisSession

def Both.empty : Both := { storage := .empty, keys := .empty }

/-- One call made to both, at the same time and drawing the same lease id. -/
def coordinateBoth (limits : VnuCrossDetailLimits) (both : Both) (call : Call) : Answers × Both :=
  let durable := coordinateDurably limits both.storage call
  let redis := coordinateRedis limits both.keys call
  ({ durable := durable.1, redis := redis.1 }, { storage := durable.2, keys := redis.2 })

/-- A clock reading after the epoch, and an id `randomHex32` can draw. -/
structure CallTimed (call : Call) : Prop where
  positive : 0 < call.now
  clock : call.now ≤ maxTimeValue
  lease_id : isHex 32 call.randomHex32 = true

abbrev BothRun (limits : VnuCrossDetailLimits) := Run (coordinateBoth limits) Call.now (fun _ _ call => CallTimed call) Both.empty

/-- A call whose arguments both refuse changes neither. -/
theorem rejected_alike (storage : Storage) (keys : RedisSession) {call : Call} {message : String}
    (harguments : assertArguments limits call.operation = .error message) :
    coordinateDurably limits storage call = (.error (.error message), storage) ∧
      coordinateRedis limits keys call = (.error (.error message), keys) := by
  unfold coordinateDurably coordinateRedis
  rw [harguments]
  exact ⟨rfl, rfl⟩

theorem call_alike {call : Call} (h : Agree storage keys call.now) (hcall : CallTimed call)
    (hend : maxTimeValue + limits.windowSeconds * 1000 ≤ maxSafeInteger)
    (harguments : assertArguments limits call.operation = .ok ()) :
    AnsweredAlike (coordinateDurably limits storage call) (coordinateRedis limits keys call) call.now := by
  obtain ⟨operation, now, randomHex32⟩ := call
  obtain ⟨hpositive, hclock, hdrawn⟩ := hcall
  cases operation with
  | acquireBrc1Permit => exact acquire_alike h hclock hdrawn
  | releaseBrc1Permit leaseId => exact releaseBrc1_alike h harguments
  | consumeCrossDetailPermit input =>
    exact consume_alike h hclock hpositive hdrawn (Nat.le_trans (Nat.add_le_add_right hclock _) hend) harguments
  | issueCrossDetailPermits permits => exact issue_alike h harguments
  | releaseCrossDetailLease leaseId => exact releaseDetail_alike h harguments
  | reserve amount => exact reserve_alike h hclock harguments
  | alarm => exact alarm_alike h

variable {trace : List (Step Both Call Answers)} {both : Both} {clock : Nat}

theorem BothRun.agree (h : BothRun limits trace both clock)
    (hend : maxTimeValue + limits.windowSeconds * 1000 ≤ maxSafeInteger) : Agree both.storage both.keys clock := by
  refine h.invariant (fun _ both clock => Agree both.storage both.keys clock) Agree.empty ?_
  intro trace both clock call _ ih hle hcall
  have hagree := ih.later hle
  cases harguments : assertArguments limits call.operation with
  | error message =>
    obtain ⟨hdurable, hredis⟩ := rejected_alike both.storage both.keys harguments
    simp only [coordinateBoth, hdurable, hredis]
    exact hagree
  | ok _ => exact (call_alike hagree hcall hend harguments).agree

/-- For a deployment's limits (whose windows are at most a day), every call of
every run has the same outcome in both, and is decided if its arguments are
valid. -/
theorem redis_agrees_with_durable_object (h : BothRun limits trace both clock)
    (hend : maxTimeValue + limits.windowSeconds * 1000 ≤ maxSafeInteger) :
    ∀ e ∈ trace, outcomeOf e.result.durable = outcomeOf e.result.redis ∧
      (assertArguments limits e.call.operation = .ok () → (outcomeOf e.result.durable).Decided) := by
  intro e he
  obtain ⟨earlier, later, htrace⟩ := List.append_of_mem he
  obtain ⟨both, call, clock, hrun, hle, hcall, rfl⟩ := h.cut htrace
  have hagree := (BothRun.agree hrun hend).later hle
  cases harguments : assertArguments limits call.operation with
  | error message =>
    obtain ⟨hdurable, hredis⟩ := rejected_alike both.storage both.keys harguments
    simp only [stepOf, coordinateBoth, hdurable, hredis, true_and]
    intro hvalid
    rw [harguments] at hvalid
    cases hvalid
  | ok _ =>
    have halike := call_alike hagree hcall hend harguments
    exact ⟨halike.outcome, fun _ => halike.decided⟩

end

/-- Two calls: the whole budget of a window, and one more unit a second later. -/
def sampleReserve : Call := { operation := .reserve 300, now := 1000, randomHex32 := "00000000000000000000000000000001" }

def sampleExcess : Call := { operation := .reserve 1, now := 2000, randomHex32 := "00000000000000000000000000000002" }

def sampleReserved : Step Both Call Answers := stepOf (coordinateBoth sampleLimits) Both.empty sampleReserve

def sampleRefused : Step Both Call Answers := stepOf (coordinateBoth sampleLimits) sampleReserved.after sampleExcess

theorem sample_both_run : BothRun sampleLimits [sampleReserved, sampleRefused] sampleRefused.after 2000 := by
  have hreserve : BothRun sampleLimits [sampleReserved] sampleReserved.after 1000 :=
    .call sampleReserve .start (Nat.zero_le _) ⟨by decide, by decide, by decide⟩
  exact .call sampleExcess hreserve (by decide) ⟨by decide, by decide, by decide⟩

theorem redis_agrees_with_durable_object_refused :
    outcomeOf sampleRefused.result.durable = .budget 599 ∧ outcomeOf sampleRefused.result.redis = .budget 599 := by
  have hrefused : sampleRefused.result.durable =
      .error (rateLimited probeLimitMessage (retryAfterSeconds 601000 2000) vnuProbeBudgetLimit
        vnuProbeBudgetWindowSeconds) := rfl
  have hwait : retryAfterSeconds 601000 2000 = 599 := by decide
  have hdurable : outcomeOf sampleRefused.result.durable = .budget 599 := by
    rw [hrefused, outcomeOf_rateLimited, hwait]
  obtain ⟨hsame, -⟩ := redis_agrees_with_durable_object sample_both_run (by decide) sampleRefused (by simp)
  exact ⟨hdurable, hsame.symm.trans hdurable⟩

end Hyeboard.ProbeBudget
