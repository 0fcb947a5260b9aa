import Hyeboard.ProbeBudget.DurableObject
/-!
# The effects of a call

`serve_effect` lists what serving a call can do to storage: nothing (it threw,
was refused or had nothing to release), or one of seven writes with the guard it
passed. Every write reschedules the alarm but the one of `reserve`.
-/

namespace Hyeboard.ProbeBudget

namespace Storage
variable (storage : Storage) (now : Nat)

def acquired (leaseId : String) : Storage :=
  { storage with
    brc1Permits := some ((activePermits storage now).set leaseId (now + vnuBrc1PermitLeaseMs)) }.rescheduled now

def releasedBrc1 (leaseId : String) : Storage :=
  { storage with brc1Permits := stored ((activePermits storage now).delete leaseId) }.rescheduled now

def consumed (input : VnuCrossDetailConsumeInput) (record : StoredCrossDetailPermit) (window : StoredBudgetWindow)
    (leaseId : String) : Storage :=
  { storage with
    crossDetailPermits := some ((livePermits storage.crossDetailPermits now).set input.permitHash
      { record with consumedAt := some now })
    crossDetailWindow := some window
    crossDetailLeases :=
      some ((activeCrossDetailLeases storage now).set leaseId (now + vnuCrossDetailLeaseMs)) }.rescheduled now

/-- Permits put into a map one after another. -/
def issuedInto (permits : List VnuCrossDetailIssuedPermit) (map : Record StoredCrossDetailPermit) :
    Record StoredCrossDetailPermit :=
  permits.foldl (fun map permit => map.set permit.permitHash { permit.record with }) map

def issued (permits : List VnuCrossDetailIssuedPermit) : Storage :=
  { storage with
    crossDetailPermits := some (issuedInto permits (livePermits storage.crossDetailPermits now)) }.rescheduled now

def releasedDetail (leaseId : String) : Storage :=
  { storage with crossDetailLeases := stored ((activeCrossDetailLeases storage now).delete leaseId) }.rescheduled now

end Storage

/-- The answers that hand something out. -/
def OperationResult.Grants : OperationResult → Prop
  | .brc1Permit (.allowed _ _) | .consume (.allowed _ _ _) | .reserve .allowed => True
  | _ => False

/-- The window after a charge of `amount` that is let through. -/
def Charges (window : Option StoredBudgetWindow) (amount now limit windowSeconds : Nat) (next : StoredBudgetWindow) :
    Prop :=
  (currentWindow window now windowSeconds).count + amount ≤ limit ∧
    next = { currentWindow window now windowSeconds with
      count := (currentWindow window now windowSeconds).count + amount }

theorem consumeBudgetWindow_allowed {window : Option StoredBudgetWindow} {amount now limit windowSeconds : Nat}
    {next : StoredBudgetWindow} :
    consumeBudgetWindow window amount now limit windowSeconds = (next, .allowed) ↔
      Charges window amount now limit windowSeconds next := by
  unfold consumeBudgetWindow Charges
  dsimp only
  split
  · simp only [Prod.mk.injEq, reduceCtorEq, and_false, false_iff, not_and]
    omega
  · simp only [Prod.mk.injEq, and_true]
    constructor
    · rintro rfl
      exact ⟨by omega, rfl⟩
    · intro h
      exact h.2.symm

/-- A stored window `parseStoredWindow` accepts. -/
def WindowReadable (window : Option StoredBudgetWindow) : Prop :=
  ∀ w, window = some w → isSafe w.count = true ∧ isPositiveSafe w.resetAt = true

theorem parseStoredWindow_eq_ok {window result : Option StoredBudgetWindow} :
    parseStoredWindow window = .ok result ↔ WindowReadable window ∧ result = window := by
  unfold WindowReadable parseStoredWindow
  cases window with
  | none =>
    simp only [Except.ok.injEq, reduceCtorEq, false_implies, implies_true, true_and]
    exact eq_comm
  | some w =>
    simp only [bind_eq_ok, require_eq_ok, pure_eq_ok, Option.some.injEq, forall_eq']
    constructor
    · rintro ⟨_, hcount, _, hreset, h⟩
      exact ⟨⟨hcount, hreset⟩, h.symm⟩
    · rintro ⟨⟨hcount, hreset⟩, h⟩
      exact ⟨(), hcount, (), hreset, h.symm⟩

/-- What serving a call does. -/
inductive Effect (limits : VnuCrossDetailLimits) (storage : Storage) (now : Nat) (randomHex32 : String) :
    Operation → Except String OperationResult → Storage → Prop
  | threw (operation : Operation) (error : String) :
      Effect limits storage now randomHex32 operation (.error error) storage
  | refused (operation : Operation) (result : OperationResult) (h : ¬ result.Grants)
      (hissue : ∀ permits, operation ≠ .issueCrossDetailPermits permits) (halarm : operation ≠ .alarm) :
      Effect limits storage now randomHex32 operation (.ok result) storage
  | acquired (hroom : (activePermits storage now).size < vnuBrc1PermitLimit) :
      Effect limits storage now randomHex32 .acquireBrc1Permit
        (.ok (.brc1Permit (.allowed randomHex32 (now + vnuBrc1PermitLeaseMs)))) (storage.acquired now randomHex32)
  | releasedBrc1 (leaseId : String) :
      Effect limits storage now randomHex32 (.releaseBrc1Permit leaseId) (.ok .done) (storage.releasedBrc1 now leaseId)
  | consumed (input : VnuCrossDetailConsumeInput) (record : StoredCrossDetailPermit) (window : StoredBudgetWindow)
      (hlimits : assertValidVnuCrossDetailLimits limits = .ok ())
      (hrecord : (livePermits storage.crossDetailPermits now).get? input.permitHash = some record)
      (hmatch : permitMatches record input = true)
      (hwindow : Charges storage.crossDetailWindow 1 now limits.budget limits.windowSeconds window)
      (hroom : (activeCrossDetailLeases storage now).size < limits.concurrency)
      (hvalid : PermitsValid (storage.consumed now input record window randomHex32).crossDetailPermits) :
      Effect limits storage now randomHex32 (.consumeCrossDetailPermit input)
        (.ok (.consume (.allowed randomHex32 (now + vnuCrossDetailLeaseMs) record.envelope)))
        (storage.consumed now input record window randomHex32)
  | issued (permits : List VnuCrossDetailIssuedPermit) (hlimits : assertValidVnuCrossDetailLimits limits = .ok ())
      (hvalid : PermitsValid (storage.issued now permits).crossDetailPermits) :
      Effect limits storage now randomHex32 (.issueCrossDetailPermits permits) (.ok .done) (storage.issued now permits)
  | releasedDetail (leaseId : String) :
      Effect limits storage now randomHex32 (.releaseCrossDetailLease leaseId) (.ok .done)
        (storage.releasedDetail now leaseId)
  | reserved (amount : Nat) (window : StoredBudgetWindow)
      (hwindow : Charges storage.window amount now vnuProbeBudgetLimit vnuProbeBudgetWindowSeconds window) :
      Effect limits storage now randomHex32 (.reserve amount) (.ok (.reserve .allowed))
        { storage with window := some window }
  | pruned (hvalid : PermitsValid storage.crossDetailPermits) :
      Effect limits storage now randomHex32 .alarm (.ok .done) ((storage.pruned now).rescheduled now)

section
variable {limits : VnuCrossDetailLimits} {storage next : Storage} {now : Nat} {randomHex32 : String}

theorem acquire_effect {result : VnuBrc1PermitResult}
    (h : acquireBrc1Permit storage now randomHex32 = .ok (result, next)) :
    Effect limits storage now randomHex32 .acquireBrc1Permit (.ok (.brc1Permit result)) next := by
  unfold acquireBrc1Permit at h
  dsimp only at h
  split at h
  · cases h
    exact .refused _ _ id (by simp) (by simp)
  · rename_i hroom
    simp only [bind_eq_ok, rescheduleAlarm_eq_ok, pure_eq_ok, Prod.mk.injEq] at h
    obtain ⟨_, ⟨-, rfl⟩, rfl, rfl⟩ := h
    exact .acquired (by omega)

theorem releaseBrc1_effect {leaseId : String} (h : releaseBrc1Permit storage now leaseId = .ok next) :
    Effect limits storage now randomHex32 (.releaseBrc1Permit leaseId) (.ok .done) next := by
  unfold releaseBrc1Permit at h
  dsimp only at h
  split at h
  · cases h
    exact .refused _ _ id (by simp) (by simp)
  split at h
  · cases h
    exact .refused _ _ id (by simp) (by simp)
  · obtain ⟨-, rfl⟩ := rescheduleAlarm_eq_ok.1 h
    exact .releasedBrc1 leaseId

theorem releaseDetail_effect {leaseId : String} (h : releaseCrossDetailLease storage now leaseId = .ok next) :
    Effect limits storage now randomHex32 (.releaseCrossDetailLease leaseId) (.ok .done) next := by
  unfold releaseCrossDetailLease at h
  dsimp only at h
  split at h
  · cases h
    exact .refused _ _ id (by simp) (by simp)
  split at h
  · cases h
    exact .refused _ _ id (by simp) (by simp)
  · obtain ⟨-, rfl⟩ := rescheduleAlarm_eq_ok.1 h
    exact .releasedDetail leaseId

theorem issue_effect {permits : List VnuCrossDetailIssuedPermit}
    (h : issueCrossDetailPermits storage now permits limits = .ok next) :
    Effect limits storage now randomHex32 (.issueCrossDetailPermits permits) (.ok .done) next := by
  simp only [issueCrossDetailPermits, bind_eq_ok, activeCrossDetailPermits_eq_ok, rescheduleAlarm_eq_ok] at h
  obtain ⟨_, hlimits, _, -, _, ⟨-, rfl⟩, hvalid, rfl⟩ := h
  exact .issued permits hlimits hvalid

theorem reserve_effect {amount : Nat} {result : VnuProbeBudgetResult}
    (h : reserve storage now amount = .ok (result, next)) :
    Effect limits storage now randomHex32 (.reserve amount) (.ok (.reserve result)) next := by
  simp only [reserve, bind_eq_ok, parseStoredWindow_eq_ok] at h
  obtain ⟨_, -, _, ⟨-, rfl⟩, h⟩ := h
  split at h
  · cases h
    exact .refused _ _ id (by simp) (by simp)
  · rename_i window hcharge
    cases h
    exact .reserved amount window (consumeBudgetWindow_allowed.1 hcharge)

theorem consume_effect {input : VnuCrossDetailConsumeInput} {result : VnuCrossDetailConsumeResult}
    (h : consumeCrossDetailPermit storage now input limits randomHex32 = .ok (result, next)) :
    Effect limits storage now randomHex32 (.consumeCrossDetailPermit input) (.ok (.consume result)) next := by
  simp only [consumeCrossDetailPermit, bind_eq_ok] at h
  obtain ⟨_, hlimits, h⟩ := h
  split at h
  · cases h
    exact .refused _ _ id (by simp) (by simp)
  simp only [bind_eq_ok, activeCrossDetailPermits_eq_ok] at h
  obtain ⟨_, ⟨-, rfl⟩, h⟩ := h
  split at h
  · cases h
    exact .refused _ _ id (by simp) (by simp)
  rename_i record hrecord
  obtain ⟨hrecord, hmatch⟩ := Option.filter_eq_some_iff.1 hrecord
  simp only [bind_eq_ok, parseStoredWindow_eq_ok] at h
  obtain ⟨_, ⟨-, rfl⟩, h⟩ := h
  split at h
  · cases h
    exact .refused _ _ id (by simp) (by simp)
  rename_i window hcharge
  split at h
  · cases h
    exact .refused _ _ id (by simp) (by simp)
  rename_i hroom
  simp only [bind_eq_ok, rescheduleAlarm_eq_ok, pure_eq_ok, Prod.mk.injEq] at h
  obtain ⟨_, ⟨hvalid, rfl⟩, rfl, rfl⟩ := h
  exact .consumed input record window hlimits hrecord hmatch (consumeBudgetWindow_allowed.1 hcharge) (by omega) hvalid

theorem limits_positive (h : assertValidVnuCrossDetailLimits limits = .ok ()) :
    0 < limits.concurrency ∧ 0 < limits.budget ∧ 0 < limits.windowSeconds := by
  simp only [assertValidVnuCrossDetailLimits, bind_eq_ok, require_eq_ok, isPositiveSafe, Bool.and_eq_true,
    decide_eq_true_eq] at h
  obtain ⟨_, -, _, -, _, hconcurrency, _, hbudget, hwindow⟩ := h
  exact ⟨hconcurrency.1.1, hbudget.1, hwindow.1⟩

theorem budget_safe (h : assertValidVnuCrossDetailLimits limits = .ok ()) : isSafe limits.budget = true := by
  simp only [assertValidVnuCrossDetailLimits, bind_eq_ok, require_eq_ok, isPositiveSafe, Bool.and_eq_true] at h
  obtain ⟨_, -, _, -, _, -, _, hbudget, -⟩ := h
  exact hbudget.2

theorem serve_effect (limits : VnuCrossDetailLimits) (storage : Storage) (call : Call) :
    Effect limits storage call.now call.randomHex32 call.operation (serve limits storage call).1
      (serve limits storage call).2 := by
  unfold serve
  cases h : handle limits storage call with
  | error error => exact .threw _ error
  | ok answer =>
    obtain ⟨result, next⟩ := answer
    obtain ⟨operation, now, randomHex32⟩ := call
    unfold handle at h
    cases operation with
    | acquireBrc1Permit =>
      obtain ⟨⟨result, next⟩, ho, h⟩ := map_eq_ok.1 h
      cases h
      exact acquire_effect ho
    | releaseBrc1Permit leaseId =>
      obtain ⟨next, ho, h⟩ := map_eq_ok.1 h
      cases h
      exact releaseBrc1_effect ho
    | consumeCrossDetailPermit input =>
      obtain ⟨⟨result, next⟩, ho, h⟩ := map_eq_ok.1 h
      cases h
      exact consume_effect ho
    | issueCrossDetailPermits permits =>
      obtain ⟨next, ho, h⟩ := map_eq_ok.1 h
      cases h
      exact issue_effect ho
    | releaseCrossDetailLease leaseId =>
      obtain ⟨next, ho, h⟩ := map_eq_ok.1 h
      cases h
      exact releaseDetail_effect ho
    | reserve amount =>
      obtain ⟨⟨result, next⟩, ho, h⟩ := map_eq_ok.1 h
      cases h
      exact reserve_effect ho
    | alarm =>
      obtain ⟨next, ho, h⟩ := map_eq_ok.1 h
      cases h
      obtain ⟨hvalid, rfl⟩ := alarm_eq_ok.1 ho
      exact .pruned hvalid

end

end Hyeboard.ProbeBudget
