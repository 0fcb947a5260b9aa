import Hyeboard.ProbeBudget.Leases
/-!
# What a session's probe-budget object guarantees

Permits, leases and budgets together, over every run of one session.
-/

namespace Hyeboard.ProbeBudget

open FixedWindow (Charge charged Balanced)

/-! ## Budget windows -/

def StoredBudgetWindow.toWindow (window : StoredBudgetWindow) : FixedWindow.Window :=
  { count := window.count, resetAt := window.resetAt }

/-- The end of a stored window. -/
def windowEnd (window : Option StoredBudgetWindow) : Nat := (window.map (·.resetAt)).getD 0

/-- What a call charged to the lookup window. -/
def probeCharge (e : Served) : List Charge :=
  match e.call.operation, e.result with
  | .reserve amount, .ok (.reserve .allowed) => [{ resetAt := windowEnd e.after.window, units := amount }]
  | _, _ => []

/-- What a call charged to the detail window. -/
def detailCharge (e : Served) : List Charge :=
  match consumption e with
  | some _ => [{ resetAt := windowEnd e.after.crossDetailWindow, units := 1 }]
  | none => []

theorem Charges.balanced {window : Option StoredBudgetWindow} {amount now limit windowSeconds : Nat}
    {next : StoredBudgetWindow} (h : Charges window amount now limit windowSeconds next) (hpos : 0 < windowSeconds)
    {log : List Charge} (hlog : Balanced limit log (window.map (·.toWindow))) :
    Balanced limit (log ++ [{ resetAt := windowEnd (some next), units := amount }]) (some next.toWindow) := by
  obtain ⟨hroom, rfl⟩ := h
  have hlength : 0 < windowSeconds * 1000 := by omega
  refine hlog.charge (v := (currentWindow window now windowSeconds).toWindow) now hlength ?_ hroom
  unfold currentWindow
  cases window with
  | none => exact .inr ⟨nofun, rfl⟩
  | some w =>
    dsimp only
    split
    · rename_i hover
      refine .inr ⟨?_, rfl⟩
      intro u hu
      cases hu
      exact hover
    · rename_i hlive
      exact .inl ⟨rfl, Nat.lt_of_not_le hlive⟩

section
variable {limits : VnuCrossDetailLimits} {trace : List Served} {storage : Storage} {clock : Nat} {e : Served}

theorem ServedBy.probe_balanced (h : ServedBy limits e) {log : List Charge}
    (hlog : Balanced vnuProbeBudgetLimit log (e.before.window.map (·.toWindow))) :
    Balanced vnuProbeBudgetLimit (log ++ probeCharge e) (e.after.window.map (·.toWindow)) := by
  obtain ⟨before, ⟨operation, now, randomHex32⟩, result, after⟩ := e
  dsimp only [ServedBy] at h hlog ⊢
  have hkept : Balanced vnuProbeBudgetLimit (log ++ []) (before.window.map (·.toWindow)) := by
    rw [List.append_nil]
    exact hlog
  cases h with
  | reserved amount window hwindow => exact hwindow.balanced (by decide) hlog
  | threw operation error => cases operation <;> exact hkept
  | refused operation result hgrants hissue halarm =>
    have hnone : probeCharge ⟨before, ⟨operation, now, randomHex32⟩, .ok result, before⟩ = [] := by
      unfold probeCharge
      split
      · rename_i heq
        cases heq
        exact absurd trivial hgrants
      · rfl
    rw [hnone]
    exact hkept
  | _ => exact hkept

theorem ServedBy.detail_balanced (h : ServedBy limits e) {log : List Charge}
    (hlog : Balanced limits.budget log (e.before.crossDetailWindow.map (·.toWindow))) :
    Balanced limits.budget (log ++ detailCharge e) (e.after.crossDetailWindow.map (·.toWindow)) := by
  cases hconsumption : consumption e with
  | some presented =>
    obtain ⟨input, envelope⟩ := presented
    obtain ⟨-, hlimits, record, window, -, -, -, hwindow, -, hafter⟩ := h.consumes hconsumption
    have hcharge : detailCharge e = [{ resetAt := windowEnd (some window), units := 1 }] := by
      unfold detailCharge
      rw [hconsumption, hafter]
      rfl
    rw [hcharge, hafter]
    exact hwindow.balanced (limits_positive hlimits).2.2 hlog
  | none =>
    have hcharge : detailCharge e = [] := by
      unfold detailCharge
      rw [hconsumption]
    rw [hcharge, List.append_nil]
    obtain ⟨before, ⟨operation, now, randomHex32⟩, result, after⟩ := e
    dsimp only [ServedBy] at h hlog ⊢
    cases h with
    | consumed input record window hlimits hrecord hmatch hwindow hroom hvalid => cases hconsumption
    | _ => exact hlog

theorem SessionRun.balanced (h : SessionRun limits trace storage clock) :
    Balanced vnuProbeBudgetLimit (trace.flatMap probeCharge) (storage.window.map (·.toWindow)) ∧
      Balanced limits.budget (trace.flatMap detailCharge) (storage.crossDetailWindow.map (·.toWindow)) := by
  refine h.invariant (fun trace storage _ =>
    Balanced vnuProbeBudgetLimit (trace.flatMap probeCharge) (storage.window.map (·.toWindow)) ∧
      Balanced limits.budget (trace.flatMap detailCharge) (storage.crossDetailWindow.map (·.toWindow))) ?_ ?_
  · exact ⟨FixedWindow.balanced_start _, FixedWindow.balanced_start _⟩
  intro trace storage clock call _ ⟨hprobe, hdetail⟩ _ _
  have hserved := servedBy_stepOf limits storage call
  rw [List.flatMap_append, List.flatMap_append, List.flatMap_singleton, List.flatMap_singleton]
  exact ⟨hserved.probe_balanced hprobe, hserved.detail_balanced hdetail⟩

/-! ## One consume -/

/-- The units a stored window has counted, while it runs. -/
def unitsAt (window : Option StoredBudgetWindow) (now : Nat) : Nat :=
  match window with
  | some w => if now < w.resetAt then w.count else 0
  | none => 0

/-- A successful consume adds one unit, one lease and one mark, and nothing
else. -/
structure AddsOne (e : Served) (input : VnuCrossDetailConsumeInput) : Prop where
  unit : unitsAt e.after.crossDetailWindow e.call.now = unitsAt e.before.crossDetailWindow e.call.now + 1
  lease_new : (activeCrossDetailLeases e.before e.call.now).get? e.call.randomHex32 = none
  lease : activeCrossDetailLeases e.after e.call.now =
    (activeCrossDetailLeases e.before e.call.now).set e.call.randomHex32 (e.call.now + vnuCrossDetailLeaseMs)
  lease_count : (activeCrossDetailLeases e.after e.call.now).size =
    (activeCrossDetailLeases e.before e.call.now).size + 1
  mark : ∀ hash, (livePermits e.after.crossDetailPermits e.call.now).get? hash =
    ((livePermits e.before.crossDetailPermits e.call.now).get? hash).map fun record =>
      if hash = input.permitHash then { record with consumedAt := some e.call.now } else record
  rest : e.after.window = e.before.window ∧ e.after.brc1Permits = e.before.brc1Permits

theorem Charges.unitsAt_eq {window : Option StoredBudgetWindow} {amount now limit windowSeconds : Nat}
    {next : StoredBudgetWindow} (h : Charges window amount now limit windowSeconds next) (hpos : 0 < windowSeconds) :
    unitsAt (some next) now = unitsAt window now + amount := by
  obtain ⟨-, rfl⟩ := h
  have hfresh : now < now + windowSeconds * 1000 := by omega
  unfold currentWindow unitsAt
  cases window with
  | none => simp [hfresh]
  | some w =>
    by_cases hover : now ≥ w.resetAt
    · simp [hover, Nat.not_lt.2 hover, hfresh]
    · simp [hover, Nat.lt_of_not_le hover]

/-- Marking a live permit changes no other, and none is dropped. -/
theorem get?_marked {map : Option (Record StoredCrossDetailPermit)} {now : Nat} {presented : String}
    {record : StoredCrossDetailPermit} (hrecord : (livePermits map now).get? presented = some record) (hash : String) :
    (livePermits (some ((livePermits map now).set presented { record with consumedAt := some now })) now).get? hash =
      ((livePermits map now).get? hash).map fun record =>
        if hash = presented then { record with consumedAt := some now } else record := by
  have hlive := (livePermits_eq_some.1 hrecord).2
  ext marked
  rw [livePermits_eq_some, Option.getD_some, Record.get?_set, Option.map_eq_some_iff]
  by_cases heq : hash = presented
  · subst heq
    simp only [if_pos, Option.some.injEq, hrecord, exists_eq_left']
    constructor
    · exact fun h => h.1
    · rintro rfl
      exact ⟨rfl, hlive⟩
  · simp only [if_neg heq, exists_eq_right, and_iff_left_iff_imp]
    exact fun hget => (livePermits_eq_some.1 hget).2

theorem SessionRun.adds_one (h : SessionRun limits trace storage clock) (he : e ∈ trace)
    {input : VnuCrossDetailConsumeInput} {envelope : String} (hconsumption : consumption e = some (input, envelope)) :
    AddsOne e input := by
  obtain ⟨earlier, later, htrace⟩ := List.append_of_mem he
  obtain ⟨s, call, clk, hrun, -, hok, rfl⟩ := h.cut htrace
  have hserved := servedBy_stepOf limits s call
  obtain ⟨-, hlimits, record, window, hrecord, -, -, hwindow, -, hafter⟩ := hserved.consumes hconsumption
  have hnew : (activeCrossDetailLeases s call.now).get? call.randomHex32 = none := by
    cases hget : (activeCrossDetailLeases s call.now).get? call.randomHex32 with
    | none => rfl
    | some expiresAt =>
      obtain ⟨e', he', hdrawn⟩ :=
        (SessionRun.leases_ok hrun .crossDetail).drawn _ _ (activeLeases_eq_some.1 hget).1
      exact absurd hdrawn (hok.lease_fresh e' he')
  have hlease : activeCrossDetailLeases (serve limits s call).2 call.now =
      (activeCrossDetailLeases s call.now).set call.randomHex32 (call.now + vnuCrossDetailLeaseMs) := by
    have hmap : (serve limits s call).2.crossDetailLeases =
        some ((activeLeases s.crossDetailLeases call.now).set call.randomHex32 (call.now + vnuCrossDetailLeaseMs)) :=
      congrArg Storage.crossDetailLeases hafter
    unfold activeCrossDetailLeases
    rw [hmap]
    exact activeLeases_set hok.lease_id (isSafe_expiry hok.clock .crossDetail) (Nat.lt_add_of_pos_right (by decide))
  constructor
  · have hwindow' := hwindow.unitsAt_eq (limits_positive hlimits).2.2
    rw [hafter]
    exact hwindow'
  · exact hnew
  · exact hlease
  · exact (congrArg Record.size hlease).trans (Record.size_set_of_get?_none hnew _)
  · intro hash
    have hmap : (serve limits s call).2.crossDetailPermits =
        some ((livePermits s.crossDetailPermits call.now).set input.permitHash
          { record with consumedAt := some call.now }) := congrArg Storage.crossDetailPermits hafter
    exact (congrArg (fun map => (livePermits map call.now).get? hash) hmap).trans (get?_marked hrecord hash)
  · rw [hafter]
    exact ⟨rfl, rfl⟩

/-- A consume answered invalid, budget or busy. -/
def ConsumeRefused (e : Served) : Prop :=
  ∃ result, e.result = .ok (.consume result) ∧
    (result = .invalid ∨ ∃ retryAfterSeconds, result = .budget retryAfterSeconds ∨ result = .busy retryAfterSeconds)

theorem ServedBy.refused_unchanged (h : ServedBy limits e) (hrefused : ConsumeRefused e) : e.after = e.before := by
  obtain ⟨before, ⟨operation, now, randomHex32⟩, result, after⟩ := e
  obtain ⟨result', hresult, hkind⟩ := hrefused
  dsimp only [ServedBy] at h hresult ⊢
  cases h with
  | threw operation error => rfl
  | refused operation result hgrants hissue halarm => rfl
  | consumed input record window hlimits hrecord hmatch hwindow hroom hvalid =>
    cases hresult
    rcases hkind with hkind | ⟨_, hkind | hkind⟩ <;> cases hkind
  | _ => cases hresult

/-! ## Consuming an open permit -/

/-- An input equal to the issued record. -/
def VnuCrossDetailIssuedPermit.presented (p : VnuCrossDetailIssuedPermit) : VnuCrossDetailConsumeInput :=
  { permitHash := p.permitHash
    nonce := p.record.nonce
    requesterHmac := p.record.requesterHmac
    targetHmac := p.record.targetHmac
    revisionHmac := p.record.revisionHmac
    rowHmac := p.record.rowHmac
    policyVersion := p.record.policyVersion }

/-- Until it expires, presenting the permit is answered with its envelope
whenever the window has a unit left and a lease is free. -/
def Consumable (limits : VnuCrossDetailLimits) (storage : Storage) (clock : Nat) (p : VnuCrossDetailIssuedPermit) : Prop :=
  ∀ now randomHex32, clock ≤ now → isPositiveSafe now = true → now < p.record.expiresAt →
    WindowReadable storage.crossDetailWindow →
    (currentWindow storage.crossDetailWindow now limits.windowSeconds).count < limits.budget →
    (activeCrossDetailLeases storage now).size < limits.concurrency →
    (serve limits storage ⟨.consumeCrossDetailPermit p.presented, now, randomHex32⟩).1 =
      .ok (.consume (.allowed randomHex32 (now + vnuCrossDetailLeaseMs) p.record.envelope))

/-- A mark with a clock reading after the epoch can be read back. -/
theorem PermitsValid.consumed {map : Option (Record StoredCrossDetailPermit)} {now : Nat} {hash : String}
    {record : StoredCrossDetailPermit} (hvalid : PermitsValid map) (hrecord : (livePermits map now).get? hash = some record)
    (hnow : isPositiveSafe now = true) :
    PermitsValid (some ((livePermits map now).set hash { record with consumedAt := some now })) := by
  have hok := hvalid.live now _ (Record.get?_eq_some.1 hrecord)
  intro e he
  rcases Record.mem_entries_set he with rfl | he
  · simp only [storedPermitOk, Bool.and_eq_true] at hok
    simp only [storedPermitOk, Option.all_some, hnow, Bool.and_true, Bool.and_eq_true]
    exact hok.1
  · exact hvalid.live now e he

/-- A consume that finds its permit: refused by the window, refused by the
leases, or allowed. -/
theorem consume_found {now : Nat} {randomHex32 : String} {input : VnuCrossDetailConsumeInput}
    {record : StoredCrossDetailPermit} (hlimits : assertValidVnuCrossDetailLimits limits = .ok ())
    (hinput : assertValidVnuCrossDetailConsumeInput input = .ok ()) (hvalid : PermitsValid storage.crossDetailPermits)
    (hrecord : (livePermits storage.crossDetailPermits now).get? input.permitHash = some record)
    (hmatch : permitMatches record input = true) (hnow : isPositiveSafe now = true)
    (hreadable : WindowReadable storage.crossDetailWindow) :
    consumeCrossDetailPermit storage now input limits randomHex32 =
      match consumeBudgetWindow storage.crossDetailWindow 1 now limits.budget limits.windowSeconds with
      | (_, .refused retryAfterSeconds) => .ok (.budget retryAfterSeconds, storage)
      | (window, .allowed) =>
        if (activeCrossDetailLeases storage now).size ≥ limits.concurrency then .ok (.busy 1, storage)
        else .ok (.allowed randomHex32 (now + vnuCrossDetailLeaseMs) record.envelope,
          storage.consumed now input record window randomHex32) := by
  have hpermits : activeCrossDetailPermits storage.crossDetailPermits now =
      .ok (livePermits storage.crossDetailPermits now) := activeCrossDetailPermits_eq_ok.2 ⟨hvalid, rfl⟩
  have hfound : ((livePermits storage.crossDetailPermits now).get? input.permitHash).filter (permitMatches · input) =
      some record := Option.filter_eq_some_iff.2 ⟨hrecord, hmatch⟩
  have hwindow : parseStoredWindow storage.crossDetailWindow = .ok storage.crossDetailWindow :=
    parseStoredWindow_eq_ok.2 ⟨hreadable, rfl⟩
  have hmarked := hvalid.consumed hrecord hnow
  unfold consumeCrossDetailPermit
  simp only [hlimits, hinput, hpermits, hfound, hwindow, bind, Except.bind]
  rcases consumeBudgetWindow storage.crossDetailWindow 1 now limits.budget limits.windowSeconds with ⟨window, result⟩
  cases result with
  | refused retryAfterSeconds => rfl
  | allowed =>
    dsimp only
    split
    · rfl
    · rw [rescheduleAlarm_eq_ok.2 ⟨hmarked, rfl⟩]
      rfl

theorem consume_allowed {now : Nat} {randomHex32 : String} {p : VnuCrossDetailIssuedPermit}
    (hlimits : assertValidVnuCrossDetailLimits limits = .ok ()) (hvalid : PermitsValid storage.crossDetailPermits)
    (hstored : storage.permits.get? p.permitHash = some p.record.unconsumed) (hnow : isPositiveSafe now = true)
    (hlive : now < p.record.expiresAt) (hreadable : WindowReadable storage.crossDetailWindow)
    (hunit : (currentWindow storage.crossDetailWindow now limits.windowSeconds).count < limits.budget)
    (hroom : (activeCrossDetailLeases storage now).size < limits.concurrency) :
    ∃ next, consumeCrossDetailPermit storage now p.presented limits randomHex32 =
      .ok (.allowed randomHex32 (now + vnuCrossDetailLeaseMs) p.record.envelope, next) := by
  have hget : (livePermits storage.crossDetailPermits now).get? p.presented.permitHash = some p.record.unconsumed :=
    livePermits_eq_some.2 ⟨hstored, hlive⟩
  have hbindings : isHex 64 p.permitHash = true ∧ bindingsOk p.record.requesterHmac p.record.targetHmac
      p.record.revisionHmac p.record.rowHmac p.record.policyVersion p.record.nonce = true := by
    have hok := hvalid _ (Record.get?_eq_some.1 hstored)
    simp only [storedPermitOk, Bool.and_eq_true] at hok
    exact hok.1.1.1
  have hinput : assertValidVnuCrossDetailConsumeInput p.presented = .ok () := by
    rw [assertValidVnuCrossDetailConsumeInput, require_eq_ok, Bool.and_eq_true]
    exact hbindings
  have hmatch : permitMatches p.record.unconsumed p.presented = true := by
    simp [permitMatches, VnuCrossDetailPermitRecord.unconsumed, VnuCrossDetailIssuedPermit.presented]
  have hcharge : consumeBudgetWindow storage.crossDetailWindow 1 now limits.budget limits.windowSeconds = (_, .allowed) :=
    consumeBudgetWindow_allowed.2 ⟨hunit, rfl⟩
  rw [consume_found hlimits hinput hvalid hget hmatch hnow hreadable, hcharge]
  dsimp only
  rw [if_neg (Nat.not_le.2 hroom)]
  exact ⟨_, rfl⟩

theorem SessionRun.open_consumable (h : SessionRun limits trace storage clock) :
    ∀ p ∈ openPermits trace, Consumable limits storage clock p := by
  intro p hp now randomHex32 hle hnow hlive hreadable hunit hroom
  obtain ⟨e, he, hissued⟩ := given_of_outstanding hp
  obtain ⟨-, hlimits, -⟩ := (SessionRun.served h e he).issues rfl (List.ne_nil_of_mem hissued)
  have hstored := SessionRun.open_stored h p hp (Nat.lt_of_le_of_lt hle hlive)
  obtain ⟨next, hnext⟩ : ∃ next, consumeCrossDetailPermit storage now p.presented limits randomHex32 =
      .ok (.allowed randomHex32 (now + vnuCrossDetailLeaseMs) p.record.envelope, next) :=
    consume_allowed hlimits (SessionRun.permits_valid h) hstored hnow hlive hreadable hunit hroom
  simp [serve, handle, hnext]

theorem currentWindow_resetAt_safe {window : Option StoredBudgetWindow} {now windowSeconds : Nat} (hpos : 0 < windowSeconds)
    (hsafe : now + windowSeconds * 1000 ≤ maxSafeInteger) (hreadable : WindowReadable window) :
    isPositiveSafe (currentWindow window now windowSeconds).resetAt = true := by
  have hfresh : isPositiveSafe (now + windowSeconds * 1000) = true := by
    rw [isPositiveSafe, isSafe, Bool.and_eq_true, decide_eq_true_eq, decide_eq_true_eq]
    omega
  unfold currentWindow
  cases window with
  | none => exact hfresh
  | some v =>
    dsimp only
    split
    · exact hfresh
    · exact (hreadable v rfl).2

/-- A window that ends at a safe integer can be read back. -/
theorem Charges.readable {window : Option StoredBudgetWindow} {amount now limit windowSeconds : Nat}
    {next : StoredBudgetWindow} (h : Charges window amount now limit windowSeconds next) (hlimit : isSafe limit = true)
    (hpos : 0 < windowSeconds) (hsafe : now + windowSeconds * 1000 ≤ maxSafeInteger) (hreadable : WindowReadable window) :
    WindowReadable (some next) := by
  obtain ⟨hroom, rfl⟩ := h
  intro w hw
  cases hw
  dsimp only
  rw [isSafe, decide_eq_true_eq] at hlimit ⊢
  exact ⟨Nat.le_trans hroom hlimit, currentWindow_resetAt_safe hpos hsafe hreadable⟩

/-- With a window length whose windows end at safe integers, every stored
window can be read back. -/
theorem SessionRun.window_readable (h : SessionRun limits trace storage clock)
    (hsafe : maxTimeValue + limits.windowSeconds * 1000 ≤ maxSafeInteger) :
    WindowReadable storage.crossDetailWindow := by
  refine h.invariant (fun _ storage _ => WindowReadable storage.crossDetailWindow) ?_ ?_
  · intro w hw
    cases hw
  intro trace storage clock call _ ih _ hok
  have hserved := serve_effect limits storage call
  have hclock := hok.clock
  obtain ⟨operation, now, randomHex32⟩ := call
  generalize (serve limits storage ⟨operation, now, randomHex32⟩).2 = after at hserved ⊢
  generalize (serve limits storage ⟨operation, now, randomHex32⟩).1 = result at hserved
  dsimp only at hserved hclock
  cases hserved with
  | consumed input record window hlimits hrecord hmatch hwindow hroom hvalid =>
    have hnow := Nat.le_trans (Nat.add_le_add_right hclock _) hsafe
    exact hwindow.readable (budget_safe hlimits) (limits_positive hlimits).2.2 hnow ih
  | _ => exact ih

/-! ## The guarantees -/

/-- One-time permits, atomic consumes, and limits that hold at every moment. -/
theorem probe_budget_enforced (h : SessionRun limits trace storage clock) :
    (∀ earlier e later, trace = earlier ++ e :: later → ∀ input envelope, consumption e = some (input, envelope) →
      MatchesIssued earlier e input envelope ∧
        ∀ e' ∈ earlier, ∀ input' envelope', consumption e' = some (input', envelope') →
          input'.permitHash ≠ input.permitHash) ∧
    (∀ e ∈ trace, (∀ input envelope, consumption e = some (input, envelope) → AddsOne e input) ∧
      (ConsumeRefused e → e.after = e.before)) ∧
    (∀ p ∈ openPermits trace, Consumable limits storage clock p) ∧
    (maxTimeValue + limits.windowSeconds * 1000 ≤ maxSafeInteger → WindowReadable storage.crossDetailWindow) ∧
    (∀ kind : LeaseKind, ∀ now, clock ≤ now →
      (kind.held trace).countP (fun lease => now < lease.2) ≤ kind.limit limits) ∧
    (∀ resetAt, charged resetAt (trace.flatMap probeCharge) ≤ vnuProbeBudgetLimit ∧
      charged resetAt (trace.flatMap detailCharge) ≤ limits.budget) ∧
    AlarmOk storage clock := by
  obtain ⟨hprobe, hdetail⟩ := SessionRun.balanced h
  refine ⟨?_, ?_, ?_, ?_, ?_, ?_, ?_⟩
  · intro earlier e later htrace input envelope hconsumption
    exact SessionRun.consume_once h htrace hconsumption
  · intro e he
    exact ⟨fun input envelope => SessionRun.adds_one h he, (SessionRun.served h e he).refused_unchanged⟩
  · exact SessionRun.open_consumable h
  · exact SessionRun.window_readable h
  · intro kind now hle
    exact SessionRun.held_le h kind hle
  · intro resetAt
    exact ⟨hprobe.le resetAt, hdetail.le resetAt⟩
  · exact SessionRun.alarm_ok h

end

/-! ## A run that issues one permit -/

def sampleLimits : VnuCrossDetailLimits :=
  { maxTargets := 50, maxRows := 200, concurrency := 6, budget := 300, windowSeconds := 600 }

def sampleHex64 : String := "0123456789abcdef0123456789abcdef0123456789abcdef0123456789abcdef"

def samplePermit : VnuCrossDetailIssuedPermit :=
  { permitHash := sampleHex64
    record :=
      { requesterHmac := sampleHex64, targetHmac := sampleHex64, revisionHmac := sampleHex64, rowHmac := sampleHex64
        policyVersion := 1, nonce := "0123456789abcdef0123456789abcdef", envelope := "envelope", expiresAt := 1200000 } }

def sampleIssue : Call :=
  { operation := .issueCrossDetailPermits [samplePermit], now := 1000
    randomHex32 := "00000000000000000000000000000001" }

theorem sampleHex64_ok : isHex 64 sampleHex64 = true := by decide

theorem sampleBindings_ok :
    bindingsOk sampleHex64 sampleHex64 sampleHex64 sampleHex64 1 samplePermit.record.nonce = true := by
  have hnonce : isHex 32 samplePermit.record.nonce = true := by decide
  simp [bindingsOk, sampleHex64_ok, hnonce, vnuCrossDetailPolicyVersion]

theorem samplePermits_ok : assertValidVnuCrossDetailIssuedPermits [samplePermit] sampleLimits = .ok () := by
  have hrecord : assertValidCrossDetailRecord samplePermit.record = .ok () := by
    have hbindings := sampleBindings_ok
    simp only [assertValidCrossDetailRecord, require_eq_ok, Bool.and_eq_true]
    exact ⟨⟨⟨hbindings, by decide⟩, by decide⟩, by decide⟩
  have htargets : ([samplePermit].map (·.record.targetHmac)).dedup.length ≤ sampleLimits.maxTargets := by decide
  simp only [assertValidVnuCrossDetailIssuedPermits, bind_eq_ok, require_eq_ok, forM_eq_ok, List.forall_mem_singleton]
  exact ⟨(), by decide, (), ⟨(), sampleHex64_ok, hrecord⟩, decide_eq_true htargets⟩

def sampleIssued : Served :=
  { before := Storage.empty, call := sampleIssue, result := .ok .done
    after := Storage.empty.issued 1000 [samplePermit] }

theorem sampleIssue_served : serve sampleLimits Storage.empty sampleIssue = (.ok .done, sampleIssued.after) := by
  have hissue : issueCrossDetailPermits Storage.empty 1000 [samplePermit] sampleLimits = .ok sampleIssued.after :=
    issue_allowed rfl samplePermits_ok (by intro e he; cases he)
  have hhandle : handle sampleLimits Storage.empty sampleIssue =
      (OperationResult.done, ·) <$> issueCrossDetailPermits Storage.empty 1000 [samplePermit] sampleLimits := rfl
  rw [hissue] at hhandle
  exact serve_of_handle hhandle

theorem sample_run : SessionRun sampleLimits [sampleIssued] sampleIssued.after 1000 := by
  have hrun : SessionRun sampleLimits ([] ++ [stepOf (serve sampleLimits) Storage.empty sampleIssue])
      (serve sampleLimits Storage.empty sampleIssue).2 1000 := by
    refine .call sampleIssue .start (Nat.zero_le _) ⟨by decide, by decide, ?_, ?_, ?_⟩
    · intro e he
      cases he
    · intro permits h
      cases h
      exact List.nodup_singleton _
    · intro permits _ q _ e he
      cases he
  unfold stepOf at hrun
  rw [sampleIssue_served] at hrun
  exact hrun

/-- Until it expires, the permit of the run is there to be consumed. -/
theorem probe_budget_enforced_sample : Consumable sampleLimits sampleIssued.after 1000 samplePermit := by
  obtain ⟨-, -, hopen, -⟩ := probe_budget_enforced sample_run
  exact hopen samplePermit (List.mem_singleton_self _)

end Hyeboard.ProbeBudget
