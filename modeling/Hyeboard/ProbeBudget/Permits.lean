import Hyeboard.ProbeBudget.Effects
/-!
# One-time permits

A permit is in storage from its issue until it expires, marked once it has been
consumed; its hash is issued once, so a consumed permit stays consumed.
-/

namespace Hyeboard.ProbeBudget

/-- One served call: storage before and after, and the answer. -/
abbrev Served := Step Storage Call (Except String OperationResult)

/-- The permits a call issued. -/
def issuedPermits (e : Served) : List VnuCrossDetailIssuedPermit :=
  match e.call.operation, e.result with
  | .issueCrossDetailPermits permits, .ok _ => permits
  | _, _ => []

/-- What a successful consume presented, and the envelope it was given. -/
def consumption (e : Served) : Option (VnuCrossDetailConsumeInput × String) :=
  match e.call.operation, e.result with
  | .consumeCrossDetailPermit input, .ok (.consume (.allowed _ _ envelope)) => some (input, envelope)
  | _, _ => none

/-- The largest time value `Date.now()` gives. -/
def maxTimeValue : Nat := 8640000000000000

/-- The calls of a run: `Date.now()` reads a time value, `randomHex32` draws
what no earlier call drew, and permit hashes are issued once. -/
structure CallOk (trace : List Served) (call : Call) : Prop where
  clock : call.now ≤ maxTimeValue
  lease_id : isHex 32 call.randomHex32 = true
  lease_fresh : ∀ e ∈ trace, e.call.randomHex32 ≠ call.randomHex32
  hashes : ∀ permits, call.operation = .issueCrossDetailPermits permits → (permits.map (·.permitHash)).Nodup
  hashes_fresh : ∀ permits, call.operation = .issueCrossDetailPermits permits →
    ∀ q ∈ permits, ∀ e ∈ trace, ∀ p ∈ issuedPermits e, q.permitHash ≠ p.permitHash

/-- The runs of one session from empty storage. -/
abbrev SessionRun (limits : VnuCrossDetailLimits) :=
  Run (serve limits) Call.now (fun trace _ call => CallOk trace call) Storage.empty

/-! ## The map of permits -/

def Storage.permits (storage : Storage) : Record StoredCrossDetailPermit := storage.crossDetailPermits.getD .empty

/-- `{ ...record }`, as it is stored when issued. -/
def VnuCrossDetailPermitRecord.unconsumed (record : VnuCrossDetailPermitRecord) : StoredCrossDetailPermit := { record with }

section
variable {hash : String} {record : StoredCrossDetailPermit} {now : Nat}

theorem livePermits_eq_some {map : Option (Record StoredCrossDetailPermit)} :
    (livePermits map now).get? hash = some record ↔ (map.getD .empty).get? hash = some record ∧ now < record.expiresAt := by
  simp [livePermits, Record.get?_filter, Option.filter_eq_some_iff]

theorem get?_issuedInto_of_forall_ne {permits : List VnuCrossDetailIssuedPermit} {map : Record StoredCrossDetailPermit}
    (h : ∀ p ∈ permits, p.permitHash ≠ hash) : (Storage.issuedInto permits map).get? hash = map.get? hash := by
  induction permits generalizing map with
  | nil => rfl
  | cons p rest ih =>
    rw [List.forall_mem_cons] at h
    exact (ih h.2).trans (Record.get?_set_of_ne _ _ (Ne.symm h.1))

theorem get?_issuedInto_of_mem {permits : List VnuCrossDetailIssuedPermit} {map : Record StoredCrossDetailPermit}
    {p : VnuCrossDetailIssuedPermit} (hnodup : (permits.map (·.permitHash)).Nodup) (hp : p ∈ permits) :
    (Storage.issuedInto permits map).get? p.permitHash = some p.record.unconsumed := by
  induction permits generalizing map with
  | nil => cases hp
  | cons q rest ih =>
    rw [List.map_cons, List.nodup_cons] at hnodup
    rcases List.mem_cons.1 hp with rfl | hp
    · have hlater : ∀ q ∈ rest, q.permitHash ≠ p.permitHash :=
        fun q hq heq => hnodup.1 (List.mem_map.2 ⟨q, hq, heq⟩)
      have hset : (map.set p.permitHash p.record.unconsumed).get? p.permitHash = some p.record.unconsumed :=
        Record.get?_set_self _ _ _
      exact (get?_issuedInto_of_forall_ne hlater).trans hset
    · exact ih hnodup.2 hp

theorem issuedInto_origin {permits : List VnuCrossDetailIssuedPermit} {map : Record StoredCrossDetailPermit}
    (h : (Storage.issuedInto permits map).get? hash = some record) :
    (∃ p ∈ permits, p.permitHash = hash ∧ record = p.record.unconsumed) ∨ map.get? hash = some record := by
  induction permits generalizing map with
  | nil => exact .inr h
  | cons q rest ih =>
    rcases ih h with ⟨p, hp, hhash, hrecord⟩ | h
    · exact .inl ⟨p, List.mem_cons_of_mem _ hp, hhash, hrecord⟩
    · rw [Record.get?_set] at h
      split at h
      · rename_i heq
        cases h
        exact .inl ⟨q, List.mem_cons_self, heq.symm, rfl⟩
      · exact .inr h

/-- Permits that pass the checks of an issue can be read back from storage. -/
theorem issued_valid {limits : VnuCrossDetailLimits} {permits : List VnuCrossDetailIssuedPermit}
    (h : assertValidVnuCrossDetailIssuedPermits permits limits = .ok ()) :
    ∀ p ∈ permits, storedPermitOk p.permitHash p.record.unconsumed = true := by
  simp only [assertValidVnuCrossDetailIssuedPermits, bind_eq_ok, require_eq_ok, forM_eq_ok, assertValidCrossDetailRecord,
    Bool.and_eq_true] at h
  obtain ⟨_, -, _, hpermits, -⟩ := h
  intro p hp
  obtain ⟨_, hhash, ⟨⟨hbindings, henvelope⟩, -⟩, hexpiresAt⟩ := hpermits p hp
  simp only [storedPermitOk, VnuCrossDetailPermitRecord.unconsumed, Bool.and_eq_true]
  exact ⟨⟨⟨⟨hhash, hbindings⟩, henvelope⟩, hexpiresAt⟩, rfl⟩

theorem PermitsValid.issued {limits : VnuCrossDetailLimits} {storage : Storage} {permits : List VnuCrossDetailIssuedPermit}
    (hvalid : PermitsValid storage.crossDetailPermits)
    (hpermits : assertValidVnuCrossDetailIssuedPermits permits limits = .ok ()) (now : Nat) :
    PermitsValid (storage.issued now permits).crossDetailPermits := by
  intro e he
  have hget : (Storage.issuedInto permits (livePermits storage.crossDetailPermits now)).get? e.1 = some e.2 :=
    Record.get?_eq_some.2 he
  rcases issuedInto_origin hget with ⟨p, hp, hhash, hrecord⟩ | hget
  · rw [← hhash, hrecord]
    exact issued_valid hpermits p hp
  · exact hvalid.live now e (Record.get?_eq_some.1 hget)

theorem issue_allowed {limits : VnuCrossDetailLimits} {storage : Storage} {permits : List VnuCrossDetailIssuedPermit}
    (hlimits : assertValidVnuCrossDetailLimits limits = .ok ())
    (hpermits : assertValidVnuCrossDetailIssuedPermits permits limits = .ok ())
    (hvalid : PermitsValid storage.crossDetailPermits) :
    issueCrossDetailPermits storage now permits limits = .ok (storage.issued now permits) := by
  simp only [issueCrossDetailPermits, bind_eq_ok]
  exact ⟨(), hlimits, (), hpermits, _, activeCrossDetailPermits_eq_ok.2 ⟨hvalid, rfl⟩,
    rescheduleAlarm_eq_ok.2 ⟨hvalid.issued hpermits now, rfl⟩⟩

end

/-! ## One call -/

section
variable {limits : VnuCrossDetailLimits} {storage next : Storage} {now : Nat} {randomHex32 hash : String}
  {operation : Operation} {result : Except String OperationResult} {record : StoredCrossDetailPermit}

/-- Where a stored permit comes from: it was stored before, was issued just
now, or was stored unconsumed and is consumed now. -/
theorem Effect.permit_origin (h : Effect limits storage now randomHex32 operation result next)
    (hget : next.permits.get? hash = some record) :
    storage.permits.get? hash = some record ∨
      (∃ permits, operation = .issueCrossDetailPermits permits ∧ result = .ok .done ∧
        ∃ p ∈ permits, p.permitHash = hash ∧ record = p.record.unconsumed) ∨
      ∃ input old, operation = .consumeCrossDetailPermit input ∧ input.permitHash = hash ∧
        storage.permits.get? hash = some old ∧ record = { old with consumedAt := some now } := by
  cases h with
  | consumed input old window hlimits hrecord hmatch hwindow hroom hvalid =>
    have hget : ((livePermits storage.crossDetailPermits now).set input.permitHash
      { old with consumedAt := some now }).get? hash = some record := hget
    rw [Record.get?_set] at hget
    split at hget
    · rename_i heq
      cases hget
      subst heq
      exact .inr (.inr ⟨input, old, rfl, rfl, (livePermits_eq_some.1 hrecord).1, rfl⟩)
    · exact .inl (livePermits_eq_some.1 hget).1
  | issued permits hlimits hvalid =>
    rcases issuedInto_origin hget with ⟨p, hp, hhash, hrecord⟩ | hget
    · exact .inr (.inl ⟨permits, rfl, rfl, p, hp, hhash, hrecord⟩)
    · exact .inl (livePermits_eq_some.1 hget).1
  | pruned hvalid =>
    have hget : ((stored (livePermits storage.crossDetailPermits now)).getD .empty).get? hash = some record := hget
    rw [stored_getD] at hget
    exact .inl (livePermits_eq_some.1 hget).1
  | _ => exact .inl hget

/-- A stored permit that has not expired stays as it is, unless its hash is
issued again or it is consumed. -/
theorem Effect.permit_kept (h : Effect limits storage now randomHex32 operation result next)
    (hget : storage.permits.get? hash = some record) (hlive : now < record.expiresAt)
    (hissue : ∀ permits, operation = .issueCrossDetailPermits permits → ∀ p ∈ permits, p.permitHash ≠ hash)
    (hconsume : ∀ input leaseId expiresAt envelope, operation = .consumeCrossDetailPermit input →
      result = .ok (.consume (.allowed leaseId expiresAt envelope)) → input.permitHash ≠ hash) :
    next.permits.get? hash = some record := by
  have hkept : (livePermits storage.crossDetailPermits now).get? hash = some record :=
    livePermits_eq_some.2 ⟨hget, hlive⟩
  cases h with
  | consumed input old window hlimits hrecord hmatch hwindow hroom hvalid =>
    exact (Record.get?_set_of_ne _ _ (Ne.symm (hconsume input _ _ _ rfl rfl))).trans hkept
  | issued permits hlimits hvalid => exact (get?_issuedInto_of_forall_ne (hissue permits rfl)).trans hkept
  | pruned hvalid =>
    have hstored : ((stored (livePermits storage.crossDetailPermits now)).getD .empty).get? hash = some record := by
      rw [stored_getD]
      exact hkept
    exact hstored
  | _ => exact hget

end

/-- The write of a successful consume, and what it was let through on. -/
structure Consumes (limits : VnuCrossDetailLimits) (e : Served) (input : VnuCrossDetailConsumeInput)
    (envelope : String) : Prop where
  operation : e.call.operation = .consumeCrossDetailPermit input
  limits_valid : assertValidVnuCrossDetailLimits limits = .ok ()
  write : ∃ record window, (livePermits e.before.crossDetailPermits e.call.now).get? input.permitHash = some record ∧
    permitMatches record input = true ∧ envelope = record.envelope ∧
    Charges e.before.crossDetailWindow 1 e.call.now limits.budget limits.windowSeconds window ∧
    (activeCrossDetailLeases e.before e.call.now).size < limits.concurrency ∧
    e.after = e.before.consumed e.call.now input record window e.call.randomHex32

/-- A step that is a served call. -/
def ServedBy (limits : VnuCrossDetailLimits) (e : Served) : Prop :=
  Effect limits e.before e.call.now e.call.randomHex32 e.call.operation e.result e.after

theorem servedBy_stepOf (limits : VnuCrossDetailLimits) (storage : Storage) (call : Call) :
    ServedBy limits (stepOf (serve limits) storage call) := serve_effect limits storage call

section
variable {limits : VnuCrossDetailLimits} {e : Served}

theorem ServedBy.consumes (h : ServedBy limits e) {input : VnuCrossDetailConsumeInput} {envelope : String}
    (hconsumption : consumption e = some (input, envelope)) : Consumes limits e input envelope := by
  obtain ⟨before, ⟨operation, now, randomHex32⟩, result, after⟩ := e
  dsimp only [ServedBy] at h
  cases h with
  | consumed input' record window hlimits hrecord hmatch hwindow hroom hvalid =>
    cases hconsumption
    exact ⟨rfl, hlimits, record, window, hrecord, hmatch, rfl, hwindow, hroom, rfl⟩
  | threw operation error => cases operation <;> cases hconsumption
  | refused operation result hgrants hissue halarm =>
    unfold consumption at hconsumption
    split at hconsumption
    · rename_i hresult
      cases hresult
      exact absurd trivial hgrants
    · cases hconsumption
  | _ => cases hconsumption

theorem ServedBy.issues (h : ServedBy limits e) {permits : List VnuCrossDetailIssuedPermit} (hp : issuedPermits e = permits)
    (hne : permits ≠ []) :
    e.call.operation = .issueCrossDetailPermits permits ∧ assertValidVnuCrossDetailLimits limits = .ok () ∧
      e.after = e.before.issued e.call.now permits := by
  obtain ⟨before, ⟨operation, now, randomHex32⟩, result, after⟩ := e
  dsimp only [ServedBy] at h
  cases h with
  | issued permits' hlimits hvalid =>
    cases hp
    exact ⟨rfl, hlimits, rfl⟩
  | threw operation error =>
    cases operation <;> exact absurd hp.symm hne
  | refused operation result hgrants hissue halarm =>
    cases operation with
    | issueCrossDetailPermits permits' => exact absurd rfl (hissue permits')
    | _ => exact absurd hp.symm hne
  | _ => exact absurd hp.symm hne

/-- A call's own permits are stored unconsumed. -/
theorem ServedBy.issued_stored (h : ServedBy limits e) {trace : List Served} (hok : CallOk trace e.call)
    {p : VnuCrossDetailIssuedPermit} (hp : p ∈ issuedPermits e) :
    e.after.permits.get? p.permitHash = some p.record.unconsumed := by
  obtain ⟨hcall, -, hafter⟩ := h.issues rfl (List.ne_nil_of_mem hp)
  rw [hafter]
  exact get?_issuedInto_of_mem (hok.hashes _ hcall) hp

theorem ServedBy.issued_fresh (h : ServedBy limits e) {trace : List Served} (hok : CallOk trace e.call)
    {p q : VnuCrossDetailIssuedPermit} (hp : p ∈ issuedPermits e) {e' : Served} (he' : e' ∈ trace)
    (hq : q ∈ issuedPermits e') : p.permitHash ≠ q.permitHash :=
  hok.hashes_fresh _ (h.issues rfl (List.ne_nil_of_mem hp)).1 p hp e' he' q hq

theorem ServedBy.permits_valid (h : ServedBy limits e) (hvalid : PermitsValid e.before.crossDetailPermits) :
    PermitsValid e.after.crossDetailPermits := by
  obtain ⟨before, ⟨operation, now, randomHex32⟩, result, after⟩ := e
  dsimp only [ServedBy] at h hvalid ⊢
  cases h with
  | consumed input record window hlimits hrecord hmatch hwindow hroom hnext => exact hnext
  | issued permits hlimits hnext => exact hnext
  | pruned => exact hvalid.pruned now
  | _ => exact hvalid

/-! ## Runs -/

/-- What a run's storage knows about its permits: each was issued, and those
that were consumed are marked. -/
structure PermitsTracked (trace : List Served) (storage : Storage) : Prop where
  origin : ∀ hash record, storage.permits.get? hash = some record →
    ∃ e ∈ trace, ∃ p ∈ issuedPermits e, p.permitHash = hash ∧ record.toVnuCrossDetailPermitRecord = p.record
  spent : ∀ e ∈ trace, ∀ input envelope, consumption e = some (input, envelope) →
    (∃ e' ∈ trace, ∃ p ∈ issuedPermits e', p.permitHash = input.permitHash) ∧
      ∀ record, storage.permits.get? input.permitHash = some record → record.consumedAt ≠ none

theorem PermitsTracked.step {trace : List Served} (h : PermitsTracked trace e.before) (he : ServedBy limits e)
    (hok : CallOk trace e.call) : PermitsTracked (trace ++ [e]) e.after := by
  constructor
  · intro hash record hget
    rcases he.permit_origin hget with hget | ⟨permits, hcall, hresult, p, hp, hhash, rfl⟩ | ⟨input, old, -, -, hold, rfl⟩
    · obtain ⟨e', he', p, hp, hhash, hrecord⟩ := h.origin hash record hget
      exact ⟨e', List.mem_append_left _ he', p, hp, hhash, hrecord⟩
    · refine ⟨e, by simp, p, ?_, hhash, rfl⟩
      unfold issuedPermits
      rw [hcall, hresult]
      exact hp
    · obtain ⟨e', he', p, hp, hhash, hrecord⟩ := h.origin hash old hold
      exact ⟨e', List.mem_append_left _ he', p, hp, hhash, hrecord⟩
  · intro e' he' input envelope hconsumption
    rcases List.mem_append.1 he' with he' | he'
    · -- consumed before: its hash is not issued again, and a mark stays
      obtain ⟨⟨issue, hissue, p, hp, hhash⟩, hmarked⟩ := h.spent e' he' input envelope hconsumption
      refine ⟨⟨issue, List.mem_append_left _ hissue, p, hp, hhash⟩, ?_⟩
      intro record hget
      rcases he.permit_origin hget with hget | ⟨permits, hcall, hresult, q, hq, hqhash, -⟩ | ⟨-, old, -, -, -, rfl⟩
      · exact hmarked record hget
      · have hq : q ∈ issuedPermits e := by
          unfold issuedPermits
          rw [hcall, hresult]
          exact hq
        exact absurd (hqhash.trans hhash.symm) (he.issued_fresh hok hq hissue hp)
      · exact Option.some_ne_none _
    · -- consumed now
      rw [List.mem_singleton] at he'
      subst he'
      obtain ⟨-, -, record, window, hget, -, -, -, -, hafter⟩ := he.consumes hconsumption
      obtain ⟨issue, hissue, p, hp, hhash, -⟩ := h.origin _ _ (livePermits_eq_some.1 hget).1
      refine ⟨⟨issue, List.mem_append_left _ hissue, p, hp, hhash⟩, ?_⟩
      intro record' hget'
      have hset : e'.after.permits.get? input.permitHash = some { record with consumedAt := some e'.call.now } := by
        rw [hafter]
        exact Record.get?_set_self _ _ _
      rw [hset] at hget'
      cases hget'
      exact Option.some_ne_none _

end

section
variable {limits : VnuCrossDetailLimits} {trace : List Served} {storage : Storage} {clock : Nat}

theorem SessionRun.served (h : SessionRun limits trace storage clock) : ∀ e ∈ trace, ServedBy limits e := by
  intro e he
  obtain ⟨earlier, later, htrace⟩ := List.append_of_mem he
  obtain ⟨s, call, _, -, -, -, rfl⟩ := h.cut htrace
  exact servedBy_stepOf limits s call

theorem SessionRun.permits_valid (h : SessionRun limits trace storage clock) :
    PermitsValid storage.crossDetailPermits := by
  refine h.invariant (fun _ storage _ => PermitsValid storage.crossDetailPermits) ?_ ?_
  · intro e he
    cases he
  intro trace storage clock call _ ih _ _
  exact ServedBy.permits_valid (servedBy_stepOf limits storage call) ih

theorem SessionRun.tracked (h : SessionRun limits trace storage clock) : PermitsTracked trace storage := by
  refine h.invariant (fun trace storage _ => PermitsTracked trace storage) ⟨?_, ?_⟩ ?_
  · intro hash record hget
    cases hget
  · intro e he
    cases he
  intro trace storage clock call _ ih _ hok
  exact PermitsTracked.step ih (servedBy_stepOf limits storage call) hok

/-- What a consume was matched against: a permit issued before it, equal in
every binding, unexpired, whose envelope it was given. -/
def MatchesIssued (earlier : List Served) (e : Served) (input : VnuCrossDetailConsumeInput) (envelope : String) : Prop :=
  ∃ e' ∈ earlier, ∃ p ∈ issuedPermits e', p.permitHash = input.permitHash ∧ p.record.nonce = input.nonce ∧
    p.record.requesterHmac = input.requesterHmac ∧ p.record.targetHmac = input.targetHmac ∧
    p.record.revisionHmac = input.revisionHmac ∧ p.record.rowHmac = input.rowHmac ∧
    p.record.policyVersion = input.policyVersion ∧ e.call.now < p.record.expiresAt ∧ p.record.envelope = envelope

/-- A successful consume presents a permit issued earlier, and no earlier call
consumed it. -/
theorem SessionRun.consume_once (h : SessionRun limits trace storage clock) {earlier later : List Served} {e : Served}
    (htrace : trace = earlier ++ e :: later) {input : VnuCrossDetailConsumeInput} {envelope : String}
    (hconsumption : consumption e = some (input, envelope)) :
    MatchesIssued earlier e input envelope ∧
      ∀ e' ∈ earlier, ∀ input' envelope', consumption e' = some (input', envelope') →
        input'.permitHash ≠ input.permitHash := by
  obtain ⟨s, call, _, hrun, -, -, rfl⟩ := h.cut htrace
  have htracked := SessionRun.tracked hrun
  obtain ⟨-, -, record, window, hget, hmatch, henvelope, -⟩ := (servedBy_stepOf limits s call).consumes hconsumption
  obtain ⟨hstored, hlive⟩ := livePermits_eq_some.1 hget
  simp only [permitMatches, Bool.and_eq_true, Option.isNone_iff_eq_none, beq_iff_eq] at hmatch
  obtain ⟨⟨⟨⟨⟨⟨hunconsumed, hnonce⟩, hrequester⟩, htarget⟩, hrevision⟩, hrow⟩, hpolicy⟩ := hmatch
  constructor
  · obtain ⟨issue, hissue, p, hp, hhash, hrecord⟩ := htracked.origin _ _ hstored
    refine ⟨issue, hissue, p, hp, hhash, ?_⟩
    rw [← hrecord]
    exact ⟨hnonce, hrequester, htarget, hrevision, hrow, hpolicy, hlive, henvelope.symm⟩
  · intro e' he' input' envelope' hconsumption' heq
    obtain ⟨-, hmarked⟩ := htracked.spent e' he' input' envelope' hconsumption'
    rw [heq] at hmarked
    exact hmarked record hstored hunconsumed

/-! ## Permits that can still be consumed -/

def consumedHash (e : Served) (p : VnuCrossDetailIssuedPermit) : Bool :=
  (consumption e).any fun consumed => consumed.1.permitHash == p.permitHash

/-- The permits issued in a run and not consumed. -/
abbrev openPermits (trace : List Served) : List VnuCrossDetailIssuedPermit :=
  outstanding issuedPermits consumedHash trace

/-- Until it expires, a permit that was issued and not consumed is in storage. -/
theorem SessionRun.open_stored (h : SessionRun limits trace storage clock) : ∀ p ∈ openPermits trace,
    clock < p.record.expiresAt → storage.permits.get? p.permitHash = some p.record.unconsumed := by
  refine h.holds_outstanding (fun (p : VnuCrossDetailIssuedPermit) storage clock => clock < p.record.expiresAt →
    storage.permits.get? p.permitHash = some p.record.unconsumed) ?_ ?_
  · intro earlier s clk call _ _ hok p hp _
    exact (servedBy_stepOf limits s call).issued_stored hok hp
  · intro earlier s clk call p _ hle hok hopen hkept ih hlive
    apply Effect.permit_kept (serve_effect limits s call)
    · exact ih (by omega)
    · exact hlive
    · intro permits hcall q hq
      obtain ⟨e, he, hp⟩ := given_of_outstanding hopen
      exact hok.hashes_fresh permits hcall q hq e he p hp
    · intro input leaseId expiresAt envelope hcall hresult heq
      have hconsumption : consumption (stepOf (serve limits) s call) = some (input, envelope) := by
        unfold consumption stepOf
        rw [hcall, hresult]
      rw [consumedHash, hconsumption] at hkept
      simp [heq] at hkept

end

end Hyeboard.ProbeBudget
