import Hyeboard.ProbeBudget.Permits
/-!
# Leases and the alarm

Both lease maps are run alike: a lease is in its map from its grant until it is
released or expires, and a grant needs room under the limit. So the leases the
clients hold never outnumber the limit.
-/

namespace Hyeboard.ProbeBudget

inductive LeaseKind where
  | brc1
  | crossDetail
deriving DecidableEq

namespace LeaseKind

def map (kind : LeaseKind) (storage : Storage) : Option (Record Nat) :=
  match kind with
  | .brc1 => storage.brc1Permits
  | .crossDetail => storage.crossDetailLeases

def limit (kind : LeaseKind) (limits : VnuCrossDetailLimits) : Nat :=
  match kind with
  | .brc1 => vnuBrc1PermitLimit
  | .crossDetail => limits.concurrency

def lifetime : LeaseKind → Nat
  | .brc1 => vnuBrc1PermitLeaseMs
  | .crossDetail => vnuCrossDetailLeaseMs

/-- The lease a call was given, and its expiry. -/
def granted (kind : LeaseKind) (e : Served) : List (String × Nat) :=
  match kind, e.result with
  | .brc1, .ok (.brc1Permit (.allowed leaseId expiresAt)) => [(leaseId, expiresAt)]
  | .crossDetail, .ok (.consume (.allowed leaseId expiresAt _)) => [(leaseId, expiresAt)]
  | _, _ => []

/-- The call gave the lease back. -/
def released (kind : LeaseKind) (e : Served) (lease : String × Nat) : Bool :=
  match kind, e.call.operation, e.result with
  | .brc1, .releaseBrc1Permit leaseId, .ok _ => leaseId == lease.1
  | .crossDetail, .releaseCrossDetailLease leaseId, .ok _ => leaseId == lease.1
  | _, _, _ => false

/-- The leases granted in a run and not given back. -/
abbrev held (kind : LeaseKind) (trace : List Served) : List (String × Nat) :=
  outstanding kind.granted kind.released trace

end LeaseKind

/-- What a call does to a map of leases. -/
inductive LeaseChange (kind : LeaseKind) (limits : VnuCrossDetailLimits) (e : Served) : Option (Record Nat) → Prop
  | same (h : kind.granted e = []) : LeaseChange kind limits e (kind.map e.before)
  | added (h : kind.granted e = [(e.call.randomHex32, e.call.now + kind.lifetime)])
      (hroom : (activeLeases (kind.map e.before) e.call.now).size < kind.limit limits) :
      LeaseChange kind limits e
        (some ((activeLeases (kind.map e.before) e.call.now).set e.call.randomHex32 (e.call.now + kind.lifetime)))
  | removed (leaseId : String) (h : kind.granted e = []) (hrelease : ∀ lease, kind.released e lease = (leaseId == lease.1)) :
      LeaseChange kind limits e (stored ((activeLeases (kind.map e.before) e.call.now).delete leaseId))
  | pruned (h : kind.granted e = []) : LeaseChange kind limits e (stored (activeLeases (kind.map e.before) e.call.now))

theorem granted_of_not_grants {kind : LeaseKind} {e : Served} {result : OperationResult} (hresult : e.result = .ok result)
    (h : ¬ result.Grants) : kind.granted e = [] := by
  unfold LeaseKind.granted
  split
  · rename_i heq
    rw [hresult] at heq
    cases heq
    exact absurd trivial h
  · rename_i heq
    rw [hresult] at heq
    cases heq
    exact absurd trivial h
  · rfl

theorem ServedBy.lease_change {limits : VnuCrossDetailLimits} {e : Served} (h : ServedBy limits e) (kind : LeaseKind) :
    LeaseChange kind limits e (kind.map e.after) := by
  obtain ⟨before, ⟨operation, now, randomHex32⟩, result, after⟩ := e
  dsimp only [ServedBy] at h
  cases h with
  | threw operation error => cases kind <;> exact .same rfl
  | refused operation result hgrants hissue halarm =>
    exact .same (granted_of_not_grants rfl hgrants)
  | acquired hroom =>
    cases kind with
    | brc1 => exact .added rfl hroom
    | crossDetail => exact .same rfl
  | releasedBrc1 leaseId =>
    cases kind with
    | brc1 => exact .removed leaseId rfl fun _ => rfl
    | crossDetail => exact .same rfl
  | consumed input record window hlimits hrecord hmatch hwindow hroom hvalid =>
    cases kind with
    | brc1 => exact .same rfl
    | crossDetail => exact .added rfl hroom
  | issued permits hlimits hvalid => cases kind <;> exact .same rfl
  | releasedDetail leaseId =>
    cases kind with
    | brc1 => exact .same rfl
    | crossDetail => exact .removed leaseId rfl fun _ => rfl
  | reserved amount window hwindow => cases kind <;> exact .same rfl
  | pruned hvalid => cases kind <;> exact .pruned rfl

/-! ## Counting -/

section
variable {leases : Option (Record Nat)} {now : Nat} {leaseId : String} {expiresAt : Nat}

theorem activeLeases_eq_some :
    (activeLeases leases now).get? leaseId = some expiresAt ↔
      (leases.getD .empty).get? leaseId = some expiresAt ∧ isHex 32 leaseId = true ∧ isSafe expiresAt = true ∧
        now < expiresAt := by
  simp [activeLeases, Record.get?_select, Option.filter_eq_some_iff, and_assoc]

theorem activeLeases_size_le (leases : Option (Record Nat)) (now : Nat) : (activeLeases leases now).size ≤ (leases.getD .empty).size :=
  List.length_filter_le _ _

/-- What is active is active again in the map it was put into. -/
theorem activeLeases_set (hleaseId : isHex 32 leaseId = true) (hsafe : isSafe expiresAt = true) (hlive : now < expiresAt) :
    activeLeases (some ((activeLeases leases now).set leaseId expiresAt)) now =
      (activeLeases leases now).set leaseId expiresAt := by
  apply Record.ext_entries
  apply List.filter_eq_self.2
  intro e he
  have hget := Record.get?_eq_some.2 he
  rw [Option.getD_some, Record.get?_set] at hget
  split at hget
  · rename_i heq
    cases hget
    simp [heq, hleaseId, hsafe, hlive]
  · obtain ⟨-, hhex, hsafe, hlive⟩ := activeLeases_eq_some.1 hget
    simp [hhex, hsafe, hlive]

end

/-! ## Runs -/

/-- A map of leases is full at most, and holds only what `randomHex32` drew. -/
structure LeasesOk (kind : LeaseKind) (limits : VnuCrossDetailLimits) (trace : List Served) (storage : Storage) : Prop where
  size_le : ((kind.map storage).getD .empty).size ≤ kind.limit limits
  drawn : ∀ leaseId expiresAt, ((kind.map storage).getD .empty).get? leaseId = some expiresAt →
    ∃ e ∈ trace, e.call.randomHex32 = leaseId

section
variable {limits : VnuCrossDetailLimits} {kind : LeaseKind} {e : Served} {trace : List Served}

theorem LeasesOk.step (h : LeasesOk kind limits trace e.before) (he : ServedBy limits e) :
    LeasesOk kind limits (trace ++ [e]) e.after := by
  have hchange := he.lease_change kind
  generalize hmap : kind.map e.after = map at hchange
  have hactive : ∀ leaseId expiresAt,
      (activeLeases (kind.map e.before) e.call.now).get? leaseId = some expiresAt →
      ∃ e' ∈ trace ++ [e], e'.call.randomHex32 = leaseId := by
    intro leaseId expiresAt hget
    obtain ⟨e', he', hdrawn⟩ := h.drawn leaseId expiresAt (activeLeases_eq_some.1 hget).1
    exact ⟨e', List.mem_append_left _ he', hdrawn⟩
  have hsize := Nat.le_trans (activeLeases_size_le (kind.map e.before) e.call.now) h.size_le
  constructor
  · rw [hmap]
    cases hchange with
    | same hnone => exact h.size_le
    | added hgrant hroom => exact Nat.le_trans (Record.size_set_le _ _ _) hroom
    | removed leaseId hnone hrelease =>
      rw [stored_getD]
      exact Nat.le_trans (Record.size_delete_le _ _) hsize
    | pruned hnone =>
      rw [stored_getD]
      exact hsize
  · rw [hmap]
    intro leaseId expiresAt hget
    cases hchange with
    | same hnone =>
      obtain ⟨e', he', hdrawn⟩ := h.drawn leaseId expiresAt hget
      exact ⟨e', List.mem_append_left _ he', hdrawn⟩
    | added hgrant hroom =>
      rw [Option.getD_some, Record.get?_set] at hget
      split at hget
      · rename_i heq
        exact ⟨e, by simp, heq.symm⟩
      · exact hactive leaseId expiresAt hget
    | removed id hnone hrelease =>
      rw [stored_getD, Record.get?_delete] at hget
      split at hget
      · cases hget
      · exact hactive leaseId expiresAt hget
    | pruned hnone =>
      rw [stored_getD] at hget
      exact hactive leaseId expiresAt hget

/-- A held lease that has not expired, in its map. -/
def LeaseStored (kind : LeaseKind) (lease : String × Nat) (storage : Storage) (clock : Nat) : Prop :=
  isHex 32 lease.1 = true ∧ isSafe lease.2 = true ∧
    (clock < lease.2 → ((kind.map storage).getD .empty).get? lease.1 = some lease.2)

theorem ServedBy.granted_eq (h : ServedBy limits e) {lease : String × Nat} (hgrant : lease ∈ kind.granted e) :
    lease = (e.call.randomHex32, e.call.now + kind.lifetime) ∧
      kind.map e.after = some ((activeLeases (kind.map e.before) e.call.now).set e.call.randomHex32
        (e.call.now + kind.lifetime)) := by
  have hchange := h.lease_change kind
  generalize kind.map e.after = map at hchange
  cases hchange with
  | added hadded hroom =>
    rw [hadded, List.mem_singleton] at hgrant
    exact ⟨hgrant, rfl⟩
  | same hnone => rw [hnone] at hgrant; cases hgrant
  | removed leaseId hnone hrelease => rw [hnone] at hgrant; cases hgrant
  | pruned hnone => rw [hnone] at hgrant; cases hgrant

theorem ServedBy.lease_kept (h : ServedBy limits e) {lease : String × Nat} (hfresh : e.call.randomHex32 ≠ lease.1)
    (hreleased : kind.released e lease = false) (hstored : LeaseStored kind lease e.before e.call.now) :
    LeaseStored kind lease e.after e.call.now := by
  obtain ⟨hhex, hsafe, hget⟩ := hstored
  refine ⟨hhex, hsafe, ?_⟩
  intro hlive
  have hactive : (activeLeases (kind.map e.before) e.call.now).get? lease.1 = some lease.2 :=
    activeLeases_eq_some.2 ⟨hget hlive, hhex, hsafe, hlive⟩
  have hchange := h.lease_change kind
  generalize kind.map e.after = map at hchange
  cases hchange with
  | same hnone => exact hget hlive
  | added hgrant hroom => exact (Record.get?_set_of_ne _ _ (Ne.symm hfresh)).trans hactive
  | removed leaseId hnone hrelease =>
    rw [hrelease, beq_eq_false_iff_ne] at hreleased
    rw [stored_getD, Record.get?_delete, if_neg (Ne.symm hreleased)]
    exact hactive
  | pruned hnone =>
    rw [stored_getD]
    exact hactive

theorem isSafe_expiry {now : Nat} (h : now ≤ maxTimeValue) (kind : LeaseKind) : isSafe (now + kind.lifetime) = true := by
  have hmax : maxTimeValue + 125000 ≤ maxSafeInteger := by decide
  have hlifetime : kind.lifetime = 125000 := by cases kind <;> rfl
  rw [isSafe, decide_eq_true_eq, hlifetime]
  omega

variable {storage : Storage} {clock : Nat}

theorem SessionRun.leases_ok (h : SessionRun limits trace storage clock) (kind : LeaseKind) :
    LeasesOk kind limits trace storage := by
  refine h.invariant (fun trace storage _ => LeasesOk kind limits trace storage) ⟨?_, ?_⟩ ?_
  · cases kind <;> exact Nat.zero_le _
  · intro leaseId expiresAt hget
    cases kind <;> cases hget
  intro trace storage clock call _ ih _ _
  exact LeasesOk.step ih (servedBy_stepOf limits storage call)

/-- Every lease the clients hold is in its map until it expires. -/
theorem SessionRun.held_stored (h : SessionRun limits trace storage clock) (kind : LeaseKind) :
    ∀ lease ∈ kind.held trace, LeaseStored kind lease storage clock := by
  refine h.holds_outstanding (LeaseStored kind) ?_ ?_
  · intro earlier s clk call _ _ hok lease hgrant
    obtain ⟨rfl, hmap⟩ := (servedBy_stepOf limits s call).granted_eq hgrant
    refine ⟨hok.lease_id, isSafe_expiry hok.clock kind, ?_⟩
    intro _
    have hset : (kind.map (serve limits s call).2).getD .empty =
        (activeLeases (kind.map s) call.now).set call.randomHex32 (call.now + kind.lifetime) :=
      congrArg (fun map => map.getD Record.empty) hmap
    rw [hset]
    exact Record.get?_set_self _ _ _
  · intro earlier s clk call lease hrun hle hok hheld hreleased ⟨hhex, hsafe, hget⟩
    obtain ⟨e, he, hgrant⟩ := given_of_outstanding hheld
    apply (servedBy_stepOf limits s call).lease_kept
    · -- the lease was drawn by the earlier call that was granted it
      obtain ⟨rfl, -⟩ := (SessionRun.served hrun e he).granted_eq hgrant
      exact Ne.symm (hok.lease_fresh e he)
    · exact hreleased
    · exact ⟨hhex, hsafe, fun hlive => hget (Nat.lt_of_le_of_lt hle hlive)⟩

theorem SessionRun.held_nodup (h : SessionRun limits trace storage clock) (kind : LeaseKind) :
    (kind.held trace).Nodup := by
  refine h.nodup_outstanding ?_
  intro earlier s clk call hrun hok
  constructor
  · have hchange := (servedBy_stepOf limits s call).lease_change kind
    generalize kind.map _ = map at hchange
    cases hchange with
    | added hgrant hroom => rw [hgrant]; exact List.nodup_singleton _
    | same hnone => rw [hnone]; exact List.nodup_nil
    | removed leaseId hnone hrelease => rw [hnone]; exact List.nodup_nil
    | pruned hnone => rw [hnone]; exact List.nodup_nil
  · intro lease hgrant hheld
    obtain ⟨e, he, hearlier⟩ := given_of_outstanding hheld
    obtain ⟨rfl, -⟩ := (servedBy_stepOf limits s call).granted_eq hgrant
    obtain ⟨heq, -⟩ := (SessionRun.served hrun e he).granted_eq hearlier
    exact hok.lease_fresh e he (congrArg Prod.fst heq).symm

/-- At no time from the last call on do the clients hold more unexpired leases
than the limit. -/
theorem SessionRun.held_le (h : SessionRun limits trace storage clock) (kind : LeaseKind) {now : Nat}
    (hle : clock ≤ now) : (kind.held trace).countP (fun lease => now < lease.2) ≤ kind.limit limits := by
  have hsub : ((kind.held trace).filter fun lease => now < lease.2) ⊆ ((kind.map storage).getD .empty).entries := by
    intro lease hlease
    obtain ⟨hheld, hlive⟩ := List.mem_filter.1 hlease
    obtain ⟨-, -, hget⟩ := SessionRun.held_stored h kind lease hheld
    rw [decide_eq_true_eq] at hlive
    exact Record.get?_eq_some.1 (hget (by omega))
  rw [List.countP_eq_length_filter]
  have hlength := (List.subperm_of_subset ((SessionRun.held_nodup h kind).filter _) hsub).length_le
  exact Nat.le_trans hlength (SessionRun.leases_ok h kind).size_le

/-! ## The alarm -/

/-- No stored lease or permit expires, after `clock`, before the alarm. -/
def AlarmOk (storage : Storage) (clock : Nat) : Prop :=
  ∀ expiresAt ∈ storage.expiries clock, ∃ alarm ≤ expiresAt, storage.alarm = some alarm

theorem alarmOk_rescheduled (storage : Storage) (now : Nat) : AlarmOk (storage.rescheduled now) now := by
  intro expiresAt hmem
  have hmem : expiresAt ∈ storage.expiries now := hmem
  cases hmin : (storage.expiries now).min? with
  | none =>
    rw [List.min?_eq_none_iff] at hmin
    rw [hmin] at hmem
    cases hmem
  | some alarm => exact ⟨alarm, (List.min?_eq_some_iff.1 hmin).2 expiresAt hmem, hmin⟩

theorem leaseExpiries_anti {leases : Option (Record Nat)} {early late : Nat} (hle : early ≤ late) :
    leaseExpiries leases late ⊆ leaseExpiries leases early := by
  intro expiresAt hmem
  simp only [leaseExpiries, List.mem_filter, Bool.and_eq_true, decide_eq_true_eq] at hmem ⊢
  exact ⟨hmem.1, hmem.2.1, by omega⟩

theorem expiries_anti {early late : Nat} (hle : early ≤ late) : storage.expiries late ⊆ storage.expiries early := by
  intro expiresAt hmem
  simp only [Storage.expiries, List.mem_append, List.mem_filter, decide_eq_true_eq] at hmem ⊢
  rcases hmem with (hmem | ⟨hmem, hlive⟩) | hmem
  · exact .inl (.inl (leaseExpiries_anti hle hmem))
  · exact .inl (.inr ⟨hmem, by omega⟩)
  · exact .inr (leaseExpiries_anti hle hmem)

theorem ServedBy.alarm_ok (he : ServedBy limits e) (h : AlarmOk e.before e.call.now) : AlarmOk e.after e.call.now := by
  obtain ⟨before, ⟨operation, now, randomHex32⟩, result, after⟩ := e
  dsimp only [ServedBy] at he h ⊢
  cases he with
  | threw operation error => exact h
  | refused operation result hgrants hissue halarm => exact h
  | reserved amount window hwindow => exact h
  | _ => exact alarmOk_rescheduled _ _

theorem SessionRun.alarm_ok (h : SessionRun limits trace storage clock) : AlarmOk storage clock := by
  refine h.invariant (fun _ storage clock => AlarmOk storage clock) ?_ ?_
  · intro expiresAt hmem
    cases hmem
  intro trace storage clock call _ ih hle _
  apply ServedBy.alarm_ok (servedBy_stepOf limits storage call)
  intro expiresAt hmem
  exact ih expiresAt (expiries_anti hle hmem)

end

end Hyeboard.ProbeBudget
