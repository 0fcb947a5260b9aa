import Hyeboard.VnuRefresh.Validity
/-!
# The alarms of a principal

A record that is not quiescent has an alarm set, for the first of its expiries;
the alarm drops what has expired by then, so each one leaves fewer expiries, all
of them later, and the last one deletes the record. That takes a record the
alarm can read (`KeepsReadable`).
-/

namespace Hyeboard.VnuRefresh

/-- The times `nextVnuRefreshAlarm` chooses from. -/
def expiries (state : VnuRefreshControlState) : List Nat :=
  state.revokedAccess.entries.map Prod.snd ++
    state.revokedGrants.entries.map (fun e => grantTombstoneExpiresAt e.2) ++
    (state.active.map (·.grantExpiresAt)).toList ++
    (state.lease.map (·.expiresAt)).toList ++
    (if state.window.count > 0 then [state.window.resetAt] else []) ++
    ((state.activationWindow.filter (fun window => window.count > 0)).map (·.resetAt)).toList

theorem nextVnuRefreshAlarm_eq (state : VnuRefreshControlState) : nextVnuRefreshAlarm state = (expiries state).min? := rfl

/-- Nothing is stored and no alarm set, or the alarm is the stored state's. -/
def Scheduled (storage : Storage) : Prop :=
  storage = Storage.empty ∨ ∃ state, storage.state = some state ∧ isQuiescentVnuRefreshState state = false ∧
    storage.alarm = nextVnuRefreshAlarm state

/-- The runtime runs the alarm handler at the time set or later. -/
def AlarmDue (storage : Storage) (call : Call) : Prop :=
  call.operation = .alarm → ∃ due, storage.alarm = some due ∧ due ≤ call.now

/-- The runs of the object with its alarms. -/
abbrev AlarmedRun (ok : Storage → Call → Prop) :=
  Run serve Call.now (fun _ storage call => AlarmDue storage call ∧ ok storage call) Storage.empty

/-- Runs of alarms alone. -/
abbrev AlarmsAlone (storage : Storage) :=
  Run serve Call.now (fun _ storage call => call.operation = .alarm ∧ AlarmDue storage call ∧
    call.operation.KeepsReadable storage.state call.now) storage

section
variable {state : VnuRefreshControlState} {storage : Storage} {now clock : Nat}

theorem expiries_of_quiescent (h : isQuiescentVnuRefreshState state = true) : expiries state = [] := by
  obtain ⟨hactive, hlease, haccess, hgrants, hcount, hactivation⟩ := isQuiescent_iff.1 h
  simp [expiries, hactive, hlease, haccess, hgrants, hcount, hactivation, Record.empty]

theorem expiries_eq_nil (hcounts : ∀ window, state.activationWindow = some window → 0 < window.count) :
    expiries state = [] ↔ isQuiescentVnuRefreshState state = true := by
  refine ⟨fun h => ?_, expiries_of_quiescent⟩
  simp only [expiries, List.append_eq_nil_iff, List.map_eq_nil_iff, Option.toList_eq_nil_iff, Option.map_eq_none_iff] at h
  obtain ⟨⟨⟨⟨⟨haccess, hgrants⟩, hactive⟩, hlease⟩, hwindow⟩, hactivation⟩ := h
  refine isQuiescent_iff.2 ⟨hactive, hlease, Record.ext_entries haccess, Record.ext_entries hgrants, ?_, ?_⟩
  · split at hwindow
    · cases hwindow
    · omega
  · cases hw : state.activationWindow with
    | none => rfl
    | some window =>
      have hcount := hcounts window hw
      rw [hw, Option.filter_eq_none_iff] at hactivation
      exact absurd hcount (by simpa using hactivation window rfl)

theorem toList_map_filter {α : Type} (o : Option α) (keep : α → Bool) (f : α → Nat)
    (h : ∀ value, o = some value → keep value = decide (now < f value)) :
    ((o.filter keep).map f).toList = (o.map f).toList.filter (now < ·) := by
  cases o with
  | none => rfl
  | some value =>
    rw [Option.filter_some, h value rfl]
    by_cases hlive : now < f value
    · simp [hlive]
    · simp [hlive]

/-- Cleaning drops exactly the expiries that are over. -/
theorem expiries_clean (hvalid : state.Valid) (now : Nat) :
    expiries (cleanVnuRefreshState (some state) now) = (expiries state).filter (now < ·) := by
  have haccess : (cleanVnuRefreshState (some state) now).revokedAccess.entries.map Prod.snd =
      (state.revokedAccess.entries.map Prod.snd).filter (now < ·) := by
    rw [List.filter_map]
    rfl
  have hgrants : (cleanVnuRefreshState (some state) now).revokedGrants.entries.map (fun e => grantTombstoneExpiresAt e.2) =
      (state.revokedGrants.entries.map (fun e => grantTombstoneExpiresAt e.2)).filter (now < ·) := by
    rw [List.filter_map]
    rfl
  have hactive : ((cleanVnuRefreshState (some state) now).active.map (·.grantExpiresAt)).toList =
      (state.active.map (·.grantExpiresAt)).toList.filter (now < ·) := toList_map_filter _ _ _ fun _ _ => rfl
  have hlease : ((cleanVnuRefreshState (some state) now).lease.map (·.expiresAt)).toList =
      (state.lease.map (·.expiresAt)).toList.filter (now < ·) := by
    apply toList_map_filter
    intro lease hl
    have hle := hvalid.lease_le lease hl
    by_cases hlive : now < lease.expiresAt
    · simp [hlive, Nat.lt_of_lt_of_le hlive hle]
    · simp [hlive]
  have hwindow : (if (cleanVnuRefreshState (some state) now).window.count > 0
        then [(cleanVnuRefreshState (some state) now).window.resetAt] else []) =
      (if state.window.count > 0 then [state.window.resetAt] else []).filter (now < ·) := by
    rcases clean_window_cases (some state) now with ⟨_, ⟨⟩, hlive, hw⟩ | ⟨hover, hw⟩
    · rw [hw]
      split
      · simp [hlive]
      · rfl
    · have hended := hover state rfl
      rw [hw, if_neg (Nat.lt_irrefl 0)]
      split
      · simp [hended]
      · rfl
  have hactivation : (((cleanVnuRefreshState (some state) now).activationWindow.filter (fun window => window.count > 0)).map
        (·.resetAt)).toList =
      ((state.activationWindow.filter (fun window => window.count > 0)).map (·.resetAt)).toList.filter (now < ·) := by
    cases hw : state.activationWindow with
    | none => simp [cleanVnuRefreshState, hw]
    | some window =>
      by_cases hcount : window.count > 0 <;> by_cases hlive : now < window.resetAt <;>
        simp [cleanVnuRefreshState, hw, Option.filter, hcount, hlive]
  rw [expiries, expiries, haccess, hgrants, hactive, hlease, hwindow, hactivation]
  simp only [List.filter_append]

/-- An alarm at or after a stored expiry drops it. -/
theorem length_expiries_clean (hvalid : state.Valid) {due : Nat} (hdue : due ∈ expiries state) (hle : due ≤ now) :
    (expiries (cleanVnuRefreshState (some state) now)).length < (expiries state).length := by
  rw [expiries_clean hvalid]
  apply List.length_filter_lt_length_iff_exists.2
  exact ⟨due, hdue, by simpa using hle⟩

/-! ## Every record has its alarm -/

theorem scheduled_write (state : VnuRefreshControlState) : Scheduled (Storage.write state) := by
  unfold Storage.write
  cases hquiescent : isQuiescentVnuRefreshState state with
  | true =>
    left
    rw [nextVnuRefreshAlarm_eq, expiries_of_quiescent hquiescent]
    rfl
  | false => exact .inr ⟨state, rfl, hquiescent, rfl⟩

theorem Scheduled.due (h : Scheduled storage) {due : Nat} (hdue : storage.alarm = some due) :
    ∃ state, storage.state = some state ∧ due ∈ expiries state ∧ ∀ other ∈ expiries state, due ≤ other := by
  rcases h with rfl | ⟨state, hstate, -, halarm⟩
  · cases hdue
  · rw [halarm, nextVnuRefreshAlarm_eq, List.min?_eq_some_iff] at hdue
    exact ⟨state, hstate, hdue⟩

/-- What the alarm does to a record it can read. -/
theorem serve_alarm (hvalid : SlotValid storage.state) (hscheduled : Scheduled storage) {due : Nat} (hdue : storage.alarm = some due)
    (hle : due ≤ now) : ∃ state, storage.state = some state ∧
      (expiries (cleanVnuRefreshState (some state) now)).length < (expiries state).length ∧
      serve storage { operation := .alarm, now } = (.ok .alarm, Storage.write (cleanVnuRefreshState (some state) now)) := by
  obtain ⟨state, hstate, hmem, -⟩ := hscheduled.due hdue
  have hless := length_expiries_clean (hvalid state hstate) hmem hle
  refine ⟨state, hstate, hless, ?_⟩
  have hne : cleanVnuRefreshState (some state) now ≠ state := by
    intro heq
    rw [heq] at hless
    omega
  have hchanged : sameVnuRefreshState (some state) (cleanVnuRefreshState (some state) now) = false := by
    simpa [sameVnuRefreshState] using fun heq => hne heq.symm
  have hmutate : mutate { storage with alarm := none } (applyOperation .alarm) now =
      .ok (.alarm, Storage.write (cleanVnuRefreshState (some state) now)) := by
    rw [mutate_eq_ok]
    refine ⟨hvalid, applyAlarm storage.state now, rfl, ?_⟩
    rw [hstate]
    refine ⟨rfl, ?_⟩
    simp [applyAlarm, hchanged]
  have hhandle : handle storage { operation := .alarm, now } = .ok (.alarm, Storage.write (cleanVnuRefreshState (some state) now)) :=
    handle_eq_ok.2 hmutate
  rw [serve, hhandle]

/-- What one call preserves, the alarm too when it is due. -/
theorem Scheduled.serve (h : Scheduled storage) {call : Call} (hdue : AlarmDue storage call) :
    Scheduled (serve storage call).2 := by
  cases hhandle : handle storage call with
  | error error =>
    rw [VnuRefresh.serve, hhandle]
    exact h
  | ok answer =>
    obtain ⟨result, next⟩ := answer
    obtain ⟨hvalid, output, ho, rfl, rfl⟩ := mutate_eq_ok.1 (handle_eq_ok.1 hhandle)
    rw [served_state] at hvalid
    obtain ⟨operation, now⟩ := call
    have hother : storage.served operation = storage → Scheduled (VnuRefresh.serve storage ⟨operation, now⟩).2 := by
      intro hserved
      rw [VnuRefresh.serve, hhandle]
      simp only [hserved]
      split
      · exact scheduled_write _
      · exact h
    cases operation with
    | alarm =>
      obtain ⟨due, halarm, hle⟩ := hdue rfl
      obtain ⟨_, -, -, hserve⟩ := serve_alarm hvalid h halarm hle
      rw [hserve]
      exact scheduled_write _
    | _ => exact hother rfl

theorem scheduled_of_run {ok : Storage → Call → Prop} {trace : List Served} (h : AlarmedRun ok trace storage clock) :
    Scheduled storage :=
  h.invariant (fun _ storage _ => Scheduled storage) (.inl rfl) fun _ _ _ _ _ hscheduled _ hok => hscheduled.serve hok.1

theorem valid_of_run {trace : List Served}
    (h : AlarmedRun (fun storage call => call.operation.KeepsReadable storage.state call.now) trace storage clock) :
    SlotValid storage.state := by
  refine h.invariant (fun _ storage _ => SlotValid storage.state) ?_ ?_
  · intro state hstate
    cases hstate
  · intro _ s _ c _ hvalid _ hok
    exact (serve_effect s c).keeps_readable hvalid hok.2

/-! ## Alarms come to an end -/

/-- How many expiries are stored. -/
def remaining (slot : Option VnuRefreshControlState) : Nat := (slot.map fun state => (expiries state).length).getD 0

theorem remaining_write (state : VnuRefreshControlState) :
    remaining (Storage.write state).state = (expiries state).length := by
  unfold Storage.write remaining
  cases hquiescent : isQuiescentVnuRefreshState state with
  | true => simp [expiries_of_quiescent hquiescent]
  | false => simp

/-- Each alarm changes the record, and deletes it or moves the alarm past its
own time. -/
theorem alarm_progress (hvalid : SlotValid storage.state) (hscheduled : Scheduled storage) {due : Nat}
    (hdue : storage.alarm = some due) (hle : due ≤ now) :
    (serve storage { operation := .alarm, now }).1 = .ok .alarm ∧
      (serve storage { operation := .alarm, now }).2.state ≠ storage.state ∧
      ((serve storage { operation := .alarm, now }).2 = Storage.empty ∨
        ∃ next, (serve storage { operation := .alarm, now }).2.alarm = some next ∧ now < next) := by
  obtain ⟨state, hstate, hless, hserve⟩ := serve_alarm hvalid hscheduled hdue hle
  rw [hserve]
  refine ⟨rfl, ?_, ?_⟩
  · intro hsame
    have hremaining := remaining_write (cleanVnuRefreshState (some state) now)
    rw [show (Storage.write _).state = storage.state from hsame, hstate] at hremaining
    simp only [remaining, Option.map_some, Option.getD_some] at hremaining
    omega
  · simp only [Storage.write, nextVnuRefreshAlarm_eq]
    cases hquiescent : isQuiescentVnuRefreshState (cleanVnuRefreshState (some state) now) with
    | true =>
      left
      rw [expiries_of_quiescent hquiescent]
      rfl
    | false =>
      right
      cases hnext : (expiries (cleanVnuRefreshState (some state) now)).min? with
      | none =>
        rw [List.min?_eq_none_iff, expiries_eq_nil fun window hw => (clean_activationWindow_eq_some.1 hw).2.1] at hnext
        rw [hnext] at hquiescent
        cases hquiescent
      | some next =>
        refine ⟨next, rfl, ?_⟩
        have hmem := (List.min?_eq_some_iff.1 hnext).1
        rw [expiries_clean (hvalid state hstate), List.mem_filter] at hmem
        simpa using hmem.2

/-- What a run of alarms preserves: every one of them costs an expiry. -/
theorem alarms_pay (hvalid : SlotValid storage.state) (hscheduled : Scheduled storage) {alarms : List Served} {final : Storage}
    (h : AlarmsAlone storage alarms final clock) :
    SlotValid final.state ∧ Scheduled final ∧ alarms.length + remaining final.state ≤ remaining storage.state := by
  induction h with
  | start => exact ⟨hvalid, hscheduled, by simp⟩
  | @call trace s clk c hrun hle hok ih =>
    obtain ⟨hvalid, hscheduled, hpaid⟩ := ih
    obtain ⟨hop, hdue, hreadable⟩ := hok
    obtain ⟨operation, now⟩ := c
    subst hop
    obtain ⟨due, halarm, hlate⟩ := hdue rfl
    obtain ⟨state, hstate, hless, hserve⟩ := serve_alarm hvalid hscheduled halarm hlate
    refine ⟨(serve_effect s _).keeps_readable hvalid hreadable, hscheduled.serve hdue, ?_⟩
    rw [hserve]
    simp only [remaining_write, List.length_append, List.length_singleton]
    rw [hstate] at hpaid
    simp only [remaining, Option.map_some, Option.getD_some] at hpaid hless ⊢
    omega

end

/-- The alarm is set exactly while something is stored, and in a run of calls
that keep the record readable every alarm makes progress, so that alarms alone
delete it after at most as many as it has expiries. -/
theorem janitor_finishes (state : VnuRefreshControlState) (trace : List Served) (storage : Storage) (clock : Nat) :
    (parseVnuRefreshControlState (rawState (some state)) = .ok (some state) →
      (nextVnuRefreshAlarm state = none ↔ isQuiescentVnuRefreshState state = true)) ∧
    (AlarmedRun (fun storage call => call.operation.KeepsReadable storage.state call.now) trace storage clock →
      Scheduled storage ∧
      (∀ due now, storage.alarm = some due → due ≤ now →
        (serve storage { operation := .alarm, now }).1 = .ok .alarm ∧
          (serve storage { operation := .alarm, now }).2.state ≠ storage.state ∧
          ((serve storage { operation := .alarm, now }).2 = Storage.empty ∨
            ∃ next, (serve storage { operation := .alarm, now }).2.alarm = some next ∧ now < next)) ∧
      ∀ alarms final last, AlarmsAlone storage alarms final last → alarms.length ≤ remaining storage.state ∧
        (final = Storage.empty ∨ ∃ due, final.alarm = some due)) := by
  constructor
  · intro hparse
    have hvalid := rawState_some_parses.1 hparse
    rw [nextVnuRefreshAlarm_eq, List.min?_eq_none_iff]
    exact expiries_eq_nil fun window hw => (hvalid.activation window hw).low_le
  · intro h
    have hvalid := valid_of_run h
    have hscheduled := scheduled_of_run h
    refine ⟨hscheduled, fun due now hdue hle => alarm_progress hvalid hscheduled hdue hle, ?_⟩
    intro alarms final last hrun
    obtain ⟨hfinal, hset, hpaid⟩ := alarms_pay hvalid hscheduled hrun
    refine ⟨by omega, ?_⟩
    rcases hset with hempty | ⟨held, hheld, hquiescent, halarm⟩
    · exact .inl hempty
    · right
      cases hnext : nextVnuRefreshAlarm held with
      | none =>
        rw [nextVnuRefreshAlarm_eq, List.min?_eq_none_iff,
          expiries_eq_nil fun window hw => ((hfinal held hheld).activation window hw).low_le] at hnext
        rw [hnext] at hquiescent
        cases hquiescent
      | some due => exact ⟨due, halarm.trans hnext⟩

/-- After the pair has been activated again no alarm can read the record. -/
theorem alarm_stuck :
    ¬ ∀ (trace : List Served) (storage : Storage) (clock : Nat), AlarmedRun (fun _ _ => True) trace storage clock →
      ∀ due now, storage.alarm = some due → due ≤ now → clock ≤ now →
        (serve storage { operation := .alarm, now }).2.state ≠ storage.state := by
  intro hall
  have hother : ∀ (storage : Storage) (call : Call), call.operation ≠ .alarm → AlarmDue storage call ∧ True :=
    fun _ _ hne => ⟨fun halarm => absurd halarm hne, trivial⟩
  have hstart : AlarmedRun (fun _ _ => True) [] Storage.empty 0 := .start
  have hactivated := hstart.call reactivatedCalls[0] (by decide) (hother _ _ (by decide))
  have hrevoked := hactivated.call reactivatedCalls[1] (by decide) (hother _ _ (by decide))
  have hagain := hrevoked.call reactivatedCalls[2] (by decide) (hother _ _ (by decide))
  exact hall _ _ _ hagain (testNow + vnuManualActivationWindowMs) (testNow + vnuManualActivationWindowMs) (by decide +kernel)
    (Nat.le_refl _) (by decide) (by decide +kernel)

end Hyeboard.VnuRefresh
