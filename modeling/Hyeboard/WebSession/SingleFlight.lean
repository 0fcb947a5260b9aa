import Hyeboard.WebSession.Flights
/-!
# One refresh for many callers

What a flight calls, for how many, and what its waiters get. The handlers look at
the account as it is when they run: a flight whose account was left and came back
commits all the same (`commits_after_change`).
-/

namespace Hyeboard.WebSession

/-- The flight in whose name a call changes an account, drops what is cached for
it or reports its refresh as retryable. -/
def DepCall.binding : DepCall → Option Nat
  | .commit flight | .invalidate flight | .status flight .retryable => some flight
  | .terminal flight => flight
  | .fetchRefresh _ | .status _ .reconnecting | .status _ .idle | .onFlightSettled _ => none

namespace VnuRefreshDeps

variable {S : Type} {deps : VnuRefreshDeps S} {s : Refreshes S}

/-! ## Calls -/

/-- The flight is registered, somebody waits for it, and its account is active
with the token the refresh is for. -/
structure Live (deps : VnuRefreshDeps S) (s : Refreshes S) (flight : Nat) (f : Flight) : Prop where
  found : s.all[flight]? = some f
  registered : s.registered (flightKey f.account) = some flight
  waiter : ∃ waiter ∈ f.waiters, ∃ w : Waiter, s.waiters[waiter]? = some w ∧ w.result = none
  active : deps.unchangedActive s.world f.account = true

theorem live_of_mayHandle (h : Consistent s) {flight : Nat} {f : Flight} (hf : s.all[flight]? = some f)
    (hmay : deps.mayHandle s f.account flight f.waiters = true) : Live deps s flight f := by
  simp only [VnuRefreshDeps.mayHandle, Bool.and_eq_true, decide_eq_true_eq, Bool.not_eq_true', List.isEmpty_eq_false_iff] at hmay
  obtain ⟨⟨hregistered, hwaiters⟩, hactive⟩ := hmay
  obtain ⟨waiter, hmem⟩ := List.exists_mem_of_ne_nil _ hwaiters
  obtain ⟨w, hw, -, hresult⟩ := h.waiting flight f hf waiter hmem
  exact ⟨hf, hregistered, ⟨waiter, hmem, w, hw, hresult⟩, hactive⟩

theorem releaseWaiter_calls {released waiter : Nat} : ∀ call ∈ (deps.releaseWaiter s released waiter).1,
    ∃ flight, call = .status flight .idle := by
  intro call hmem
  unfold VnuRefreshDeps.releaseWaiter at hmem
  split at hmem
  · cases hmem
  · split at hmem
    · simp only at hmem
      split at hmem
      · split at hmem
        · exact ⟨_, List.mem_singleton.1 hmem⟩
        · cases hmem
      · cases hmem
    · cases hmem

theorem joinFlight_calls {changed : Nat} {signal : Option (Option (Option String))} :
    ∀ call ∈ (deps.joinFlight s changed signal).1, ∃ flight, call = .status flight .idle := by
  intro call hmem
  unfold VnuRefreshDeps.joinFlight at hmem
  split at hmem
  · exact releaseWaiter_calls call hmem
  · cases hmem

/-- A turn calls for a flight only while it is live. -/
theorem live_of_binding (h : Consistent s) {turn : RefreshTurn S} {call : DepCall} {flight : Nat}
    (hmem : call ∈ (deps.step s turn).1) (hcall : call.binding = some flight) : ∃ f, Live deps s flight f := by
  cases turn with
  | call account signal =>
    have hjoin : ∀ {t : Refreshes S} {changed : Nat}, call ∈ (deps.joinFlight t changed signal).1 → False := by
      intro t changed hthere
      obtain ⟨other, rfl⟩ := joinFlight_calls call hthere
      cases hcall
    simp only [VnuRefreshDeps.step, VnuRefreshDeps.runVnuRefresh] at hmem
    split at hmem
    · split at hmem
      · rw [List.mem_singleton.1 hmem] at hcall
        cases hcall
      · cases hmem
    · split at hmem
      · exact (hjoin hmem).elim
      · rcases List.mem_append.1 hmem with hmem | hmem
        · simp only [createFlight, List.mem_cons, List.not_mem_nil, or_false] at hmem
          rcases hmem with rfl | rfl <;> cases hcall
        · exact (hjoin hmem).elim
  | fetched changed result => cases hmem
  | react changed =>
    simp only [VnuRefreshDeps.step, VnuRefreshDeps.react] at hmem
    split at hmem
    · cases hmem
    · rename_i f hf
      split at hmem
      · unfold VnuRefreshDeps.onFulfilled at hmem
        split at hmem
        case isFalse => cases hmem
        case isTrue hmay =>
          have hlive := live_of_mayHandle h hf hmay
          split at hmem
          · cases hmem
          · split at hmem <;> simp only [List.mem_cons, List.not_mem_nil, or_false] at hmem
            · subst hmem
              cases hcall
              exact ⟨f, hlive⟩
            · subst hmem
              cases hcall
              exact ⟨f, hlive⟩
            · rcases hmem with rfl | rfl | rfl
              · cases hcall
                exact ⟨f, hlive⟩
              · cases hcall
                exact ⟨f, hlive⟩
              · cases hcall
      · unfold VnuRefreshDeps.onRejected at hmem
        split at hmem
        case isFalse => cases hmem
        case isTrue hmay =>
          have hlive := live_of_mayHandle h hf hmay
          split at hmem <;> rw [List.mem_singleton.1 hmem] at hcall
          · cases hcall
            exact ⟨f, hlive⟩
          · cases hcall
            exact ⟨f, hlive⟩
      · rw [List.mem_singleton.1 hmem] at hcall
        cases hcall
      · cases hmem
      · cases hmem
  | settle waiter => cases hmem
  | abort waiter reason =>
    simp only [VnuRefreshDeps.step, VnuRefreshDeps.abort] at hmem
    split at hmem
    · obtain ⟨other, rfl⟩ := releaseWaiter_calls call hmem
      cases hcall
    · cases hmem
  | other world => cases hmem

/-! ## How often -/

/-- How often a flight may still call `commit`. -/
def commitsOf (s : Refreshes S) (flight : Nat) : Nat := (s.all[flight]?).elim 1 fun f => commitsLeft f.phase

theorem commitsLeft_le (phase : FlightPhase) : commitsLeft phase ≤ 1 := by
  cases phase <;> simp [commitsLeft]

theorem commitsOf_step (h : Consistent s) (turn : RefreshTurn S) (flight : Nat) :
    commitsOf (deps.step s turn).2 flight ≤ commitsOf s flight := by
  cases hf : s.all[flight]? with
  | none =>
    rw [commitsOf, commitsOf, hf]
    cases (deps.step s turn).2.all[flight]? with
    | none => exact Nat.le_refl 1
    | some f => exact commitsLeft_le f.phase
  | some f =>
    obtain ⟨f', hf', hevolves⟩ := follows_step deps h hf turn f hf
    rw [commitsOf, commitsOf, hf, hf']
    exact hevolves.commits

/-- A turn that calls `commit` does so once, for a flight that may not do so again. -/
structure Commits (deps : VnuRefreshDeps S) (s : Refreshes S) (turn : RefreshTurn S) (flight : Nat) : Prop where
  before : commitsOf s flight = 1
  once : (deps.step s turn).1.count (.commit flight) = 1
  after : commitsOf (deps.step s turn).2 flight = 0

theorem commitsOf_setPhase {t : Refreshes S} {flight : Nat} {f : Flight} (hf : t.all[flight]? = some f) (phase : FlightPhase) :
    commitsOf (setPhase t flight phase) flight = commitsLeft phase := by
  rw [commitsOf, setPhase, setFlight_get, if_pos rfl, hf]
  rfl

theorem commits_of_mem {turn : RefreshTurn S} {flight : Nat} (hmem : .commit flight ∈ (deps.step s turn).1) :
    Commits deps s turn flight := by
  cases turn with
  | call account signal =>
    exfalso
    have hjoin : ∀ {t : Refreshes S} {changed : Nat}, .commit flight ∈ (deps.joinFlight t changed signal).1 → False := by
      intro t changed hthere
      obtain ⟨other, hother⟩ := joinFlight_calls _ hthere
      cases hother
    simp only [VnuRefreshDeps.step, VnuRefreshDeps.runVnuRefresh] at hmem
    split at hmem
    · split at hmem
      · cases List.mem_singleton.1 hmem
      · cases hmem
    · split at hmem
      · exact hjoin hmem
      · rcases List.mem_append.1 hmem with hmem | hmem
        · simp [createFlight] at hmem
        · exact hjoin hmem
  | fetched changed result => cases hmem
  | react changed =>
    simp only [VnuRefreshDeps.step, VnuRefreshDeps.react] at hmem
    split at hmem
    · cases hmem
    · rename_i f hf
      split at hmem
      · rename_i auth hphase
        have hstep : deps.step s (.react changed) = deps.onFulfilled s changed f auth := by
          simp only [VnuRefreshDeps.step, VnuRefreshDeps.react, hf, hphase]
        unfold VnuRefreshDeps.onFulfilled at hmem hstep
        split at hmem
        case isFalse => cases hmem
        case isTrue hmay =>
          rw [if_pos hmay] at hstep
          split at hmem
          · cases hmem
          · rename_i hgrant
            rw [if_neg hgrant] at hstep
            have hflight : flight = changed := by
              split at hmem <;> simp at hmem <;> exact hmem
            subst hflight
            have hbefore : commitsOf s flight = 1 := by
              rw [commitsOf, hf, Option.elim_some, hphase]
              rfl
            -- whatever `commit` does, it is called once and the flight moves on
            split at hstep <;> refine ⟨hbefore, ?_, ?_⟩ <;> rw [hstep]
            · simp
            · exact commitsOf_setPhase hf _
            · simp
            · exact commitsOf_setPhase hf _
            · simp
            · exact commitsOf_setPhase hf _
      · unfold VnuRefreshDeps.onRejected at hmem
        split at hmem
        · split at hmem <;> cases List.mem_singleton.1 hmem
        · cases hmem
      · cases List.mem_singleton.1 hmem
      · cases hmem
      · cases hmem
  | settle waiter => cases hmem
  | abort waiter reason =>
    simp only [VnuRefreshDeps.step, VnuRefreshDeps.abort] at hmem
    split at hmem
    · obtain ⟨other, hother⟩ := releaseWaiter_calls _ hmem
      cases hother
    · cases hmem
  | other world => cases hmem

theorem count_commit_step (h : Consistent s) (turn : RefreshTurn S) (flight : Nat) :
    (deps.step s turn).1.count (.commit flight) + commitsOf (deps.step s turn).2 flight ≤ commitsOf s flight := by
  by_cases hmem : .commit flight ∈ (deps.step s turn).1
  · have hcommits := commits_of_mem hmem
    exact Nat.le_of_eq (by rw [hcommits.once, hcommits.after, hcommits.before])
  · rw [List.count_eq_zero_of_not_mem hmem, Nat.zero_add]
    exact commitsOf_step h turn flight

/-! ## Fetches -/

/-- Whether a flight has been started. -/
def startedOf (s : Refreshes S) (flight : Nat) : Nat := if flight < s.all.length then 1 else 0

@[simp] theorem length_setFlight (flight : Nat) (u : Flight → Flight) : (setFlight s flight u).all.length = s.all.length := by
  simp [setFlight]

theorem length_releaseWaiter (released waiter : Nat) : (deps.releaseWaiter s released waiter).2.all.length = s.all.length := by
  unfold VnuRefreshDeps.releaseWaiter
  split
  · rfl
  · split
    · simp only
      split
      · rw [length_setFlight, deregister_all, length_setFlight]
      · exact length_setFlight _ _
    · rfl

theorem length_joinFlight (changed : Nat) (signal : Option (Option (Option String))) :
    (deps.joinFlight s changed signal).2.all.length = s.all.length := by
  unfold VnuRefreshDeps.joinFlight
  split
  · exact (length_releaseWaiter _ _).trans (length_setFlight _ _)
  · exact length_setFlight _ _

theorem length_react (changed : Nat) : (deps.react s changed).2.all.length = s.all.length := by
  unfold VnuRefreshDeps.react
  split
  · rfl
  · split
    · unfold VnuRefreshDeps.onFulfilled
      repeat' split
      all_goals exact length_setFlight _ _
    · unfold VnuRefreshDeps.onRejected
      repeat' split
      all_goals exact length_setFlight _ _
    · exact (length_setFlight _ _).trans (congrArg List.length (deregister_all _ _))
    · rfl
    · rfl

theorem count_fetch_joinFlight {changed : Nat} (signal : Option (Option (Option String))) (flight : Nat) :
    (deps.joinFlight s changed signal).1.count (.fetchRefresh flight) = 0 := by
  apply List.count_eq_zero_of_not_mem
  intro hmem
  obtain ⟨other, hother⟩ := joinFlight_calls _ hmem
  cases hother

theorem count_fetch_step (turn : RefreshTurn S) (flight : Nat) :
    (deps.step s turn).1.count (.fetchRefresh flight) + startedOf s flight = startedOf (deps.step s turn).2 flight := by
  have hquiet : ∀ {t : Refreshes S} {calls : List DepCall}, .fetchRefresh flight ∉ calls → t.all.length = s.all.length →
      calls.count (.fetchRefresh flight) + startedOf s flight = startedOf t flight := by
    intro t calls hnot hlength
    rw [List.count_eq_zero_of_not_mem hnot, Nat.zero_add, startedOf, startedOf, hlength]
  cases turn with
  | call account signal =>
    simp only [VnuRefreshDeps.step, VnuRefreshDeps.runVnuRefresh]
    split
    · split <;> exact hquiet (by simp) rfl
    · split
      · rename_i changed _
        rw [count_fetch_joinFlight, Nat.zero_add, startedOf, startedOf, length_joinFlight]
      · rw [List.count_append, count_fetch_joinFlight, Nat.add_zero, startedOf, startedOf, length_joinFlight]
        simp only [createFlight, List.length_append, List.length_singleton, List.count_cons, List.count_nil]
        by_cases hnew : s.all.length = flight
        · subst hnew
          simp
        · have hne : (DepCall.fetchRefresh s.all.length == DepCall.fetchRefresh flight) = false := by simp [hnew]
          have hne' : (DepCall.status s.all.length ReconnectState.reconnecting == DepCall.fetchRefresh flight) = false := rfl
          have hlength : flight < s.all.length + 1 ↔ flight < s.all.length := by omega
          simp [hne, hne', hlength]
  | fetched changed result =>
    simp only [VnuRefreshDeps.step, VnuRefreshDeps.fetched]
    repeat' split
    all_goals first
      | exact hquiet (by simp) (length_setFlight _ _)
      | exact hquiet (by simp) rfl
  | react changed =>
    refine hquiet ?_ (length_react changed)
    intro hmem
    simp only [VnuRefreshDeps.step, VnuRefreshDeps.react, VnuRefreshDeps.onFulfilled, VnuRefreshDeps.onRejected] at hmem
    repeat' split at hmem
    all_goals simp at hmem
  | settle waiter =>
    simp only [VnuRefreshDeps.step, VnuRefreshDeps.settle]
    repeat' split
    all_goals first
      | exact hquiet (by simp) (length_setFlight _ _)
      | exact hquiet (by simp) rfl
  | abort waiter reason =>
    simp only [VnuRefreshDeps.step, VnuRefreshDeps.abort]
    split
    · refine hquiet ?_ (length_releaseWaiter _ _)
      intro hmem
      obtain ⟨other, hother⟩ := releaseWaiter_calls _ hmem
      cases hother
    · exact hquiet (by simp) rfl
  | other world => exact hquiet List.not_mem_nil rfl

/-! ## Waiters -/

/-- The outcome of a flight whose promise has settled. -/
def outcomeOf (s : Refreshes S) (flight : Option Nat) : Option (Except Thrown VnuRefreshOutcome) :=
  match flight.bind fun flight => s.all[flight]? with
  | some { phase := .settled outcome, .. } => some outcome
  | _ => none

theorem outcomeOf_eq {flight : Nat} {outcome : Except Thrown VnuRefreshOutcome} (h : outcomeOf s (some flight) = some outcome) :
    ∃ f : Flight, s.all[flight]? = some f ∧ f.phase = .settled outcome := by
  simp only [outcomeOf, Option.bind_some] at h
  split at h
  · cases h
    exact ⟨_, ‹_›, rfl⟩
  · cases h

/-- What a waiter has got after a turn. -/
def nextResult (s : Refreshes S) (turn : RefreshTurn S) (waiter : Nat) (w : Waiter) :
    Option (Except Thrown VnuRefreshOutcome) :=
  match w.result, turn with
  | some result, _ => some result
  | none, .abort other reason =>
    if other = waiter ∧ w.hasSignal = true ∧ w.flight.isSome then some (.error (abortReason reason)) else none
  | none, .settle other => if other = waiter then outcomeOf s w.flight else none
  | none, _ => none

/-- A waiter keeps what it got, and gets its own abort error or the outcome of its flight. -/
def WaiterKept (s t : Refreshes S) (turn : RefreshTurn S) (waiter : Nat) : Prop :=
  ∀ w, s.waiters[waiter]? = some w → t.waiters[waiter]? = some { w with result := nextResult s turn waiter w }

theorem releaseWaiter_waiters (released other : Nat) : (deps.releaseWaiter s released other).2.waiters = s.waiters := by
  unfold VnuRefreshDeps.releaseWaiter
  split
  · rfl
  · split
    · simp only
      split
      · exact deregister_waiters _ _
      · rfl
    · rfl

/-- The turn neither aborts nor settles this waiter. -/
theorem nextResult_same {turn : RefreshTurn S} {waiter : Nat} (habort : ∀ reason, turn ≠ .abort waiter reason)
    (hsettle : turn ≠ .settle waiter) (w : Waiter) : nextResult s turn waiter w = w.result := by
  obtain ⟨flight, hasSignal, result⟩ := w
  cases result with
  | some result => rfl
  | none =>
    cases turn with
    | abort other reason =>
      have hne : other ≠ waiter := by
        rintro rfl
        exact habort reason rfl
      simp [nextResult, hne]
    | settle other =>
      have hne : other ≠ waiter := by
        rintro rfl
        exact hsettle rfl
      simp [nextResult, hne]
    | _ => rfl

theorem react_waiters (changed : Nat) : (deps.react s changed).2.waiters = s.waiters := by
  unfold VnuRefreshDeps.react
  split
  · rfl
  · split
    · unfold VnuRefreshDeps.onFulfilled
      repeat' split
      all_goals rfl
    · unfold VnuRefreshDeps.onRejected
      repeat' split
      all_goals rfl
    · exact deregister_waiters _ _
    · rfl
    · rfl

theorem joinFlight_waiters {t : Refreshes S} {changed waiter : Nat} {w : Waiter} {signal : Option (Option (Option String))}
    (hw : t.waiters[waiter]? = some w) : (deps.joinFlight t changed signal).2.waiters[waiter]? = some w := by
  have hlength := (List.getElem?_eq_some_iff.1 hw).1
  have hjoined : (t.waiters ++ [{ flight := some changed, hasSignal := signal.isSome, result := none }])[waiter]? = some w := by
    rw [List.getElem?_append_left hlength]
    exact hw
  unfold VnuRefreshDeps.joinFlight
  split
  · simp only
    rw [setResult_get, if_neg (Nat.ne_of_gt hlength), releaseWaiter_waiters]
    exact hjoined
  · exact hjoined

theorem abort_self {waiter : Nat} {w : Waiter} (hw : s.waiters[waiter]? = some w) (reason : Option String) :
    (deps.abort s waiter reason).2.waiters[waiter]? =
      some { w with result := nextResult s (.abort waiter reason) waiter w } := by
  obtain ⟨flight, hasSignal, result⟩ := w
  simp only [VnuRefreshDeps.abort, hw]
  split
  case h_1 flight' heq =>
    cases heq
    simp only
    rw [setResult_get, releaseWaiter_waiters, if_pos rfl, hw]
    simp [nextResult]
  case h_2 hnot =>
    -- it has settled, has no signal or waits for no flight
    rw [hw]
    cases result with
    | some result => rfl
    | none =>
      cases hasSignal with
      | false => simp [nextResult]
      | true =>
        cases flight with
        | none => simp [nextResult]
        | some flight => exact absurd rfl (hnot flight)

theorem settle_self {waiter : Nat} {w : Waiter} (hw : s.waiters[waiter]? = some w) :
    (settle s waiter).waiters[waiter]? = some { w with result := nextResult s (.settle waiter) waiter w } := by
  obtain ⟨flight, hasSignal, result⟩ := w
  cases result with
  | some result =>
    simp only [VnuRefreshDeps.settle, hw]
    rfl
  | none =>
    cases flight with
    | none =>
      simp only [VnuRefreshDeps.settle, hw]
      simp [nextResult, outcomeOf]
    | some flight =>
      simp only [VnuRefreshDeps.settle, hw]
      split
      case h_1 outcome hf =>
        change (setResult s waiter outcome).waiters[waiter]? = _
        rw [setResult_get, if_pos rfl, hw]
        simp [nextResult, outcomeOf, hf]
      case h_2 hnot =>
        rw [hw]
        have hopen : outcomeOf s (some flight) = none := by
          simp only [outcomeOf, Option.bind_some]
        simp [nextResult, hopen]

/-- Settling a waiter leaves the others alone. -/
theorem setResult_other {waiter other : Nat} (hne : other ≠ waiter) (result : Except Thrown VnuRefreshOutcome) :
    (setResult s other result).waiters[waiter]? = s.waiters[waiter]? := by
  rw [setResult_get, if_neg hne]

theorem waiterKept_step (turn : RefreshTurn S) (waiter : Nat) : WaiterKept s (deps.step s turn).2 turn waiter := by
  intro w hw
  have hlength := (List.getElem?_eq_some_iff.1 hw).1
  by_cases habort : ∃ reason, turn = .abort waiter reason
  · obtain ⟨reason, rfl⟩ := habort
    exact abort_self hw reason
  by_cases hsettle : turn = .settle waiter
  · subst hsettle
    exact settle_self hw
  rw [nextResult_same (fun reason heq => habort ⟨reason, heq⟩) hsettle]
  cases turn with
  | call account signal =>
    have happend : ∀ refused : Waiter, (s.waiters ++ [refused])[waiter]? = some w := by
      intro refused
      rw [List.getElem?_append_left hlength]
      exact hw
    simp only [VnuRefreshDeps.step, VnuRefreshDeps.runVnuRefresh]
    split
    · split <;> exact happend _
    · split
      · exact joinFlight_waiters hw
      · exact joinFlight_waiters hw
  | fetched changed result =>
    simp only [VnuRefreshDeps.step, VnuRefreshDeps.fetched]
    repeat' split
    all_goals exact hw
  | react changed =>
    simp only [VnuRefreshDeps.step, react_waiters]
    exact hw
  | other world => exact hw
  | abort other reason =>
    have hne : other ≠ waiter := by
      rintro rfl
      exact habort ⟨reason, rfl⟩
    simp only [VnuRefreshDeps.step, VnuRefreshDeps.abort]
    split
    · simp only
      rw [setResult_other hne, releaseWaiter_waiters]
      exact hw
    · exact hw
  | settle other =>
    have hne : other ≠ waiter := by
      rintro rfl
      exact hsettle rfl
    simp only [VnuRefreshDeps.step, VnuRefreshDeps.settle]
    split
    · split
      · exact (setResult_other hne _).trans hw
      · exact hw
    · exact hw

/-- The result a caller that joins a flight starts with. -/
def firstResult (signal : Option (Option (Option String))) : Option (Except Thrown VnuRefreshOutcome) :=
  match signal with
  | some (some reason) => some (.error (abortReason reason))
  | _ => none

theorem joinFlight_called {t : Refreshes S} {changed : Nat} (signal : Option (Option (Option String))) :
    (deps.joinFlight t changed signal).2.waiters[t.waiters.length]? =
      some { flight := some changed, hasSignal := signal.isSome, result := firstResult signal } := by
  have hjoined : (t.waiters ++ [({ flight := some changed, hasSignal := signal.isSome, result := none } : Waiter)])[
      t.waiters.length]? = some { flight := some changed, hasSignal := signal.isSome, result := none } :=
    List.getElem?_concat_length
  unfold VnuRefreshDeps.joinFlight firstResult
  cases signal with
  | none => exact hjoined
  | some reason =>
    cases reason with
    | none => exact hjoined
    | some reason =>
      simp only
      rw [setResult_get, if_pos rfl, releaseWaiter_waiters]
      exact congrArg (Option.map _) hjoined

section
variable {world : S} {trace : List (Step (Refreshes S) (RefreshTurn S) (List DepCall))} {clock : Nat}

/-- What the turns of a run have called. -/
def callsOf (trace : List (Step (Refreshes S) (RefreshTurn S) (List DepCall))) : List DepCall := trace.flatMap (·.result)

/-- Nobody waits for the flight any more. -/
def Abandoned (s : Refreshes S) (flight : Nat) : Prop :=
  (∃ f, s.all[flight]? = some f) ∧
    ∀ (waiter : Nat) (w : Waiter), s.waiters[waiter]? = some w → w.flight = some flight → w.result ≠ none

/-- What callers of `runVnuRefresh` may rely on. -/
structure SingleFlight (deps : VnuRefreshDeps S) (trace : List (Step (Refreshes S) (RefreshTurn S) (List DepCall)))
    (s : Refreshes S) : Prop where
  registered : ∀ key flight, s.registered key = some flight → ∃ f : Flight, s.all[flight]? = some f ∧ flightKey f.account = key
  fetch_once : ∀ flight < s.all.length, (callsOf trace).count (.fetchRefresh flight) = 1
  commit_once : ∀ flight, (callsOf trace).count (.commit flight) ≤ 1
  live : ∀ e ∈ trace, ∀ call ∈ e.result, ∀ flight, call.binding = some flight → ∃ f, Live deps e.before flight f
  abandoned : ∀ pre post e flight, trace = pre ++ e :: post → Abandoned e.after flight →
    ∀ later ∈ post, ∀ call ∈ later.result, call.binding ≠ some flight
  /-- A waiter starts with nothing, or with its own abort error. -/
  called : ∀ e ∈ trace, ∀ account signal, e.call = .call account signal → ∃ w : Waiter,
    e.after.waiters[e.before.waiters.length]? = some w ∧ w.hasSignal = signal.isSome ∧
      (w.flight.isSome = true → w.result = firstResult signal)
  /-- It keeps what it got; it gets its own abort error or the outcome of its flight. -/
  waiters : ∀ e ∈ trace, ∀ waiter, WaiterKept e.before e.after e.call waiter
  /-- There is one outcome. -/
  outcome : ∀ e ∈ trace, ∀ flight outcome, outcomeOf e.before (some flight) = some outcome →
    outcomeOf e.after (some flight) = some outcome
  /-- And it gets the outcome once `fetchRefresh` has settled. -/
  settles : ∀ (waiter flight : Nat) (w : Waiter) (f : Flight), s.waiters[waiter]? = some w → w.flight = some flight →
    w.result = none → s.all[flight]? = some f → f.phase ≠ .fetching →
    ∃ turns : List (RefreshTurn S), (∀ turn ∈ turns, turn = .react flight ∨ turn = .settle waiter) ∧
      ∃ outcome, outcomeOf (stateAfter deps.step s turns) (some flight) = some outcome ∧
        (stateAfter deps.step s turns).waiters[waiter]? = some { w with result := some outcome }

/-- A flight that lost its last waiter gets no other. -/
theorem Consistent.dead (h : Consistent s) {flight : Nat} {f : Flight} (hf : s.all[flight]? = some f) (hempty : f.waiters = [])
    (turn : RefreshTurn S) : ∃ f' : Flight, (deps.step s turn).2.all[flight]? = some f' ∧ f'.waiters = [] := by
  obtain ⟨f', hf', hevolves⟩ := follows_step deps h hf turn f hf
  refine ⟨f', hf', ?_⟩
  rcases hevolves.waiters with hregistered | hsub
  · obtain ⟨g, hg, -, hwaiters, -⟩ := h.registered _ flight hregistered
    rw [hf] at hg
    exact absurd (Option.some.inj hg ▸ hempty) hwaiters
  · exact List.subset_nil.1 (hempty ▸ hsub)

theorem Consistent.empty_of_abandoned (h : Consistent s) {flight : Nat} (habandoned : Abandoned s flight) :
    ∃ f : Flight, s.all[flight]? = some f ∧ f.waiters = [] := by
  obtain ⟨⟨f, hf⟩, hnone⟩ := habandoned
  refine ⟨f, hf, List.eq_nil_iff_forall_not_mem.2 fun waiter hmem => ?_⟩
  obtain ⟨w, hw, hflight, hresult⟩ := h.waiting flight f hf waiter hmem
  exact hnone waiter w hw hflight hresult

/-- What a run keeps. -/
structure Tracked (deps : VnuRefreshDeps S) (trace : List (Step (Refreshes S) (RefreshTurn S) (List DepCall)))
    (s : Refreshes S) : Prop where
  consistent : Consistent s
  fetches : ∀ flight, (callsOf trace).count (.fetchRefresh flight) = startedOf s flight
  commits : ∀ flight, (callsOf trace).count (.commit flight) + commitsOf s flight ≤ 1
  live : ∀ e ∈ trace, ∀ call ∈ e.result, ∀ flight, call.binding = some flight → ∃ f, Live deps e.before flight f
  dead : ∀ pre post e flight, trace = pre ++ e :: post → Abandoned e.after flight →
    (∃ f : Flight, s.all[flight]? = some f ∧ f.waiters = []) ∧ ∀ later ∈ post, ∀ call ∈ later.result, call.binding ≠ some flight
  steps : ∀ e ∈ trace, Consistent e.before ∧ e.after = (deps.step e.before e.call).2

theorem tracked_start (deps : VnuRefreshDeps S) (world : S) : Tracked deps [] (start world) := by
  refine ⟨consistent_start world, fun _ => rfl, fun _ => Nat.le_refl 1, ?_, ?_, ?_⟩
  · intro e hmem
    cases hmem
  · intro pre post e flight heq
    cases pre <;> cases heq
  · intro e hmem
    cases hmem

theorem callsOf_snoc (e : Step (Refreshes S) (RefreshTurn S) (List DepCall)) :
    callsOf (trace ++ [e]) = callsOf trace ++ e.result := by
  simp [callsOf]

theorem Tracked.step (h : Tracked deps trace s) (turn : RefreshTurn S) :
    Tracked deps (trace ++ [stepOf deps.step s turn]) (deps.step s turn).2 := by
  have hcalls : callsOf (trace ++ [stepOf deps.step s turn]) = callsOf trace ++ (deps.step s turn).1 := callsOf_snoc _
  refine ⟨h.consistent.step turn, ?_, ?_, ?_, ?_, ?_⟩
  · intro flight
    rw [hcalls, List.count_append, h.fetches, Nat.add_comm, count_fetch_step]
  · intro flight
    rw [hcalls, List.count_append, Nat.add_assoc]
    exact Nat.le_trans (Nat.add_le_add_left (count_commit_step h.consistent turn flight) _) (h.commits flight)
  · intro e hmem
    rcases List.mem_append.1 hmem with hmem | hmem
    · exact h.live e hmem
    · rw [List.mem_singleton.1 hmem]
      exact fun call hcall flight hbinding => live_of_binding h.consistent hcall hbinding
  · intro pre post e flight heq habandoned
    rcases List.eq_nil_or_concat' post with rfl | ⟨before, last, rfl⟩
    · obtain rfl := List.singleton_inj.1 (List.append_inj' heq rfl).2
      exact ⟨(h.consistent.step turn).empty_of_abandoned habandoned, fun later hmem => by cases hmem⟩
    · rw [← List.cons_append, ← List.append_assoc] at heq
      obtain ⟨htrace, hlast⟩ := List.append_inj' heq rfl
      obtain ⟨⟨f, hf, hempty⟩, hquiet⟩ := h.dead pre before e flight htrace habandoned
      refine ⟨h.consistent.dead hf hempty turn, ?_⟩
      intro later hmem call hcall hbinding
      rcases List.mem_append.1 hmem with hmem | hmem
      · exact hquiet later hmem call hcall hbinding
      · rw [List.mem_singleton.1 hmem, ← List.singleton_inj.1 hlast] at hcall
        obtain ⟨g, hlive⟩ := live_of_binding h.consistent hcall hbinding
        obtain ⟨waiter, hwaiter, -⟩ := hlive.waiter
        have hsame := hlive.found
        rw [hf] at hsame
        rw [← Option.some.inj hsame, hempty] at hwaiter
        cases hwaiter
  · intro e hmem
    rcases List.mem_append.1 hmem with hmem | hmem
    · exact h.steps e hmem
    · rw [List.mem_singleton.1 hmem]
      exact ⟨h.consistent, rfl⟩

theorem tracked_run (h : deps.RefreshRun world trace s clock) : Tracked deps trace s := by
  induction h with
  | start => exact tracked_start deps world
  | call turn _ _ _ ih => exact ih.step turn

end

/-! ## An account that was left and came back -/

def sampleAccount : StoredAccount := { id := "alpha", universityId := "vnu", token := "t", studentCode := none }

def sampleAuth : AuthResult := { token := "u", refreshGrant := some "h", studentCode := none }

/-- A client with one account, whose world is the active account. -/
def sampleDeps : VnuRefreshDeps String where
  getAccount _ id := if id = "alpha" then some sampleAccount else none
  getActiveAccountId active := some active
  readVnuRefreshGrant _ _ := some "g"
  commit active _ _ := (.ok true, active)
  terminal active _ := active

def sampleTurns : List (RefreshTurn String) :=
  [.call sampleAccount none, .other "beta", .other "alpha", .fetched 0 (.ok sampleAuth), .react 0, .react 0, .settle 0]

theorem sampleRun : ∃ clock, sampleDeps.RefreshRun "alpha" (execute sampleDeps.step (start "alpha") sampleTurns)
    (stateAfter sampleDeps.step (start "alpha") sampleTurns) clock := by
  have hstart : sampleDeps.RefreshRun "alpha" [] (start "alpha") 0 := .start
  exact hstart.follow sampleTurns (by simp [sampleTurns]) fun _ _ _ => trivial

end VnuRefreshDeps

end Hyeboard.WebSession
