import Hyeboard.Ha.Lifecycle
/-!
# The lifecycle only moves forward

A turn leaves the state in its stage or moves it to a later one, and shows at
most the state it finds (`Onward`). The hooks are called by the reactions of
`drain` and `stop` alone, each queued once (`Hooked`), and whatever the hooks do,
no turn of exact timers lets the budget of `stop` run out (`Timely`).
-/

namespace Hyeboard.Ha

def HaReadinessState.stage : HaReadinessState → Nat
  | .starting => 0
  | .ready | .degraded => 1
  | .draining => 2
  | .stopped => 3

theorem stage_le_stopped (state : HaReadinessState) : state.stage ≤ HaReadinessState.stopped.stage := by
  cases state <;> decide

theorem stage_le_draining {state : HaReadinessState} (h : state ≠ .stopped) :
    state.stage ≤ HaReadinessState.draining.stage := by
  cases state with
  | stopped => exact absurd rfl h
  | _ => decide

/-! ## What one turn does -/

/-- The state moves on, and what is shown is the state before. -/
structure Onward (s t : Lifecycle) : Prop where
  stage : s.state.stage ≤ t.state.stage
  shows : ∃ more, t.observed = s.observed ++ more ∧ ∀ observation ∈ more, observation.state = s.state

/-- Neither hook nor `stop` is concerned. -/
structure Quiet (s t : Lifecycle) : Prop where
  drainPromise : t.drainPromise = s.drainPromise
  stopPromise : t.stopPromise = s.stopPromise
  drainCalls : t.drainCalls = s.drainCalls
  stopCalls : t.stopCalls = s.stopCalls

section
variable {controller : Controller} {s : Lifecycle}

/-- Nothing is shown. -/
theorem Onward.of_stage {t : Lifecycle} (hstage : s.state.stage ≤ t.state.stage) (hobserved : t.observed = s.observed) :
    Onward s t :=
  ⟨hstage, [], by rw [hobserved, List.append_nil], fun _ h => by cases h⟩

theorem Onward.of_eq {t : Lifecycle} (hstate : t.state = s.state) (hobserved : t.observed = s.observed) : Onward s t :=
  .of_stage (Nat.le_of_eq (by rw [hstate])) hobserved

/-- The state is shown. -/
theorem Onward.of_shown {t : Lifecycle} (observation : Observation) (hstate : t.state = s.state)
    (hobserved : t.observed = s.observed ++ [observation]) (hshown : observation.state = s.state) : Onward s t := by
  refine ⟨Nat.le_of_eq (by rw [hstate]), [observation], hobserved, ?_⟩
  intro other hmem
  rwa [List.mem_singleton.1 hmem]

theorem nextOperationalState_stage : s.nextOperationalState.stage = 1 := by
  unfold Lifecycle.nextOperationalState
  split
  · rfl
  · split <;> rfl

theorem applyDependencyState_stage : s.state.stage ≤ s.applyDependencyState.state.stage := by
  unfold Lifecycle.applyDependencyState
  split <;> rename_i hstate
  · rw [nextOperationalState_stage, hstate]
    exact Nat.zero_le 1
  · rw [nextOperationalState_stage, hstate]
    exact Nat.le_refl 1
  · rw [nextOperationalState_stage, hstate]
    exact Nat.le_refl 1
  · exact Nat.le_refl _
  · exact Nat.le_refl _

/-- `applyDependencyState` sets `state` alone. -/
theorem applyDependencyState_eq : s.applyDependencyState = { s with state := s.applyDependencyState.state } := by
  unfold Lifecycle.applyDependencyState
  split <;> rfl

theorem setStatuses_eq (statuses : List (String × Option HaDependencyReadiness)) : ∀ (s : Lifecycle),
    s.setStatuses statuses = { s with dependencies := (s.setStatuses statuses).dependencies } := by
  induction statuses with
  | nil => exact fun s => rfl
  | cons entry rest ih => exact fun s => ih (s.setStatus entry.1 entry.2)

/-- No hook is concerned, and the state stays as it is. -/
theorem quiet_of_eq {t : Lifecycle} (h : t = { s with
    aggregateProbeState := t.aggregateProbeState
    dependencies := t.dependencies
    startPromise := t.startPromise
    calls := t.calls }) : Onward s t ∧ Quiet s t := by
  rw [h]
  exact ⟨.of_eq rfl rfl, rfl, rfl, rfl, rfl⟩

theorem quiet_start : Onward s (controller.start s) ∧ Quiet s (controller.start s) := by
  unfold Controller.start
  split <;> exact quiet_of_eq rfl

theorem quiet_aggregate (call : Nat) (result : Option (HaReadinessState × List (String × Option HaDependencyReadiness))) :
    Onward s (controller.aggregate s call result) ∧ Quiet s (controller.aggregate s call result) := by
  unfold Controller.aggregate
  split
  · cases result with
    | none => exact quiet_of_eq rfl
    | some found =>
      simp only
      rw [setStatuses_eq]
      exact quiet_of_eq rfl
  · exact quiet_of_eq rfl

theorem quiet_probe (call : Nat) (name : String) (result : Option HaDependencyReadiness) :
    Onward s (Controller.probe s call name result) ∧ Quiet s (Controller.probe s call name result) := by
  unfold Controller.probe
  split
  · split <;> exact quiet_of_eq rfl
  · exact quiet_of_eq rfl

theorem quiet_refreshed (call : Nat) :
    Onward s (Controller.refreshed s call) ∧ Quiet s (Controller.refreshed s call) := by
  have hstage := applyDependencyState_stage (s := s)
  unfold Controller.refreshed
  split
  · rw [applyDependencyState_eq]
    exact ⟨.of_stage hstage rfl, rfl, rfl, rfl, rfl⟩
  · rw [applyDependencyState_eq]
    exact ⟨.of_stage hstage rfl, rfl, rfl, rfl, rfl⟩
  · exact quiet_of_eq rfl

theorem quiet_read (call : Nat) : Onward s (Controller.read s call) ∧ Quiet s (Controller.read s call) := by
  unfold Controller.read
  split
  · split <;> exact quiet_of_eq rfl
  · exact ⟨.of_shown (.readiness s.readinessSnapshot) rfl rfl rfl, rfl, rfl, rfl, rfl⟩
  · exact ⟨.of_shown (.readiness s.readinessSnapshot) rfl rfl rfl, rfl, rfl, rfl, rfl⟩
  · exact ⟨.of_shown s.livenessSnapshot rfl rfl rfl, rfl, rfl, rfl, rfl⟩
  · exact quiet_of_eq rfl

theorem quiet_setDependencyStatus (name : String) (status : Option HaDependencyReadiness) :
    Onward s (s.setDependencyStatus name status).2 ∧ Quiet s (s.setDependencyStatus name status).2 := by
  cases status with
  | none => exact quiet_of_eq rfl
  | some status =>
    have hstage := applyDependencyState_stage (s := s.setStatus name (some status))
    simp only [Lifecycle.setDependencyStatus]
    rw [applyDependencyState_eq]
    exact ⟨.of_stage hstage rfl, rfl, rfl, rfl, rfl⟩

/-- The actions that neither hook nor `drain` nor `stop` takes part in. -/
def LifecycleAction.quiet : LifecycleAction → Bool
  | .start | .readiness | .snapshot | .liveness | .setDependencyStatus _ _ | .aggregate _ _ | .probe _ _ _ | .refreshed _
  | .read _ => true
  | _ => false

theorem quiet_act (now : Nat) {action : LifecycleAction} (h : action.quiet = true) :
    Onward s (controller.act s now action).2 ∧ Quiet s (controller.act s now action).2 := by
  cases action with
  | start => exact quiet_start
  | readiness | snapshot => exact quiet_of_eq rfl
  | liveness => exact ⟨.of_shown s.livenessSnapshot rfl rfl rfl, rfl, rfl, rfl, rfl⟩
  | setDependencyStatus name status => exact quiet_setDependencyStatus name status
  | aggregate call result => exact quiet_aggregate call result
  | probe call name result => exact quiet_probe call name result
  | refreshed call => exact quiet_refreshed call
  | read call => exact quiet_read call
  | _ => cases h

/-! ## Stages -/

theorem onward_drain : Onward s s.drain := by
  unfold Lifecycle.drain
  split
  · exact .of_eq rfl rfl
  · split
    · exact .of_stage (stage_le_draining ‹_›) rfl
    · exact .of_eq rfl rfl

theorem onward_stopped (startedAt now : Nat) (drain stop : HaShutdownOutcome) :
    Onward s (s.stopped startedAt now drain stop) :=
  .of_stage (stage_le_stopped _) rfl

variable (controller) in
theorem onward_act (now : Nat) (action : LifecycleAction) : Onward s (controller.act s now action).2 := by
  by_cases hquiet : action.quiet = true
  · exact (quiet_act now hquiet).1
  · cases action with
    | drain => exact onward_drain
    | stop =>
      simp only [Controller.act, Controller.stop]
      split
      · split <;> exact .of_eq rfl rfl
      · exact .of_eq rfl rfl
    | callOnDrain =>
      simp only [Controller.act, Controller.callOnDrain]
      split
      · split <;> exact .of_eq rfl rfl
      · exact .of_eq rfl rfl
    | onDrain error =>
      simp only [Controller.act, Controller.onDrain]
      split <;> exact .of_eq rfl rfl
    | callDrain =>
      simp only [Controller.act, Controller.callDrain]
      split
      · exact ⟨onward_drain.stage, onward_drain.shows⟩
      · exact .of_eq rfl rfl
    | drained =>
      simp only [Controller.act, Controller.drained]
      split <;> exact .of_eq rfl rfl
    | drainTimeout =>
      simp only [Controller.act, Controller.drainTimeout]
      split
      · split <;> exact .of_eq rfl rfl
      · exact .of_eq rfl rfl
    | callOnStop =>
      simp only [Controller.act, Controller.callOnStop]
      split
      · split
        · exact .of_eq rfl rfl
        · exact onward_stopped _ _ _ _
      · exact .of_eq rfl rfl
    | onStop error =>
      simp only [Controller.act, Controller.onStop]
      split
      · exact onward_stopped _ _ _ _
      · exact .of_eq rfl rfl
    | stopTimeout =>
      simp only [Controller.act, Controller.stopTimeout]
      split
      · split
        · exact onward_stopped _ _ _ _
        · exact .of_eq rfl rfl
      · exact .of_eq rfl rfl
    | _ => exact absurd rfl hquiet

/-! ## Hooks -/

/-- A hook is called once at most, and not before its reaction is queued. -/
structure Hooked (s : Lifecycle) : Prop where
  drain : s.drainCalls ≤ 1
  undrained : s.drainPromise = .undefined ∨ s.drainPromise = .queued → s.drainCalls = 0
  stop : s.stopCalls ≤ 1
  unstopped : (∀ startedAt deadline drain, s.stopPromise ≠ .stopping startedAt deadline drain) →
    s.stopPromise.settledAt = none → s.stopCalls = 0

theorem Hooked.quiet (h : Hooked s) {t : Lifecycle} (hquiet : Quiet s t) : Hooked t := by
  refine ⟨?_, ?_, ?_, ?_⟩
  · rw [hquiet.drainCalls]
    exact h.drain
  · rw [hquiet.drainCalls, hquiet.drainPromise]
    exact h.undrained
  · rw [hquiet.stopCalls]
    exact h.stop
  · rw [hquiet.stopCalls, hquiet.stopPromise]
    exact h.unstopped

theorem Hooked.drained (h : Hooked s) : Hooked s.drain := by
  unfold Lifecycle.drain
  split
  · exact h
  · split
    case h_1 hundefined => exact ⟨h.drain, fun _ => h.undrained (.inl hundefined), h.stop, h.unstopped⟩
    case h_2 => exact h

/-- `stop` goes on, and `onStop` is not called. -/
theorem Hooked.setStop (h : Hooked s) {phase : StopPhase}
    (hphase : phase.settledAt = none → s.stopCalls = 0) : Hooked { s with stopPromise := phase } :=
  ⟨h.drain, h.undrained, h.stop, fun _ => hphase⟩

theorem Hooked.stopped (h : Hooked s) (startedAt now : Nat) (drain stop : HaShutdownOutcome) :
    Hooked (s.stopped startedAt now drain stop) :=
  ⟨h.drain, h.undrained, h.stop, fun _ hnone => by cases hnone⟩

variable (controller) in
theorem Hooked.act (h : Hooked s) (now : Nat) (action : LifecycleAction) : Hooked (controller.act s now action).2 := by
  by_cases hquiet : action.quiet = true
  · exact h.quiet (quiet_act now hquiet).2
  · -- before `onStop` is called
    have hearly : ∀ {phase : StopPhase}, s.stopPromise = phase → (∀ startedAt deadline drain,
        phase ≠ .stopping startedAt deadline drain) → phase.settledAt = none → s.stopCalls = 0 := by
      rintro phase rfl
      exact h.unstopped
    cases action with
    | drain => exact h.drained
    | stop =>
      simp only [Controller.act, Controller.stop]
      split
      case h_1 hidle =>
        split <;> exact h.setStop fun _ => hearly hidle (fun _ _ _ heq => by cases heq) rfl
      case h_2 => exact h
    | callOnDrain =>
      simp only [Controller.act, Controller.callOnDrain]
      split
      case h_1 hqueued =>
        have hnone := h.undrained (.inr hqueued)
        split
        · refine ⟨?_, ?_, h.stop, h.unstopped⟩
          · simp only [hnone]
            exact Nat.le_refl 1
          · rintro (heq | heq) <;> cases heq
        · exact ⟨h.drain, fun _ => hnone, h.stop, h.unstopped⟩
      case h_2 => exact h
    | onDrain error =>
      simp only [Controller.act, Controller.onDrain]
      split
      · refine ⟨h.drain, ?_, h.stop, h.unstopped⟩
        rintro (heq | heq) <;> cases heq
      · exact h
    | callDrain =>
      simp only [Controller.act, Controller.callDrain]
      split
      case h_1 hqueued =>
        apply h.drained.setStop
        have hsame : s.drain.stopCalls = s.stopCalls := by
          unfold Lifecycle.drain
          repeat' split
          all_goals rfl
        rw [hsame]
        exact fun _ => hearly hqueued (fun _ _ _ heq => by cases heq) rfl
      case h_2 => exact h
    | drained =>
      simp only [Controller.act, Controller.drained]
      split
      case h_1 hdraining _ => exact h.setStop fun _ => hearly hdraining (fun _ _ _ heq => by cases heq) rfl
      case h_2 => exact h
    | drainTimeout =>
      simp only [Controller.act, Controller.drainTimeout]
      split
      case h_1 hdraining =>
        split
        · exact h.setStop fun _ => hearly hdraining (fun _ _ _ heq => by cases heq) rfl
        · exact h
      case h_2 => exact h
    | callOnStop =>
      simp only [Controller.act, Controller.callOnStop]
      split
      case h_1 hqueued =>
        have hnone := hearly hqueued (fun _ _ _ heq => by cases heq) rfl
        split
        · refine ⟨h.drain, h.undrained, ?_, ?_⟩
          · simp only [hnone]
            exact Nat.le_refl 1
          · exact fun hnot => absurd rfl (hnot _ _ _)
        · exact h.stopped _ _ _ _
      case h_2 => exact h
    | onStop error =>
      simp only [Controller.act, Controller.onStop]
      split
      · exact h.stopped _ _ _ _
      · exact h
    | stopTimeout =>
      simp only [Controller.act, Controller.stopTimeout]
      split
      · split
        · exact h.stopped _ _ _ _
        · exact h
      · exact h
    | _ => exact absurd rfl hquiet

/-! ## The budget of `stop` -/

/-- What an action does to `stop`. -/
inductive StopTurn (controller : Controller) (now : Nat) : StopPhase → StopPhase → Prop
  | same {phase} : StopTurn controller now phase phase
  | called : StopTurn controller now .idle (.drainQueued now)
  | already : StopTurn controller now .idle (.settled now now none)
  | drain {startedAt} : StopTurn controller now (.drainQueued startedAt) (.draining startedAt)
  | drained {startedAt outcome} : StopTurn controller now (.draining startedAt)
      (.hookQueued startedAt (now + (controller.timeout - (now - startedAt))) outcome)
  | drainTimeout {startedAt} : StopTurn controller now (.draining startedAt) (.hookQueued startedAt now .timedOut)
  | hook {startedAt deadline drain} :
      StopTurn controller now (.hookQueued startedAt deadline drain) (.stopping startedAt deadline drain)
  | unhooked {startedAt deadline drain error} :
      StopTurn controller now (.hookQueued startedAt deadline drain) (.settled startedAt now error)
  | stopped {startedAt deadline drain error} :
      StopTurn controller now (.stopping startedAt deadline drain) (.settled startedAt now error)

theorem stopTurn_act (now : Nat) (action : LifecycleAction) :
    StopTurn controller now s.stopPromise (controller.act s now action).2.stopPromise := by
  by_cases hquiet : action.quiet = true
  · rw [(quiet_act now hquiet).2.stopPromise]
    exact .same
  · cases action with
    | drain =>
      simp only [Controller.act, Lifecycle.drain]
      repeat' split
      all_goals exact .same
    | stop =>
      simp only [Controller.act, Controller.stop]
      split
      case h_1 hidle =>
        rw [hidle]
        split
        · exact .already
        · exact .called
      case h_2 => exact .same
    | callOnDrain =>
      simp only [Controller.act, Controller.callOnDrain]
      repeat' split
      all_goals exact .same
    | onDrain error =>
      simp only [Controller.act, Controller.onDrain]
      split <;> exact .same
    | callDrain =>
      simp only [Controller.act, Controller.callDrain]
      split
      case h_1 hqueued =>
        rw [hqueued]
        exact .drain
      case h_2 => exact .same
    | drained =>
      simp only [Controller.act, Controller.drained]
      split
      case h_1 hdraining _ =>
        rw [hdraining]
        exact .drained
      case h_2 => exact .same
    | drainTimeout =>
      simp only [Controller.act, Controller.drainTimeout]
      split
      case h_1 hdraining =>
        split
        · rw [hdraining]
          exact .drainTimeout
        · exact .same
      case h_2 => exact .same
    | callOnStop =>
      simp only [Controller.act, Controller.callOnStop]
      split
      case h_1 hqueued =>
        rw [hqueued]
        split
        · exact .hook
        · exact .unhooked
      case h_2 => exact .same
    | onStop error =>
      simp only [Controller.act, Controller.onStop]
      split
      case h_1 hstopping =>
        rw [hstopping]
        exact .stopped
      case h_2 => exact .same
    | stopTimeout =>
      simp only [Controller.act, Controller.stopTimeout]
      split
      case h_1 hstopping =>
        split
        · rw [hstopping]
          exact .stopped
        · exact .same
      case h_2 => exact .same
    | _ => exact absurd rfl hquiet

/-- `stop` is within its budget at `now`. -/
def Timely (timeout now : Nat) : StopPhase → Prop
  | .idle => True
  | .drainQueued startedAt | .draining startedAt => startedAt ≤ now ∧ now ≤ startedAt + timeout
  | .hookQueued startedAt deadline _ | .stopping startedAt deadline _ =>
    startedAt ≤ now ∧ now ≤ deadline ∧ deadline ≤ startedAt + timeout
  | .settled startedAt settledAt _ => startedAt ≤ now ∧ settledAt ≤ startedAt + timeout

theorem StopTurn.timely {now : Nat} {phase next : StopPhase} (h : StopTurn controller now phase next)
    (htimely : Timely controller.timeout now phase) : Timely controller.timeout now next := by
  cases h with
  | same => exact htimely
  | called => exact ⟨Nat.le_refl _, Nat.le_add_right _ _⟩
  | already => exact ⟨Nat.le_refl _, Nat.le_add_right _ _⟩
  | drain => exact htimely
  | drained =>
    -- what is left of the budget is what the second `boundedShutdown` gets
    obtain ⟨hstarted, hbudget⟩ := htimely
    exact ⟨hstarted, Nat.le_add_right _ _, by omega⟩
  | drainTimeout => exact ⟨htimely.1, Nat.le_refl _, htimely.2⟩
  | hook => exact htimely
  | unhooked | stopped => exact ⟨htimely.1, Nat.le_trans htimely.2.1 htimely.2.2⟩

/-- The first call of `stop` counts. -/
theorem StopTurn.startedAt {now startedAt : Nat} {phase next : StopPhase} (h : StopTurn controller now phase next)
    (hstarted : phase.startedAt = some startedAt) : next.startedAt = some startedAt := by
  cases h with
  | called | already => cases hstarted
  | _ => exact hstarted

/-- No time passes that the timers and reactions of `stop` do not leave. -/
theorem timely_exact {turn : LifecycleTurn} (h : Timely controller.timeout s.now s.stopPromise)
    (hexact : controller.Exact s turn) : Timely controller.timeout turn.now s.stopPromise := by
  obtain ⟨hlater, hbusy, hdeadline⟩ := hexact
  cases hstop : s.stopPromise with
  | idle => trivial
  | drainQueued startedAt =>
    rw [hstop] at h
    rw [hbusy (by simp [Lifecycle.busy, hstop])]
    exact h
  | draining startedAt =>
    rw [hstop] at h
    exact ⟨Nat.le_trans h.1 hlater, hdeadline _ (by simp [Controller.deadline, hstop])⟩
  | hookQueued startedAt deadline drain =>
    rw [hstop] at h
    rw [hbusy (by simp [Lifecycle.busy, hstop])]
    exact h
  | stopping startedAt deadline drain =>
    rw [hstop] at h
    exact ⟨Nat.le_trans h.1 hlater, hdeadline _ (by simp [Controller.deadline, hstop]), h.2.2⟩
  | settled startedAt settledAt error =>
    rw [hstop] at h
    exact ⟨Nat.le_trans h.1 hlater, h.2⟩

/-- The state a turn leaves, within its budget. -/
theorem timely_step {turn : LifecycleTurn} (h : Timely controller.timeout s.now s.stopPromise)
    (hexact : controller.Exact s turn) :
    Timely controller.timeout (controller.step s turn).2.now (controller.step s turn).2.stopPromise :=
  (stopTurn_act turn.now turn.action).timely (timely_exact h hexact)

theorem Timely.startedAt_le {timeout now startedAt : Nat} {phase : StopPhase} (h : Timely timeout now phase)
    (hstarted : phase.startedAt = some startedAt) : startedAt ≤ now := by
  cases phase with
  | idle => cases hstarted
  | _ =>
    cases hstarted
    exact h.1

/-- A call of `stop` is the first one or comes after it. -/
theorem startedAt_stop {now : Nat} (h : Timely controller.timeout now s.stopPromise) :
    ∃ startedAt ≤ now, (Controller.stop s now).stopPromise.startedAt = some startedAt := by
  unfold Controller.stop
  split
  · split <;> exact ⟨now, Nat.le_refl _, rfl⟩
  · cases hstarted : s.stopPromise.startedAt with
    | none =>
      cases hstop : s.stopPromise with
      | idle => exact absurd hstop ‹_›
      | _ =>
        rw [hstop] at hstarted
        cases hstarted
    | some startedAt => exact ⟨startedAt, h.startedAt_le hstarted, rfl⟩

/-! ## `stop` settles whatever the hooks do -/

/-- Turns that no probe, no hook and no caller takes part in: reactions that are
queued, and timers. -/
def LifecycleAction.internal : LifecycleAction → Bool
  | .callOnDrain | .callDrain | .drained | .drainTimeout | .callOnStop | .stopTimeout => true
  | _ => false

/-- Internal turns alone lead from `s` to a state in which `stop` has settled. -/
inductive Settles (controller : Controller) : Lifecycle → Prop
  | settled {s : Lifecycle} : s.stopPromise.settledAt.isSome = true → Settles controller s
  | turn {s : Lifecycle} (turn : LifecycleTurn) : turn.action.internal = true → controller.Exact s turn →
      Settles controller (controller.step s turn).2 → Settles controller s

/-- A turn at the time it is. -/
theorem exact_now (hdeadline : ∀ deadline ∈ controller.deadline s, s.now ≤ deadline) (action : LifecycleAction) :
    controller.Exact s { now := s.now, action } :=
  ⟨Nat.le_refl _, fun _ => rfl, hdeadline⟩

theorem settles_stopping_idle {startedAt deadline : Nat} {drain : HaShutdownOutcome} (hnow : s.now ≤ deadline)
    (hstop : s.stopPromise = .stopping startedAt deadline drain) (hidle : s.busy = false) : Settles controller s := by
  refine .turn { now := deadline, action := .stopTimeout } rfl ⟨hnow, ?_, ?_⟩ (.settled ?_)
  · rw [hidle]
    intro h
    cases h
  · intro other hother
    rw [Controller.deadline, hstop] at hother
    cases hother
    exact Nat.le_refl _
  · simp [Controller.step, Controller.act, Controller.stopTimeout, hstop, hidle, Lifecycle.stopped, StopPhase.settledAt]

theorem settles_stopping {startedAt deadline : Nat} {drain : HaShutdownOutcome} (hnow : s.now ≤ deadline)
    (hstop : s.stopPromise = .stopping startedAt deadline drain) : Settles controller s := by
  by_cases hidle : s.busy = false
  · exact settles_stopping_idle hnow hstop hidle
  · -- the only reaction that can be queued is the one that calls `onDrain`
    have hqueued : s.drainPromise = .queued := by
      simpa [Lifecycle.busy, hstop] using hidle
    refine .turn { now := s.now, action := .callOnDrain } rfl (exact_now ?_ _) ?_
    · intro other hother
      rw [Controller.deadline, hstop] at hother
      cases hother
      exact hnow
    · have hnext : (controller.callOnDrain s).stopPromise = .stopping startedAt deadline drain := by
        simp only [Controller.callOnDrain, hqueued]
        split <;> exact hstop
      have hidle : (controller.callOnDrain s).busy = false := by
        simp only [Controller.callOnDrain, hqueued]
        split <;> simp [Lifecycle.busy, hstop]
      exact settles_stopping_idle hnow hnext hidle

theorem settles_hookQueued {startedAt deadline : Nat} {drain : HaShutdownOutcome} (hnow : s.now ≤ deadline)
    (hstop : s.stopPromise = .hookQueued startedAt deadline drain) : Settles controller s := by
  refine .turn { now := s.now, action := .callOnStop } rfl (exact_now ?_ _) ?_
  · intro other hother
    rw [Controller.deadline, hstop] at hother
    cases hother
  · cases honStop : controller.options.onStop with
    | true =>
      have hnext : (controller.callOnStop s s.now).stopPromise = .stopping startedAt deadline drain := by
        simp [Controller.callOnStop, hstop, honStop]
      exact settles_stopping hnow hnext
    | false =>
      refine .settled ?_
      simp [Controller.step, Controller.act, Controller.callOnStop, hstop, honStop, Lifecycle.stopped, StopPhase.settledAt]

/-- `drain` has settled. -/
theorem settles_drained {startedAt : Nat} {error : Option String} (hnow : s.now ≤ startedAt + controller.timeout)
    (hstop : s.stopPromise = .draining startedAt) (hdrain : s.drainPromise = .settled error) : Settles controller s := by
  refine .turn { now := s.now, action := .drained } rfl (exact_now ?_ _) ?_
  · intro other hother
    rw [Controller.deadline, hstop] at hother
    cases hother
    exact hnow
  · have hnext : ∃ outcome, (controller.drained s s.now).stopPromise =
        .hookQueued startedAt (s.now + (controller.timeout - (s.now - startedAt))) outcome := by
      simp only [Controller.drained, hstop, hdrain]
      exact ⟨_, rfl⟩
    obtain ⟨outcome, hnext⟩ := hnext
    exact settles_hookQueued (Nat.le_add_right _ _) hnext

/-- No reaction is queued, and the timer fires. -/
theorem settles_draining_idle {startedAt : Nat} (hnow : s.now ≤ startedAt + controller.timeout)
    (hstop : s.stopPromise = .draining startedAt) (hidle : s.busy = false) : Settles controller s := by
  refine .turn { now := startedAt + controller.timeout, action := .drainTimeout } rfl ⟨hnow, ?_, ?_⟩ ?_
  · rw [hidle]
    intro h
    cases h
  · intro other hother
    rw [Controller.deadline, hstop] at hother
    cases hother
    exact Nat.le_refl _
  · have hnext : (controller.drainTimeout s (startedAt + controller.timeout)).stopPromise =
        .hookQueued startedAt (startedAt + controller.timeout) .timedOut := by
      simp [Controller.drainTimeout, hstop, hidle]
    exact settles_hookQueued (Nat.le_refl _) hnext

theorem settles_draining {startedAt : Nat} (hnow : s.now ≤ startedAt + controller.timeout)
    (hstop : s.stopPromise = .draining startedAt) : Settles controller s := by
  cases hdrain : s.drainPromise with
  | settled error => exact settles_drained hnow hstop hdrain
  | undefined | called => exact settles_draining_idle hnow hstop (by simp [Lifecycle.busy, hstop, hdrain])
  | queued =>
    refine .turn { now := s.now, action := .callOnDrain } rfl (exact_now ?_ _) ?_
    · intro other hother
      rw [Controller.deadline, hstop] at hother
      cases hother
      exact hnow
    · cases honDrain : controller.options.onDrain with
      | true =>
        have hnext : (controller.callOnDrain s).stopPromise = .draining startedAt := by
          simpa [Controller.callOnDrain, hdrain, honDrain] using hstop
        have hidle : (controller.callOnDrain s).busy = false := by
          simp [Controller.callOnDrain, hdrain, honDrain, Lifecycle.busy, hstop]
        exact settles_draining_idle hnow hnext hidle
      | false =>
        have hnext : (controller.callOnDrain s).stopPromise = .draining startedAt := by
          simpa [Controller.callOnDrain, hdrain, honDrain] using hstop
        have hsettled : (controller.callOnDrain s).drainPromise = .settled none := by
          simp [Controller.callOnDrain, hdrain, honDrain]
        exact settles_drained hnow hnext hsettled

theorem settles_of_timely {startedAt : Nat} (h : Timely controller.timeout s.now s.stopPromise)
    (hstarted : s.stopPromise.startedAt = some startedAt) : Settles controller s := by
  cases hstop : s.stopPromise with
  | idle =>
    rw [hstop] at hstarted
    cases hstarted
  | drainQueued first =>
    rw [hstop] at h
    refine .turn { now := s.now, action := .callDrain } rfl (exact_now ?_ _) ?_
    · intro other hother
      rw [Controller.deadline, hstop] at hother
      cases hother
    · have hnext : (Controller.callDrain s).stopPromise = .draining first := by
        simp only [Controller.callDrain, hstop]
      exact settles_draining h.2 hnext
  | draining => exact settles_draining (hstop ▸ h).2 hstop
  | hookQueued => exact settles_hookQueued (hstop ▸ h).2.1 hstop
  | stopping => exact settles_stopping (hstop ▸ h).2.1 hstop
  | settled => exact .settled (by rw [hstop]; rfl)

end

/-! ## Runs -/

section
variable {options : HaLifecycleOptions} {controller : Controller} {init s : Lifecycle}
  {trace : List (Step Lifecycle LifecycleTurn (Except String Unit))} {clock : Nat}

/-- What the operators of a node may rely on. -/
structure MovesForward (controller : Controller) (init : Lifecycle)
    (trace : List (Step Lifecycle LifecycleTurn (Except String Unit))) (s : Lifecycle) (clock : Nat) : Prop where
  states : (init.state :: trace.map (·.after.state)).Pairwise fun earlier later => earlier.stage ≤ later.stage
  observed : s.observed.Pairwise fun earlier later => earlier.state.stage ≤ later.state.stage
  drain_once : s.drainCalls ≤ 1
  stop_once : s.stopCalls ≤ 1
  /-- Time does not get past the budget of `stop` before it has settled. -/
  stop_in_time : ∀ e ∈ trace, e.call.action = .stop → match s.stopPromise.settledAt with
    | some settledAt => settledAt ≤ e.call.now + controller.timeout
    | none => clock ≤ e.call.now + controller.timeout
  /-- And `stop` needs neither hook nor probe nor caller to settle. -/
  stop_settles : ∀ e ∈ trace, e.call.action = .stop → ∃ more t clock',
    controller.LifecycleRun init (trace ++ more) t clock' ∧ (∀ e ∈ more, e.call.action.internal = true) ∧
      t.stopPromise.settledAt.isSome = true

/-- What a run keeps. -/
structure Kept (controller : Controller) (init : Lifecycle)
    (trace : List (Step Lifecycle LifecycleTurn (Except String Unit))) (s : Lifecycle) (clock : Nat) : Prop where
  now : s.now = clock
  states : ∀ state ∈ init.state :: trace.map (·.after.state), state.stage ≤ s.state.stage
  ordered : (init.state :: trace.map (·.after.state)).Pairwise fun earlier later => earlier.stage ≤ later.stage
  shown : ∀ observation ∈ s.observed, observation.state.stage ≤ s.state.stage
  observed : s.observed.Pairwise fun earlier later => earlier.state.stage ≤ later.state.stage
  hooked : Hooked s
  timely : Timely controller.timeout s.now s.stopPromise
  stop : ∀ e ∈ trace, e.call.action = .stop → ∃ startedAt ≤ e.call.now, s.stopPromise.startedAt = some startedAt

theorem kept_start (hcreate : createHaLifecycle options = .ok (controller, init)) : Kept controller init [] init 0 := by
  simp only [createHaLifecycle, bind_eq_ok, pure_eq_ok, Prod.mk.injEq] at hcreate
  obtain ⟨_, _, rfl, rfl⟩ := hcreate
  refine ⟨rfl, ?_, List.pairwise_singleton _ _, ?_, List.Pairwise.nil, ?_, trivial, ?_⟩
  · intro state hmem
    rw [List.mem_singleton.1 hmem]
  · intro _ hmem
    cases hmem
  · exact ⟨Nat.zero_le _, fun _ => rfl, Nat.zero_le _, fun _ _ => rfl⟩
  · intro _ hmem
    cases hmem

theorem Kept.step (h : Kept controller init trace s clock) {turn : LifecycleTurn} (hexact : controller.Exact s turn) :
    Kept controller init (trace ++ [stepOf controller.step s turn]) (controller.step s turn).2 turn.now := by
  have honward : Onward s (controller.step s turn).2 := by
    have hact := onward_act controller (s := s) turn.now turn.action
    exact ⟨hact.stage, hact.shows⟩
  have hstates : ∀ state ∈ init.state :: trace.map (·.after.state), state.stage ≤ (controller.step s turn).2.state.stage :=
    fun state hmem => Nat.le_trans (h.states state hmem) honward.stage
  obtain ⟨more, hmore, hshown⟩ := honward.shows
  refine ⟨rfl, ?_, ?_, ?_, ?_, ?_, timely_step h.timely hexact, ?_⟩
  · rw [List.map_append, ← List.cons_append]
    intro state hmem
    rcases List.mem_append.1 hmem with hmem | hmem
    · exact hstates state hmem
    · rw [List.mem_singleton.1 hmem]
      exact Nat.le_refl _
  · rw [List.map_append, ← List.cons_append, List.pairwise_append]
    refine ⟨h.ordered, List.pairwise_singleton _ _, ?_⟩
    intro state hmem last hlast
    rw [List.mem_singleton.1 hlast]
    exact hstates state hmem
  · intro observation hmem
    rw [hmore] at hmem
    rcases List.mem_append.1 hmem with hmem | hmem
    · exact Nat.le_trans (h.shown observation hmem) honward.stage
    · rw [hshown observation hmem]
      exact honward.stage
  · rw [hmore, List.pairwise_append]
    refine ⟨h.observed, ?_, ?_⟩
    · apply List.pairwise_of_forall_mem_list
      intro earlier hearlier later hlater
      rw [hshown earlier hearlier, hshown later hlater]
    · intro earlier hearlier later hlater
      rw [hshown later hlater]
      exact h.shown earlier hearlier
  · have hact := h.hooked.act controller turn.now turn.action
    exact ⟨hact.drain, hact.undrained, hact.stop, hact.unstopped⟩
  · intro e hmem hstop
    rcases List.mem_append.1 hmem with hmem | hmem
    · obtain ⟨startedAt, hle, hstarted⟩ := h.stop e hmem hstop
      exact ⟨startedAt, hle, (stopTurn_act turn.now turn.action).startedAt hstarted⟩
    · rw [List.mem_singleton.1 hmem] at hstop ⊢
      obtain ⟨startedAt, hle, hstarted⟩ := startedAt_stop (timely_exact h.timely hexact)
      refine ⟨startedAt, hle, ?_⟩
      have hcall : turn.action = .stop := hstop
      simpa [Controller.step, hcall, Controller.act] using hstarted

theorem kept_run (hcreate : createHaLifecycle options = .ok (controller, init))
    (h : controller.LifecycleRun init trace s clock) : Kept controller init trace s clock := by
  induction h with
  | start => exact kept_start hcreate
  | call turn _ _ hexact ih => exact ih.step hexact

/-- Internal turns extend a run. -/
theorem Settles.run (h : Settles controller s) : ∀ {trace clock}, controller.LifecycleRun init trace s clock → s.now = clock →
    ∃ more t clock', controller.LifecycleRun init (trace ++ more) t clock' ∧ (∀ e ∈ more, e.call.action.internal = true) ∧
      t.stopPromise.settledAt.isSome = true := by
  induction h with
  | settled hsettled =>
    intro trace clock hrun _
    refine ⟨[], _, clock, ?_, ?_, hsettled⟩
    · rwa [List.append_nil]
    · intro e hmem
      cases hmem
  | @turn s turn hinternal hexact _ ih =>
    intro trace clock hrun hnow
    obtain ⟨more, t, clock', hmore, hall, hsettled⟩ := ih (hrun.call turn (hnow ▸ hexact.1) hexact) rfl
    refine ⟨stepOf controller.step s turn :: more, t, clock', ?_, ?_, hsettled⟩
    · rwa [List.append_assoc] at hmore
    · rw [List.forall_mem_cons]
      exact ⟨hinternal, hall⟩

/-- In every run of a node its states only move forward, each hook is called once
at most, and `stop` settles within its timeout. -/
theorem lifecycle_moves_forward (hcreate : createHaLifecycle options = .ok (controller, init))
    (h : controller.LifecycleRun init trace s clock) : MovesForward controller init trace s clock := by
  have hkept := kept_run hcreate h
  refine ⟨hkept.ordered, hkept.observed, hkept.hooked.drain, hkept.hooked.stop, ?_, ?_⟩
  · intro e hmem hstop
    obtain ⟨startedAt, hle, hstarted⟩ := hkept.stop e hmem hstop
    have htimely := hkept.timely
    rw [hkept.now] at htimely
    cases hphase : s.stopPromise with
    | idle =>
      rw [hphase] at hstarted
      cases hstarted
    | drainQueued first | draining first =>
      rw [hphase] at hstarted htimely
      cases hstarted
      exact Nat.le_trans htimely.2 (Nat.add_le_add_right hle _)
    | hookQueued first deadline drain | stopping first deadline drain =>
      rw [hphase] at hstarted htimely
      cases hstarted
      exact Nat.le_trans htimely.2.1 (Nat.le_trans htimely.2.2 (Nat.add_le_add_right hle _))
    | settled first settledAt error =>
      rw [hphase] at hstarted htimely
      cases hstarted
      exact Nat.le_trans htimely.2 (Nat.add_le_add_right hle _)
  · intro e hmem hstop
    obtain ⟨startedAt, _, hstarted⟩ := hkept.stop e hmem hstop
    exact (settles_of_timely hkept.timely hstarted).run h hkept.now

end

/-! ## A run in which both hooks hang -/

def sampleOptions : HaLifecycleOptions :=
  { dependencies := .ofList [("redis", .probe)], readinessProbe := false, onDrain := true, onStop := true
    shutdownTimeoutMs := some (.finite (5/2)) }

def sampleController : Controller := { options := sampleOptions, timeout := 2 }

def sampleStart : Lifecycle :=
  { state := .starting, aggregateProbeState := none
    dependencies := sampleOptions.dependencies.mapValues fun _ definition => definition.initial
    startPromise := none, drainPromise := .undefined, stopPromise := .idle, report := none
    calls := [], observed := [], drainCalls := 0, stopCalls := 0, now := 0 }

theorem sample_created : createHaLifecycle sampleOptions = .ok (sampleController, sampleStart) := by
  have htimeout : normalizeTimeout sampleOptions.shutdownTimeoutMs = .ok 2 := by decide +kernel
  simp only [createHaLifecycle, htimeout]
  rfl

def sampleTurns : List LifecycleTurn :=
  [⟨1, .start⟩, ⟨1, .liveness⟩, ⟨3, .readiness⟩, ⟨4, .stop⟩, ⟨4, .callDrain⟩, ⟨4, .callOnDrain⟩,
    ⟨5, .probe 0 "redis" (some .ready)⟩, ⟨5, .refreshed 0⟩, ⟨6, .drainTimeout⟩, ⟨6, .callOnStop⟩, ⟨6, .stopTimeout⟩,
    ⟨7, .liveness⟩]

theorem lifecycle_sample : ∃ clock, MovesForward sampleController sampleStart
    (execute sampleController.step sampleStart sampleTurns) (stateAfter sampleController.step sampleStart sampleTurns) clock := by
  have hstart : sampleController.LifecycleRun sampleStart [] sampleStart 0 := .start
  have hexact : ∀ e ∈ execute sampleController.step sampleStart sampleTurns, sampleController.Exact e.before e.call := by
    decide +kernel
  obtain ⟨clock, hrun⟩ := hstart.follow sampleTurns (by decide) fun e he _ => hexact e he
  exact ⟨clock, lifecycle_moves_forward sample_created hrun⟩

end Hyeboard.Ha
