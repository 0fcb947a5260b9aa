import Mathlib.Data.Rat.Floor
import Hyeboard.Lib.JsValue
import Hyeboard.Lib.Runs
/-!
# The lifecycle of a node

`createHaLifecycle` of `ha/ha-lifecycle.ts`. Its functions share one state, and
everything they await (probes, hooks, timers, each other) settles in any order:
what happens next is a `LifecycleTurn`. A call in flight is an entry of `calls`.

Timers are exact, and promise reactions take no time: `Exact` says which turns
that leaves.
-/

namespace Hyeboard.Ha

inductive HaReadinessState where
  | starting
  | ready
  | degraded
  | draining
  | stopped
deriving DecidableEq, Repr

inductive HaDependencyReadiness where
  | ready
  | degraded
  | unavailable
deriving DecidableEq, Repr

inductive HaDependencyDefinition where
  | status (status : HaDependencyReadiness)
  | probe
  | probeFrom (initial : Option HaDependencyReadiness)
deriving DecidableEq, Repr

/-- A JavaScript number of milliseconds. -/
inductive Milliseconds where
  | finite (value : ℚ)
  | nonFinite
deriving DecidableEq

/-- The probes and hooks that are there. -/
structure HaLifecycleOptions where
  dependencies : Record HaDependencyDefinition
  readinessProbe : Bool
  onDrain : Bool
  onStop : Bool
  shutdownTimeoutMs : Option Milliseconds

def defaultHaShutdownTimeoutMs : Nat := 10000

def normalizeTimeout : Option Milliseconds → Except String Nat
  | none => .ok defaultHaShutdownTimeoutMs
  | some .nonFinite => .error "shutdownTimeoutMs must be a finite non-negative number"
  | some (.finite value) =>
    if value < 0 then .error "shutdownTimeoutMs must be a finite non-negative number" else .ok value.floor.toNat

/-! ## State -/

structure HaReadiness where
  state : HaReadinessState
  reason : Option String
  dependencies : Option (Record HaDependencyReadiness)
deriving DecidableEq

/-- What `liveness`, `readiness`, `snapshot` and `diagnostics` show of the state. -/
inductive Observation where
  | readiness (readiness : HaReadiness)
  | liveness (alive : Bool) (state : HaReadinessState)
deriving DecidableEq

def Observation.state : Observation → HaReadinessState
  | .readiness shown => shown.state
  | .liveness _ state => state

inductive Caller where
  | start
  | readiness
  | snapshot
deriving DecidableEq, Repr

/-- What a call in flight awaits. -/
inductive CallPhase where
  /-- In `refreshDependencies`: `readinessProbe`, then the probes. -/
  | aggregate
  | probing (names : List String)
  /-- `startPromise`. -/
  | starting
  /-- Nothing more: its continuation reads the state next. -/
  | reading
  /-- `snapshot` awaits `readiness`. -/
  | observing
deriving DecidableEq, Repr

structure Call where
  caller : Caller
  phase : CallPhase
deriving DecidableEq, Repr

inductive DrainPromise where
  | undefined
  /-- The reaction that calls `onDrain` is queued. -/
  | queued
  | called
  | settled (error : Option String)
deriving DecidableEq, Repr

inductive HaShutdownOutcome where
  | completed
  | timedOut
  | failed (error : String)
deriving DecidableEq, Repr

/-- Where `stop` is: the first `boundedShutdown`, whose operation is `drain`, then
the second, whose operation is `onStop`. An operation is called in a reaction. -/
inductive StopPhase where
  | idle
  | drainQueued (startedAt : Nat)
  | draining (startedAt : Nat)
  | hookQueued (startedAt deadline : Nat) (drain : HaShutdownOutcome)
  | stopping (startedAt deadline : Nat) (drain : HaShutdownOutcome)
  | settled (startedAt settledAt : Nat) (error : Option String)
deriving DecidableEq, Repr

def StopPhase.startedAt : StopPhase → Option Nat
  | .idle => none
  | .drainQueued startedAt | .draining startedAt | .hookQueued startedAt _ _ | .stopping startedAt _ _
  | .settled startedAt _ _ => some startedAt

def StopPhase.settledAt : StopPhase → Option Nat
  | .settled _ settledAt _ => some settledAt
  | _ => none

/-- Whether `drain` and `onStop` timed out. -/
structure HaShutdownReport where
  drainTimedOut : Bool
  stopTimedOut : Bool
deriving DecidableEq, Repr

structure Lifecycle where
  state : HaReadinessState
  aggregateProbeState : Option HaReadinessState
  dependencies : Record HaDependencyReadiness
  /-- `startPromise`, and whether it is settled. -/
  startPromise : Option Bool
  drainPromise : DrainPromise
  stopPromise : StopPhase
  report : Option HaShutdownReport
  calls : List Call
  observed : List Observation
  drainCalls : Nat
  stopCalls : Nat
  now : Nat

inductive LifecycleAction where
  | start
  | readiness
  | snapshot
  | liveness
  | setDependencyStatus (name : String) (status : Option HaDependencyReadiness)
  | drain
  | stop
  /-- `readinessProbe` settles for a call: `none` if it throws. -/
  | aggregate (call : Nat) (result : Option (HaReadinessState × List (String × Option HaDependencyReadiness)))
  /-- A probe settles for a call: `none` if it throws or its result is no status. -/
  | probe (call : Nat) (name : String) (result : Option HaDependencyReadiness)
  /-- All probes of a call have settled, and `refreshDependencies` goes on. -/
  | refreshed (call : Nat)
  /-- A call goes on after its last `await`. -/
  | read (call : Nat)
  /-- The reaction that calls `onDrain`, and the settling of `onDrain`. -/
  | callOnDrain
  | onDrain (error : Option String)
  /-- In `stop`: the call of `drain`, the race with its timer, the call of
  `onStop`, and the race with its timer. -/
  | callDrain
  | drained
  | drainTimeout
  | callOnStop
  | onStop (error : Option String)
  | stopTimeout
deriving DecidableEq

structure LifecycleTurn where
  now : Nat
  action : LifecycleAction
deriving DecidableEq

/-! ## The controller -/

/-- The options with their timeout normalized. -/
structure Controller where
  options : HaLifecycleOptions
  timeout : Nat

def HaLifecycleOptions.probeNames (options : HaLifecycleOptions) : List String :=
  options.dependencies.entries.filterMap fun (name, definition) =>
    match definition with
    | .status _ => none
    | .probe | .probeFrom _ => some name

def HaDependencyDefinition.initial : HaDependencyDefinition → HaDependencyReadiness
  | .status given => given
  | .probe => .unavailable
  | .probeFrom initial => initial.getD .unavailable

def createHaLifecycle (options : HaLifecycleOptions) : Except String (Controller × Lifecycle) := do
  let timeout ← normalizeTimeout options.shutdownTimeoutMs
  return ({ options, timeout }, {
    state := .starting, aggregateProbeState := none
    dependencies := options.dependencies.mapValues fun _ definition => definition.initial
    startPromise := none, drainPromise := .undefined, stopPromise := .idle, report := none
    calls := [], observed := [], drainCalls := 0, stopCalls := 0, now := 0 })

namespace Lifecycle

variable (s : Lifecycle)

def nextOperationalState : HaReadinessState :=
  if s.aggregateProbeState.any (· ≠ .ready) then .degraded
  else if s.dependencies.entries.any fun entry => entry.2 ≠ .ready then .degraded
  else .ready

def applyDependencyState : Lifecycle :=
  match s.state with
  | .starting | .ready | .degraded => { s with state := s.nextOperationalState }
  | .draining | .stopped => s

def readinessSnapshot : HaReadiness :=
  { state := s.state
    reason := match s.state with
      | .starting => some "not-started"
      | .ready => none
      | .degraded =>
        some (if s.aggregateProbeState = some .degraded then "readiness-check-failed" else "dependency-not-ready")
      | .draining => some "draining"
      | .stopped => some "stopped"
    dependencies := if s.dependencies.size = 0 then none else some s.dependencies }

def livenessSnapshot : Observation := .liveness (decide (s.state ≠ .stopped)) s.state

def observe (observation : Observation) : Lifecycle := { s with observed := s.observed ++ [observation] }

def setStatus (name : String) (status : Option HaDependencyReadiness) : Lifecycle :=
  { s with dependencies := s.dependencies.set name (status.getD .unavailable) }

def setStatuses (statuses : List (String × Option HaDependencyReadiness)) : Lifecycle :=
  statuses.foldl (fun (s : Lifecycle) (entry : String × Option HaDependencyReadiness) => s.setStatus entry.1 entry.2) s

def setDependencyStatus (name : String) : Option HaDependencyReadiness → Except String Unit × Lifecycle
  | none => (.error "Invalid dependency readiness", s)
  | some status => (.ok (), (s.setStatus name (some status)).applyDependencyState)

def drain : Lifecycle :=
  if s.state = .stopped then s
  else match s.drainPromise with
    | .undefined => { s with state := .draining, drainPromise := .queued }
    | _ => s

/-- A promise reaction is queued. -/
def busy : Bool :=
  decide (s.drainPromise = .queued) ||
    match s.stopPromise, s.drainPromise with
    | .drainQueued _, _ | .hookQueued _ _ _, _ | .draining _, .settled _ => true
    | _, _ => false

/-- `stop` after its second `await`. -/
def stopped (startedAt now : Nat) (drain stop : HaShutdownOutcome) : Lifecycle :=
  let error := match drain, stop with
    | .failed error, _ => some error
    | _, .failed error => some error
    | _, _ => none
  { s with
    report := some { drainTimedOut := drain = .timedOut, stopTimedOut := stop = .timedOut }
    state := .stopped
    stopPromise := .settled startedAt now error }

end Lifecycle

namespace Controller

variable (controller : Controller) (s : Lifecycle)

/-- When the timer of `stop` fires. -/
def deadline : Option Nat :=
  match s.stopPromise with
  | .draining startedAt => some (startedAt + controller.timeout)
  | .stopping _ deadline _ => some deadline
  | _ => none

/-- The first `await` of `refreshDependencies`. -/
def refreshDependencies : CallPhase :=
  if controller.options.readinessProbe then .aggregate else .probing controller.options.probeNames

def start : Lifecycle :=
  match s.state, s.startPromise with
  | .starting, none => { s with
      startPromise := some false, calls := s.calls ++ [{ caller := .start, phase := controller.refreshDependencies }] }
  | _, _ => s

/-- `readiness`, or `snapshot`, which awaits it. -/
def readiness (caller : Caller) : Lifecycle :=
  let phase := match s.state, s.startPromise with
    | .starting, some _ => .starting
    | .starting, none | .draining, _ | .stopped, _ => .reading
    | .ready, _ | .degraded, _ => controller.refreshDependencies
  { s with calls := s.calls ++ [{ caller, phase }] }

/-- `readinessProbe` settles for a call. -/
def aggregate (call : Nat) (result : Option (HaReadinessState × List (String × Option HaDependencyReadiness))) : Lifecycle :=
  match s.calls[call]? with
  | some { caller, phase := .aggregate } =>
    let s := match result with
      | some (state, statuses) => { s with aggregateProbeState := some state }.setStatuses statuses
      | none => { s with aggregateProbeState := some .degraded }
    { s with calls := s.calls.set call { caller, phase := .probing controller.options.probeNames } }
  | _ => s

/-- A probe settles for a call. -/
def probe (call : Nat) (name : String) (result : Option HaDependencyReadiness) : Lifecycle :=
  match s.calls[call]? with
  | some { caller, phase := .probing names } =>
    if name ∈ names then
      { s.setStatus name result with calls := s.calls.set call { caller, phase := .probing (names.erase name) } }
    else s
  | _ => s

def refreshed (call : Nat) : Lifecycle :=
  match s.calls[call]? with
  | some { caller := .start, phase := .probing [] } =>
    { s.applyDependencyState with startPromise := some true, calls := s.calls.eraseIdx call }
  | some { caller, phase := .probing [] } =>
    { s.applyDependencyState with calls := s.calls.set call { caller, phase := .reading } }
  | _ => s

def read (call : Nat) : Lifecycle :=
  match s.calls[call]? with
  | some { caller, phase := .starting } =>
    if s.startPromise = some true then { s with calls := s.calls.set call { caller, phase := .reading } } else s
  | some { caller := .snapshot, phase := .reading } =>
    { s.observe (.readiness s.readinessSnapshot) with
      calls := s.calls.set call { caller := .snapshot, phase := .observing } }
  | some { caller := _, phase := .reading } =>
    { s.observe (.readiness s.readinessSnapshot) with calls := s.calls.eraseIdx call }
  | some { caller := _, phase := .observing } =>
    { s.observe s.livenessSnapshot with calls := s.calls.eraseIdx call }
  | _ => s

def callOnDrain : Lifecycle :=
  match s.drainPromise with
  | .queued =>
    if controller.options.onDrain then { s with drainPromise := .called, drainCalls := s.drainCalls + 1 }
    else { s with drainPromise := .settled none }
  | _ => s

def onDrain (error : Option String) : Lifecycle :=
  match s.drainPromise with
  | .called => { s with drainPromise := .settled error }
  | _ => s

def stop (now : Nat) : Lifecycle :=
  match s.stopPromise with
  | .idle => if s.state = .stopped then { s with stopPromise := .settled now now none } else { s with stopPromise := .drainQueued now }
  | _ => s

def callDrain : Lifecycle :=
  match s.stopPromise with
  | .drainQueued startedAt => { s.drain with stopPromise := .draining startedAt }
  | _ => s

/-- `drain` has settled before the timer fired. -/
def drained (now : Nat) : Lifecycle :=
  match s.stopPromise, s.drainPromise with
  | .draining startedAt, .settled error =>
    let remaining := controller.timeout - (now - startedAt)
    let outcome := match error with
      | none => .completed
      | some error => .failed error
    { s with stopPromise := .hookQueued startedAt (now + remaining) outcome }
  | _, _ => s

def drainTimeout (now : Nat) : Lifecycle :=
  match s.stopPromise with
  | .draining startedAt =>
    if now = startedAt + controller.timeout ∧ s.busy = false then
      { s with stopPromise := .hookQueued startedAt now .timedOut }
    else s
  | _ => s

def callOnStop (now : Nat) : Lifecycle :=
  match s.stopPromise with
  | .hookQueued startedAt deadline drain =>
    if controller.options.onStop then
      { s with stopPromise := .stopping startedAt deadline drain, stopCalls := s.stopCalls + 1 }
    else s.stopped startedAt now drain .completed
  | _ => s

def onStop (now : Nat) (error : Option String) : Lifecycle :=
  match s.stopPromise with
  | .stopping startedAt _ drain => s.stopped startedAt now drain (error.elim .completed .failed)
  | _ => s

def stopTimeout (now : Nat) : Lifecycle :=
  match s.stopPromise with
  | .stopping startedAt deadline drain =>
    if now = deadline ∧ s.busy = false then s.stopped startedAt now drain .timedOut else s
  | _ => s

def act (now : Nat) : LifecycleAction → Except String Unit × Lifecycle
  | .start => (.ok (), controller.start s)
  | .readiness => (.ok (), controller.readiness s .readiness)
  | .snapshot => (.ok (), controller.readiness s .snapshot)
  | .liveness => (.ok (), s.observe s.livenessSnapshot)
  | .setDependencyStatus name status => s.setDependencyStatus name status
  | .drain => (.ok (), s.drain)
  | .stop => (.ok (), stop s now)
  | .aggregate call result => (.ok (), controller.aggregate s call result)
  | .probe call name result => (.ok (), probe s call name result)
  | .refreshed call => (.ok (), refreshed s call)
  | .read call => (.ok (), read s call)
  | .callOnDrain => (.ok (), controller.callOnDrain s)
  | .onDrain error => (.ok (), onDrain s error)
  | .callDrain => (.ok (), callDrain s)
  | .drained => (.ok (), controller.drained s now)
  | .drainTimeout => (.ok (), controller.drainTimeout s now)
  | .callOnStop => (.ok (), controller.callOnStop s now)
  | .onStop error => (.ok (), onStop s now error)
  | .stopTimeout => (.ok (), stopTimeout s now)

def step (turn : LifecycleTurn) : Except String Unit × Lifecycle :=
  let next := controller.act s turn.now turn.action
  (next.1, { next.2 with now := turn.now })

/-- Reactions run before time passes, and no timer is late. -/
def Exact (turn : LifecycleTurn) : Prop :=
  s.now ≤ turn.now ∧ (s.busy = true → turn.now = s.now) ∧ ∀ deadline ∈ controller.deadline s, turn.now ≤ deadline

instance (turn : LifecycleTurn) : Decidable (controller.Exact s turn) := inferInstanceAs (Decidable (_ ∧ _ ∧ _))

/-- The runs of a node: its turns in any order that keeps timers exact. -/
abbrev LifecycleRun (init : Lifecycle) :=
  Run controller.step LifecycleTurn.now (fun _ s turn => controller.Exact s turn) init

end Controller

end Hyeboard.Ha
