import Hyeboard.Lib.Events
import Hyeboard.ProbeBudget.State
/-!
# Permits for calls of the oracle

`acquireBrc1Permit` races the reply of the session's object against the signal of
its caller; `withVnuOraclePermit` runs the work of a request under a permit, two
timers and the signal of the request. Every reaction of the event loop is a turn of
its own, so a run is any order of replies, aborts, timers and continuations.
-/

namespace Hyeboard.ProbeBudget

/-! ## The call -/

namespace AcquireBrc1

inductive PermitError where
  | invalidIdentity
  /-- `signal.reason`, or the error that stands for it. -/
  | aborted (reason : Option String)
  | busy (retryAfterSeconds : Nat)
  /-- A `HyeboardError` of the object's call. -/
  | hyeboard (code : String)
  | unavailable
deriving DecidableEq, Repr

/-- How the call of the object settles; without a code its error is no `HyeboardError`. -/
inductive Reply where
  | result (result : VnuBrc1PermitResult)
  | failed (code : Option String)
deriving DecidableEq, Repr

inductive Winner where
  | reply
  | abort
deriving DecidableEq, Repr

inductive Phase where
  | idle
  | racing
  | returned (leaseId : String)
  | threw (error : PermitError)
deriving DecidableEq, Repr

/-- The reaction the catch attaches to the reply. -/
inductive Cleanup where
  | none
  | attached
  | ran
deriving DecidableEq, Repr

structure Call where
  /-- The object has been called. -/
  called : Bool
  reply : Option Reply
  /-- `signal.aborted`, with its reason. -/
  aborted : Option (Option String)
  race : Option Winner
  phase : Phase
  cleanup : Cleanup
deriving DecidableEq, Repr

inductive Turn where
  | call (validIdentity : Bool)
  /-- The object's call settles. -/
  | reply (reply : Reply)
  | abort (reason : Option String)
  /-- The race hears of its winner. -/
  | raced (winner : Winner)
  /-- The function goes on after the race. -/
  | resume
  /-- The reaction of the catch runs. -/
  | cleanup
deriving DecidableEq, Repr

inductive Event where
  | returned (leaseId : String)
  | threw (error : PermitError)
  /-- `releaseBrc1Permit` is called. -/
  | released (leaseId : String)
deriving DecidableEq, Repr

variable (s : Call)

def call (validIdentity : Bool) : List Event × Call :=
  if s.phase ≠ .idle then ([], s)
  else if !validIdentity then ([.threw .invalidIdentity], { s with phase := .threw .invalidIdentity })
  else match s.aborted with
    | some reason => ([.threw (.aborted reason)], { s with phase := .threw (.aborted reason) })
    | none => ([], { s with called := true, phase := .racing })

/-- The catch. -/
def caught (error : PermitError) : List Event × Call :=
  match s.aborted with
  | some reason =>
    let error := if reason.isSome then .aborted reason else error
    ([.threw error], { s with phase := .threw error, cleanup := .attached })
  | none => ([.threw error], { s with phase := .threw error })

def resume : List Event × Call :=
  match s.phase, s.race, s.reply with
  | .racing, some .reply, some (.result (.allowed leaseId _)) => ([.returned leaseId], { s with phase := .returned leaseId })
  | .racing, some .reply, some (.result (.refused retryAfterSeconds)) => caught s (.busy retryAfterSeconds)
  | .racing, some .reply, some (.failed (some code)) => caught s (.hyeboard code)
  | .racing, some .reply, some (.failed none) => caught s .unavailable
  | .racing, some .abort, _ => caught s (.aborted none)
  | _, _, _ => ([], s)

def runCleanup : List Event × Call :=
  match s.cleanup, s.reply with
  | .attached, some (.result (.allowed leaseId _)) => ([.released leaseId], { s with cleanup := .ran })
  | .attached, some _ => ([], { s with cleanup := .ran })
  | _, _ => ([], s)

def step (turn : Turn) : List Event × Call :=
  match turn with
  | .call validIdentity => call s validIdentity
  | .reply reply => ([], if s.called && s.reply.isNone then { s with reply := some reply } else s)
  | .abort reason => ([], if s.aborted.isNone then { s with aborted := some reason } else s)
  | .raced .reply => ([], if s.phase = .racing ∧ s.race = none ∧ s.reply.isSome then { s with race := some .reply } else s)
  | .raced .abort => ([], if s.phase = .racing ∧ s.race = none ∧ s.aborted.isSome then { s with race := some .abort } else s)
  | .resume => resume s
  | .cleanup => runCleanup s

def start : Call := { called := false, reply := none, aborted := none, race := none, phase := .idle, cleanup := .none }

/-- Any order of turns. -/
abbrev CallRun := Run step (fun _ => 0) (fun _ _ _ => True) start

/-- The lease the object has granted. -/
def Call.granted : List String :=
  match s.reply with
  | some (.result (.allowed leaseId _)) => [leaseId]
  | _ => []

/-- The lease the caller receives, or that is released for it. -/
def Event.lease : Event → Option String
  | .returned leaseId | .released leaseId => some leaseId
  | .threw _ => none

/-! ### What a run has done -/

def Call.history : List Event :=
  (match s.phase with
    | .returned leaseId => [.returned leaseId]
    | .threw error => [.threw error]
    | .idle | .racing => []) ++
  match s.cleanup, s.reply with
  | .ran, some (.result (.allowed leaseId _)) => [.released leaseId]
  | _, _ => []

/-- A lease that was granted is with the caller, or the catch sees to it. -/
structure Sound (s : Call) : Prop where
  uncalled : s.called = false → s.reply = none ∧ s.phase ≠ .racing
  racing : s.phase = .racing → s.cleanup = .none
  winner : s.race = some .reply → s.reply ≠ none
  loser : s.race = some .abort → s.aborted ≠ none
  idle : s.phase = .idle → s.called = false ∧ s.cleanup = .none
  returned : ∀ leaseId, s.phase = .returned leaseId → s.granted = [leaseId] ∧ s.cleanup = .none
  threw : ∀ error, s.phase = .threw error → s.cleanup = .none → s.granted = [] ∧ (s.called = true → s.reply ≠ none)
  ran : s.cleanup = .ran → s.reply ≠ none

theorem sound_start : Sound start := by
  constructor <;> simp [start]

variable {s}

/-- A step keeps `Sound`, and adds its events to the history. -/
structure Keeps (s : Call) (next : List Event × Call) : Prop where
  sound : Sound next.2
  history : next.2.history = s.history ++ next.1

theorem Sound.same (h : Sound s) : Keeps s ([], s) := ⟨h, (List.append_nil _).symm⟩

theorem Sound.call (h : Sound s) (validIdentity : Bool) : Keeps s (call s validIdentity) := by
  unfold AcquireBrc1.call
  split
  case isTrue => exact h.same
  case isFalse hidle =>
    rw [not_not] at hidle
    obtain ⟨hcalled, hcleanup⟩ := h.idle hidle
    -- before the object is called there is nothing to release
    have hthrows : ∀ error, Keeps s ([.threw error], { s with phase := .threw error }) := by
      intro error
      have hgranted : s.granted = [] := by simp [Call.granted, (h.uncalled hcalled).1]
      refine ⟨⟨fun _ => ⟨(h.uncalled hcalled).1, by simp⟩, by simp, h.winner, h.loser, by simp, by simp,
        fun _ _ _ => ⟨hgranted, fun heq => by cases hcalled.symm.trans heq⟩, h.ran⟩, ?_⟩
      simp [Call.history, hidle, hcleanup]
    split
    · exact hthrows _
    · split
      · exact hthrows _
      · refine ⟨⟨by simp, fun _ => hcleanup, h.winner, h.loser, by simp, by simp, by simp, h.ran⟩, ?_⟩
        simp [Call.history, hidle]

/-- The catch releases what was granted, or there is nothing to release. -/
theorem Sound.caught (h : Sound s) (hphase : s.phase = .racing) (error : PermitError)
    (hreply : s.aborted = none → s.granted = [] ∧ s.reply ≠ none) : Keeps s (caught s error) := by
  have hcleanup := h.racing hphase
  unfold AcquireBrc1.caught
  split
  · refine ⟨⟨fun hcalled => absurd hphase (h.uncalled hcalled).2, by simp, h.winner, h.loser, by simp, by simp, by simp, by simp⟩, ?_⟩
    simp [Call.history, hphase, hcleanup]
  case h_2 hnone =>
    obtain ⟨hgranted, hthere⟩ := hreply hnone
    refine ⟨⟨fun hcalled => absurd hphase (h.uncalled hcalled).2, by simp, h.winner, h.loser, by simp, by simp,
      fun _ _ _ => ⟨hgranted, fun _ => hthere⟩, h.ran⟩, ?_⟩
    simp [Call.history, hphase, hcleanup]

theorem Sound.resume (h : Sound s) : Keeps s (resume s) := by
  unfold AcquireBrc1.resume
  split
  case h_1 leaseId _ hphase hrace hreply =>
    have hcleanup := h.racing hphase
    have hgranted : s.granted = [leaseId] := by simp [Call.granted, hreply]
    refine ⟨⟨fun hcalled => absurd hphase (h.uncalled hcalled).2, by simp, h.winner, h.loser, by simp, ?_, by simp, h.ran⟩, ?_⟩
    · rintro _ heq
      cases heq
      exact ⟨hgranted, hcleanup⟩
    · simp [Call.history, hphase, hcleanup]
  case h_2 _ hphase _ hreply => exact h.caught hphase _ fun _ => by simp [Call.granted, hreply]
  case h_3 _ hphase _ hreply => exact h.caught hphase _ fun _ => by simp [Call.granted, hreply]
  case h_4 hphase _ hreply => exact h.caught hphase _ fun _ => by simp [Call.granted, hreply]
  case h_5 hphase hrace => exact h.caught hphase _ fun hnone => absurd hnone (h.loser hrace)
  case h_6 => exact h.same

theorem Sound.cleanup (h : Sound s) : Keeps s (runCleanup s) := by
  have hthrew : s.cleanup = .attached → ∃ error, s.phase = .threw error := by
    intro hattached
    cases hphase : s.phase with
    | idle => cases hattached.symm.trans (h.idle hphase).2
    | racing => cases hattached.symm.trans (h.racing hphase)
    | returned leaseId => cases hattached.symm.trans (h.returned leaseId hphase).2
    | threw error => exact ⟨error, rfl⟩
  unfold runCleanup
  split
  case h_1 leaseId _ hattached hreply =>
    obtain ⟨error, hphase⟩ := hthrew hattached
    refine ⟨⟨h.uncalled, by simp [hphase], h.winner, h.loser, by simp [hphase], by simp [hphase], by simp, by simp [hreply]⟩, ?_⟩
    simp [Call.history, hphase, hattached, hreply]
  case h_2 reply hother hattached hreply =>
    obtain ⟨error, hphase⟩ := hthrew hattached
    refine ⟨⟨h.uncalled, by simp [hphase], h.winner, h.loser, by simp [hphase], by simp [hphase], by simp, by simp [hreply]⟩, ?_⟩
    cases reply with
    | failed code => simp [Call.history, hphase, hattached, hreply]
    | result result =>
      cases result with
      | allowed leaseId expiresAt => exact absurd rfl (hother leaseId expiresAt)
      | refused retryAfterSeconds => simp [Call.history, hphase, hattached, hreply]
  case h_3 => exact h.same

theorem Sound.step (h : Sound s) (turn : Turn) : Keeps s (step s turn) := by
  cases turn with
  | call validIdentity => exact h.call validIdentity
  | reply reply =>
    simp only [AcquireBrc1.step]
    split
    case isTrue hopen =>
      rw [Bool.and_eq_true, Option.isNone_iff_eq_none] at hopen
      obtain ⟨hcalled, hnone⟩ := hopen
      have hgranted : s.granted = [] := by simp [Call.granted, hnone]
      refine ⟨⟨fun heq => (by cases hcalled.symm.trans heq), h.racing, by simp, h.loser, fun heq => ?_, fun leaseId heq => ?_,
        fun error heq hcleanup => ?_, by simp⟩, ?_⟩
      · cases hcalled.symm.trans (h.idle heq).1
      · cases hgranted.symm.trans (h.returned leaseId heq).1
      · exact absurd hnone ((h.threw error heq hcleanup).2 hcalled)
      · have hran : s.cleanup ≠ .ran := fun heq => h.ran heq hnone
        cases hcleanup : s.cleanup <;> simp_all [Call.history]
    case isFalse => exact h.same
  | abort reason =>
    simp only [AcquireBrc1.step]
    split
    · exact ⟨⟨h.uncalled, h.racing, h.winner, by simp, h.idle, h.returned, h.threw, h.ran⟩, by simp [Call.history]⟩
    · exact h.same
  | raced winner =>
    cases winner with
    | reply =>
      simp only [AcquireBrc1.step]
      split
      case isTrue hwon =>
        exact ⟨⟨h.uncalled, h.racing, fun _ => Option.isSome_iff_ne_none.1 hwon.2.2, by simp, h.idle, h.returned, h.threw, h.ran⟩,
          by simp [Call.history]⟩
      case isFalse => exact h.same
    | abort =>
      simp only [AcquireBrc1.step]
      split
      case isTrue hwon =>
        exact ⟨⟨h.uncalled, h.racing, by simp, fun _ => Option.isSome_iff_ne_none.1 hwon.2.2, h.idle, h.returned, h.threw, h.ran⟩,
          by simp [Call.history]⟩
      case isFalse => exact h.same
  | resume => exact h.resume
  | cleanup => exact h.cleanup

theorem sound_run {trace : List (Step Call Turn (List Event))} {clock : Nat} (h : CallRun trace s clock) : Sound s :=
  h.invariant (fun _ s _ => Sound s) sound_start fun _ _ _ turn _ hsound _ _ => (hsound.step turn).sound

/-- After the race nothing is left but the reaction of the catch. -/
def Call.over (s : Call) : Bool :=
  match s.phase with
  | .returned _ => true
  | .threw _ => s.cleanup != .attached
  | .idle | .racing => false

/-- The body of the function is through. -/
def Call.ended (s : Call) : Bool :=
  match s.phase with
  | .returned _ | .threw _ => true
  | .idle | .racing => false

end AcquireBrc1

/-! ## The work under a permit -/

namespace OraclePermit

variable {T : Type}

/-- How a promise settles; an error is told by its name. -/
inductive Outcome (T : Type) where
  | returned (value : T)
  | threw (error : String)
deriving DecidableEq, Repr

/-- A lease, and whether the work ran under it. -/
structure Held where
  leaseId : String
  ran : Bool
deriving DecidableEq, Repr

inductive Phase (T : Type) where
  | idle
  /-- `vnuProbeBudgetKey` is on its way. -/
  | keying
  | acquiring
  | working (leaseId : String)
  /-- The finally has called `releaseBrc1Permit`. -/
  | releasing (held : Held) (outcome : Outcome T)
  | done (held : Option Held) (outcome : Outcome T)
deriving DecidableEq, Repr

structure Oracle (T : Type) where
  /-- `controller.signal`, with its reason. -/
  aborted : Option String
  parentAborted : Option String
  /-- The listener of the parent, the timers of the route and of the lease. -/
  listening : Bool
  routeTimer : Bool
  leaseTimer : Bool
  phase : Phase T
deriving DecidableEq, Repr

inductive Turn (T : Type) where
  | call
  | keyed (identity : Except String String)
  | parentAborts (reason : Option String)
  | routeTimerFires
  | leaseTimerFires
  /-- The coordinator, whichever it is, settles `acquireBrc1Permit`. -/
  | acquired (permit : Except String (String × Nat))
  | workSettles (outcome : Outcome T)
  /-- `releaseBrc1Permit` settles. -/
  | releaseSettles
deriving DecidableEq

inductive Event (T : Type) where
  | received (leaseId : String)
  | workStarted (leaseId : String)
  | workSettled (leaseId : String)
  | released (leaseId : String)
  | settled (outcome : Outcome T)
deriving DecidableEq, Repr

variable (s : Oracle T)

/-- `controller.abort`: the first reason stays. -/
def Oracle.abort (reason : String) : Oracle T := { s with aborted := some (s.aborted.getD reason) }

/-- The finally. -/
def finallyClause (held : Option Held) (outcome : Outcome T) : List (Event T) × Oracle T :=
  let s' := { s with routeTimer := false, leaseTimer := false, listening := false }
  match held with
  | some held => ([.released held.leaseId], { s' with phase := .releasing held outcome })
  | none => ([.settled outcome], { s' with phase := .done none outcome })

def call : Oracle T :=
  let s' := { s with phase := .keying, routeTimer := true }
  match s.parentAborted with
  | some reason => s'.abort reason
  | none => { s' with listening := true }

/-- The permit is there: the timer of its lease starts, and the work, unless the request is cancelled. -/
def granted (leaseId : String) : List (Event T) × Oracle T :=
  let s' := { s with leaseTimer := true }
  match s.aborted with
  | some reason =>
    let (events, s'') := finallyClause s' (some { leaseId, ran := false }) (.threw reason)
    (.received leaseId :: events, s'')
  | none => ([.received leaseId, .workStarted leaseId], { s' with phase := .working leaseId })

def step (turn : Turn T) : List (Event T) × Oracle T :=
  match turn, s.phase with
  | .call, .idle => ([], call s)
  | .keyed (.ok _), .keying => ([], { s with phase := .acquiring })
  -- outside the try: the finally does not run
  | .keyed (.error error), .keying => ([.settled (.threw error)], { s with phase := .done none (.threw error) })
  | .parentAborts reason, _ =>
    if s.parentAborted.isSome then ([], s)
    else
      let reason := reason.getD "AbortError"
      let s' := { s with parentAborted := some reason }
      ([], if s.listening then { s' with listening := false }.abort reason else s')
  | .routeTimerFires, _ => ([], if s.routeTimer then { s with routeTimer := false }.abort "TimeoutError" else s)
  | .leaseTimerFires, _ => ([], if s.leaseTimer then { s with leaseTimer := false }.abort "TimeoutError" else s)
  | .acquired (.ok (leaseId, _)), .acquiring => granted s leaseId
  | .acquired (.error error), .acquiring => finallyClause s none (.threw error)
  | .workSettles outcome, .working leaseId =>
    let (events, s') := finallyClause s (some { leaseId, ran := true }) outcome
    (.workSettled leaseId :: events, s')
  | .releaseSettles, .releasing held outcome => ([.settled outcome], { s with phase := .done (some held) outcome })
  | _, _ => ([], s)

def start : Oracle T :=
  { aborted := none, parentAborted := none, listening := false, routeTimer := false, leaseTimer := false, phase := .idle }

/-- A lease from its grant to its release. -/
def Held.life (held : Held) : List (Event T) :=
  .received held.leaseId :: (if held.ran then [.workStarted held.leaseId, .workSettled held.leaseId] else []) ++
    [.released held.leaseId]

def Phase.history : Phase T → List (Event T)
  | .idle | .keying | .acquiring => []
  | .working leaseId => [.received leaseId, .workStarted leaseId]
  | .releasing held _ => held.life
  | .done (some held) outcome => held.life ++ [.settled outcome]
  | .done none outcome => [.settled outcome]

variable {s}

end OraclePermit

/-! ## No permit is leaked or used twice -/

end Hyeboard.ProbeBudget
