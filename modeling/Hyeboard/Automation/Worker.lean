import Hyeboard.Automation.Protocol
import Hyeboard.Lib.Runs
/-!
# One delivery of a job

`AutomationWorker.process` on a valid job whose lease it got, with its
`JobEventWriter`, its `JobHeartbeat` and its `CancellationToken`. Whatever
`process` awaits, its timer and the executor's calls settle in any order, one
`Turn` at a time. The writer runs one emission after another; `queue` has those
that wait, the one under way first.
-/

namespace Hyeboard.Automation

inductive CancellationReason where
  | requested
  | deadline
  | shutdown
  | leaseLost
deriving DecidableEq, Repr

/-- What `errorCode` and `isRetryable` say of a thrown value. -/
structure Thrown where
  code : String
  retryable : Bool
deriving DecidableEq, Repr

/-- A `CancellationError`. -/
def cancellationError : Thrown := { code := "AUTOMATION_CANCELLED", retryable := false }

/-- Whatever is no `AutomationWorkerError`, such as an `AutomationProtocolError`. -/
def otherError : Thrown := { code := "AUTOMATION_EXECUTION_FAILED", retryable := false }

structure Delivery where
  job : UetImportJob
  deliveryCount : Nat
  maxDeliveryCount : Nat
  resultTtlMs : Nat
deriving DecidableEq, Repr

/-- What `process` awaits. -/
inductive ProcessPhase where
  /-- `emit("started")`. -/
  | starting
  /-- `envelopeCodec.open`. -/
  | opening
  /-- `browserProvider.open`. -/
  | browsing
  | executing
  /-- `lease.assertHeld`. -/
  | asserting
  /-- `envelopeCodec.close`. -/
  | closing
  /-- `emit("succeeded")`. -/
  | succeeding
  /-- `ack` after it. -/
  | acking
  /-- In the catch: `emit("cancelled")`, `emit("failed")`, and `ack` after it. -/
  | cancelling
  | failing
  | settling
  /-- In the finally, once the heartbeat stopped: `disconnect` and `release`. -/
  | cleaning
  | finished
deriving DecidableEq, Repr

/-- One call of `emit`. -/
structure Emission where
  body : EventBody
  /-- `process` itself awaits it. -/
  awaited : Bool
deriving DecidableEq, Repr

structure Process where
  phase : ProcessPhase
  cancellation : Option CancellationReason
  /-- The executor has been called: it may call back from now on. -/
  called : Bool
  /-- `running` of the heartbeat. -/
  beating : Bool
  /-- The ticks that await `lease.renew`. -/
  renewing : Nat
  /-- The `progress` calls that await `lease.assertHeld`. -/
  checking : List (String × Int)
  queue : List Emission
  sequence : Nat
  /-- The events the sink has. -/
  published : List AutomationEvent
  acked : Bool
deriving DecidableEq, Repr

inductive Turn where
  /-- What `process` awaits settles, if it is neither `emit` nor `ack`; the
  string is the result envelope. -/
  | settle (outcome : Except Thrown String)
  /-- The first emission builds its event, and `sink.publish` settles. -/
  | publish (emittedAt now : Nat) (failure : Option Thrown)
  | ack (failure : Option Thrown)
  /-- The timer. -/
  | tick
  | renew (answer : Except Thrown Bool)
  /-- The executor calls `progress`. -/
  | progress (phase : String) (percent : Int)
  | assertHeld (call : Nat) (failure : Option Thrown)
  /-- The executor needs a CAPTCHA, and its challenge is published. -/
  | challenge (challengeId image : String)
  | cancel (reason : CancellationReason)
  /-- `disconnect` and `release` settle. -/
  | cleaned

namespace Process

def start : Process :=
  { phase := .starting, cancellation := none, called := false, beating := false, renewing := 0, checking := []
    queue := [{ body := .started, awaited := true }], sequence := 0, published := [], acked := false }

variable (s : Process)

def emit (body : EventBody) (awaited : Bool) : Process := { s with queue := s.queue ++ [{ body, awaited }] }

def cancel (reason : CancellationReason) : Process := { s with cancellation := s.cancellation.or (some reason) }

/-- The finally, up to its first await. -/
def cleanup : Process := { s with phase := .cleaning, beating := false }

end Process

namespace Delivery

variable (delivery : Delivery) (s : Process)

/-- The catch. -/
def catchError (error : Thrown) : Process :=
  match s.cancellation with
  | some .shutdown | some .leaseLost => s.cleanup
  | reason =>
    if error.code = "LEASE_LOST" then s.cleanup
    else match reason with
    | some .deadline => { s.emit (.cancelled "expired") true with phase := .cancelling }
    | some _ => { s.emit (.cancelled "requested") true with phase := .cancelling }
    | none =>
      if error.retryable && decide (delivery.deliveryCount < delivery.maxDeliveryCount) then s.cleanup
      else { s.emit (.failed error.code false) true with phase := .failing }

/-- `cancellation.throwIfCancelled()`, and what follows it. -/
def unlessCancelled (next : ProcessPhase) : Process :=
  match s.cancellation with
  | some _ => delivery.catchError s cancellationError
  | none => { s with phase := next }

def settle (outcome : Except Thrown String) : Process :=
  match s.phase, outcome with
  | .opening, .ok _ => delivery.unlessCancelled s .browsing
  | .browsing, .ok _ => { s with phase := .executing, called := true }
  | .executing, .ok _ => delivery.unlessCancelled s .asserting
  | .asserting, .ok _ => { s with phase := .closing }
  | .closing, .ok resultEnvelope => { s.emit (.succeeded (some resultEnvelope)) true with phase := .succeeding }
  | .opening, .error error | .browsing, .error error | .executing, .error error | .asserting, .error error
  | .closing, .error error => delivery.catchError s error
  | _, _ => s

/-- The event `emit` builds. -/
def event (body : EventBody) (sequence emittedAt now : Nat) : AutomationEvent :=
  { body, sequence, emittedAt
    jobId := delivery.job.jobId
    accountId := delivery.job.accountId
    fence := delivery.job.fence
    expiresAt := min delivery.job.expiresAt (now + delivery.resultTtlMs) }

/-- The promise of an emission is fulfilled. -/
def emitted (emission : Emission) : Process :=
  if emission.awaited then
    match s.phase with
    | .starting => { s with phase := .opening, beating := true }
    | .succeeding => { s with phase := .acking }
    | .cancelling | .failing => { s with phase := .settling }
    | _ => s
  else s

/-- The promise of an emission is rejected. -/
def rejected (emission : Emission) (error : Thrown) : Process :=
  if emission.awaited then
    match s.phase with
    | .starting | .succeeding => delivery.catchError s error
    | .cancelling | .failing => s.cleanup
    | _ => s
  else s

def publish (emittedAt now : Nat) (failure : Option Thrown) : Option AutomationEvent × Process :=
  match s.queue with
  | [] => (none, s)
  | emission :: queue =>
    let event := delivery.event emission.body s.sequence emittedAt now
    let s := { s with queue }
    match assertAutomationEvent event, failure with
    | .error _, _ => (none, delivery.rejected s emission otherError)
    | .ok _, some error => (none, delivery.rejected s emission error)
    | .ok _, none =>
      (some event, emitted { s with sequence := s.sequence + 1, published := s.published ++ [event] } emission)

def ack (failure : Option Thrown) : Process :=
  match s.phase, failure with
  | .acking, none | .settling, none => { s with acked := true }.cleanup
  | .acking, some error => delivery.catchError s error
  | .settling, some _ => s.cleanup
  | _, _ => s

def renew (answer : Except Thrown Bool) : Process :=
  if s.renewing = 0 then s
  else
    let s := { s with renewing := s.renewing - 1 }
    match answer with
    | .ok true => s.emit .heartbeat false
    | .ok false => s.cancel .leaseLost
    | .error _ => s

def assertHeld (call : Nat) (failure : Option Thrown) : Process :=
  match s.checking[call]?, failure with
  | some (phase, percent), none => { s with checking := s.checking.eraseIdx call }.emit (.progress phase percent) false
  | some _, some _ => { s with checking := s.checking.eraseIdx call }
  | none, _ => s

/-- One turn, and the event it adds to the stream. -/
def step : Turn → Option AutomationEvent × Process
  | .settle outcome => (none, delivery.settle s outcome)
  | .publish emittedAt now failure => delivery.publish s emittedAt now failure
  | .ack failure => (none, delivery.ack s failure)
  | .tick => (none, if s.beating then { s with renewing := s.renewing + 1 } else s)
  | .renew answer => (none, renew s answer)
  | .progress phase percent => (none, if s.called then { s with checking := s.checking ++ [(phase, percent)] } else s)
  | .assertHeld call failure => (none, assertHeld s call failure)
  | .challenge challengeId image => (none, if s.called then s.emit (.challengeRequired challengeId image) false else s)
  | .cancel reason => (none, s.cancel reason)
  | .cleaned => (none, if s.phase = .cleaning then { s with phase := .finished } else s)

end Delivery

end Hyeboard.Automation
