import Hyeboard.Automation.EventStream
/-!
# Redelivered jobs and their consumer

The message of a job is delivered any number of times; each delivery numbers its
events from 0 in one stream, which other jobs share. The API reads the stream
with one cursor (`consumeEvents`): it skips what the cursor has passed and takes
what comes next. It sees the outcome of a job only if no earlier delivery has
brought the cursor past it.
-/

namespace Hyeboard.Automation

/-- A message of the event stream; `event` is what its `eventEnvelope` holds, if it has one. -/
structure EventMessage where
  jobId : String
  event : Option AutomationEvent
deriving DecidableEq, Repr

inductive ConsumerStatus where
  | waiting
  /-- The terminal event it returned or threw. -/
  | settled (event : AutomationEvent)
  | threw (error : AutomationProtocolError)
  | stopped
deriving DecidableEq, Repr

structure Consumer where
  /-- `streamId`: how many messages it has read. -/
  position : Nat
  /-- How many `xRead` has returned. -/
  fetched : Nat
  cursor : EventCursor
  status : ConsumerStatus
deriving DecidableEq, Repr

structure Redelivery where
  deliveries : List (Delivery × Process)
  stream : List EventMessage
  consumer : Consumer
deriving DecidableEq, Repr

inductive RedeliveryTurn where
  | deliver (deliveryCount maxDeliveryCount resultTtlMs : Nat)
  /-- A worker goes on with a delivery; one that crashed takes no more turns. -/
  | worker (delivery : Nat) (turn : Turn)
  /-- A message of another job, or one without an envelope. -/
  | foreign (message : EventMessage)
  /-- `xRead`, once the last batch is through. -/
  | poll (count : Nat)
  /-- The next message of the batch. -/
  | message (now : Nat)
  /-- The consumer is cancelled, aborted or timed out, or Redis or `onEvent` fails. -/
  | stop

/-- One message in the loop of `consumeEvents`. -/
def Consumer.read (job : UetImportJob) (consumer : Consumer) (message : EventMessage) (now : Nat) : Consumer :=
  let consumer := { consumer with position := consumer.position + 1 }
  if message.jobId ≠ job.jobId then consumer
  else
    match message.event with
    | none => consumer
    | some event =>
      match parseAutomationEvent event now with
      | .error error => { consumer with status := .threw error }
      | .ok event =>
        if event.sequence ≤ consumer.cursor.lastSequence then consumer
        else
          match validateNextAutomationEvent event consumer.cursor now with
          | .error error => { consumer with status := .threw error }
          | .ok cursor => { consumer with cursor, status := if isTerminalEvent event then .settled event else .waiting }

namespace Redelivery

variable (job : UetImportJob) (s : Redelivery)

def worker (delivery : Nat) (turn : Turn) : Redelivery :=
  match s.deliveries[delivery]? with
  | none => s
  | some (d, process) =>
    let (event, process) := d.step process turn
    { s with
      deliveries := s.deliveries.set delivery (d, process)
      stream := s.stream ++ event.toList.map fun event => { jobId := event.jobId, event := some event } }

def deliver (deliveryCount maxDeliveryCount resultTtlMs : Nat) : Redelivery :=
  { s with deliveries := s.deliveries ++ [({ job, deliveryCount, maxDeliveryCount, resultTtlMs }, .start)] }

def poll (count : Nat) : Redelivery :=
  if s.consumer.status = .waiting ∧ s.consumer.fetched ≤ s.consumer.position then
    { s with consumer := { s.consumer with fetched := min s.stream.length (s.consumer.position + count) } }
  else s

def message (now : Nat) : Redelivery :=
  if s.consumer.status = .waiting ∧ s.consumer.position < s.consumer.fetched then
    match s.stream[s.consumer.position]? with
    | none => s
    | some message => { s with consumer := s.consumer.read job message now }
  else s

def step : RedeliveryTurn → Unit × Redelivery
  | .deliver deliveryCount maxDeliveryCount resultTtlMs => ((), s.deliver job deliveryCount maxDeliveryCount resultTtlMs)
  | .worker delivery turn => ((), s.worker delivery turn)
  | .foreign message =>
    ((), if message.jobId ≠ job.jobId ∨ message.event = none then { s with stream := s.stream ++ [message] } else s)
  | .poll count => ((), s.poll count)
  | .message now => ((), s.message job now)
  | .stop => ((), if s.consumer.status = .waiting then { s with consumer := { s.consumer with status := .stopped } } else s)

/-- The job is enqueued, and `consumeEvents` starts with a cursor. -/
def start (cursor : EventCursor) : Redelivery :=
  { deliveries := [], stream := [], consumer := { position := 0, fetched := 0, cursor, status := .waiting } }

/-- The runs of a job, its workers and its consumer: their turns in any order. -/
abbrev RedeliveryRun (cursor : EventCursor) :=
  Run (step job) (fun _ => 0) (fun _ _ _ => True) (start cursor)

end Redelivery

/-- The events of a job in the stream. -/
def eventsOf (job : UetImportJob) (messages : List EventMessage) : List AutomationEvent :=
  messages.filterMap fun message => if message.jobId = job.jobId then message.event else none

end Hyeboard.Automation
