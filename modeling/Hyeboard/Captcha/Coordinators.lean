import Hyeboard.Captcha.Contract
import Hyeboard.Lib.ExpiringKeys
/-!
# The CAPTCHA relay coordinators

The local, the Durable Object and the Redis coordinator, each on one challenge
with one waiter. A step is what runs without an await: a call of the local
coordinator, an event of the object, one command of Redis or what a client does
with its reply. Identifiers are not used twice, so a challenge is prepared once.
-/

namespace Hyeboard.Captcha

/-- The `wait` of the caller. -/
inductive Caller where
  | idle
  | waiting
  | settled (result : WaitResult)
deriving DecidableEq, Repr

inductive RelayStatus where
  | pending
  | answered
  | cancelled
deriving DecidableEq, Repr

/-! ## Local -/

namespace Local

structure LocalRelay where
  status : RelayStatus
  answer : Option String
  /-- The waiter is in `waiters`. -/
  waiting : Bool
deriving DecidableEq, Repr

structure Coordinator where
  relay : Option LocalRelay
  /-- When the timer that was set is due. -/
  deadline : Option Nat
  caller : Caller
deriving DecidableEq, Repr

inductive Action where
  | prepare (timeoutMs : Nat)
  /-- The signal is aborted already, or not. -/
  | wait (aborted : Bool)
  | answer (answer : String)
  | cancel
  /-- The signal of the waiter aborts. -/
  | abort
  | timer
deriving DecidableEq, Repr

structure Turn where
  now : Nat
  action : Action
deriving DecidableEq, Repr

variable (s : Coordinator) (now : Nat)

def inTime : Bool := s.deadline.any (now < ·)

def prepare (timeoutMs : Nat) : Coordinator :=
  if s.deadline.isSome then s
  else { s with relay := some { status := .pending, answer := none, waiting := false }, deadline := some (now + timeoutMs) }

/-- The relay is cleared, and its waiter, if it is there, gets the result. -/
def clearWith (relay : LocalRelay) (result : WaitResult) : List RelayEvent × Coordinator :=
  if relay.waiting then ([.settled result], { s with relay := none, caller := .settled result })
  else ([], { s with relay := none })

def cancel : List RelayEvent × Coordinator :=
  match s.relay with
  | none => ([], s)
  | some relay =>
    let (events, s') := clearWith s relay .cancelled
    (.accepted none (inTime s now) :: events, s')

def wait (aborted : Bool) : List RelayEvent × Coordinator :=
  if s.caller ≠ .idle ∨ s.deadline.isNone then ([], s)
  else
    match s.relay with
    | none => ([.settled .notFound], { s with caller := .settled .notFound })
    | some relay =>
      match relay.status, relay.answer with
      | .answered, some answer => ([.settled (.answer answer)], { s with relay := none, caller := .settled (.answer answer) })
      | _, _ =>
        if aborted then
          let (events, s') := cancel s now
          (.aborted :: (events ++ [.settled .cancelled]), { s' with caller := .settled .cancelled })
        else ([.waits], { s with relay := some { relay with waiting := true }, caller := .waiting })

def answer (answer : String) : List RelayEvent × Coordinator :=
  match s.relay with
  | some relay =>
    if relay.status ≠ .pending then ([], s)
    else if relay.waiting then
      let (events, s') := clearWith s relay (.answer answer)
      (.accepted (some answer) (inTime s now) :: events, s')
    else
      ([.accepted (some answer) (inTime s now)],
        { s with relay := some { relay with status := .answered, answer := some answer } })
  | none => ([], s)

def abort : List RelayEvent × Coordinator :=
  if s.caller = .waiting then
    let (events, s') := cancel s now
    (.aborted :: events, s')
  else ([], s)

/-- The timer, if it is due and has not been cleared. -/
def timer : List RelayEvent × Coordinator :=
  match s.relay with
  | none => ([], s)
  | some relay => if inTime s now then ([], s) else clearWith s relay .timeout

def step (turn : Turn) : List RelayEvent × Coordinator :=
  match turn.action with
  | .prepare timeoutMs => ([], prepare s turn.now timeoutMs)
  | .wait aborted => wait s turn.now aborted
  | .answer text => answer s turn.now text
  | .cancel => cancel s turn.now
  | .abort => abort s turn.now
  | .timer => timer s turn.now

def start : Coordinator := { relay := none, deadline := none, caller := .idle }

abbrev RelayRun := Run step Turn.now (fun _ _ _ => True) start

end Local

/-! ## Durable Object -/

namespace Durable

structure RelayRow where
  status : RelayStatus
  answer : Option String
  expiresAt : Nat
deriving DecidableEq, Repr

/-- The call of `wait` the coordinator makes. -/
inductive Rpc where
  | none
  /-- On its way to the object. -/
  | arriving
  /-- Its `resolve` is in `waiters`. -/
  | registered
  /-- It is resolved, and has not cleaned up. -/
  | resolved (result : WaitResult)
  /-- The reply is on its way. -/
  | replied (result : WaitResult)
deriving DecidableEq, Repr

structure Relay where
  row : Option RelayRow
  alarm : Option Nat
  /-- The deadline `prepare` was called with. -/
  deadline : Option Nat
  rpc : Rpc
  caller : Caller
deriving DecidableEq, Repr

inductive Action where
  | prepare (expiresAt : Nat)
  | wait (aborted : Bool)
  /-- The call of `wait` reaches the object. -/
  | arrive
  | answer (answer : String)
  | cancel
  | alarm
  /-- `wait` goes on after its promise. -/
  | resume
  /-- The reply reaches the caller. -/
  | reply
  | abort
deriving DecidableEq, Repr

structure Turn where
  now : Nat
  action : Action
deriving DecidableEq, Repr

variable (s : Relay) (now : Nat)

def inTime : Bool := s.deadline.any (now < ·)

def cleanup : Relay := { s with row := none, alarm := none }

def resolveWaiters (result : WaitResult) : Relay :=
  if s.rpc = .registered then { s with rpc := .resolved result } else s

def prepare (expiresAt : Nat) : Relay :=
  if s.deadline.isSome ∨ s.row.isSome then s
  else { s with
    row := some { status := .pending, answer := none, expiresAt }
    alarm := some expiresAt
    deadline := some expiresAt }

def arrive : Relay :=
  if s.rpc ≠ .arriving then s
  else
    match s.row with
    | none => { s with rpc := .replied .notFound }
    | some row =>
      if row.expiresAt ≤ now then { cleanup s with rpc := .replied .timeout }
      else
        match row.status, row.answer with
        | .answered, some answer => { cleanup s with rpc := .replied (.answer answer) }
        | .cancelled, _ => { cleanup s with rpc := .replied .cancelled }
        | .answered, none => { cleanup s with rpc := .replied .notFound }
        | .pending, _ => { s with rpc := .registered }

def answer (answer : String) : List RelayEvent × Relay :=
  match s.row with
  | none => ([], s)
  | some row =>
    if row.status ≠ .pending ∨ row.expiresAt ≤ now then ([], s)
    else
      ([.accepted (some answer) (inTime s now)],
        resolveWaiters { s with row := some { row with status := .answered, answer := some answer } } (.answer answer))

def cancel : List RelayEvent × Relay :=
  match s.row with
  | none => ([], s)
  | some row =>
    if row.status ≠ .pending then ([], s)
    else ([.accepted none (inTime s now)], cleanup (resolveWaiters s .cancelled))

def alarm : Relay :=
  if s.alarm.any (· ≤ now) then cleanup (if s.row.isSome then resolveWaiters s .timeout else s) else s

/-- The coordinator: a signal that is aborted cancels the challenge. -/
def wait (aborted : Bool) : List RelayEvent × Relay :=
  if s.caller ≠ .idle ∨ s.deadline.isNone then ([], s)
  else if aborted then
    let (events, s') := cancel s now
    (.aborted :: (events ++ [.settled .cancelled]), { s' with caller := .settled .cancelled })
  else ([.waits], { s with rpc := .arriving, caller := .waiting })

def resume : Relay :=
  match s.rpc with
  | .resolved result => { cleanup s with rpc := .replied result }
  | _ => s

def reply : List RelayEvent × Relay :=
  match s.rpc, s.caller with
  | .replied result, .waiting => ([.settled result], { s with caller := .settled result })
  | _, _ => ([], s)

/-- The caller gives up; the `cancel` it sends is another turn. -/
def abort : List RelayEvent × Relay :=
  if s.caller = .waiting then ([.aborted, .settled .cancelled], { s with caller := .settled .cancelled })
  else ([], s)

def step (turn : Turn) : List RelayEvent × Relay :=
  match turn.action with
  | .prepare expiresAt => ([], prepare s expiresAt)
  | .wait aborted => wait s turn.now aborted
  | .arrive => ([], arrive s turn.now)
  | .answer text => answer s turn.now text
  | .cancel => cancel s turn.now
  | .alarm => ([], alarm s turn.now)
  | .resume => ([], resume s)
  | .reply => reply s
  | .abort => abort s

def start : Relay := { row := none, alarm := none, deadline := none, rpc := .none, caller := .idle }

abbrev RelayRun := Run step Turn.now (fun _ _ _ => True) start

end Durable

/-! ## Redis -/

namespace Redis

open ExpiringKeys

structure RelayState where
  status : RelayStatus
  answer : Option String
  expiresAt : Nat
deriving DecidableEq, Repr

/-- Where `wait` is. -/
inductive WaitPhase where
  | idle
  /-- The signal was aborted before: the `cancel` is on its way. -/
  | cancelling
  /-- GET is on its way, then its reply. -/
  | reading
  | read (state : Option RelayState)
  /-- BLPOP waits. -/
  | blocking (state : RelayState)
  | rereading (state : RelayState) (notification : Option RelayStatus)
  | reread (state : RelayState) (notification : Option RelayStatus) (after : Option RelayState)
  /-- `cleanup`, before the result; `last` in the finally. -/
  | cleaning (result : WaitResult) (signalOnly last : Bool)
  | settled (result : WaitResult)
deriving DecidableEq, Repr

structure Relay where
  key : Key RelayState
  signal : Key (List RelayStatus)
  timeoutMs : Nat
  prepared : Bool
  phase : WaitPhase
  wasAborted : Bool
  /-- `deadline` of `wait`. -/
  deadline : Nat
deriving DecidableEq

inductive Action where
  /-- SET runs `delay` after its `Date.now()`. -/
  | prepare (delay : Nat)
  | wait (aborted : Bool)
  /-- The command of `wait` that is on its way runs. -/
  | command
  /-- `wait` goes on with the reply it has. -/
  | proceed
  | answer (delay : Nat) (answer : String)
  | cancel (delay : Nat)
  | abort
deriving DecidableEq, Repr

structure Turn where
  now : Nat
  action : Action
deriving DecidableEq, Repr

variable (s : Relay) (now : Nat)

/-- `set` with NX and PX. -/
def prepare (delay : Nat) : Relay :=
  if s.prepared then s
  else { s with
    prepared := true
    key := if (s.key.get now).isSome then s.key
      else Key.setPx { status := .pending, answer := none, expiresAt := now - delay + s.timeoutMs } now s.timeoutMs }

/-- `captchaTerminalScript`; `at'` is the clock reading it is sent with. -/
def terminal (at' : Nat) (status : RelayStatus) (answer : String) : List RelayEvent × Relay :=
  match Key.live s.key now with
  | none => ([], s)
  | some entry =>
    if entry.value.status ≠ .pending ∨ entry.value.expiresAt ≤ at' then ([], s)
    else
      let key : Key RelayState := some { entry with value := { entry.value with status, answer := some answer } }
      let pushed : Key (List RelayStatus) := match Key.live s.signal now with
        | none => some { value := [status], expiresAt := none }
        | some list => some { list with value := status :: list.value }
      let signal := Key.pexpire pushed now (max 1 (key.pttl now)).toNat
      ([.accepted (if status = .answered then some answer else none) (decide (now < entry.value.expiresAt))],
        { s with key := if status = .cancelled then none else key, signal })

/-- The finally, once the body is through. -/
def finallyClause (result : WaitResult) (last : Bool) : List RelayEvent × Relay :=
  if s.wasAborted && !last then ([], { s with phase := .cleaning result false true })
  else ([.settled result], { s with phase := .settled result })

def wait (aborted : Bool) : List RelayEvent × Relay :=
  if s.phase ≠ .idle ∨ !s.prepared then ([], s)
  else if aborted then ([.aborted], { s with phase := .cancelling, wasAborted := true })
  else ([.waits], { s with phase := .reading, deadline := now + s.timeoutMs })

/-- BLPOP: the first element, or nothing once its second is over. -/
def blPop : Option RelayStatus × Key (List RelayStatus) :=
  match Key.live s.signal now with
  | some { value := first :: second :: rest, expiresAt } => (some first, some { value := second :: rest, expiresAt })
  | some { value := [first], .. } => (some first, none)
  | _ => (none, s.signal)

def command : List RelayEvent × Relay :=
  match s.phase with
  | .cancelling =>
    let (events, s') := terminal s now now .cancelled ""
    (events, { s' with phase := .cleaning .cancelled false true })
  | .reading => ([], { s with phase := .read (s.key.get now) })
  | .blocking state =>
    let (notification, signal) := blPop s now
    ([], { s with signal, phase := .rereading state notification })
  | .rereading state notification => ([], { s with phase := .reread state notification (s.key.get now) })
  | .cleaning result false last => ([], { s with key := none, phase := .cleaning result true last })
  | .cleaning result true last => finallyClause { s with signal := none } result last
  | .idle | .read _ | .reread .. | .settled _ => ([], s)

/-- The status that ends the loop, after `cleanup`. -/
def ended (state : RelayState) : Option WaitResult :=
  match state.status with
  | .answered => some (.answer (state.answer.getD ""))
  | .cancelled => some .cancelled
  | .pending => none

def proceed : List RelayEvent × Relay :=
  match s.phase with
  | .read none => finallyClause s .notFound false
  | .read (some state) =>
    match ended state with
    | some result => ([], { s with phase := .cleaning result false false })
    | none =>
      if state.expiresAt ≤ now then ([], { s with phase := .cleaning .timeout false false })
      -- the race against a signal that is aborted by now is lost at once
      else if s.wasAborted then finallyClause s .cancelled false
      else ([], { s with phase := .blocking state })
  | .reread state notification none =>
    if notification = some .cancelled then finallyClause s .cancelled false
    else if s.deadline ≤ now ∨ state.expiresAt ≤ now then finallyClause s .timeout false
    else finallyClause s .notFound false
  | .reread _ _ (some after) =>
    match ended after with
    | some result => ([], { s with phase := .cleaning result false false })
    | none =>
      if s.deadline ≤ now ∨ after.expiresAt ≤ now then ([], { s with phase := .cleaning .timeout false false })
      else ([], { s with phase := .reading })
  | .idle | .cancelling | .reading | .blocking _ | .rereading .. | .cleaning .. | .settled _ => ([], s)

/-- `onAbort`; the `cancel` it sends is another turn. -/
def abort : List RelayEvent × Relay :=
  match s.phase with
  | .idle | .cancelling | .settled _ => ([], s)
  | .blocking _ =>
    let (events, s') := finallyClause { s with wasAborted := true } .cancelled false
    (.aborted :: events, s')
  | _ => ([.aborted], { s with wasAborted := true })

def step (turn : Turn) : List RelayEvent × Relay :=
  match turn.action with
  | .prepare delay => ([], prepare s turn.now delay)
  | .wait aborted => wait s turn.now aborted
  | .command => command s turn.now
  | .proceed => proceed s turn.now
  | .answer delay text => terminal s turn.now (turn.now - delay) .answered text
  | .cancel delay => terminal s turn.now (turn.now - delay) .cancelled ""
  | .abort => abort s

def start (timeoutMs : Nat) : Relay :=
  { key := none, signal := none, timeoutMs, prepared := false, phase := .idle, wasAborted := false, deadline := 0 }

abbrev RelayRun (timeoutMs : Nat) := Run step Turn.now (fun _ _ _ => True) (start timeoutMs)

end Redis

end Hyeboard.Captcha
