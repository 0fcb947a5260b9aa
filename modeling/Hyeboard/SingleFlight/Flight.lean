import Hyeboard.Lib.ExpiringKeys
import Hyeboard.Lib.Runs
/-!
# The single flight

`RedisSingleFlight.run` for one logical key: any number of callers on any number of
replicas, each with a blocking connection of its own. A turn is one command as the
server runs it, with what the caller does before its next one. Nothing but the ghost
fields `worked`, `sawStore` and `stored` is added to the source.
-/

namespace Hyeboard.SingleFlight

open ExpiringKeys

inductive Phase where
  | getting
  | acquiring
  | working (token since : Nat)
  | storing (token : Nat) (serialized : String)
  | pushing (token : Nat) (serialized : String)
  /-- The `finally`; none when the work failed or its value is not serializable. -/
  | releasing (token : Nat) (result : Option String)
  /-- The lock was not acquired. -/
  | checking
  | popping (timeoutMs : Nat)
  | blocked (timeoutAt : Nat)
  | returned (serialized : String)
  | thrown
deriving DecidableEq, Repr

structure Caller where
  startedAt : Nat
  phase : Phase
  /-- It has executed work. -/
  worked : Bool
  /-- A result was stored after its start, and it had not executed work. -/
  sawStore : Bool
deriving DecidableEq, Repr

structure Flight where
  /-- `lockTtlMs`, which `resultTtlMs` and `waitMs` default to. -/
  lockTtlMs : Nat
  result : Key String
  /-- The length of the list under the signal's key. -/
  signal : Key Nat
  lock : Key Nat
  /-- The callers blocked in BLPOP, longest first. -/
  queue : List Nat
  callers : List Caller
  /-- Tokens are random, and no two are the same. -/
  nextToken : Nat
  /-- Every result that was stored. -/
  stored : List String
deriving DecidableEq

inductive Move where
  /-- The caller's next command. -/
  | command
  /-- `work` settles: with a value, or without one. -/
  | finishes (result : Option String)
  /-- BLPOP gives up. -/
  | timesOut
deriving DecidableEq

inductive Action where
  /-- `run` is called. -/
  | run
  | caller (caller : Nat) (move : Move)
deriving DecidableEq

structure Turn where
  now : Nat
  action : Action

section
variable (s : Flight) (now caller : Nat)

def setPhase (phase : Phase) : Flight :=
  { s with callers := s.callers.modify caller fun c => { c with phase } }

def get : Flight :=
  match s.result.get now with
  | some cached => setPhase s caller (.returned cached)
  | none => setPhase s caller .acquiring

/-- `acquireRedisLock`; the work starts at once. -/
def acquire : Flight :=
  match s.lock.get now with
  | some _ => setPhase s caller .checking
  | none =>
    { s with
      lock := Key.setPx s.nextToken now s.lockTtlMs
      nextToken := s.nextToken + 1
      callers := s.callers.modify caller fun c => { c with phase := .working s.nextToken now, worked := true } }

def Caller.noteStore (c : Caller) : Caller := { c with sawStore := c.sawStore || !c.worked }

/-- SET of the result. -/
def store (token : Nat) (serialized : String) : Flight :=
  setPhase { s with
    result := Key.setPx serialized now s.lockTtlMs
    callers := s.callers.map Caller.noteStore
    stored := serialized :: s.stored } caller (.pushing token serialized)

/-- LPUSH and PEXPIRE: the element goes to the caller that is blocked the longest, if one is. -/
def push (token : Nat) (serialized : String) : Flight :=
  let s' := match s.queue with
    | [] => { s with signal := (s.signal.incrBy now 1).pexpire now s.lockTtlMs }
    | first :: rest => setPhase { s with queue := rest, signal := s.signal.pexpire now s.lockTtlMs } first .getting
  setPhase s' caller (.releasing token (some serialized))

/-- `releaseRedisLock`. -/
def release (token : Nat) (result : Option String) : Flight :=
  setPhase { s with lock := if s.lock.get now = some token then none else s.lock } caller
    (match result with
      | some serialized => .returned serialized
      | none => .thrown)

/-- The wait limit, and the timeout of the BLPOP: whole seconds, one at least. -/
def check (startedAt : Nat) : Flight :=
  if s.lockTtlMs ≤ now - startedAt then setPhase s caller .thrown
  else setPhase s caller (.popping (max 1 ((s.lockTtlMs - (now - startedAt) + 999) / 1000) * 1000))

/-- BLPOP. -/
def pop (timeoutMs : Nat) : Flight :=
  match s.signal.live now with
  | some { value := left + 1, expiresAt } =>
    setPhase { s with signal := if left = 0 then none else some { value := left, expiresAt } } caller .getting
  | _ => setPhase { s with queue := s.queue ++ [caller] } caller (.blocked (now + timeoutMs))

def act (c : Caller) (move : Move) : Flight :=
  match c.phase, move with
  | .getting, .command => get s now caller
  | .acquiring, .command => acquire s now caller
  | .working token _, .finishes (some serialized) => setPhase s caller (.storing token serialized)
  | .working token _, .finishes none => setPhase s caller (.releasing token none)
  | .storing token serialized, .command => store s now caller token serialized
  | .pushing token serialized, .command => push s now caller token serialized
  | .releasing token result, .command => release s now caller token result
  | .checking, .command => check s now caller c.startedAt
  | .popping timeoutMs, .command => pop s now caller timeoutMs
  | .blocked timeoutAt, .timesOut =>
    if timeoutAt ≤ now then setPhase { s with queue := s.queue.filter (· != caller) } caller .getting else s
  | _, _ => s

end

def step (s : Flight) (turn : Turn) : Unit × Flight :=
  ((), match turn.action with
    | .run => { s with callers := s.callers ++ [{ startedAt := turn.now, phase := .getting, worked := false, sawStore := false }] }
    | .caller caller move =>
      match s.callers[caller]? with
      | some c => act s turn.now caller c move
      | none => s)

def start (lockTtlMs : Nat) : Flight :=
  { lockTtlMs, result := none, signal := none, lock := none, queue := [], callers := [], nextToken := 0, stored := [] }

/-- Every work has finished when its lock's time to live has passed. -/
def workEnds (s : Flight) (turn : Turn) : Bool :=
  s.callers.all fun c =>
    match c.phase with
    | .working _ since => turn.now ≤ since + s.lockTtlMs
    | _ => true

abbrev FlightRun (lockTtlMs : Nat) := Run step Turn.now (fun _ s turn => workEnds s turn = true) (start lockTtlMs)

end Hyeboard.SingleFlight
