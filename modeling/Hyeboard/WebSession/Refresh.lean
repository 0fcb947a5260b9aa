import Mathlib.Logic.Function.Basic
import Hyeboard.Lib.Runs
/-!
# Shared VNU refreshes

`runVnuRefresh` of `lib/session/vnu-refresh.ts`. What it is given as `deps` reads
and writes a world `S` of any kind, which other code changes between any two
turns. A flight is known by its place in `all`, its generation; a caller by its
place in `waiters`. The handlers of a flight's promise run as turns of their own,
and so does what each waiter does with it.
-/

namespace Hyeboard.WebSession

structure AccountData where
  universityId : String
  token : String
  studentCode : Option String
deriving DecidableEq, Repr

structure StoredAccount extends AccountData where
  id : String
deriving DecidableEq, Repr

structure AuthResult where
  token : String
  refreshGrant : Option String
  studentCode : Option String
deriving DecidableEq, Repr

inductive Thrown where
  /-- An `ApiError`. -/
  | api (code : Option String)
  /-- The error of an aborted signal. -/
  | aborted (reason : String)
  | other
deriving DecidableEq, Repr

/-- `signal.reason` if it is an `Error`, else a new `AbortError`. -/
def abortReason (reason : Option String) : Thrown := .aborted (reason.getD "VNU refresh cancelled")

def terminalRefreshCodes : List String :=
  ["VNU_REFRESH_GRANT_INVALID", "VNU_REFRESH_GRANT_REVOKED", "INVALID_VNU_CREDENTIAL", "VNU_REFRESH_IDENTITY_MISMATCH"]

def Thrown.terminal : Thrown → Bool
  | .api code => code.any terminalRefreshCodes.contains
  | _ => false

inductive VnuRefreshOutcome where
  | committed (auth : AuthResult)
  | stale
deriving DecidableEq, Repr

inductive ReconnectState where
  | reconnecting
  | retryable
  | idle
deriving DecidableEq, Repr

/-- `deps` and `readVnuRefreshGrant`, over a world of any kind. -/
structure VnuRefreshDeps (S : Type) where
  getAccount : S → String → Option StoredAccount
  getActiveAccountId : S → Option String
  readVnuRefreshGrant : S → String → Option String
  commit : S → StoredAccount → AuthResult → Except Thrown Bool × S
  terminal : S → StoredAccount → S

structure FlightKey where
  id : String
  token : String
deriving DecidableEq, Repr

def flightKey (account : StoredAccount) : FlightKey := { id := account.id, token := account.token }

/-- Where the promise of a flight is. -/
inductive FlightPhase where
  | fetching
  /-- The handler in `then`, in `catch` or in `finally` is queued. -/
  | fulfilled (auth : AuthResult)
  | rejected (error : Thrown)
  | handled (outcome : Except Thrown VnuRefreshOutcome)
  | settled (outcome : Except Thrown VnuRefreshOutcome)
deriving DecidableEq

structure Flight where
  account : StoredAccount
  grant : String
  waiters : List Nat
  aborted : Bool
  phase : FlightPhase
deriving DecidableEq

/-- A call of `runVnuRefresh`. -/
structure Waiter where
  flight : Option Nat
  hasSignal : Bool
  result : Option (Except Thrown VnuRefreshOutcome)
deriving DecidableEq

/-- What a turn calls of `deps`, for which flight. -/
inductive DepCall where
  | fetchRefresh (flight : Nat)
  | commit (flight : Nat)
  | invalidate (flight : Nat)
  | terminal (flight : Option Nat)
  | status (flight : Nat) (state : ReconnectState)
  | onFlightSettled (flight : Nat)
deriving DecidableEq, Repr

structure Refreshes (S : Type) where
  world : S
  all : List Flight
  /-- `flights`. -/
  registered : FlightKey → Option Nat
  waiters : List Waiter

inductive RefreshTurn (S : Type) where
  /-- `runVnuRefresh`; the signal, if any, and its reason if it is aborted. -/
  | call (account : StoredAccount) (signal : Option (Option (Option String)))
  /-- `fetchRefresh` settles. -/
  | fetched (flight : Nat) (result : Except Thrown AuthResult)
  /-- The handler of a flight that is queued runs. -/
  | react (flight : Nat)
  /-- A waiter gets the outcome of its flight. -/
  | settle (waiter : Nat)
  | abort (waiter : Nat) (reason : Option String)
  /-- Other code runs. -/
  | other (world : S)

namespace VnuRefreshDeps

variable {S : Type} (deps : VnuRefreshDeps S) (s : Refreshes S)

def unchangedActive (world : S) (account : StoredAccount) : Bool :=
  decide ((deps.getAccount world account.id).map (·.token) = some account.token ∧
    deps.getActiveAccountId world = some account.id)

def setFlight (flight : Nat) (f : Flight → Flight) : Refreshes S := { s with all := s.all.modify flight f }

def setPhase (flight : Nat) (phase : FlightPhase) : Refreshes S := setFlight s flight ({ · with phase })

/-- The promise of a waiter settles. -/
def setResult (waiter : Nat) (result : Except Thrown VnuRefreshOutcome) : Refreshes S :=
  { s with waiters := s.waiters.modify waiter ({ · with result := some result }) }

def deregister (account : StoredAccount) (flight : Nat) : Refreshes S :=
  if s.registered (flightKey account) = some flight then
    { s with registered := Function.update s.registered (flightKey account) none }
  else s

/-- What the `then` and `catch` handlers ask for. -/
def mayHandle (account : StoredAccount) (flight : Nat) (waiters : List Nat) : Bool :=
  decide (s.registered (flightKey account) = some flight) && !waiters.isEmpty && deps.unchangedActive s.world account

/-- `releaseWaiter`. -/
def releaseWaiter (flight waiter : Nat) : List DepCall × Refreshes S :=
  match s.all[flight]? with
  | none => ([], s)
  | some f =>
    if waiter ∈ f.waiters then
      let left := f.waiters.filter (· ≠ waiter)
      let s := setFlight s flight ({ · with waiters := left })
      if left = [] then
        (if deps.unchangedActive s.world f.account then [.status flight .idle] else [],
          setFlight (deregister s f.account flight) flight ({ · with aborted := true }))
      else ([], s)
    else ([], s)

def createFlight (account : StoredAccount) (grant : String) : List DepCall × Refreshes S :=
  let flight := s.all.length
  ([.status flight .reconnecting, .fetchRefresh flight], { s with
    all := s.all ++ [{ account, grant, waiters := [], aborted := false, phase := .fetching }]
    registered := Function.update s.registered (flightKey account) (some flight) })

def joinFlight (flight : Nat) (signal : Option (Option (Option String))) : List DepCall × Refreshes S :=
  let waiter := s.waiters.length
  let s := setFlight s flight fun f => { f with waiters := f.waiters ++ [waiter] }
  let s := { s with waiters := s.waiters ++ [{ flight := some flight, hasSignal := signal.isSome, result := none }] }
  match signal with
  | some (some reason) =>
    let (calls, s) := deps.releaseWaiter s flight waiter
    (calls, setResult s waiter (.error (abortReason reason)))
  | _ => ([], s)

def runVnuRefresh (account : StoredAccount) (signal : Option (Option (Option String))) : List DepCall × Refreshes S :=
  match (deps.readVnuRefreshGrant s.world account.id).filter (· ≠ "") with
  | none =>
    let waiter := { flight := none, hasSignal := signal.isSome, result := some (.error (.api (some "VNU_REFRESH_GRANT_INVALID"))) }
    if deps.unchangedActive s.world account then
      ([.terminal none], { s with world := deps.terminal s.world account, waiters := s.waiters ++ [waiter] })
    else ([], { s with waiters := s.waiters ++ [waiter] })
  | some grant =>
    match s.registered (flightKey account) with
    | some flight => deps.joinFlight s flight signal
    | none =>
      let (calls, s') := createFlight s account grant
      let (more, s') := deps.joinFlight s' s.all.length signal
      (calls ++ more, s')

/-- The handler in `then`. -/
def onFulfilled (flight : Nat) (f : Flight) (auth : AuthResult) : List DepCall × Refreshes S :=
  if deps.mayHandle s f.account flight f.waiters then
    if (auth.refreshGrant.filter (· ≠ "")).isNone then
      ([], setPhase s flight (.rejected (.api (some "VNU_REFRESH_GRANT_INVALID"))))
    else
      match deps.commit s.world f.account auth with
      | (.error error, world) => ([.commit flight], setPhase { s with world } flight (.rejected error))
      | (.ok false, world) => ([.commit flight], setPhase { s with world } flight (.handled (.ok .stale)))
      | (.ok true, world) => ([.commit flight, .invalidate flight, .status flight .idle],
          setPhase { s with world } flight (.handled (.ok (.committed auth))))
  else ([], setPhase s flight (.handled (.ok .stale)))

/-- The handler in `catch`. -/
def onRejected (flight : Nat) (f : Flight) (error : Thrown) : List DepCall × Refreshes S :=
  if deps.mayHandle s f.account flight f.waiters then
    if error.terminal then
      ([.terminal (some flight)], setPhase { s with world := deps.terminal s.world f.account } flight (.handled (.error error)))
    else ([.status flight .retryable], setPhase s flight (.handled (.error error)))
  else ([], setPhase s flight (.handled (.ok .stale)))

def react (flight : Nat) : List DepCall × Refreshes S :=
  match s.all[flight]? with
  | none => ([], s)
  | some f =>
    match f.phase with
    | .fulfilled auth => deps.onFulfilled s flight f auth
    | .rejected error => deps.onRejected s flight f error
    | .handled outcome => ([.onFlightSettled flight], setPhase (deregister s f.account flight) flight (.settled outcome))
    | .fetching | .settled _ => ([], s)

def fetched (flight : Nat) (result : Except Thrown AuthResult) : Refreshes S :=
  match s.all[flight]? with
  | some { phase := .fetching, .. } =>
    match result with
    | .ok auth => setPhase s flight (.fulfilled auth)
    | .error error => setPhase s flight (.rejected error)
  | _ => s

/-- The reaction of a waiter to the promise of its flight. -/
def settle (waiter : Nat) : Refreshes S :=
  match s.waiters[waiter]? with
  | some { flight := some flight, result := none, .. } =>
    match s.all[flight]? with
    | some { phase := .settled outcome, .. } =>
      setFlight (setResult s waiter outcome) flight fun f => { f with waiters := f.waiters.filter (· ≠ waiter) }
    | _ => s
  | _ => s

/-- `onAbort` of a waiter whose signal aborts. -/
def abort (waiter : Nat) (reason : Option String) : List DepCall × Refreshes S :=
  match s.waiters[waiter]? with
  | some { flight := some flight, hasSignal := true, result := none } =>
    let (calls, s) := deps.releaseWaiter s flight waiter
    (calls, setResult s waiter (.error (abortReason reason)))
  | _ => ([], s)

def step : RefreshTurn S → List DepCall × Refreshes S
  | .call account signal => deps.runVnuRefresh s account signal
  | .fetched flight result => ([], fetched s flight result)
  | .react flight => deps.react s flight
  | .settle waiter => ([], settle s waiter)
  | .abort waiter reason => deps.abort s waiter reason
  | .other world => ([], { s with world })

def start (world : S) : Refreshes S :=
  { world, all := [], registered := fun _ => none, waiters := [] }

/-- The runs of a client: its turns in any order. -/
abbrev RefreshRun (world : S) :=
  Run deps.step (fun _ => 0) (fun _ _ _ => True) (start world)

end VnuRefreshDeps

end Hyeboard.WebSession
