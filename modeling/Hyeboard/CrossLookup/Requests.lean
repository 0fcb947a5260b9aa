import Hyeboard.BulkLookup.Request
import Hyeboard.CrossLookup.Resolver
/-!
# Cross-lookup requests

The routes of `app.ts` that look other students up: each reserves its units,
makes an allowance of them, and takes one for every transcript it fetches. What
the routes refuse before that (their query, the caller's own identity) reserves
nothing and is not modelled.
-/

namespace Hyeboard.CrossLookup
open BulkLookup

def vnuBrc1PermitLimit : Nat := 6

structure VnuProbeAllowance where
  remaining : Nat
  /-- A `consume` has thrown. -/
  exhausted : Bool
deriving DecidableEq, Repr

def createVnuProbeAllowance (units : Nat) : VnuProbeAllowance := { remaining := units, exhausted := false }

def VnuProbeAllowance.consume (allowance : VnuProbeAllowance) : VnuProbeAllowance :=
  if allowance.remaining = 0 then { allowance with exhausted := true }
  else { allowance with remaining := allowance.remaining - 1 }

/-- The calls of `fetchStudentCode` that a turn makes. -/
def VnuProbeAllowance.consumeEach (calls : Nat) (allowance : VnuProbeAllowance) : VnuProbeAllowance :=
  match calls with
  | 0 => allowance
  | calls + 1 => consumeEach calls allowance.consume

def vnuBulkReservationUnits (body : VnuBulkLookupBody) : Nat :=
  body.targets.length * if body.mode = .codeToStdid then vnuStudentIdResolverMaxProbes else 1

/-- `none` is the throw. -/
def bulkResolverCandidateWidth (activeWorkerCount : Nat) : Option Nat :=
  if activeWorkerCount < 1 ∨ vnuBrc1PermitLimit < activeWorkerCount then none
  else some (vnuBrc1PermitLimit / activeWorkerCount)

structure VnuOwnIdentity where
  ownStdId : Int
  ownCode : Int
deriving DecidableEq, Repr

def isOwnStudentCode (identity : VnuOwnIdentity) (targetStdCode : String) : Bool :=
  numericCode targetStdCode == identity.ownCode

/-- `options` of the resolver. -/
def resolverOptions (identity : VnuOwnIdentity) (targetCode : String) (concurrency : Nat) : VnuStudentIdResolverOptions :=
  { ownStdId := some identity.ownStdId, ownCode := some identity.ownCode, targetCode, concurrency := some (concurrency : Int)
    platformConcurrencyLimit := none }

/-- `notFound` names the thrown values that are `VNU_CROSS_LOOKUP_NOT_FOUND`. -/
def isIsolatedBulkLookupError (notFound : String → Bool) : Thrown → Bool
  | .notConverged => true
  | .value name _ => notFound name
  | .winnerReason | .invalidOption _ => false

/-! ## One target -/

/-- The three routes: by student code to the id, and to the transcript of a code
or of an id. (`student-code` is the last, with another parser.) -/
inductive SingleRoute where
  | studentId
  | transcriptByCode
  | transcriptById
deriving DecidableEq, Repr

def SingleRoute.reservedUnits : SingleRoute → Nat
  | .studentId => vnuStudentIdResolverMaxProbes
  | .transcriptByCode => vnuStudentIdResolverMaxProbes + 1
  | .transcriptById => 1

inductive SinglePhase where
  | searching (resolver : Resolver) (search : ResolverState)
  /-- The transcript of the id that was given or found. -/
  | fetching
  | finished
deriving DecidableEq

structure SingleState where
  allowance : VnuProbeAllowance
  phase : SinglePhase
  /-- The reason of `request.signal`. -/
  aborted : Option Thrown
deriving DecidableEq

inductive SingleTurn where
  | settle (index : Option Nat) (outcome : ProbeOutcome)
  | wake (index : Nat)
  | abort (reason : Thrown)
  /-- The transcript is there, or the fetch has failed. -/
  | fetched
deriving DecidableEq

namespace SingleRoute

variable (route : SingleRoute) (s : SingleState)

/-- The transcript is asked for. -/
def fetch : SingleState := { s with allowance := s.allowance.consume, phase := .fetching }

/-- The route once it has reserved its units. -/
def start (options : VnuStudentIdResolverOptions) (aborted : Option Thrown) : SingleState :=
  let s := { allowance := createVnuProbeAllowance route.reservedUnits, phase := .finished, aborted }
  match route with
  | .transcriptById => fetch s
  | .studentId | .transcriptByCode =>
    match resolveVnuStudentId options aborted with
    | .ok resolver =>
      { s with allowance := s.allowance.consumeEach resolver.start.calls.length, phase := .searching resolver resolver.start }
    | .error _ => s

/-- The search goes on; when it has settled the route does. -/
def advance (turn : Turn) : SingleState :=
  match s.phase with
  | .searching resolver search =>
    let next := (resolver.step search turn).2
    let s := { s with allowance := s.allowance.consumeEach (next.calls.length - search.calls.length) }
    match next.phase with
    | .settled (.ok _) => if route = .transcriptByCode then fetch s else { s with phase := .finished }
    | .settled (.error _) => { s with phase := .finished }
    | _ => { s with phase := .searching resolver next }
  | .fetching | .finished => s

def step : SingleTurn → Unit × SingleState
  | .settle index outcome => ((), route.advance s (.settle index outcome))
  | .wake index => ((), route.advance s (.wake index))
  | .abort reason =>
    match s.aborted with
    | some _ => ((), s)
    | none => ((), route.advance { s with aborted := some reason } (.abort reason))
  | .fetched =>
    match s.phase with
    | .fetching => ((), { s with phase := .finished })
    | _ => ((), s)

end SingleRoute

/-! ## Student codes in bulk -/

structure BulkRequest where
  identity : VnuOwnIdentity
  body : VnuBulkLookupBody
  codeLookupBulkTargetConcurrency : Nat
  notFound : String → Bool

inductive BulkWorker where
  /-- Between two targets. -/
  | idle
  | searching (index : Nat) (resolver : Resolver) (search : ResolverState)
  | finished
deriving DecidableEq

/-- The resolver's listener. -/
def BulkWorker.abort (reason : Thrown) : BulkWorker → BulkWorker
  | .searching index resolver search => .searching index resolver (Resolver.abort search reason)
  | .idle => .idle
  | .finished => .finished

structure BulkState where
  allowance : VnuProbeAllowance
  nextIndex : Nat
  /-- The reason of `deadline.signal`. -/
  aborted : Option Thrown
  workers : List BulkWorker
deriving DecidableEq

inductive BulkTurn where
  | take (worker : Nat)
  | settle (worker : Nat) (index : Option Nat) (outcome : ProbeOutcome)
  | wake (worker : Nat) (index : Nat)
  /-- The request is aborted, or its time is up. -/
  | abort (reason : Thrown)
deriving DecidableEq

namespace BulkRequest

variable (request : BulkRequest) (s : BulkState)

def activeWorkerCount : Nat := min request.codeLookupBulkTargetConcurrency request.body.targets.length

def candidateConcurrency : Option Nat := bulkResolverCandidateWidth request.activeWorkerCount

/-- `deadline.abort`; a signal aborts once. -/
def abort (reason : Thrown) : BulkState :=
  match s.aborted with
  | some _ => s
  | none => { s with aborted := some reason, workers := s.workers.map (·.abort reason) }

def setWorker (worker : Nat) (state : BulkWorker) : BulkState := { s with workers := s.workers.set worker state }

/-- What `resolveTarget` throws unless it is isolated. -/
def throwTarget (worker : Nat) (error : Thrown) : BulkState :=
  if isIsolatedBulkLookupError request.notFound error then setWorker s worker .idle
  else abort (setWorker s worker .finished) error

/-- `resolveTarget` up to its first await. -/
def resolveTarget (worker index : Nat) : BulkState :=
  match request.body.targets[index]? with
  | some (.string target) =>
    if !isStudentCode target || isOwnStudentCode request.identity target then s
    else
      match resolveVnuStudentId (resolverOptions request.identity target (request.candidateConcurrency.getD 0)) none with
      | .error error => request.throwTarget s worker error
      | .ok resolver =>
        setWorker { s with allowance := s.allowance.consumeEach resolver.start.calls.length } worker
          (.searching index resolver resolver.start)
  | _ => s

/-- A worker goes round its loop. -/
def take (worker : Nat) : BulkState :=
  match s.workers[worker]? with
  | some .idle =>
    if s.aborted.isSome then setWorker s worker .finished
    else
      let index := s.nextIndex
      let s := { s with nextIndex := s.nextIndex + 1 }
      if request.body.targets.length ≤ index then setWorker s worker .finished
      else request.resolveTarget s worker index
  | _ => s

/-- A search goes on; when it has settled its worker does. -/
def advance (worker : Nat) (turn : Turn) : BulkState :=
  match s.workers[worker]? with
  | some (.searching index resolver search) =>
    let next := (resolver.step search turn).2
    let s := { s with allowance := s.allowance.consumeEach (next.calls.length - search.calls.length) }
    match next.phase with
    | .settled (.ok _) => setWorker s worker .idle
    | .settled (.error error) => request.throwTarget s worker error
    | _ => setWorker s worker (.searching index resolver next)
  | _ => s

def step : BulkTurn → Unit × BulkState
  | .take worker => ((), request.take s worker)
  | .settle worker index outcome => ((), request.advance s worker (.settle index outcome))
  | .wake worker index => ((), request.advance s worker (.wake index))
  | .abort reason => ((), abort s reason)

/-- The workers, once the units are reserved; `aborted` as above. Without a width
none starts: the request has thrown. -/
def start (aborted : Option Thrown) : BulkState :=
  { allowance := createVnuProbeAllowance (vnuBulkReservationUnits request.body), nextIndex := 0, aborted
    workers := if request.candidateConcurrency.isSome then List.replicate request.activeWorkerCount .idle else [] }

end BulkRequest

/-! ## Student ids in bulk -/

/-- What one target of the loop comes to. -/
inductive DirectOutcome where
  /-- No number of at most eleven digits, or the caller's own. -/
  | refused
  | fetched (result : Except Thrown Unit)

/-- The loop over the targets: what is left of the allowance, and whether it threw. -/
def directLookups (notFound : String → Bool) : List DirectOutcome → VnuProbeAllowance → VnuProbeAllowance × Option Thrown
  | [], allowance => (allowance, none)
  | .refused :: rest, allowance => directLookups notFound rest allowance
  | .fetched (.ok ()) :: rest, allowance => directLookups notFound rest allowance.consume
  | .fetched (.error error) :: rest, allowance =>
    if isIsolatedBulkLookupError notFound error then directLookups notFound rest allowance.consume
    else (allowance.consume, some error)

end Hyeboard.CrossLookup
