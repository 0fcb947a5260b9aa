import Hyeboard.Lib.Events
/-!
# Batches of grade details

`fetchVnuCrossDetailBatch` of `app.ts`: the permits are grouped by the student they
are for, workers take the groups one after another, and the permits of a group are
consumed in turn. A turn is what one worker awaits; between two turns every other
worker may go on.
-/

namespace Hyeboard.CrossDetail

/-! ## Permits and groups -/

/-- `/^\d{1,11}$/`. -/
def isStdId (s : String) : Bool := 1 ≤ s.length && s.length ≤ 11 && s.toList.all fun c => c.isDigit

/-- `selector` of an envelope that was opened. -/
structure Selector where
  stdId : String
  classId : String
  termOrdinal : String
  stdId_ok : isStdId stdId = true
deriving DecidableEq, Repr

/-- A thrown error: the code of a `HyeboardError`, or another one. -/
inductive Thrown where
  | hyeboard (code : String)
  | other (name : String)
deriving DecidableEq, Repr

/-- Why an envelope does not open. -/
inductive OpenError where
  | permitInvalid
  | weakSecret
  | other
deriving DecidableEq, Repr

/-- The `errorCode` of an item. -/
def OpenError.code : OpenError → String
  | .permitInvalid => "VNU_CROSS_DETAIL_PERMIT_INVALID"
  | .weakSecret => "WEAK_SESSION_SECRET"
  | .other => "VNU_REQUEST_FAILED"

inductive ItemResult where
  | ok (html : String)
  | error (errorCode : String)
deriving DecidableEq, Repr

structure Item where
  permit : String
  result : ItemResult
deriving DecidableEq, Repr

def isCrossDetailItemError (error : Thrown) : Option String :=
  match error with
  | .hyeboard code =>
    if code ∈ ["VNU_CROSS_LOOKUP_NOT_FOUND", "VNU_CROSS_LOOKUP_NOT_CONVERGED", "VNU_CROSS_DETAIL_PERMIT_INVALID",
      "VNU_UPSTREAM_RESPONSE_INVALID", "VNU_REQUEST_FAILED"] then some code
    else none
  | .other _ => none

/-- A group; `stdId` is none for permits that do not open. -/
structure Group where
  key : String
  stdId : Option String
  permits : List String
deriving DecidableEq, Repr

section
variable (opens : String → Except OpenError Selector)

/-- `stdId`, as the key of `groups`. -/
def groupKey (permit : String) : String × Option String :=
  match opens permit with
  | .ok selector => (selector.stdId, some selector.stdId)
  | .error _ => ("__invalid__" ++ String.ofList (permit.toList.take 8), none)

def addPermit (permit : String) : List Group → List Group
  | [] => [{ key := (groupKey opens permit).1, stdId := (groupKey opens permit).2, permits := [permit] }]
  | group :: rest =>
    if group.key = (groupKey opens permit).1 then { group with permits := group.permits ++ [permit] } :: rest
    else group :: addPermit permit rest

def groupsOf (permits : List String) : List Group := permits.foldl (fun groups permit => addPermit opens permit groups) []

end

/-! ## Workers -/

/-- What `fetchVnuCrossDetail` awaits while it holds the lease. -/
inductive Stage where
  | detail
  /-- The retry after `VNU_SESSION_EXPIRED`. -/
  | validating
  | rewarming
  | redetail
  | releasing (result : Except Thrown String)
deriving DecidableEq

/-- What a worker awaits for a group that opens. -/
inductive Task where
  /-- The permit of the oracle, then the warm-up under it. -/
  | permitting
  | warming
  /-- The permit is opened again, on the way to its consumption. -/
  | preparing (permit : String)
  | consuming (permit : String)
  | leased (permit : String) (lease : Nat) (stage : Stage)
deriving DecidableEq

inductive Worker where
  | group (index : Nat) (task : Task) (rest : List String) (results : List Item)
  /-- `Promise.all` over a group that does not open. -/
  | invalid (index : Nat) (permits : List String)
  | done
  | failed
deriving DecidableEq

structure Batch where
  workers : List Worker
  nextGroupIndex : Nat
  groupResults : List (Option (List Item))
  /-- The leases in the session's store, and the next one it will grant. -/
  leases : List Nat
  nextLease : Nat
  /-- What `Promise.all` rejects with. -/
  failure : Option Thrown
  outcome : Option (Except Thrown (List (Option Item)))

/-- The store's verdict, apart from the concurrency of leases. -/
inductive Verdict where
  | allowed
  | invalid
  | budget
  | unavailable
deriving DecidableEq, Repr

inductive Action where
  | permitted (result : Except Thrown Unit)
  | warmed (result : Except Thrown Unit)
  | prepared (result : Except Thrown Unit)
  | consumed (verdict : Verdict)
  | responded (result : Except Thrown String)
  /-- The release of the lease settles; it may fail. -/
  | released (ok : Bool)
  | invalidSettles

inductive Turn where
  | worker (worker : Nat) (action : Action)
  /-- A lease expires in the store. -/
  | expires (lease : Nat)
  /-- `Promise.all` settles, and the function with it. -/
  | settles

inductive Request where
  | transcript (stdId : String)
  | session
  | detail (selector : Selector)
deriving DecidableEq, Repr

inductive Event where
  /-- A request to the portal starts. -/
  | requested (request : Request)
  /-- A permit is presented for consumption. -/
  | presented (permit : String)
  | busy
  | fetched (selector : Selector) (html : String)
  | releaseFailed
deriving DecidableEq, Repr

section
variable (opens : String → Except OpenError Selector) (groups : List Group) (concurrency : Nat) (permits : List String)
variable (s : Batch)

def setWorker (worker : Nat) (next : Worker) : Batch := { s with workers := s.workers.set worker next }

/-- A worker that has taken a group, up to its first `await`. -/
def claimed (index : Nat) : Worker :=
  match groups[index]? with
  | none => .done
  | some { stdId := none, permits, .. } => .invalid index permits
  | some { stdId := some _, permits, .. } => .group index .permitting permits []

/-- `nextGroupIndex++`. -/
def takeGroup (worker : Nat) : Batch :=
  setWorker { s with nextGroupIndex := s.nextGroupIndex + 1 } worker (claimed groups s.nextGroupIndex)

def finishGroup (worker index : Nat) (results : List Item) : Batch :=
  takeGroup groups { s with groupResults := s.groupResults.set index (some results) } worker

/-- The loop over the permits of a group. -/
def nextPermit (worker index : Nat) (rest : List String) (results : List Item) : Batch :=
  match rest with
  | [] => finishGroup groups s worker index results
  | permit :: rest => setWorker s worker (.group index (.preparing permit) rest results)

def fail (worker : Nat) (error : Thrown) : Batch :=
  { setWorker s worker .failed with failure := s.failure.or (some error) }

/-- The catch of the loop: an item, or the end of the worker. -/
def settlePermit (worker index : Nat) (permit : String) (rest : List String) (results : List Item)
    (result : Except Thrown String) : Batch :=
  match result with
  | .ok html => nextPermit groups s worker index rest (results ++ [{ permit, result := .ok html }])
  | .error error =>
    match isCrossDetailItemError error with
    | some errorCode => nextPermit groups s worker index rest (results ++ [{ permit, result := .error errorCode }])
    | none => fail s worker error

/-- The answer to `consumeCrossDetailPermit`. -/
def consumed (worker index : Nat) (permit : String) (rest : List String) (results : List Item) (verdict : Verdict) :
    List Event × Batch :=
  let throws (code : String) := settlePermit groups s worker index permit rest results (.error (.hyeboard code))
  match verdict with
  | .invalid => ([], throws "VNU_CROSS_DETAIL_PERMIT_INVALID")
  | .budget => ([], throws "VNU_RATE_LIMITED")
  | .unavailable => ([], throws "VNU_PROBE_BUDGET_UNAVAILABLE")
  | .allowed =>
    if concurrency ≤ s.leases.length then ([.busy], throws "VNU_CROSS_LOOKUP_BUSY")
    else
      let s' := { s with leases := s.nextLease :: s.leases, nextLease := s.nextLease + 1 }
      let s' := setWorker s' worker (.group index (.leased permit s.nextLease .detail) rest results)
      match opens permit with
      | .ok selector => ([.requested (.detail selector)], s')
      | .error _ => ([], s')

/-- A response of the portal, while the lease is held. -/
def responded (worker index : Nat) (permit : String) (lease : Nat) (stage : Stage) (rest : List String) (results : List Item)
    (result : Except Thrown String) : List Event × Batch :=
  let goes (stage : Stage) := setWorker s worker (.group index (.leased permit lease stage) rest results)
  match opens permit with
  | .error _ => ([], s)
  | .ok selector =>
    match stage, result with
    | .detail, .ok html | .redetail, .ok html => ([.fetched selector html], goes (.releasing (.ok html)))
    | .detail, .error (.hyeboard "VNU_SESSION_EXPIRED") => ([.requested .session], goes .validating)
    | .validating, .ok _ => ([.requested (.transcript selector.stdId)], goes .rewarming)
    | .rewarming, .ok _ => ([.requested (.detail selector)], goes .redetail)
    | .releasing _, _ => ([], s)
    | _, .error error => ([], goes (.releasing (.error error)))

/-- The release settles: the failure of a release is dropped. -/
def released (worker index : Nat) (permit : String) (lease : Nat) (result : Except Thrown String) (rest : List String)
    (results : List Item) (ok : Bool) : List Event × Batch :=
  let s' := if ok then { s with leases := s.leases.filter (· != lease) } else s
  (if ok then [] else [.releaseFailed], settlePermit groups s' worker index permit rest results result)

/-- The `errorCode` of a permit that does not open the second time either. -/
def invalidCode (permit : String) : String :=
  match opens permit with
  | .error error => error.code
  | .ok _ => ""

def act (worker : Nat) (action : Action) : List Event × Batch :=
  match s.workers[worker]?, action with
  | some (.invalid index permits), .invalidSettles =>
    ([], finishGroup groups s worker index (permits.map fun permit => { permit, result := .error (invalidCode opens permit) }))
  | some (.group index .permitting rest results), .permitted (.ok ()) =>
    (match (groups[index]?).bind (·.stdId) with
      | some stdId => [.requested (.transcript stdId)]
      | none => [], setWorker s worker (.group index .warming rest results))
  | some (.group index .permitting rest _), .permitted (.error error)
  | some (.group index .warming rest _), .warmed (.error error) =>
    match isCrossDetailItemError error with
    | some errorCode => ([], finishGroup groups s worker index (rest.map fun permit => { permit, result := .error errorCode }))
    | none => ([], fail s worker error)
  | some (.group index .warming rest results), .warmed (.ok ()) => ([], nextPermit groups s worker index rest results)
  | some (.group index (.preparing permit) rest results), .prepared (.ok ()) =>
    ([.presented permit], setWorker s worker (.group index (.consuming permit) rest results))
  | some (.group index (.preparing permit) rest results), .prepared (.error error) =>
    ([], settlePermit groups s worker index permit rest results (.error error))
  | some (.group index (.consuming permit) rest results), .consumed verdict =>
    consumed opens groups concurrency s worker index permit rest results verdict
  | some (.group index (.leased permit lease (.releasing result)) rest results), .released ok =>
    released groups s worker index permit lease result rest results ok
  | some (.group index (.leased permit lease stage) rest results), .responded result =>
    responded opens s worker index permit lease stage rest results result
  | _, _ => ([], s)

/-- `itemMap.get(permit)`. -/
def itemOf (permit : String) : Option Item :=
  (s.groupResults.flatMap (·.getD [])).reverse.find? (·.permit = permit)

def settles : Batch :=
  if s.outcome.isSome then s
  else match s.failure with
    | some error => { s with outcome := some (.error error) }
    | none =>
      if s.workers.all (· = .done) then { s with outcome := some (.ok (permits.map (itemOf s))) } else s

def step (turn : Turn) : List Event × Batch :=
  match turn with
  | .worker worker action => act opens groups concurrency s worker action
  | .expires lease => ([], { s with leases := s.leases.filter (· != lease) })
  | .settles => ([], settles permits s)

end

section
variable (opens : String → Except OpenError Selector) (concurrency : Nat) (permits : List String)

/-- `Array.from`: the workers take the first groups. -/
def start : Batch :=
  let groups := groupsOf opens permits
  let count := min concurrency groups.length
  { workers := (List.range count).map (claimed groups), nextGroupIndex := count
    groupResults := List.replicate groups.length none, leases := [], nextLease := 0, failure := none, outcome := none }

/-- Any order of turns. -/
abbrev BatchRun :=
  Run (step opens (groupsOf opens permits) concurrency permits) (fun _ => 0) (fun _ _ _ => True) (start opens concurrency permits)

end

end Hyeboard.CrossDetail
