import Mathlib.Data.List.Dedup
import Hyeboard.Lib.JsValue
import Hyeboard.Lib.Runs
/-!
# The student id resolver

`apps/worker/src/vnu/vnu-student-id-resolver.ts`. Ids are integers: whatever
leaves the safe integers is discarded at once, so their rounding shows nowhere.
A `Turn` is a probe's work that settles, the caller's abort, or the resolver
itself going on after what it awaits; turns come in any order.
-/

namespace Hyeboard.CrossLookup

def localRadius : Nat := 16
def vnuStudentIdResolverMaxProbes : Nat := 1 + localRadius * 2
def vnuStudentIdResolverPlatformConcurrency : Nat := 6

/-- A thrown value or an abort reason, by its identity. -/
inductive Thrown where
  /-- The `DOMException` made for the probes a winner cancels. -/
  | winnerReason
  | notConverged
  /-- `parsePositiveSafeInteger` of an option. -/
  | invalidOption (name : String)
  | value (name : String) (abortError : Bool)
deriving DecidableEq, Repr

def isAbortError : Thrown → Bool
  | .winnerReason => true
  | .value _ abortError => abortError
  | .notConverged | .invalidOption _ => false

structure VnuStudentIdResolution where
  stdId : String
  stdCode : String
  probes : Nat
deriving DecidableEq, Repr

/-- `none` is a number that is no integer. -/
abbrev JsNumber := Option Int

structure VnuStudentIdResolverOptions where
  ownStdId : JsNumber
  ownCode : JsNumber
  targetCode : String
  concurrency : JsNumber
  platformConcurrencyLimit : Option JsNumber
deriving DecidableEq, Repr

abbrev ProbeOutcome := Except Thrown (Option String)

inductive ProbeDecision where
  | cancelled (reason : Thrown)
  | outcome (outcome : ProbeOutcome)
deriving DecidableEq

structure ActiveProbe where
  /-- The index of the candidate; the first probe has none. -/
  index : Option Nat
  stdId : Int
  /-- Cancelled before its work settled. -/
  cancelled : Option Thrown
  /-- `workSettlement`. -/
  work : Option ProbeOutcome
deriving DecidableEq

namespace ActiveProbe

variable (probe : ActiveProbe)

/-- `cancellation` and `workSettlement`, whichever came first. -/
def decision : Option ProbeDecision :=
  match probe.cancelled with
  | some reason => some (.cancelled reason)
  | none => probe.work.map .outcome

/-- A cancellation after the work has settled decides nothing. -/
def cancel (reason : Thrown) : ActiveProbe :=
  if probe.cancelled.isNone && probe.work.isNone then { probe with cancelled := some reason } else probe

def settle (outcome : ProbeOutcome) : ActiveProbe :=
  if probe.work.isNone then { probe with work := some outcome } else probe

end ActiveProbe

/-- What follows `settleStarted`. -/
inductive AfterSettling where
  | throws (error : Thrown)
  /-- After a failed probe: the caller's abort is thrown instead if there is one. -/
  | fatal (error : Thrown)
  | winner (stdId : Int)
deriving DecidableEq, Repr

inductive ResolverPhase where
  /-- `firstProbe.decision` and `firstProbe.workSettlement`. -/
  | first
  /-- The race of the pool. -/
  | racing
  | settling (next : AfterSettling)
  /-- `settleStarted` in the catch. -/
  | draining (error : Thrown)
  | settled (result : Except Thrown VnuStudentIdResolution)
deriving DecidableEq

structure ResolverState where
  phase : ResolverPhase
  active : List ActiveProbe
  callerCancellation : Option Thrown
  candidates : List Int
  poolWidth : Nat
  codes : List (Nat × Option String)
  nextIndex : Nat
  earliestExactIndex : Option Nat
  /-- The ids `fetchStudentCode` was called with; `probes` counts them. -/
  calls : List Int
  /-- The probes that are no longer active. -/
  finished : List ActiveProbe
deriving DecidableEq

inductive Turn where
  | settle (index : Option Nat) (outcome : ProbeOutcome)
  | abort (reason : Thrown)
  /-- The resolver goes on; the index is the one the race gives it. -/
  | wake (index : Nat)
deriving DecidableEq

/-! ## Arguments and candidates -/

def isValidStudentId (value : Int) : Bool := decide (0 < value ∧ value ≤ maxSafeInteger)

def parsePositiveSafeInteger (value : JsNumber) (name : String) : Except Thrown Nat :=
  match value with
  | some value => if isValidStudentId value then .ok value.toNat else .error (.invalidOption name)
  | none => .error (.invalidOption name)

/-- `/^\d{8}$/`. -/
def isStudentCode (code : String) : Bool := code.toList.length == 8 && code.toList.all (·.isDigit)

/-- `Number(code)` of a student code. -/
def numericCode (code : String) : Int := ((code.toList.foldl (fun n c => 10 * n + (c.toNat - 48)) 0 : Nat) : Int)

def resolved (stdId : Int) (targetCode : String) (probes : Nat) : VnuStudentIdResolution :=
  { stdId := String.ofList ((toString stdId).toList.leftpad 11 '0'), stdCode := targetCode, probes }

/-- The offsets of the local window, nearest first. -/
def localWindow (projectedStdId : Int) : List Int :=
  (List.range localRadius).flatMap fun (n : Nat) => [projectedStdId - (n + 1), projectedStdId + (n + 1)]

def localCandidates (projectedStdId : Int) (correction : Option Int) : List Int :=
  let candidates := correction.toList ++ localWindow projectedStdId
  (candidates.zipIdx.filter fun e =>
    isValidStudentId e.1 && e.1 != projectedStdId && candidates.idxOf e.1 == e.2).map Prod.fst

/-- The options once checked. -/
structure Resolver where
  projectedStdId : Int
  targetCode : String
  concurrency : Nat
  platformConcurrencyLimit : Nat
deriving DecidableEq, Repr

namespace Resolver

variable (resolver : Resolver) (s : ResolverState)

/-- What the first probe's code says about the offset of the target. -/
def correction (studentCode : Option String) : Option Int :=
  match studentCode with
  | none => none
  | some code =>
    if isStudentCode code then
      let offset := numericCode resolver.targetCode - numericCode code
      let corrected := resolver.projectedStdId + offset
      if offset.natAbs ≤ localRadius ∧ isValidStudentId corrected ∧ corrected ≠ resolver.projectedStdId then some corrected
      else none
    else none

def configuredPoolWidth (candidateCount : Nat) : Nat :=
  min (min resolver.concurrency resolver.platformConcurrencyLimit) candidateCount

/-! ## Probes -/

def abortActive (reason : Thrown) : ResolverState := { s with active := s.active.map (·.cancel reason) }

def startProbe (index : Option Nat) (stdId : Int) : ResolverState :=
  { s with
    active := s.active ++ [{ index, stdId, cancelled := none, work := none }]
    calls := s.calls ++ [stdId] }

/-- `active.delete(index)`. -/
def delete (index : Option Nat) : ResolverState :=
  { s with
    active := s.active.filter (·.index ≠ index)
    finished := s.finished ++ s.active.filter (·.index = index) }

/-- `active.clear()`. -/
def clear : ResolverState := { s with active := [], finished := s.finished ++ s.active }

/-- A throw: the catch aborts what is active and waits for it. -/
def fail (error : Thrown) : ResolverState := { abortActive s error with phase := .draining error }

/-- `fillPool`; `room` bounds its rounds. -/
def fillPoolLoop : Nat → ResolverState → ResolverState
  | 0, s => s
  | room + 1, s =>
    if s.active.length < s.poolWidth ∧ s.nextIndex < s.earliestExactIndex.getD s.candidates.length then
      match s.candidates[s.nextIndex]? with
      | some stdId =>
        let s := startProbe s (some s.nextIndex) stdId
        fillPoolLoop room { s with nextIndex := s.nextIndex + 1 }
      | none => s
    else s

def fillPool : ResolverState := fillPoolLoop s.candidates.length s

/-- The loop over the pool, up to its next race. -/
def loop : ResolverState :=
  if s.active.isEmpty then fail s (s.callerCancellation.getD .notConverged) else { s with phase := .racing }

/-- The first index from `prefixIndex` on with the target's code, if every index
before it has settled. -/
def scanSettled (targetCode : String) (codes : List (Nat × Option String)) : Nat → Nat → Option Nat
  | 0, _ => none
  | room + 1, index =>
    match codes.lookup index with
    | none => none
    | some code => if code = some targetCode then some index else scanSettled targetCode codes room (index + 1)

/-- A failure that is no rejection of the winner's cleanup. -/
def independentFailure (probe : ActiveProbe) : Option Thrown :=
  match probe.work with
  | some (.error error) =>
    if probe.cancelled = some .winnerReason ∧ (error = .winnerReason ∨ isAbortError error = true) then none else some error
  | _ => none

/-! ## Turns -/

/-- After the first probe. -/
def afterFirst (probe : ActiveProbe) (outcome : ProbeOutcome) : ResolverState :=
  let s := delete s none
  match s.callerCancellation, probe.cancelled, outcome with
  | some reason, _, _ => fail s reason
  | none, some reason, _ => fail s reason
  | none, none, .error error => fail s error
  | none, none, .ok studentCode =>
    if studentCode = some resolver.targetCode then
      { s with phase := .settled (.ok (resolved resolver.projectedStdId resolver.targetCode s.calls.length)) }
    else
      let candidates := localCandidates resolver.projectedStdId (resolver.correction studentCode)
      loop (fillPool { s with candidates, poolWidth := resolver.configuredPoolWidth candidates.length })

/-- One round of the pool. -/
def afterRace (index : Nat) (decision : ProbeDecision) : ResolverState :=
  match s.callerCancellation, decision with
  | some reason, _ => { abortActive s reason with phase := .settling (.throws reason) }
  | none, .cancelled reason => { abortActive s reason with phase := .settling (.throws reason) }
  | none, .outcome (.error error) => { abortActive (delete s (some index)) error with phase := .settling (.fatal error) }
  | none, .outcome (.ok studentCode) =>
    let s := delete s (some index)
    let codes := (index, studentCode) :: s.codes
    let earliestExactIndex :=
      if studentCode = some resolver.targetCode then some (min (s.earliestExactIndex.getD index) index) else s.earliestExactIndex
    let s := { s with codes, earliestExactIndex }
    match (scanSettled resolver.targetCode codes codes.length 0).bind (s.candidates[·]?) with
    | some winnerStdId => { abortActive s .winnerReason with phase := .settling (.winner winnerStdId) }
    | none => loop (fillPool s)

def afterSettling (next : AfterSettling) : ResolverState :=
  match next, s.callerCancellation with
  | .throws error, _ => fail (clear s) error
  | .fatal error, caller => fail (clear s) (caller.getD error)
  | .winner _, some reason => fail (clear s) reason
  | .winner stdId, none =>
    match s.active.findSome? independentFailure with
    | some error => fail (clear s) error
    | none =>
      { clear s with phase := .settled (.ok (resolved stdId resolver.targetCode s.calls.length)) }

def wake (index : Nat) : ResolverState :=
  match s.phase with
  | .first =>
    match s.active with
    | [probe] =>
      match probe.work with
      | some outcome => resolver.afterFirst s probe outcome
      | none => s
    | _ => s
  | .racing =>
    match (s.active.find? (·.index = some index)).bind (·.decision) with
    | some decision => resolver.afterRace s index decision
    | none => s
  | .settling next => if s.active.all (·.work.isSome) then resolver.afterSettling s next else s
  | .draining error =>
    if s.active.all (·.work.isSome) then { clear s with phase := .settled (.error error) } else s
  | .settled _ => s

/-- `onCallerAbort`; the finally removes it. -/
def abort (reason : Thrown) : ResolverState :=
  match s.phase, s.callerCancellation with
  | .settled _, _ | _, some _ => s
  | _, none => { abortActive s reason with callerCancellation := some reason }

def step : Turn → Unit × ResolverState
  | .settle index outcome =>
    ((), { s with active := s.active.map fun probe => if probe.index = index then probe.settle outcome else probe })
  | .abort reason => ((), abort s reason)
  | .wake index => ((), resolver.wake s index)

/-- The first probe has been started. -/
def start : ResolverState :=
  startProbe
    { phase := .first, active := [], callerCancellation := none, candidates := [], poolWidth := 0, codes := [], nextIndex := 0
      earliestExactIndex := none, calls := [], finished := [] }
    none resolver.projectedStdId

end Resolver

/-- `resolveVnuStudentId` up to its first probe; `aborted` is the reason of a
signal that has been aborted already. -/
def resolveVnuStudentId (options : VnuStudentIdResolverOptions) (aborted : Option Thrown) : Except Thrown Resolver := do
  let concurrency ← parsePositiveSafeInteger options.concurrency "concurrency"
  let platformConcurrencyLimit ← parsePositiveSafeInteger
    (options.platformConcurrencyLimit.getD (some vnuStudentIdResolverPlatformConcurrency)) "platformConcurrencyLimit"
  match options.ownStdId, options.ownCode with
  | some ownStdId, some ownCode =>
    require .notConverged (isValidStudentId ownStdId && isValidStudentId ownCode && isStudentCode options.targetCode)
    let projectedStdId := ownStdId + (numericCode options.targetCode - ownCode)
    require .notConverged (isValidStudentId projectedStdId)
    match aborted with
    | some reason => throw reason
    | none => return { projectedStdId, targetCode := options.targetCode, concurrency, platformConcurrencyLimit }
  | _, _ => throw .notConverged

end Hyeboard.CrossLookup
