import Hyeboard.FeaturePolicy.Schema
import Hyeboard.Lib.Runs
/-!
# Revision streams

The three implementations of `FeaturePolicyEvents`: in process
(`feature-policy-store.ts`), over Redis (`node/redis/feature-policy-events.ts`)
and in the Durable Object (`feature-policy-durable-object.ts`). A stream tells
its client each new revision once. The runtime may tear a stream's controller
down, and then `enqueue` and `close` on it throw.
-/

namespace Hyeboard.FeaturePolicy

/-- `MAX_FEATURE_POLICY_SSE_SUBSCRIBERS`. -/
def maxSseSubscribers : Nat := 256

/-- What a stream is opened with, and what it meets while it starts. -/
structure StreamRequest where
  lastRevision : Option Nat
  currentRevision : Nat
  /-- The Durable Object's name for the stream. -/
  subscriptionId : Option String
  /-- `signal.aborted`. -/
  aborted : Bool
  /-- The controller throws from the start. -/
  torn : Bool
  /-- The revision the Durable Object reads, unless the read throws. -/
  stored : Except PolicyError Nat

structure PolicyStream where
  request : StreamRequest
  /-- The revisions written to it, oldest first. -/
  written : List Nat
  seen : Int
  /-- `open`, or that `subscribers` has it. -/
  isOpen : Bool
  /-- `listeners` has its listener. -/
  listening : Bool
  /-- `start` came to its end: its client, its signal, its heartbeat and
  `closeStreams` know the stream. -/
  started : Bool
  torn : Bool

inductive StreamEvent where
  | stream (request : StreamRequest)
  /-- `publish`, or `publishRevision`. -/
  | notify (revision : Nat)
  /-- A message on the Redis channel. -/
  | receive (message : String)
  | cancel (stream : Nat)
  | abort (stream : Nat)
  | unsubscribe (subscriptionId : String)
  | heartbeat (stream : Nat)
  /-- The runtime tears the controller of a stream down. -/
  | tear (stream : Nat)
  | close

inductive StreamOutcome where
  | opened (stream : Nat)
  /-- Opened with its signal aborted, and closed at once. -/
  | aborted (stream : Nat)
  | limited
  | threw
  /-- The streams whose `enqueue` threw. -/
  | delivered (failures : List Nat)
  | done
deriving DecidableEq

/-- What becomes of one stream: what `activeStreams` goes down by, and whether
its `enqueue` threw. -/
structure Acted where
  stream : PolicyStream
  released : Nat
  failed : Bool

namespace PolicyStream

def startSeen (lastRevision : Option Nat) : Int :=
  match lastRevision with
  | none => -1
  | some revision => if revisionOk revision then revision else -1

def start (request : StreamRequest) (listening : Bool) : PolicyStream :=
  { request, written := [], seen := startSeen request.lastRevision, isOpen := true, listening, started := false
    torn := request.torn }

variable (stream : PolicyStream)

/-- `controller.enqueue`. -/
def enqueue (revision : Nat) : Option PolicyStream :=
  if stream.torn then none else some { stream with written := stream.written ++ [revision] }

/-- The first event: the revision that is current when the stream opens. -/
def greet (currentRevision : Int) : Option PolicyStream :=
  if 0 ≤ currentRevision ∧ currentRevision ≤ maxSafeInteger ∧ stream.seen < currentRevision then
    { stream with seen := currentRevision }.enqueue currentRevision.toNat
  else some stream

def leave : Acted := { stream, released := 0, failed := false }

/-- `cleanup`, and `close` but for the throw of `controller.close`. -/
def cleanup : Acted :=
  if stream.isOpen then
    { stream := { stream with isOpen := false, listening := false }, released := 1, failed := false }
  else stream.leave

/-- Whether `close` throws. -/
def closeThrows : Bool := stream.isOpen && stream.torn

/-- Whether its listener writes the revision. -/
def wants (revision : Nat) : Bool := stream.listening && stream.isOpen && decide (stream.seen < revision)

def tear : Acted := { stream := { stream with torn := true }, released := 0, failed := false }

/-- The client cancels, or the signal aborts: both need a stream that started. -/
def endByClient : Acted := if stream.started then stream.cleanup else stream.leave

end PolicyStream

/-- `InProcessFeaturePolicyEvents` and `RedisFeaturePolicyEvents`; only the
latter sets `closed`. -/
structure Hub where
  streams : List PolicyStream
  highestRevision : Int
  activeStreams : Int
  closed : Bool

namespace Hub

def init : Hub := { streams := [], highestRevision := -1, activeStreams := 0, closed := false }

variable (hub : Hub)

/-- What listeners, and the callbacks of one stream, do: each touches its own
stream and `activeStreams`. -/
def each (act : Nat → PolicyStream → Acted) : Hub :=
  { hub with
    streams := hub.streams.mapIdx fun i stream => (act i stream).stream
    activeStreams := hub.activeStreams - ((hub.streams.mapIdx fun i stream => (act i stream).released).sum : Nat) }

def failures (act : Nat → PolicyStream → Acted) : List Nat :=
  (List.range hub.streams.length).filter fun i => hub.streams[i]?.any fun stream => (act i stream).failed

def only (i : Nat) (act : PolicyStream → Acted) (j : Nat) (stream : PolicyStream) : Acted :=
  if j = i then act stream else stream.leave

/-- `stream`. -/
def stream (request : StreamRequest) : StreamOutcome × Hub :=
  if maxSseSubscribers ≤ hub.activeStreams then (.limited, hub)
  else
    let currentRevision := max (request.currentRevision : Int) hub.highestRevision
    let starting := PolicyStream.start request (!hub.closed)
    match starting.greet currentRevision with
    | none =>
      -- the listener stays, and the catch gives the slot back
      (.threw, { hub with streams := hub.streams ++ [{ starting with seen := currentRevision }] })
    | some greeted =>
      let started := { greeted with started := true }
      if request.aborted then
        let ended := started.cleanup
        let next := { hub with
          streams := hub.streams ++ [ended.stream]
          activeStreams := hub.activeStreams + 1 - ended.released }
        if started.closeThrows then (.threw, { next with activeStreams := next.activeStreams - 1 })
        else (.aborted hub.streams.length, next)
      else
        (.opened hub.streams.length,
          { hub with streams := hub.streams ++ [started], activeStreams := hub.activeStreams + 1 })

/-- `for (const close of [...this.closeStreams]) close()`, up to the first that
throws; the second component is what `activeStreams` goes down by, the third
whether one threw. -/
def closeStreams : List PolicyStream → List PolicyStream × Nat × Bool
  | [] => ([], 0, false)
  | stream :: rest =>
    if stream.started && stream.isOpen then
      let ended := stream.cleanup
      if stream.closeThrows then (ended.stream :: rest, ended.released, true)
      else
        let (rest, released, threw) := closeStreams rest
        (ended.stream :: rest, ended.released + released, threw)
    else
      let (rest, released, threw) := closeStreams rest
      (stream :: rest, released, threw)

/-- `close`: when no stream's `close` threw, the listeners go too. -/
def close : StreamOutcome × Hub :=
  let (streams, released, threw) := closeStreams hub.streams
  let next := { hub with streams, activeStreams := hub.activeStreams - released }
  if threw then (.threw, next)
  else (.done, { next with streams := streams.map fun stream => { stream with listening := false } })

end Hub

/-! ## In process -/

namespace InProcess

/-- The listener of a stream: when `enqueue` throws, it closes the stream. -/
def listen (revision : Nat) (stream : PolicyStream) : Acted :=
  if stream.wants revision then
    let seen := { stream with seen := revision }
    match seen.enqueue revision with
    | some written => written.leave
    | none => { seen.cleanup with failed := true }
  else stream.leave

def step (hub : Hub) : StreamEvent → StreamOutcome × Hub
  | .stream request => hub.stream request
  | .notify revision =>
    if !revisionOk revision then (.done, hub)
    else
      let act := fun (_ : Nat) => listen revision
      let next := hub.each act
      (.delivered (hub.failures act), { next with highestRevision := max hub.highestRevision revision })
  | .cancel i => (.done, hub.each (Hub.only i PolicyStream.endByClient))
  | .abort i => (.done, hub.each (Hub.only i PolicyStream.endByClient))
  | .tear i => (.done, hub.each (Hub.only i PolicyStream.tear))
  | .close => hub.close
  | .receive _ | .unsubscribe _ | .heartbeat _ => (.done, hub)

end InProcess

/-! ## Redis -/

namespace Redis

/-- The listener of a stream: when `enqueue` throws, `notify` catches it. -/
def listen (revision : Nat) (stream : PolicyStream) : Acted :=
  if stream.wants revision then
    let seen := { stream with seen := revision }
    match seen.enqueue revision with
    | some written => written.leave
    | none => { seen.leave with failed := true }
  else stream.leave

/-- The heartbeat of a stream: when `enqueue` throws, it closes the stream. -/
def beat (stream : PolicyStream) : Acted :=
  if stream.started && stream.isOpen && stream.torn then { stream.cleanup with failed := true } else stream.leave

def notify (hub : Hub) (revision : Nat) : StreamOutcome × Hub :=
  if (revision : Int) ≤ hub.highestRevision ∨ hub.closed then (.done, hub)
  else
    let act := fun (_ : Nat) => listen revision
    let next := hub.each act
    (.delivered (hub.failures act), { next with highestRevision := revision })

/-- `parseRevision`. -/
def parseRevision (message : String) : Option Nat := (canonicalInteger message).filter revisionOk

def step (hub : Hub) : StreamEvent → StreamOutcome × Hub
  | .stream request => hub.stream request
  | .notify revision => if !revisionOk revision then (.done, hub) else notify hub revision
  | .receive message =>
    match parseRevision message with
    | none => (.done, hub)
    | some revision => notify hub revision
  | .cancel i => (.done, hub.each (Hub.only i PolicyStream.endByClient))
  | .abort i => (.done, hub.each (Hub.only i PolicyStream.endByClient))
  | .heartbeat i =>
    let act := Hub.only i beat
    (.delivered (hub.failures act), hub.each act)
  | .tear i => (.done, hub.each (Hub.only i PolicyStream.tear))
  | .close => if hub.closed then (.done, hub) else { hub with closed := true }.close
  | .unsubscribe _ => (.done, hub)

end Redis

/-! ## The Durable Object -/

namespace DurableObjectStreams

/-- `publishRevision` for one subscriber. -/
def deliver (revision : Nat) (stream : PolicyStream) : Acted :=
  if stream.isOpen && decide (stream.seen < revision) then
    let seen := { stream with seen := revision }
    match seen.enqueue revision with
    | some written => written.leave
    | none => { seen.cleanup with failed := true }
  else stream.leave

def beat (stream : PolicyStream) : Acted :=
  if stream.isOpen && stream.torn then { stream.cleanup with failed := true } else stream.leave

/-- `unsubscribe` for one subscriber. -/
def unsubscribe (subscriptionId : String) (stream : PolicyStream) : Acted :=
  if stream.request.subscriptionId = some subscriptionId then stream.cleanup else stream.leave

/-- `this.subscribers.size`. -/
def size (streams : List PolicyStream) : Nat := streams.countP (·.isOpen)

def each (streams : List PolicyStream) (act : Nat → PolicyStream → Acted) : List PolicyStream :=
  streams.mapIdx fun i stream => (act i stream).stream

def failures (streams : List PolicyStream) (act : Nat → PolicyStream → Acted) : List Nat :=
  (List.range streams.length).filter fun i => streams[i]?.any fun stream => (act i stream).failed

/-- `subscribe`: when `start` throws, the subscriber stays. -/
def subscribe (streams : List PolicyStream) (request : StreamRequest) : StreamOutcome × List PolicyStream :=
  if maxSseSubscribers ≤ size streams then (.limited, streams)
  else
    let starting := PolicyStream.start request true
    match request.stored with
    | .error _ => (.threw, streams ++ [starting])
    | .ok stored =>
      let current := max (if revisionOk request.currentRevision then (request.currentRevision : Int) else -1) stored
      if starting.seen < current then
        match { starting with seen := current }.enqueue current.toNat with
        | none => (.threw, streams ++ [{ starting with seen := current }])
        | some greeted => (.opened streams.length, streams ++ [{ greeted with started := true }])
      else (.opened streams.length, streams ++ [{ starting with started := true }])

def step (streams : List PolicyStream) : StreamEvent → StreamOutcome × List PolicyStream
  | .stream request => subscribe streams request
  | .notify revision =>
    if !revisionOk revision then (.done, streams)
    else
      let act := fun (_ : Nat) => deliver revision
      (.delivered (failures streams act), each streams act)
  | .cancel i => (.done, each streams (Hub.only i PolicyStream.endByClient))
  | .unsubscribe subscriptionId => (.done, each streams fun _ => unsubscribe subscriptionId)
  | .heartbeat i =>
    let act := Hub.only i beat
    (.delivered (failures streams act), each streams act)
  | .tear i => (.done, each streams (Hub.only i PolicyStream.tear))
  | .receive _ | .abort _ | .close => (.done, streams)

end DurableObjectStreams

end Hyeboard.FeaturePolicy
