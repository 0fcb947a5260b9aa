import Hyeboard.FeaturePolicy.Streams
/-!
# What a stream is told

`PolicyEvents` is what the three implementations have in common, and
`StreamsKept` what a run of one of them owes its clients: every stream hears of
each revision once and in order, and the limit counts the streams that are open.
-/

namespace Hyeboard.FeaturePolicy

structure PolicyEvents where
  State : Type
  init : State
  streams : State → List PolicyStream
  /-- The number of streams compared with the limit. -/
  counted : State → Int
  step : State → StreamEvent → StreamOutcome × State
  /-- The revision an event notifies the instance of. -/
  notified : StreamEvent → Option Nat
  /-- Whether the event is the end of a stream: its client cancelled, its signal
  aborted, or everything closes. -/
  ends : State → StreamEvent → Nat → Bool
  /-- That nothing throws where the implementation does not expect it. -/
  Sound : State → StreamEvent → Prop

/-! ## The implementations -/

/-- `start` of a stream does not throw. -/
def Hub.StartSound (hub : Hub) (request : StreamRequest) : Prop :=
  request.torn = true → request.aborted = false ∧
    max (request.currentRevision : Int) hub.highestRevision ≤ PolicyStream.startSeen request.lastRevision

/-- Only the last stream's `close` may throw. -/
def Hub.CloseSound (hub : Hub) : Prop :=
  hub.streams.Pairwise fun stream later => stream.started && stream.closeThrows → (later.started && later.isOpen) = false

def Hub.ends : StreamEvent → Nat → Bool
  | .cancel i, j => i == j
  | .abort i, j => i == j
  | .close, _ => true
  | _, _ => false

def inProcessEvents : PolicyEvents :=
  { State := Hub
    init := .init
    streams := Hub.streams
    counted := Hub.activeStreams
    step := InProcess.step
    notified := fun
      | .notify revision => if revisionOk revision then some revision else none
      | _ => none
    ends := fun _ => Hub.ends
    Sound := fun hub event =>
      match event with
      | .stream request => hub.StartSound request
      | .close => hub.CloseSound
      | _ => True }

/-- No listener that would write the revision has lost its controller. -/
def Redis.NotifySound (hub : Hub) (revision : Nat) : Prop :=
  hub.highestRevision < revision → hub.closed = false → ∀ stream ∈ hub.streams, stream.wants revision = true →
    stream.torn = false

def Redis.notified : StreamEvent → Option Nat
  | .notify revision => if revisionOk revision then some revision else none
  | .receive message => Redis.parseRevision message
  | _ => none

def redisEvents : PolicyEvents :=
  { State := Hub
    init := .init
    streams := Hub.streams
    counted := Hub.activeStreams
    step := Redis.step
    notified := Redis.notified
    ends := fun _ => Hub.ends
    Sound := fun hub event =>
      match event with
      | .stream request => hub.StartSound request
      | .close => hub.CloseSound
      | event => ∀ revision ∈ Redis.notified event, Redis.NotifySound hub revision }

def durableObjectEvents : PolicyEvents :=
  { State := List PolicyStream
    init := []
    streams := id
    counted := fun streams => DurableObjectStreams.size streams
    step := DurableObjectStreams.step
    notified := fun
      | .notify revision => if revisionOk revision then some revision else none
      | _ => none
    ends := fun streams event i =>
      match event with
      | .cancel j => j == i
      | .unsubscribe subscriptionId => streams[i]?.any (·.request.subscriptionId == some subscriptionId)
      | _ => false
    Sound := fun _ event =>
      match event with
      | .stream request => ∃ stored, request.stored = .ok stored ∧
          (request.torn = true → max (request.currentRevision : Int) stored ≤ PolicyStream.startSeen request.lastRevision)
      | _ => True }

def policyEvents : List PolicyEvents := [inProcessEvents, redisEvents, durableObjectEvents]

/-! ## Runs -/

abbrev StreamStep (events : PolicyEvents) := Step events.State StreamEvent StreamOutcome

/-- A step that ends a stream: an end of `ends`, or an `enqueue` that threw. -/
def PolicyEvents.ended (events : PolicyEvents) (e : StreamStep events) (i : Nat) : Bool :=
  events.ends e.before e.call i ||
    match e.result with
    | .delivered failures => failures.contains i
    | _ => false

def StreamOutcome.opens : StreamOutcome → List Nat
  | .opened i => [i]
  | _ => []

/-- The streams opened and not yet over. -/
def PolicyEvents.openIn (events : PolicyEvents) (trace : List (StreamStep events)) : List Nat :=
  outstanding (fun e => e.result.opens) events.ended trace

/-- Revisions are safe integers, and nothing opens after the final `close`. -/
def Admissible {events : PolicyEvents} (trace : List (StreamStep events)) : StreamEvent → Prop
  | .stream request => request.currentRevision ≤ maxSafeInteger ∧ (∀ last ∈ request.lastRevision, last ≤ maxSafeInteger) ∧
      ∀ e ∈ trace, e.call ≠ .close
  | _ => True

abbrev StreamRun (events : PolicyEvents) (ok : events.State → StreamEvent → Prop) (trace : List (StreamStep events))
    (s : events.State) (clock : Nat) : Prop :=
  Run events.step (fun _ => 0) (fun trace s event => Admissible trace event ∧ ok s event) events.init trace s clock

/-- The greatest revision written to the stream, or its `lastRevision`, is at
least this one. -/
def PolicyStream.Reached (stream : PolicyStream) (revision : Nat) : Prop :=
  ∃ greatest, (greatest ∈ stream.written ∨ stream.request.lastRevision = some greatest) ∧ revision ≤ greatest

structure StreamsKept (events : PolicyEvents) (trace : List (StreamStep events)) (s : events.State) : Prop where
  /-- Every opening has its stream. -/
  opened : ∀ e ∈ trace, ∀ request i, e.call = .stream request → e.result = .opened i →
    ∃ stream, (events.streams s)[i]? = some stream ∧ stream.request = request
  /-- What is written to a stream increases, from beyond its `lastRevision`. -/
  increasing : ∀ stream ∈ events.streams s, stream.written.Pairwise (· < ·) ∧
    ∀ revision ∈ stream.written, ∀ last ∈ stream.request.lastRevision, last < revision
  /-- An open stream has heard of the revision it was opened with. -/
  current : ∀ i ∈ events.openIn trace, ∀ stream, (events.streams s)[i]? = some stream →
    stream.Reached stream.request.currentRevision
  /-- ... and of every revision notified since. -/
  notified : ∀ before e after i revision, trace = before ++ e :: after → e.result = .opened i →
    (∃ e' ∈ after, events.notified e'.call = some revision) → i ∈ events.openIn trace →
    ∀ stream, (events.streams s)[i]? = some stream → stream.Reached revision
  counted : events.counted s = (events.openIn trace).length

/-! ## One stream -/

structure StreamOk (stream : PolicyStream) : Prop where
  sorted : stream.written.Pairwise (· < ·)
  above : ∀ revision ∈ stream.written, ∀ last ∈ stream.request.lastRevision, last < revision
  upto : ∀ revision ∈ stream.written, (revision : Int) ≤ stream.seen
  last : ∀ last ∈ stream.request.lastRevision, (last : Int) ≤ stream.seen
  reached : stream.isOpen = true → ∀ revision : Nat, (revision : Int) ≤ stream.seen → stream.Reached revision
  opened : stream.isOpen = true → (stream.request.currentRevision : Int) ≤ stream.seen
  started : stream.isOpen = true → stream.started = true ∧ stream.listening = true

/-- What a step may do to a stream, over or not. -/
structure Moves (stream next : PolicyStream) (ended : Bool) (notified : Option Nat) : Prop where
  ok : StreamOk next
  request : next.request = stream.request
  isOpen : next.isOpen = (stream.isOpen && !ended)
  seen : stream.seen ≤ next.seen
  notified : ∀ revision ∈ notified, next.isOpen = true → (revision : Int) ≤ next.seen

/-- ... and to `activeStreams`. -/
structure Acts (stream : PolicyStream) (acted : Acted) (ended : Bool) (notified : Option Nat) : Prop where
  moves : Moves stream acted.stream (ended || acted.failed) notified
  released : acted.released + acted.stream.isOpen.toNat = stream.isOpen.toNat

section
variable {stream : PolicyStream} {ended : Bool} {notified : Option Nat} {revision : Nat}

/-- A stream that is left as it is was not open if it was to end. -/
theorem acts_leave (h : StreamOk stream) (hover : ended = true → stream.isOpen = false)
    (hnotified : ∀ revision ∈ notified, stream.isOpen = true → (revision : Int) ≤ stream.seen) :
    Acts stream stream.leave ended notified := by
  refine ⟨⟨h, rfl, ?_, Int.le_refl _, hnotified⟩, Nat.zero_add _⟩
  cases hopen : stream.isOpen with
  | false => exact hopen
  | true =>
    cases ended with
    | false => exact hopen
    | true => exact absurd (hover rfl) (by rw [hopen]; exact Bool.noConfusion)

/-- Whatever a stream has seen, it may be closed. -/
theorem StreamOk.close (h : StreamOk stream) {seen : Int} (hseen : stream.seen ≤ seen) :
    StreamOk { stream with seen, isOpen := false, listening := false } :=
  { sorted := h.sorted, above := h.above
    upto := fun revision hmem => Int.le_trans (h.upto revision hmem) hseen
    last := fun last hmem => Int.le_trans (h.last last hmem) hseen
    reached := fun hopen => absurd hopen Bool.false_ne_true
    opened := fun hopen => absurd hopen Bool.false_ne_true
    started := fun hopen => absurd hopen Bool.false_ne_true }

theorem acts_cleanup (h : StreamOk stream) {seen : Int} (hseen : stream.seen ≤ seen) (hopen : stream.isOpen = true)
    (failed : Bool) (hover : (ended || failed) = true) :
    Acts stream { ({ stream with seen } : PolicyStream).cleanup with failed } ended notified := by
  have hclosed : ({ stream with seen } : PolicyStream).cleanup =
      { stream := { stream with seen, isOpen := false, listening := false }, released := 1, failed := false } := by
    rw [PolicyStream.cleanup]
    exact if_pos hopen
  rw [hclosed]
  constructor
  · refine ⟨h.close hseen, rfl, ?_, hseen, ?_⟩
    · rw [hover, Bool.not_true, Bool.and_false]
    · intro revision _ hnow
      cases hnow
  · rw [hopen]
    rfl

theorem acts_end (h : StreamOk stream) (hopen : stream.isOpen = true) : Acts stream stream.cleanup true none := by
  have hcleanup : Acts stream { stream.cleanup with failed := false } true none :=
    acts_cleanup h (Int.le_refl _) hopen false rfl
  rw [PolicyStream.cleanup, if_pos hopen] at hcleanup ⊢
  exact hcleanup

/-- A newer revision is written. -/
theorem StreamOk.write (h : StreamOk stream) (hnew : stream.seen < revision) :
    StreamOk { stream with seen := revision, written := stream.written ++ [revision] } := by
  constructor
  · rw [List.pairwise_append]
    refine ⟨h.sorted, List.pairwise_singleton _ _, ?_⟩
    intro old hold new hmem
    rw [List.mem_singleton] at hmem
    have hle := h.upto old hold
    omega
  · intro r hmem last hlast
    rcases List.mem_append.1 hmem with hmem | hmem
    · exact h.above r hmem last hlast
    · rw [List.mem_singleton] at hmem
      have hle := h.last last hlast
      omega
  · intro r hmem
    rcases List.mem_append.1 hmem with hmem | hmem
    · have hle := h.upto r hmem
      exact Int.le_of_lt (Int.lt_of_le_of_lt hle hnew)
    · rw [List.mem_singleton] at hmem
      rw [hmem]
  · intro last hlast
    exact Int.le_of_lt (Int.lt_of_le_of_lt (h.last last hlast) hnew)
  · intro _ r hle
    exact ⟨revision, .inl (List.mem_append_right _ (List.mem_singleton.2 rfl)), Int.ofNat_le.1 hle⟩
  · intro hopen
    exact Int.le_of_lt (Int.lt_of_le_of_lt (h.opened hopen) hnew)
  · exact h.started

theorem acts_write (h : StreamOk stream) (hnew : stream.seen < revision) :
    Acts stream { stream with seen := revision, written := stream.written ++ [revision] }.leave false (some revision) := by
  refine ⟨⟨h.write hnew, rfl, ?_, Int.le_of_lt hnew, ?_⟩, Nat.zero_add _⟩
  · exact (Bool.and_true _).symm
  · intro r hmem _
    cases hmem
    exact Int.le_refl _

theorem startSeen_eq {lastRevision : Option Nat} (h : ∀ last ∈ lastRevision, last ≤ maxSafeInteger) :
    (∀ last ∈ lastRevision, PolicyStream.startSeen lastRevision = last) ∧
      (lastRevision = none → PolicyStream.startSeen lastRevision = -1) := by
  constructor
  · rintro last hlast
    have hsome : lastRevision = some last := hlast
    subst hsome
    have hok : revisionOk last = true := decide_eq_true (h last rfl)
    rw [PolicyStream.startSeen, if_pos hok]
  · rintro rfl
    rfl

/-- A stream that starts is in order once it has seen what is current. -/
theorem streamOk_start {request : StreamRequest} (hlast : ∀ last ∈ request.lastRevision, last ≤ maxSafeInteger)
    (hcurrent : (request.currentRevision : Int) ≤ PolicyStream.startSeen request.lastRevision) :
    StreamOk { PolicyStream.start request true with started := true } := by
  obtain ⟨hsome, hnone⟩ := startSeen_eq hlast
  refine ⟨List.Pairwise.nil, ?_, ?_, ?_, ?_, fun _ => hcurrent, fun _ => ⟨rfl, rfl⟩⟩
  · intro _ hmem
    cases hmem
  · intro _ hmem
    cases hmem
  · intro last hmem
    exact Int.le_of_eq (hsome last hmem).symm
  · intro _ revision hle
    cases hrequest : request.lastRevision with
    | none =>
      have hseen : (revision : Int) ≤ -1 := (hnone hrequest) ▸ hle
      omega
    | some last =>
      have hseen : (revision : Int) ≤ last := (hsome last hrequest) ▸ hle
      exact ⟨last, .inr hrequest, Int.ofNat_le.1 hseen⟩

theorem streamOk_greeted {request : StreamRequest} {current : Nat}
    (hlast : ∀ last ∈ request.lastRevision, last ≤ maxSafeInteger) (hcurrent : request.currentRevision ≤ current)
    (hnew : PolicyStream.startSeen request.lastRevision < current) :
    StreamOk { PolicyStream.start request true with seen := (current : Int), written := [current], started := true } := by
  obtain ⟨hsome, -⟩ := startSeen_eq hlast
  refine ⟨List.pairwise_singleton _ _, ?_, ?_, ?_, ?_, fun _ => Int.ofNat_le.2 hcurrent, fun _ => ⟨rfl, rfl⟩⟩
  · intro revision hmem last hmem'
    rw [List.mem_singleton] at hmem
    have heq := hsome last hmem'
    omega
  · intro revision hmem
    rw [List.mem_singleton] at hmem
    exact Int.le_of_eq (congrArg _ hmem)
  · intro last hmem
    have heq := hsome last hmem
    change (last : Int) ≤ current
    omega
  · intro _ revision hle
    exact ⟨current, .inl (List.mem_singleton.2 rfl), Int.ofNat_le.1 hle⟩

end

/-! ## All streams -/

/-- What a step that opens no stream may do to the list of them. -/
structure Keeps (streams next : List PolicyStream) (ended : Nat → Bool) (notified : Option Nat) : Prop where
  length : next.length = streams.length
  moves : ∀ (i : Nat) stream, streams[i]? = some stream → ∃ after, next[i]? = some after ∧
    Moves stream after (ended i) notified

section
variable {streams : List PolicyStream} {act : Nat → PolicyStream → Acted} {ended : Nat → Bool} {notified : Option Nat}

/-- The streams that failed, next to those that end. -/
def overOf (ends : Nat → Bool) (failures : List Nat) (i : Nat) : Bool := ends i || failures.contains i

theorem keeps_each {failures : List Nat}
    (hacts : ∀ (i : Nat) stream, streams[i]? = some stream → Acts stream (act i stream) (ended i) notified)
    (hfailures : ∀ (i : Nat) stream, streams[i]? = some stream → failures.contains i = (act i stream).failed) :
    Keeps streams (streams.mapIdx fun i stream => (act i stream).stream) (overOf ended failures) notified := by
  refine ⟨List.length_mapIdx, ?_⟩
  intro i stream hget
  refine ⟨(act i stream).stream, ?_, ?_⟩
  · rw [List.getElem?_mapIdx, hget, Option.map_some]
  · rw [overOf, hfailures i stream hget]
    exact (hacts i stream hget).moves

/-- What the actions release is what is open no longer. -/
theorem released_each (act : Nat → PolicyStream → Acted) (hacts : ∀ (i : Nat) stream, streams[i]? = some stream →
      (act i stream).released + (act i stream).stream.isOpen.toNat = stream.isOpen.toNat) :
    (streams.mapIdx fun i stream => (act i stream).released).sum +
        (streams.mapIdx fun i stream => (act i stream).stream).countP (·.isOpen) = streams.countP (·.isOpen) := by
  induction streams generalizing act with
  | nil => rfl
  | cons stream rest ih =>
    have hfirst := hacts 0 stream rfl
    have hrest := ih (fun i => act (i + 1)) fun i s hget => hacts (i + 1) s hget
    rw [List.mapIdx_cons, List.mapIdx_cons, List.sum_cons, List.countP_cons, List.countP_cons]
    cases hopen : stream.isOpen <;> cases hnext : (act 0 stream).stream.isOpen <;>
      simp only [hopen, hnext, Bool.toNat_true, Bool.toNat_false, if_true, Bool.false_eq_true, if_false] at hfirst hrest ⊢ <;> omega

theorem mem_failures (i : Nat) (stream : PolicyStream) (hget : streams[i]? = some stream) :
    ((List.range streams.length).filter fun i => streams[i]?.any fun stream => (act i stream).failed).contains i =
      (act i stream).failed := by
  have hlt := (List.getElem?_eq_some_iff.1 hget).1
  rw [Bool.eq_iff_iff, List.contains_iff_mem, List.mem_filter, List.mem_range, hget]
  simp [hlt]

end

/-- What opening a stream may come to. -/
inductive Opens (streams : List PolicyStream) (request : StreamRequest) : StreamOutcome → List PolicyStream → Prop
  | opened (stream : PolicyStream) (ok : StreamOk stream) (hrequest : stream.request = request)
      (hopen : stream.isOpen = true) : Opens streams request (.opened streams.length) (streams ++ [stream])
  | aborted (stream : PolicyStream) (ok : StreamOk stream) (hrequest : stream.request = request)
      (hopen : stream.isOpen = false) : Opens streams request (.aborted streams.length) (streams ++ [stream])
  | limited : Opens streams request .limited streams

/-- The streams there were stay, and at most one open one joins them. -/
theorem Opens.spec {streams next : List PolicyStream} {request : StreamRequest} {outcome : StreamOutcome}
    (h : Opens streams request outcome next) :
    (∀ (i : Nat) stream, streams[i]? = some stream → next[i]? = some stream) ∧
      (∀ i, i ∈ outcome.opens ↔ outcome = .opened i) ∧ (∀ failures, outcome ≠ .delivered failures) ∧
      (∀ (i : Nat) stream, next[i]? = some stream → stream.isOpen = true → streams[i]? = some stream ∨ outcome = .opened i) ∧
      ∀ i, outcome = .opened i → i = streams.length ∧
        ∃ stream, next[i]? = some stream ∧ stream.isOpen = true ∧ stream.request = request := by
  have hkept : ∀ new (i : Nat) (stream : PolicyStream), streams[i]? = some stream → (streams ++ [new])[i]? = some stream := by
    intro new i stream hget
    rw [List.getElem?_append_left (List.getElem?_eq_some_iff.1 hget).1]
    exact hget
  have hnew : ∀ new (i : Nat) (stream : PolicyStream), (streams ++ [new])[i]? = some stream →
      streams[i]? = some stream ∨ i = streams.length ∧ stream = new := by
    intro new i stream hget
    rw [List.getElem?_append] at hget
    split at hget
    · exact .inl hget
    · rw [List.getElem?_singleton] at hget
      split at hget
      · cases hget
        exact .inr ⟨by omega, rfl⟩
      · cases hget
  cases h with
  | opened new hok hrequest hopen =>
    refine ⟨hkept new, ?_, (fun _ h => by cases h), ?_, ?_⟩
    · intro i
      simp only [StreamOutcome.opens, List.mem_singleton, StreamOutcome.opened.injEq]
      exact eq_comm
    · intro i stream hget _
      rcases hnew new i stream hget with hold | ⟨rfl, -⟩
      · exact .inl hold
      · exact .inr rfl
    · intro i hopened
      cases hopened
      exact ⟨rfl, new, by simp, hopen, hrequest⟩
  | aborted new hok hrequest hclosed =>
    refine ⟨hkept new, ?_, (fun _ h => by cases h), ?_, ?_⟩
    · intro i
      constructor
      · intro hmem
        cases hmem
      · intro hopened
        cases hopened
    · intro i stream hget hopen
      rcases hnew new i stream hget with hold | ⟨-, rfl⟩
      · exact .inl hold
      · rw [hclosed] at hopen
        cases hopen
    · intro i hopened
      cases hopened
  | limited =>
    refine ⟨fun _ _ hget => hget, ?_, (fun _ h => by cases h), (fun _ _ hget _ => .inl hget), ?_⟩
    · intro i
      constructor
      · intro hmem
        cases hmem
      · intro hopened
        cases hopened
    · intro i hopened
      cases hopened

/-! ## The hub -/

structure Hub.Ok (hub : Hub) : Prop where
  streams : ∀ stream ∈ hub.streams, StreamOk stream
  counted : hub.activeStreams = hub.streams.countP (·.isOpen)
  /-- An open stream is not behind what the instance was notified of. -/
  ahead : ∀ stream ∈ hub.streams, stream.isOpen = true → hub.highestRevision ≤ stream.seen
  safe : hub.highestRevision ≤ maxSafeInteger
  closed : hub.closed = true → ∀ stream ∈ hub.streams, stream.isOpen = false

section
variable {hub : Hub} {act : Nat → PolicyStream → Acted} {ended : Nat → Bool} {notified : Option Nat}

theorem Hub.Ok.each (h : hub.Ok)
    (hacts : ∀ (i : Nat) stream, hub.streams[i]? = some stream → Acts stream (act i stream) (ended i) notified)
    {highest : Int} (hsafe : highest ≤ maxSafeInteger)
    (hhighest : ∀ seen : Int, hub.highestRevision ≤ seen → (∀ revision ∈ notified, (revision : Int) ≤ seen) → highest ≤ seen) :
    Hub.Ok { hub.each act with highestRevision := highest } ∧
      Keeps hub.streams (hub.each act).streams (overOf ended (hub.failures act)) notified := by
  have hkeeps : Keeps hub.streams (hub.each act).streams (overOf ended (hub.failures act)) notified :=
    keeps_each hacts fun i stream hget => mem_failures i stream hget
  have hmoved : ∀ next ∈ (hub.each act).streams, ∃ stream ∈ hub.streams, ∃ ended, Moves stream next ended notified := by
    intro next hmem
    obtain ⟨i, hget⟩ := List.mem_iff_getElem?.1 hmem
    have hlt : i < hub.streams.length := hkeeps.length ▸ (List.getElem?_eq_some_iff.1 hget).1
    obtain ⟨after, hafter, hmoves⟩ := hkeeps.moves i hub.streams[i] (List.getElem?_eq_getElem hlt)
    rw [hget, Option.some_inj] at hafter
    subst hafter
    exact ⟨_, List.getElem_mem hlt, _, hmoves⟩
  have hwas : ∀ stream next ended, Moves stream next ended notified → next.isOpen = true → stream.isOpen = true := by
    intro stream next ended hmoves hopen
    rw [hmoves.isOpen, Bool.and_eq_true] at hopen
    exact hopen.1
  refine ⟨⟨?_, ?_, ?_, hsafe, ?_⟩, hkeeps⟩
  · intro next hmem
    obtain ⟨stream, -, ended, hmoves⟩ := hmoved next hmem
    exact hmoves.ok
  · have hreleased := released_each act fun i stream hget => (hacts i stream hget).released
    have hcounted := h.counted
    simp only [Hub.each]
    omega
  · intro next hmem hopen
    obtain ⟨stream, hstream, ended, hmoves⟩ := hmoved next hmem
    have hahead := h.ahead stream hstream (hwas stream next ended hmoves hopen)
    exact hhighest next.seen (Int.le_trans hahead hmoves.seen) fun revision hr => hmoves.notified revision hr hopen
  · intro hclosed next hmem
    obtain ⟨stream, hstream, ended, hmoves⟩ := hmoved next hmem
    rw [hmoves.isOpen, h.closed hclosed stream hstream, Bool.false_and]

/-- A step that only acts on streams. -/
theorem Hub.Ok.acts (h : hub.Ok)
    (hacts : ∀ (i : Nat) stream, hub.streams[i]? = some stream → Acts stream (act i stream) (ended i) none) :
    (hub.each act).Ok ∧ Keeps hub.streams (hub.each act).streams (overOf ended (hub.failures act)) none :=
  h.each hacts h.safe fun _ hle _ => hle

theorem acts_endByClient {stream : PolicyStream} (h : StreamOk stream) : Acts stream stream.endByClient true none := by
  have hnone : ∀ revision ∈ (none : Option Nat), stream.isOpen = true → (revision : Int) ≤ stream.seen := by
    intro _ hmem
    cases hmem
  unfold PolicyStream.endByClient
  cases hopen : stream.isOpen with
  | false =>
    have hleave : stream.cleanup = stream.leave := by
      rw [PolicyStream.cleanup, hopen]
      rfl
    rw [hleave, ite_self]
    exact acts_leave h (fun _ => hopen) hnone
  | true =>
    rw [(h.started hopen).1, if_pos rfl]
    exact acts_end h hopen

/-- What is done to one stream only, ends only that. -/
theorem acts_only {i j : Nat} {stream : PolicyStream} {act : PolicyStream → Acted} {ended : Bool} (h : StreamOk stream)
    (hact : Acts stream (act stream) ended none) : Acts stream (Hub.only i act j stream) (i == j && ended) none := by
  unfold Hub.only
  split
  · rename_i heq
    rw [heq, beq_self_eq_true, Bool.true_and]
    exact hact
  · rename_i hne
    have hfalse : (i == j) = false := beq_eq_false_iff_ne.2 (Ne.symm hne)
    rw [hfalse, Bool.false_and]
    apply acts_leave h
    · intro hover
      cases hover
    · intro _ hmem
      cases hmem

/-- The first event of a stream whose controller takes it. -/
theorem greet_eq {request : StreamRequest} {highest : Int} (hcurrent : request.currentRevision ≤ maxSafeInteger)
    (hlast : ∀ last ∈ request.lastRevision, last ≤ maxSafeInteger) (hsafe : highest ≤ maxSafeInteger)
    (hsound : request.torn = true → max (request.currentRevision : Int) highest ≤ PolicyStream.startSeen request.lastRevision) :
    ∃ greeted, (PolicyStream.start request true).greet (max (request.currentRevision : Int) highest) = some greeted ∧
      StreamOk { greeted with started := true } ∧ greeted.request = request ∧ greeted.isOpen = true ∧
      highest ≤ greeted.seen ∧ greeted.torn = request.torn := by
  obtain ⟨current, hcurrentEq⟩ : ∃ current : Nat, max (request.currentRevision : Int) highest = current :=
    ⟨(max (request.currentRevision : Int) highest).toNat, by omega⟩
  rw [hcurrentEq] at hsound ⊢
  by_cases hnew : PolicyStream.startSeen request.lastRevision < current
  · have htorn : request.torn = false := by
      cases htorn : request.torn with
      | false => rfl
      | true => exact absurd (hsound htorn) (Int.not_le.2 hnew)
    refine ⟨{ PolicyStream.start request true with seen := current, written := [current] }, ?_, ?_, rfl, rfl, ?_, rfl⟩
    · have hcond : (0 : Int) ≤ current ∧ (current : Int) ≤ maxSafeInteger ∧
          (PolicyStream.start request true).seen < current := ⟨Int.natCast_nonneg _, by omega, hnew⟩
      rw [PolicyStream.greet, if_pos hcond, PolicyStream.enqueue]
      simp only [PolicyStream.start, htorn, Bool.false_eq_true, if_false, List.nil_append, Int.toNat_natCast]
    · have hge : request.currentRevision ≤ current := by omega
      exact streamOk_greeted hlast hge hnew
    · change highest ≤ (current : Int)
      omega
  · have hle : (current : Int) ≤ PolicyStream.startSeen request.lastRevision := Int.not_lt.1 hnew
    refine ⟨PolicyStream.start request true, ?_, ?_, rfl, rfl, ?_, rfl⟩
    · rw [PolicyStream.greet, if_neg]
      exact fun hcond => hnew hcond.2.2
    · have hstart : (request.currentRevision : Int) ≤ PolicyStream.startSeen request.lastRevision := by omega
      exact streamOk_start hlast hstart
    · change highest ≤ PolicyStream.startSeen request.lastRevision
      omega

/-- One more stream. -/
theorem Hub.Ok.push (h : hub.Ok) {stream : PolicyStream} (hok : StreamOk stream) (hahead : hub.highestRevision ≤ stream.seen)
    (hclosed : hub.closed = false) {activeStreams : Int} (hactive : activeStreams = hub.activeStreams + stream.isOpen.toNat) :
    Hub.Ok { hub with streams := hub.streams ++ [stream], activeStreams } := by
  refine ⟨?_, ?_, ?_, h.safe, ?_⟩
  · intro other hmem
    rcases List.mem_append.1 hmem with hmem | hmem
    · exact h.streams other hmem
    · rw [List.mem_singleton] at hmem
      exact hmem ▸ hok
  · rw [hactive, h.counted, List.countP_append, List.countP_singleton]
    cases stream.isOpen <;> simp
  · intro other hmem hopen
    rcases List.mem_append.1 hmem with hmem | hmem
    · exact h.ahead other hmem hopen
    · rw [List.mem_singleton] at hmem
      exact hmem ▸ hahead
  · intro hnow
    rw [hclosed] at hnow
    cases hnow

theorem Hub.Ok.stream (h : hub.Ok) {request : StreamRequest} (hsound : hub.StartSound request) (hclosed : hub.closed = false)
    (hcurrent : request.currentRevision ≤ maxSafeInteger) (hlast : ∀ last ∈ request.lastRevision, last ≤ maxSafeInteger) :
    (hub.stream request).2.Ok ∧ Opens hub.streams request (hub.stream request).1 (hub.stream request).2.streams := by
  obtain ⟨greeted, hgreet, hok, hrequest, hopen, hahead, htorn⟩ :=
    greet_eq hcurrent hlast h.safe fun htorn => (hsound htorn).2
  unfold Hub.stream
  split
  · exact ⟨h, .limited⟩
  · have hlistening : (!hub.closed) = true := by
      rw [hclosed]
      rfl
    simp only [hlistening, hgreet]
    cases haborted : request.aborted with
    | false =>
      simp only [Bool.false_eq_true, if_false]
      refine ⟨?_, .opened { greeted with started := true } hok hrequest hopen⟩
      have hactive : hub.activeStreams + 1 = hub.activeStreams + ({ greeted with started := true } : PolicyStream).isOpen.toNat := by
        simp only [hopen]
        rfl
      exact h.push hok hahead hclosed hactive
    | true =>
      -- a controller that is there lets `close` through
      have hthere : greeted.torn = false := by
        rw [htorn]
        cases hnot : request.torn with
        | false => rfl
        | true => exact absurd (hsound hnot).1 (by rw [haborted]; exact Bool.noConfusion)
      have hended : ({ greeted with started := true } : PolicyStream).cleanup =
          { stream := { greeted with started := true, isOpen := false, listening := false }, released := 1, failed := false } := by
        rw [PolicyStream.cleanup]
        exact if_pos hopen
      have hno : ({ greeted with started := true } : PolicyStream).closeThrows = false := by
        rw [PolicyStream.closeThrows, hthere, Bool.and_false]
      simp only [if_true, hended, hno, Bool.false_eq_true, if_false]
      have hclose := hok.close (Int.le_refl _)
      refine ⟨h.push hclose hahead hclosed ?_, .aborted _ hclose hrequest rfl⟩
      simp

theorem acts_tear {stream : PolicyStream} (h : StreamOk stream) : Acts stream stream.tear false none := by
  refine ⟨⟨⟨h.sorted, h.above, h.upto, h.last, h.reached, h.opened, h.started⟩, rfl, ?_, Int.le_refl _, ?_⟩, Nat.zero_add _⟩
  · exact (Bool.and_true _).symm
  · intro _ hnone
    cases hnone

theorem endByClient_eq (stream : PolicyStream) :
    stream.endByClient = if stream.started && stream.isOpen then stream.cleanup else stream.leave := by
  unfold PolicyStream.endByClient PolicyStream.cleanup
  cases stream.started <;> cases stream.isOpen <;> rfl

/-- When only the last `close` may throw, the loop ends every stream. -/
theorem closeStreams_eq {streams : List PolicyStream}
    (h : streams.Pairwise fun stream later => stream.started && stream.closeThrows → (later.started && later.isOpen) = false) :
    (Hub.closeStreams streams).1 = streams.map (fun stream => stream.endByClient.stream) ∧
      (Hub.closeStreams streams).2.1 = (streams.map fun stream => stream.endByClient.released).sum := by
  induction streams with
  | nil => exact ⟨rfl, rfl⟩
  | cons stream rest ih =>
    obtain ⟨hlater, hrest⟩ := List.pairwise_cons.1 h
    obtain ⟨hstreams, hreleased⟩ := ih hrest
    have hend := endByClient_eq stream
    rw [Hub.closeStreams, List.map_cons, List.map_cons, List.sum_cons, hend]
    split
    · rename_i hknown
      cases hthrows : stream.closeThrows with
      | true =>
        -- the loop stops here, and no open stream is left
        have hstarted : stream.started = true := (Bool.and_eq_true _ _ ▸ hknown).1
        have hleft : ∀ later ∈ rest, later.endByClient = later.leave := by
          intro later hmem
          have hnone := hlater later hmem (by rw [hstarted, hthrows]; rfl)
          rw [endByClient_eq, hnone]
          rfl
        have hsame : rest.map (fun stream => stream.endByClient.stream) = rest := by
          rw [List.map_congr_left fun later hmem => congrArg Acted.stream (hleft later hmem)]
          exact List.map_id _
        have hzero : (rest.map fun stream => stream.endByClient.released).sum = 0 := by
          rw [List.map_congr_left fun later hmem => congrArg Acted.released (hleft later hmem)]
          change (rest.map fun _ => 0).sum = 0
          simp
        rw [if_pos rfl, hsame, hzero, Nat.add_zero]
        exact ⟨rfl, rfl⟩
      | false =>
        rw [if_neg Bool.false_ne_true]
        simp only [hstreams, hreleased]
        exact ⟨trivial, trivial⟩
    · simp only [hstreams, hreleased]
      exact ⟨rfl, (Nat.zero_add _).symm⟩

/-- A stream that is not open has no listener to lose. -/
theorem moves_unlisten {stream next : PolicyStream} {ended : Bool} {notified : Option Nat} (h : Moves stream next ended notified)
    (hclosed : next.isOpen = false) : Moves stream { next with listening := false } ended notified := by
  have hno : ∀ {p : Prop}, next.isOpen = true → p := by
    intro p hopen
    rw [hclosed] at hopen
    cases hopen
  exact ⟨⟨h.ok.sorted, h.ok.above, h.ok.upto, h.ok.last, fun hopen => hno hopen, fun hopen => hno hopen,
    fun hopen => hno hopen⟩, h.request, h.isOpen, h.seen, fun _ _ hopen => hno hopen⟩

theorem mapIdx_const {α β : Type} (f : α → β) (l : List α) : (l.mapIdx fun _ a => f a) = l.map f := by
  apply List.ext_getElem?
  intro i
  rw [List.getElem?_mapIdx, List.getElem?_map]

/-- `close` ends every stream, whether it sets `closed` or not. -/
theorem Hub.Ok.close (h : hub.Ok) (hsound : hub.CloseSound) (closed : Bool) :
    ({ hub with closed } : Hub).close.2.Ok ∧
      Keeps hub.streams ({ hub with closed } : Hub).close.2.streams (fun _ => true) none ∧
      ∀ i, ({ hub with closed } : Hub).close.1 ≠ .opened i := by
  obtain ⟨hstreams, hreleased⟩ := closeStreams_eq hsound
  have hacts : ∀ (i : Nat) stream, hub.streams[i]? = some stream → Acts stream stream.endByClient true none :=
    fun i stream hget => acts_endByClient (h.streams stream (List.mem_of_getElem? hget))
  have hmoves : ∀ stream ∈ hub.streams, Moves stream stream.endByClient.stream true none := by
    intro stream hmem
    have hacted := (acts_endByClient (h.streams stream hmem)).moves
    rwa [Bool.true_or] at hacted
  have hover : ∀ stream ∈ hub.streams, stream.endByClient.stream.isOpen = false := by
    intro stream hmem
    rw [(hmoves stream hmem).isOpen, Bool.not_true, Bool.and_false]
  have hcounted : hub.activeStreams - (Hub.closeStreams hub.streams).2.1 = 0 := by
    have hsum := released_each (fun _ stream => stream.endByClient) fun i stream hget => (hacts i stream hget).released
    rw [mapIdx_const, mapIdx_const] at hsum
    have hnone : (hub.streams.map fun stream => stream.endByClient.stream).countP (·.isOpen) = 0 := by
      rw [List.countP_eq_zero]
      intro next hnext
      obtain ⟨stream, hmem, rfl⟩ := List.mem_map.1 hnext
      rw [hover stream hmem]
      exact Bool.false_ne_true
    have hactive := h.counted
    omega
  -- both outcomes come to a list of ended streams
  have hfinal : ∀ f : PolicyStream → PolicyStream, (∀ stream ∈ hub.streams, Moves stream (f stream) true none) →
      (∀ stream ∈ hub.streams, (f stream).isOpen = false) →
      Hub.Ok { hub with closed, streams := hub.streams.map f, activeStreams := 0 } ∧
        Keeps hub.streams (hub.streams.map f) (fun _ => true) none := by
    intro f hf hclosed
    refine ⟨⟨?_, ?_, ?_, h.safe, ?_⟩, List.length_map _, ?_⟩
    · intro next hnext
      obtain ⟨stream, hmem, rfl⟩ := List.mem_map.1 hnext
      exact (hf stream hmem).ok
    · have hnone : (hub.streams.map f).countP (·.isOpen) = 0 := by
        rw [List.countP_eq_zero]
        intro next hnext
        obtain ⟨stream, hmem, rfl⟩ := List.mem_map.1 hnext
        rw [hclosed stream hmem]
        exact Bool.false_ne_true
      rw [hnone]
      rfl
    · intro next hnext hopen
      obtain ⟨stream, hmem, rfl⟩ := List.mem_map.1 hnext
      rw [hclosed stream hmem] at hopen
      cases hopen
    · intro _ next hnext
      obtain ⟨stream, hmem, rfl⟩ := List.mem_map.1 hnext
      exact hclosed stream hmem
    · intro i stream hget
      refine ⟨f stream, ?_, hf stream (List.mem_of_getElem? hget)⟩
      rw [List.getElem?_map, hget, Option.map_some]
  unfold Hub.close
  simp only [hstreams, hcounted]
  split
  · obtain ⟨hok, hkeeps⟩ := hfinal _ hmoves hover
    refine ⟨hok, hkeeps, ?_⟩
    intro i hopened
    cases hopened
  · obtain ⟨hok, hkeeps⟩ := hfinal (fun stream => { stream.endByClient.stream with listening := false })
      (fun stream hmem => moves_unlisten (hmoves stream hmem) (hover stream hmem)) hover
    rw [List.map_map]
    refine ⟨hok, hkeeps, ?_⟩
    intro i hopened
    cases hopened

end

/-! ## One step -/

section
variable {streams next : List PolicyStream} {ended ended' : Nat → Bool} {notified : Option Nat}

theorem Keeps.congr (h : Keeps streams next ended notified)
    (hsame : ∀ (i : Nat) stream, streams[i]? = some stream → ended i = ended' i) : Keeps streams next ended' notified := by
  refine ⟨h.length, ?_⟩
  intro i stream hget
  rw [← hsame i stream hget]
  exact h.moves i stream hget

theorem Keeps.refl (h : ∀ stream ∈ streams, StreamOk stream) : Keeps streams streams (fun _ => false) none := by
  refine ⟨rfl, ?_⟩
  intro i stream hget
  refine ⟨stream, hget, h stream (List.mem_of_getElem? hget), rfl, (Bool.and_true _).symm, Int.le_refl _, ?_⟩
  intro _ hnone
  cases hnone

end

/-- What every implementation's step does, as long as it is sound. -/
structure Lawful (events : PolicyEvents) (Ok : events.State → Prop) (Closed : events.State → Prop) : Prop where
  init : Ok events.init
  empty : events.streams events.init = []
  opening : ¬ Closed events.init
  streams : ∀ s, Ok s → ∀ stream ∈ events.streams s, StreamOk stream
  counted : ∀ s, Ok s → events.counted s = (events.streams s).countP (·.isOpen)
  /-- An opening ends no stream and notifies of nothing. -/
  silent : ∀ s request, events.notified (.stream request) = none ∧ ∀ i, events.ends s (.stream request) i = false
  stream : ∀ s request, Ok s → events.Sound s (.stream request) → ¬ Closed s → request.currentRevision ≤ maxSafeInteger →
    (∀ last ∈ request.lastRevision, last ≤ maxSafeInteger) →
    Ok (events.step s (.stream request)).2 ∧
      Opens (events.streams s) request (events.step s (.stream request)).1 (events.streams (events.step s (.stream request)).2) ∧
      (Closed (events.step s (.stream request)).2 → Closed s)
  other : ∀ s event, Ok s → events.Sound s event → (∀ request, event ≠ .stream request) →
    Ok (events.step s event).2 ∧
      Keeps (events.streams s) (events.streams (events.step s event).2) (events.ended (stepOf events.step s event))
        (events.notified event) ∧
      (∀ i, (events.step s event).1 ≠ .opened i) ∧ (Closed (events.step s event).2 → Closed s ∨ event = .close)

section
variable {hub : Hub} {stream : PolicyStream} {revision : Nat}

/-- A listener that does not want a revision has seen one as new. -/
theorem not_wants (h : StreamOk stream) (hwants : stream.wants revision = false) (hopen : stream.isOpen = true) :
    (revision : Int) ≤ stream.seen := by
  rw [PolicyStream.wants, hopen, (h.started hopen).2, Bool.true_and, Bool.true_and] at hwants
  exact Int.not_lt.1 (of_decide_eq_false hwants)

theorem wants_iff : stream.wants revision = true ↔
    stream.listening = true ∧ stream.isOpen = true ∧ stream.seen < revision := by
  rw [PolicyStream.wants, Bool.and_eq_true, Bool.and_eq_true, decide_eq_true_eq, and_assoc]

theorem enqueue_seen (stream : PolicyStream) (revision : Nat) :
    ({ stream with seen := (revision : Int) } : PolicyStream).enqueue revision =
      if stream.torn then none else some { stream with seen := revision, written := stream.written ++ [revision] } := rfl

theorem acts_listen (h : StreamOk stream) : Acts stream (InProcess.listen revision stream) false (some revision) := by
  unfold InProcess.listen
  cases hwants : stream.wants revision with
  | false =>
    apply acts_leave h Bool.noConfusion
    intro r hmem hopen
    cases hmem
    exact not_wants h hwants hopen
  | true =>
    obtain ⟨-, hopen, hnew⟩ := wants_iff.1 hwants
    simp only [if_true, enqueue_seen]
    by_cases htorn : stream.torn = true
    · rw [if_pos htorn]
      exact acts_cleanup h (Int.le_of_lt hnew) hopen true (Bool.or_true _)
    · rw [if_neg htorn]
      exact acts_write h hnew

theorem acts_listenRedis (h : StreamOk stream) (hthere : stream.wants revision = true → stream.torn = false) :
    Acts stream (Redis.listen revision stream) false (some revision) := by
  unfold Redis.listen
  cases hwants : stream.wants revision with
  | false =>
    apply acts_leave h Bool.noConfusion
    intro r hmem hopen
    cases hmem
    exact not_wants h hwants hopen
  | true =>
    obtain ⟨-, hopen, hnew⟩ := wants_iff.1 hwants
    simp only [if_true, enqueue_seen]
    rw [if_neg (by rw [hthere hwants]; exact Bool.false_ne_true)]
    exact acts_write h hnew

theorem acts_deliver (h : StreamOk stream) : Acts stream (DurableObjectStreams.deliver revision stream) false (some revision) := by
  have hsame : DurableObjectStreams.deliver revision stream = InProcess.listen revision stream := by
    unfold DurableObjectStreams.deliver InProcess.listen PolicyStream.wants
    cases hopen : stream.isOpen with
    | false => simp
    | true => simp [(h.started hopen).2]
  rw [hsame]
  exact acts_listen h

theorem acts_beat (h : StreamOk stream) : Acts stream (Redis.beat stream) false none := by
  unfold Redis.beat
  split
  · rename_i hbeat
    have hopen : stream.isOpen = true := by
      rw [Bool.and_eq_true, Bool.and_eq_true] at hbeat
      exact hbeat.1.2
    exact acts_cleanup h (Int.le_refl _) hopen true rfl
  · apply acts_leave h Bool.noConfusion
    intro _ hmem
    cases hmem

theorem acts_beatDurably (h : StreamOk stream) : Acts stream (DurableObjectStreams.beat stream) false none := by
  unfold DurableObjectStreams.beat
  split
  · rename_i hbeat
    exact acts_cleanup h (Int.le_refl _) (Bool.and_eq_true _ _ ▸ hbeat).1 true rfl
  · apply acts_leave h Bool.noConfusion
    intro _ hmem
    cases hmem

theorem endByClient_failed (stream : PolicyStream) : stream.endByClient.failed = false := by
  rw [endByClient_eq]
  unfold PolicyStream.cleanup
  split
  · split <;> rfl
  · rfl

/-- A client, or a signal, ends one stream. -/
theorem Hub.Ok.client (h : hub.Ok) (i : Nat) :
    (hub.each (Hub.only i PolicyStream.endByClient)).Ok ∧
      Keeps hub.streams (hub.each (Hub.only i PolicyStream.endByClient)).streams (fun j => i == j) none := by
  obtain ⟨hok, hkeeps⟩ := h.acts fun j stream hget =>
    acts_only (i := i) (j := j) (h.streams stream (List.mem_of_getElem? hget))
      (acts_endByClient (h.streams stream (List.mem_of_getElem? hget)))
  refine ⟨hok, hkeeps.congr ?_⟩
  intro j stream hget
  have hnone : (Hub.only i PolicyStream.endByClient j stream).failed = false := by
    unfold Hub.only
    split
    · exact endByClient_failed stream
    · rfl
  rw [overOf, Hub.failures, mem_failures j stream hget, hnone, Bool.and_true, Bool.or_false]

theorem Hub.Ok.tear (h : hub.Ok) (i : Nat) :
    (hub.each (Hub.only i PolicyStream.tear)).Ok ∧
      Keeps hub.streams (hub.each (Hub.only i PolicyStream.tear)).streams (fun _ => false) none := by
  obtain ⟨hok, hkeeps⟩ := h.acts fun j stream hget =>
    acts_only (i := i) (j := j) (h.streams stream (List.mem_of_getElem? hget))
      (acts_tear (h.streams stream (List.mem_of_getElem? hget)))
  refine ⟨hok, hkeeps.congr ?_⟩
  intro j stream hget
  have hnone : (Hub.only i PolicyStream.tear j stream).failed = false := by
    unfold Hub.only
    split <;> rfl
  rw [overOf, Hub.failures, mem_failures j stream hget, hnone, Bool.and_false, Bool.or_false]

end

/-! ## The implementations are lawful -/

def StreamOutcome.failures : StreamOutcome → List Nat
  | .delivered failures => failures
  | _ => []

theorem over_stepOf (events : PolicyEvents) (s : events.State) (event : StreamEvent) :
    events.ended (stepOf events.step s event) = overOf (events.ends s event) (events.step s event).1.failures := by
  funext i
  simp only [PolicyEvents.ended, stepOf, overOf, StreamOutcome.failures]
  cases (events.step s event).1 <;> simp

/-- A step of the hub that opens no stream. -/
structure HubStep (hub : Hub) (event : StreamEvent) (notified : Option Nat) (result : StreamOutcome × Hub) : Prop where
  ok : result.2.Ok
  keeps : Keeps hub.streams result.2.streams (overOf (Hub.ends event) result.1.failures) notified
  opened : ∀ i, result.1 ≠ .opened i
  closed : result.2.closed = true → hub.closed = true ∨ event = .close

section
variable {hub : Hub}

theorem Hub.stream_closed (hub : Hub) (request : StreamRequest) : (hub.stream request).2.closed = hub.closed := by
  unfold Hub.stream
  split
  · rfl
  · dsimp only
    split
    · rfl
    · split
      · split <;> rfl
      · rfl

theorem Hub.close_failures (hub : Hub) : hub.close.1.failures = [] := by
  unfold Hub.close
  dsimp only
  split <;> rfl

theorem overOf_nil (ends : Nat → Bool) : overOf ends [] = ends := by
  funext i
  simp [overOf]

theorem revisionOk_le {revision : Nat} (h : revisionOk revision = true) : (revision : Int) ≤ maxSafeInteger :=
  Int.ofNat_le.2 (of_decide_eq_true h)

theorem hubStep_idle (h : hub.Ok) {event : StreamEvent} (hends : Hub.ends event = fun _ => false) :
    HubStep hub event none (.done, hub) := by
  refine ⟨h, ?_, (fun _ hopened => by cases hopened), fun hnow => .inl hnow⟩
  change Keeps _ _ (overOf (Hub.ends event) []) none
  rw [overOf_nil, hends]
  exact Keeps.refl h.streams

theorem hubStep_cancel (h : hub.Ok) (i : Nat) :
    HubStep hub (.cancel i) none (.done, hub.each (Hub.only i PolicyStream.endByClient)) := by
  obtain ⟨hok, hkeeps⟩ := h.client i
  refine ⟨hok, ?_, (fun _ hopened => by cases hopened), fun hnow => .inl hnow⟩
  change Keeps _ _ (overOf (Hub.ends (.cancel i)) []) none
  rw [overOf_nil]
  exact hkeeps

theorem hubStep_abort (h : hub.Ok) (i : Nat) :
    HubStep hub (.abort i) none (.done, hub.each (Hub.only i PolicyStream.endByClient)) := by
  obtain ⟨hok, hkeeps⟩ := h.client i
  refine ⟨hok, ?_, (fun _ hopened => by cases hopened), fun hnow => .inl hnow⟩
  change Keeps _ _ (overOf (Hub.ends (.abort i)) []) none
  rw [overOf_nil]
  exact hkeeps

theorem hubStep_tear (h : hub.Ok) (i : Nat) : HubStep hub (.tear i) none (.done, hub.each (Hub.only i PolicyStream.tear)) := by
  obtain ⟨hok, hkeeps⟩ := h.tear i
  refine ⟨hok, ?_, (fun _ hopened => by cases hopened), fun hnow => .inl hnow⟩
  change Keeps _ _ (overOf (Hub.ends (.tear i)) []) none
  rw [overOf_nil]
  exact hkeeps

theorem hubStep_close (h : hub.Ok) (hsound : hub.CloseSound) (closed : Bool) :
    HubStep hub .close none ({ hub with closed } : Hub).close := by
  obtain ⟨hok, hkeeps, hopened⟩ := h.close hsound closed
  refine ⟨hok, ?_, hopened, fun _ => .inr rfl⟩
  rw [Hub.close_failures, overOf_nil]
  exact hkeeps

theorem hubStep_notify (h : hub.Ok) {revision : Nat} (hrevision : revisionOk revision = true) {event : StreamEvent}
    (hends : Hub.ends event = fun _ => false) {listen : PolicyStream → Acted}
    (hlisten : ∀ stream ∈ hub.streams, Acts stream (listen stream) false (some revision)) {highest : Int}
    (hhighest : highest = max hub.highestRevision revision) :
    HubStep hub event (some revision) (.delivered (hub.failures fun _ => listen),
      { hub.each fun _ => listen with highestRevision := highest }) := by
  have hsafe := revisionOk_le hrevision
  have hhub := h.safe
  have hacts : ∀ (i : Nat) stream, hub.streams[i]? = some stream → Acts stream (listen stream) false (some revision) :=
    fun i stream hget => hlisten stream (List.mem_of_getElem? hget)
  have hle : highest ≤ maxSafeInteger := by omega
  obtain ⟨hok, hkeeps⟩ := h.each hacts hle fun seen hold hnew => hhighest ▸ Int.max_le.2 ⟨hold, hnew revision rfl⟩
  refine ⟨hok, ?_, (fun _ hopened => by cases hopened), fun hnow => .inl hnow⟩
  change Keeps _ _ (overOf (Hub.ends event) (hub.failures fun _ => listen)) _
  rw [hends]
  exact hkeeps

theorem inProcess_step (h : hub.Ok) {event : StreamEvent} (hsound : inProcessEvents.Sound hub event)
    (hother : ∀ request, event ≠ .stream request) :
    HubStep hub event (inProcessEvents.notified event) (InProcess.step hub event) := by
  cases event with
  | stream request => exact absurd rfl (hother request)
  | notify revision =>
    change HubStep hub (.notify revision) (if revisionOk revision then some revision else none)
      (if !revisionOk revision then _ else _)
    cases hrevision : revisionOk revision with
    | false => exact hubStep_idle h rfl
    | true =>
      exact hubStep_notify h hrevision rfl
        (fun stream hmem => acts_listen (h.streams stream hmem)) rfl
  | cancel i => exact hubStep_cancel h i
  | abort i => exact hubStep_abort h i
  | tear i => exact hubStep_tear h i
  | close => exact hubStep_close h hsound hub.closed
  | receive message => exact hubStep_idle h rfl
  | unsubscribe subscriptionId => exact hubStep_idle h rfl
  | heartbeat i => exact hubStep_idle h rfl

theorem redis_notify (h : hub.Ok) {revision : Nat} (hrevision : revisionOk revision = true) {event : StreamEvent}
    (hends : Hub.ends event = fun _ => false) (hsound : Redis.NotifySound hub revision) :
    HubStep hub event (some revision) (Redis.notify hub revision) := by
  unfold Redis.notify
  split
  · rename_i hdropped
    refine ⟨h, ?_, (fun _ hopened => by cases hopened), fun hnow => .inl hnow⟩
    refine ⟨rfl, ?_⟩
    intro i stream hget
    have hmem := List.mem_of_getElem? hget
    have hover : overOf (Hub.ends event) StreamOutcome.done.failures i = false := by
      change overOf (Hub.ends event) [] i = false
      rw [overOf_nil, hends]
    refine ⟨stream, hget, h.streams stream hmem, rfl, by rw [hover, Bool.not_false, Bool.and_true], Int.le_refl _, ?_⟩
    -- every open stream has seen the highest revision
    intro r hr hopen
    cases hr
    rcases hdropped with hle | hclosed
    · exact Int.le_trans hle (h.ahead stream hmem hopen)
    · rw [h.closed hclosed stream hmem] at hopen
      cases hopen
  · rename_i hnew
    rw [not_or, Int.not_le] at hnew
    have hthere := hsound hnew.1 (Bool.eq_false_iff.2 hnew.2)
    apply hubStep_notify h hrevision hends
    · intro stream hmem
      exact acts_listenRedis (h.streams stream hmem) (hthere stream hmem)
    · exact (Int.max_eq_right (Int.le_of_lt hnew.1)).symm

theorem parseRevision_ok {message : String} {revision : Nat} (h : Redis.parseRevision message = some revision) :
    revisionOk revision = true := (Option.filter_eq_some_iff.1 h).2

theorem hubStep_heartbeat (h : hub.Ok) (i : Nat) : HubStep hub (.heartbeat i) none
    (.delivered (hub.failures (Hub.only i Redis.beat)), hub.each (Hub.only i Redis.beat)) := by
  obtain ⟨hok, hkeeps⟩ := h.acts fun j stream hget =>
    acts_only (i := i) (j := j) (h.streams stream (List.mem_of_getElem? hget))
      (acts_beat (h.streams stream (List.mem_of_getElem? hget)))
  refine ⟨hok, ?_, (fun _ hopened => by cases hopened), fun hnow => .inl hnow⟩
  apply hkeeps.congr
  intro j stream _
  simp only [overOf, Bool.and_false, Bool.false_or, StreamOutcome.failures, Hub.ends]

theorem redis_step (h : hub.Ok) {event : StreamEvent} (hsound : redisEvents.Sound hub event)
    (hother : ∀ request, event ≠ .stream request) :
    HubStep hub event (Redis.notified event) (Redis.step hub event) := by
  cases event with
  | stream request => exact absurd rfl (hother request)
  | notify revision =>
    have hsound : ∀ r ∈ (if revisionOk revision then some revision else none), Redis.NotifySound hub r := hsound
    change HubStep hub (.notify revision) (if revisionOk revision then some revision else none)
      (if !revisionOk revision then (.done, hub) else Redis.notify hub revision)
    cases hrevision : revisionOk revision with
    | false => exact hubStep_idle h rfl
    | true =>
      rw [hrevision] at hsound
      exact redis_notify h hrevision rfl (hsound revision rfl)
  | receive message =>
    have hsound : ∀ r ∈ Redis.parseRevision message, Redis.NotifySound hub r := hsound
    simp only [Redis.step, Redis.notified]
    cases hparsed : Redis.parseRevision message with
    | none => exact hubStep_idle h rfl
    | some revision => exact redis_notify h (parseRevision_ok hparsed) rfl (hsound revision hparsed)
  | cancel i => exact hubStep_cancel h i
  | abort i => exact hubStep_abort h i
  | tear i => exact hubStep_tear h i
  | close =>
    unfold Redis.step
    cases hclosed : hub.closed with
    | true =>
      -- all streams were over already
      refine ⟨h, ?_, (fun _ hopened => by cases hopened), fun hnow => .inl hnow⟩
      refine ⟨rfl, ?_⟩
      intro i stream hget
      have hmem := List.mem_of_getElem? hget
      have hover := h.closed hclosed stream hmem
      refine ⟨stream, hget, h.streams stream hmem, rfl, by rw [hover, Bool.false_and], Int.le_refl _, ?_⟩
      intro _ hnone
      cases hnone
    | false => exact hubStep_close h hsound true
  | unsubscribe subscriptionId => exact hubStep_idle h rfl
  | heartbeat i => exact hubStep_heartbeat h i

theorem hub_init_ok : Hub.init.Ok := by
  refine ⟨?_, rfl, ?_, ?_, ?_⟩
  · intro _ hmem
    cases hmem
  · intro _ hmem
    cases hmem
  · change (-1 : Int) ≤ maxSafeInteger
    omega
  · intro hclosed
    cases hclosed

theorem inProcess_lawful : Lawful inProcessEvents Hub.Ok fun hub => hub.closed = true := by
  constructor
  · exact hub_init_ok
  · rfl
  · exact Bool.false_ne_true
  · exact fun _ h => h.streams
  · exact fun _ h => h.counted
  · exact fun _ _ => ⟨rfl, fun _ => rfl⟩
  · intro hub request h hsound hclosed hcurrent hlast
    obtain ⟨hok, hopens⟩ := h.stream hsound (Bool.eq_false_iff.2 hclosed) hcurrent hlast
    exact ⟨hok, hopens, fun hnow => (Hub.stream_closed hub request).symm.trans hnow⟩
  · intro hub event h hsound hother
    have hstep := inProcess_step h hsound hother
    rw [over_stepOf]
    exact ⟨hstep.ok, hstep.keeps, hstep.opened, hstep.closed⟩

theorem redis_lawful : Lawful redisEvents Hub.Ok fun hub => hub.closed = true := by
  constructor
  · exact hub_init_ok
  · rfl
  · exact Bool.false_ne_true
  · exact fun _ h => h.streams
  · exact fun _ h => h.counted
  · exact fun _ _ => ⟨rfl, fun _ => rfl⟩
  · intro hub request h hsound hclosed hcurrent hlast
    obtain ⟨hok, hopens⟩ := h.stream hsound (Bool.eq_false_iff.2 hclosed) hcurrent hlast
    exact ⟨hok, hopens, fun hnow => (Hub.stream_closed hub request).symm.trans hnow⟩
  · intro hub event h hsound hother
    have hstep := redis_step h hsound hother
    rw [over_stepOf]
    exact ⟨hstep.ok, hstep.keeps, hstep.opened, hstep.closed⟩

end

section
variable {streams : List PolicyStream}

theorem keeps_durably {act : Nat → PolicyStream → Acted} {ended : Nat → Bool}
    {notified : Option Nat}
    (hacts : ∀ (i : Nat) stream, streams[i]? = some stream → Acts stream (act i stream) (ended i) notified) :
    (∀ next ∈ DurableObjectStreams.each streams act, StreamOk next) ∧
      Keeps streams (DurableObjectStreams.each streams act)
        (overOf ended (DurableObjectStreams.failures streams act)) notified := by
  have hkeeps : Keeps streams (DurableObjectStreams.each streams act)
      (overOf ended (DurableObjectStreams.failures streams act)) notified :=
    keeps_each hacts fun i stream hget => mem_failures i stream hget
  refine ⟨?_, hkeeps⟩
  intro next hmem
  obtain ⟨i, hget⟩ := List.mem_iff_getElem?.1 hmem
  have hlt : i < streams.length := hkeeps.length ▸ (List.getElem?_eq_some_iff.1 hget).1
  obtain ⟨after, hafter, hmoves⟩ := hkeeps.moves i streams[i] (List.getElem?_eq_getElem hlt)
  rw [hget, Option.some_inj] at hafter
  exact hafter ▸ hmoves.ok

/-- The stream is opened, whether something is written first or not. -/
theorem subscribe_opens {request : StreamRequest} {stored : Nat} (hstored : request.stored = .ok stored)
    (hsound : request.torn = true → max (request.currentRevision : Int) stored ≤ PolicyStream.startSeen request.lastRevision)
    (hcurrent : request.currentRevision ≤ maxSafeInteger) (hlast : ∀ last ∈ request.lastRevision, last ≤ maxSafeInteger)
    (h : ∀ stream ∈ streams, StreamOk stream) :
    (∀ next ∈ (DurableObjectStreams.subscribe streams request).2, StreamOk next) ∧
      Opens streams request (DurableObjectStreams.subscribe streams request).1
        (DurableObjectStreams.subscribe streams request).2 := by
  have hpush : ∀ stream, StreamOk stream → ∀ next ∈ streams ++ [stream], StreamOk next := by
    intro stream hok next hmem
    rcases List.mem_append.1 hmem with hmem | hmem
    · exact h next hmem
    · rw [List.mem_singleton] at hmem
      exact hmem ▸ hok
  have hrevision : revisionOk request.currentRevision = true := decide_eq_true hcurrent
  unfold DurableObjectStreams.subscribe
  split
  · exact ⟨h, .limited⟩
  · simp only [hstored]
    obtain ⟨current, hcurrentEq⟩ : ∃ current : Nat, max (request.currentRevision : Int) stored = current :=
      ⟨max request.currentRevision stored, by omega⟩
    rw [hcurrentEq] at hsound ⊢
    have hge : request.currentRevision ≤ current := by omega
    split
    · rename_i hnew
      have htorn : request.torn = false := by
        cases htorn : request.torn with
        | false => rfl
        | true => exact absurd (hsound htorn) (Int.not_le.2 hnew)
      have hgreeted := streamOk_greeted hlast hge hnew
      have henqueue : ({ PolicyStream.start request true with seen := (current : Int) } : PolicyStream).enqueue
          (current : Int).toNat =
          some { PolicyStream.start request true with seen := (current : Int), written := [current] } := by
        rw [Int.toNat_natCast, enqueue_seen, if_neg (by rw [PolicyStream.start, htorn]; exact Bool.false_ne_true)]
        rfl
      rw [henqueue]
      exact ⟨hpush _ hgreeted, .opened _ hgreeted rfl rfl⟩
    · rename_i hnew
      have hle : (current : Int) ≤ PolicyStream.startSeen request.lastRevision := Int.not_lt.1 hnew
      have hstart : (request.currentRevision : Int) ≤ PolicyStream.startSeen request.lastRevision := by omega
      have hok := streamOk_start hlast hstart
      exact ⟨hpush _ hok, .opened _ hok rfl rfl⟩

theorem acts_unsubscribe {stream : PolicyStream} (h : StreamOk stream) (subscriptionId : String) :
    Acts stream (DurableObjectStreams.unsubscribe subscriptionId stream)
      (stream.request.subscriptionId == some subscriptionId) none := by
  have hnone : ∀ revision ∈ (none : Option Nat), stream.isOpen = true → (revision : Int) ≤ stream.seen := by
    intro _ hmem
    cases hmem
  unfold DurableObjectStreams.unsubscribe
  split
  · rename_i hname
    rw [hname, beq_self_eq_true]
    cases hopen : stream.isOpen with
    | false =>
      rw [PolicyStream.cleanup, hopen]
      exact acts_leave h (fun _ => hopen) hnone
    | true =>
      exact acts_end h hopen
  · rename_i hname
    rw [beq_eq_false_iff_ne.2 hname]
    exact acts_leave h Bool.noConfusion hnone

/-- What a step of the Durable Object that opens no stream comes to. -/
structure DurableStep (streams : List PolicyStream) (ends : Nat → Bool) (notified : Option Nat)
    (result : StreamOutcome × List PolicyStream) : Prop where
  ok : ∀ stream ∈ result.2, StreamOk stream
  keeps : Keeps streams result.2 (overOf ends result.1.failures) notified
  opened : ∀ i, result.1 ≠ .opened i

theorem durable_idle (h : ∀ stream ∈ streams, StreamOk stream) : DurableStep streams (fun _ => false) none (.done, streams) := by
  refine ⟨h, ?_, fun _ hopened => by cases hopened⟩
  change Keeps _ _ (overOf (fun _ => false) []) none
  rw [overOf_nil]
  exact Keeps.refl h

theorem durable_failing {act : Nat → PolicyStream → Acted} {ends : Nat → Bool}
    {notified : Option Nat}
    (hacts : ∀ (i : Nat) stream, streams[i]? = some stream → Acts stream (act i stream) (ends i) notified) :
    DurableStep streams ends notified
      (.delivered (DurableObjectStreams.failures streams act), DurableObjectStreams.each streams act) := by
  obtain ⟨hok, hkeeps⟩ := keeps_durably hacts
  exact ⟨hok, hkeeps, fun _ hopened => by cases hopened⟩

theorem durable_done {act : Nat → PolicyStream → Acted} {ends : Nat → Bool}
    (hacts : ∀ (i : Nat) stream, streams[i]? = some stream → Acts stream (act i stream) (ends i) none)
    (hfailed : ∀ (i : Nat) stream, (act i stream).failed = false) :
    DurableStep streams ends none (.done, DurableObjectStreams.each streams act) := by
  obtain ⟨hok, hkeeps⟩ := keeps_durably hacts
  refine ⟨hok, ?_, fun _ hopened => by cases hopened⟩
  change Keeps _ _ (overOf ends []) none
  rw [overOf_nil]
  apply hkeeps.congr
  intro i stream hget
  rw [overOf, DurableObjectStreams.failures, mem_failures i stream hget, hfailed, Bool.or_false]

theorem durable_step (h : ∀ stream ∈ streams, StreamOk stream) {event : StreamEvent} (hother : ∀ request, event ≠ .stream request) :
    DurableStep streams (durableObjectEvents.ends streams event) (durableObjectEvents.notified event)
      (DurableObjectStreams.step streams event) := by
  have hget : ∀ (i : Nat) stream, streams[i]? = some stream → StreamOk stream :=
    fun i stream hsome => h stream (List.mem_of_getElem? hsome)
  cases event with
  | stream request => exact absurd rfl (hother request)
  | notify revision =>
    change DurableStep streams (fun _ => false) (if revisionOk revision then some revision else none)
      (if !revisionOk revision then (.done, streams) else _)
    cases revisionOk revision with
    | false => exact durable_idle h
    | true => exact durable_failing fun i stream hsome => acts_deliver (hget i stream hsome)
  | cancel i =>
    change DurableStep streams (fun j => i == j) none _
    apply durable_done
    · intro j stream hsome
      have hacts := acts_only (i := i) (j := j) (hget j stream hsome) (acts_endByClient (hget j stream hsome))
      rwa [Bool.and_true] at hacts
    · intro j stream
      unfold Hub.only
      split
      · exact endByClient_failed stream
      · rfl
  | unsubscribe subscriptionId =>
    change DurableStep streams (fun i => streams[i]?.any (·.request.subscriptionId == some subscriptionId)) none _
    apply durable_done
    · intro i stream hsome
      rw [hsome]
      exact acts_unsubscribe (hget i stream hsome) subscriptionId
    · intro i stream
      unfold DurableObjectStreams.unsubscribe PolicyStream.cleanup
      split
      · split <;> rfl
      · rfl
  | heartbeat i =>
    apply durable_failing
    intro j stream hsome
    have hacts := acts_only (i := i) (j := j) (hget j stream hsome) (acts_beatDurably (hget j stream hsome))
    rwa [Bool.and_false] at hacts
  | tear i =>
    change DurableStep streams (fun _ => false) none _
    apply durable_done
    · intro j stream hsome
      have hacts := acts_only (i := i) (j := j) (hget j stream hsome) (acts_tear (hget j stream hsome))
      rwa [Bool.and_false] at hacts
    · intro j stream
      unfold Hub.only
      split <;> rfl
  | receive message => exact durable_idle h
  | abort i => exact durable_idle h
  | close => exact durable_idle h

theorem durableObject_lawful :
    Lawful durableObjectEvents (fun streams : List PolicyStream => ∀ stream ∈ streams, StreamOk stream) fun _ => False := by
  constructor
  · intro _ hmem
    cases hmem
  · rfl
  · exact id
  · exact fun _ h => h
  · exact fun _ _ => rfl
  · exact fun _ _ => ⟨rfl, fun _ => rfl⟩
  · intro streams request h hsound _ hcurrent hlast
    obtain ⟨stored, hstored, hthere⟩ := hsound
    obtain ⟨hok, hopens⟩ := subscribe_opens hstored hthere hcurrent hlast h
    exact ⟨hok, hopens, id⟩
  · intro streams event h _ hother
    have hstep := durable_step h hother
    rw [over_stepOf]
    exact ⟨hstep.ok, hstep.keeps, hstep.opened, False.elim⟩

end

/-! ## Every run -/

/-- Open streams, counted by their places. -/
theorem length_open (streams : List PolicyStream) :
    ((List.range streams.length).filter fun i => streams[i]?.any (·.isOpen)).length = streams.countP (·.isOpen) := by
  induction streams using List.reverseRecOn with
  | nil => rfl
  | append_singleton streams stream ih =>
    rw [List.length_append, List.length_singleton, List.range_succ, List.filter_append, List.length_append,
      List.countP_append, List.countP_singleton, ← ih]
    congr 1
    · congr 1
      apply List.filter_congr
      intro i hmem
      rw [List.getElem?_append_left (List.mem_range.1 hmem)]
    · simp [List.filter_singleton]
      cases stream.isOpen <;> rfl

/-- What is known of a lawful implementation after a run. -/
structure Followed (events : PolicyEvents) (Ok Closed : events.State → Prop) (trace : List (StreamStep events))
    (s : events.State) : Prop where
  ok : Ok s
  closed : Closed s → ∃ e ∈ trace, e.call = .close
  opened : ∀ e ∈ trace, ∀ i, e.result = .opened i →
    ∃ stream, (events.streams s)[i]? = some stream ∧ e.call = .stream stream.request
  /-- The streams opened and not yet over are the open ones. -/
  isOpen : ∀ i, i ∈ events.openIn trace ↔ ∃ stream, (events.streams s)[i]? = some stream ∧ stream.isOpen = true
  nodup : (events.openIn trace).Nodup
  notified : ∀ before e after i revision, trace = before ++ e :: after → e.result = .opened i →
    (∃ e' ∈ after, events.notified e'.call = some revision) →
    ∀ stream, (events.streams s)[i]? = some stream → stream.isOpen = true → (revision : Int) ≤ stream.seen

section
variable {events : PolicyEvents} {Ok Closed : events.State → Prop} {trace : List (StreamStep events)} {s : events.State}

/-- What a split of a longer trace says about the shorter. -/
theorem split_snoc {α : Type*} {trace before after : List α} {e first : α} (h : trace ++ [e] = before ++ first :: after) :
    after = [] ∨ ∃ rest, after = rest ++ [e] ∧ trace = before ++ first :: rest := by
  rcases List.eq_nil_or_concat' after with rfl | ⟨rest, last, rfl⟩
  · exact .inl rfl
  · right
    rw [← List.cons_append, ← List.append_assoc] at h
    obtain ⟨rfl, hlast⟩ := List.append_inj' h rfl
    exact ⟨rest, by rw [List.singleton_inj.1 hlast], rfl⟩

theorem Keeps.back {streams next : List PolicyStream} {ended : Nat → Bool} {notified : Option Nat}
    (h : Keeps streams next ended notified) {i : Nat} {after : PolicyStream} (hget : next[i]? = some after) :
    ∃ stream, streams[i]? = some stream ∧ Moves stream after (ended i) notified := by
  have hlt : i < streams.length := h.length ▸ (List.getElem?_eq_some_iff.1 hget).1
  obtain ⟨other, hother, hmoves⟩ := h.moves i streams[i] (List.getElem?_eq_getElem hlt)
  rw [hget, Option.some_inj] at hother
  exact ⟨streams[i], List.getElem?_eq_getElem hlt, hother ▸ hmoves⟩

theorem mem_openIn_snoc {e : StreamStep events} {i : Nat} :
    i ∈ events.openIn (trace ++ [e]) ↔ i ∈ events.openIn trace ∧ events.ended e i = false ∨ i ∈ e.result.opens :=
  mem_outstanding_snoc

/-- A step that opens no stream. -/
theorem Followed.other (h : Followed events Ok Closed trace s) (hlawful : Lawful events Ok Closed) {event : StreamEvent}
    (hsound : events.Sound s event) (hother : ∀ request, event ≠ .stream request) :
    Followed events Ok Closed (trace ++ [stepOf events.step s event]) (events.step s event).2 := by
  obtain ⟨hok, hkeeps, hnone, hclosed⟩ := hlawful.other s event h.ok hsound hother
  have hopens : (stepOf events.step s event).result.opens = [] := by
    unfold StreamOutcome.opens
    split
    · rename_i i heq
      exact absurd heq (hnone i)
    · rfl
  constructor
  · exact hok
  · intro hnow
    rcases hclosed hnow with hwas | hevent
    · obtain ⟨e, hmem, hclose⟩ := h.closed hwas
      exact ⟨e, List.mem_append_left _ hmem, hclose⟩
    · exact ⟨_, List.mem_append_right _ (List.mem_singleton.2 rfl), hevent⟩
  · intro e hmem i hresult
    rcases List.mem_append.1 hmem with hmem | hmem
    · obtain ⟨stream, hget, hcall⟩ := h.opened e hmem i hresult
      obtain ⟨after, hafter, hmoves⟩ := hkeeps.moves i stream hget
      exact ⟨after, hafter, hmoves.request ▸ hcall⟩
    · rw [List.mem_singleton] at hmem
      subst hmem
      exact absurd hresult (hnone i)
  · intro i
    rw [mem_openIn_snoc, hopens, h.isOpen]
    constructor
    · rintro (⟨⟨stream, hget, hopen⟩, hover⟩ | hmem)
      · obtain ⟨after, hafter, hmoves⟩ := hkeeps.moves i stream hget
        refine ⟨after, hafter, ?_⟩
        rw [hmoves.isOpen, hopen, hover]
        rfl
      · cases hmem
    · rintro ⟨after, hafter, hopen⟩
      obtain ⟨stream, hget, hmoves⟩ := hkeeps.back hafter
      rw [hmoves.isOpen, Bool.and_eq_true, Bool.not_eq_true'] at hopen
      exact .inl ⟨⟨stream, hget, hopen.1⟩, hopen.2⟩
  · have hsnoc : events.openIn (trace ++ [stepOf events.step s event]) = _ := outstanding_snoc trace _
    rw [hsnoc, hopens, List.append_nil]
    exact h.nodup.filter _
  · intro before e after i revision hsplit hresult hnotified stream hget hopen
    obtain ⟨old, hold, hmoves⟩ := hkeeps.back hget
    obtain ⟨e', hmem, hrevision⟩ := hnotified
    rcases split_snoc hsplit with rfl | ⟨rest, rfl, hrest⟩
    · cases hmem
    · rcases List.mem_append.1 hmem with hmem | hmem
      · have hopenOld : old.isOpen = true := by
          rw [hmoves.isOpen, Bool.and_eq_true] at hopen
          exact hopen.1
        exact Int.le_trans (h.notified before e rest i revision hrest hresult ⟨e', hmem, hrevision⟩ old hold hopenOld)
          hmoves.seen
      · rw [List.mem_singleton] at hmem
        subst hmem
        exact hmoves.notified revision hrevision hopen

/-- A step that opens a stream, or would. -/
theorem Followed.stream (h : Followed events Ok Closed trace s) (hlawful : Lawful events Ok Closed) {request : StreamRequest}
    (hadmissible : Admissible trace (.stream request)) (hsound : events.Sound s (.stream request)) :
    Followed events Ok Closed (trace ++ [stepOf events.step s (.stream request)]) (events.step s (.stream request)).2 := by
  have hopening : ¬ Closed s := by
    intro hclosed
    obtain ⟨e, hmem, hclose⟩ := h.closed hclosed
    exact hadmissible.2.2 e hmem hclose
  obtain ⟨hok, hopens, hclosed⟩ := hlawful.stream s request h.ok hsound hopening hadmissible.1 hadmissible.2.1
  obtain ⟨hsilent, hends⟩ := hlawful.silent s request
  generalize hstep : stepOf events.step s (.stream request) = e
  have hcall : e.call = .stream request := hstep ▸ rfl
  have hresult : (events.step s (.stream request)).1 = e.result := hstep ▸ rfl
  have hnext : (events.step s (.stream request)).2 = e.after := hstep ▸ rfl
  rw [hnext] at hok hclosed ⊢
  rw [hresult, hnext] at hopens
  obtain ⟨hkept, hmem, hdelivered, hback, hnew⟩ := hopens.spec
  have hover : ∀ i, events.ended e i = false := by
    intro i
    have hbefore : events.ends e.before e.call i = false := hstep ▸ hends i
    rw [PolicyEvents.ended, hbefore, Bool.false_or]
    split
    · rename_i failures heq
      exact absurd heq (hdelivered failures)
    · rfl
  constructor
  · exact hok
  · intro hnow
    obtain ⟨e', hmem', hclose⟩ := h.closed (hclosed hnow)
    exact ⟨e', List.mem_append_left _ hmem', hclose⟩
  · intro e' hmem' i hopened
    rcases List.mem_append.1 hmem' with hmem' | hmem'
    · obtain ⟨stream, hget, hcall'⟩ := h.opened e' hmem' i hopened
      exact ⟨stream, hkept i stream hget, hcall'⟩
    · rw [List.mem_singleton] at hmem'
      subst hmem'
      obtain ⟨-, stream, hget, -, hrequest⟩ := hnew i hopened
      exact ⟨stream, hget, hrequest ▸ hcall⟩
  · intro i
    rw [mem_openIn_snoc, h.isOpen, hmem, hover]
    constructor
    · rintro (⟨⟨stream, hget, hopen⟩, -⟩ | hopened)
      · exact ⟨stream, hkept i stream hget, hopen⟩
      · obtain ⟨-, stream, hget, hopen, -⟩ := hnew i hopened
        exact ⟨stream, hget, hopen⟩
    · rintro ⟨stream, hget, hopen⟩
      rcases hback i stream hget hopen with hold | hopened
      · exact .inl ⟨⟨stream, hold, hopen⟩, rfl⟩
      · exact .inr hopened
  · have hsnoc : events.openIn (trace ++ [e]) = _ := outstanding_snoc trace e
    rw [hsnoc]
    apply (h.nodup.filter _).append
    · unfold StreamOutcome.opens
      split
      · exact List.nodup_singleton _
      · exact List.nodup_nil
    · intro i hold hopened
      obtain ⟨stream, hget, -⟩ := (h.isOpen i).1 (List.mem_filter.1 hold).1
      have hlt := (List.getElem?_eq_some_iff.1 hget).1
      have heq := (hnew i ((hmem i).1 hopened)).1
      omega
  · intro before first after i revision hsplit hfirst hnotified stream hget hopen
    obtain ⟨e', hmem', hrevision⟩ := hnotified
    rcases split_snoc hsplit with rfl | ⟨rest, rfl, hrest⟩
    · cases hmem'
    · rcases List.mem_append.1 hmem' with hmem' | hmem'
      · obtain ⟨old, hold, -⟩ := h.opened first (hrest ▸ by simp) i hfirst
        have hsame := hkept i old hold
        rw [hget, Option.some_inj] at hsame
        subst hsame
        exact h.notified before first rest i revision hrest hfirst ⟨e', hmem', hrevision⟩ stream hold hopen
      · -- an opening notifies of nothing
        rw [List.mem_singleton] at hmem'
        subst hmem'
        rw [hcall, hsilent] at hrevision
        cases hrevision

theorem Followed.kept (h : Followed events Ok Closed trace s) (hlawful : Lawful events Ok Closed) :
    StreamsKept events trace s := by
  have hstreams := hlawful.streams s h.ok
  have hopen : ∀ i ∈ events.openIn trace, ∀ stream, (events.streams s)[i]? = some stream →
      StreamOk stream ∧ stream.isOpen = true := by
    intro i hmem stream hget
    obtain ⟨other, hother, hopen⟩ := (h.isOpen i).1 hmem
    rw [hget, Option.some_inj] at hother
    subst hother
    exact ⟨hstreams stream (List.mem_of_getElem? hget), hopen⟩
  constructor
  · intro e hmem request i hcall hresult
    obtain ⟨stream, hget, hsame⟩ := h.opened e hmem i hresult
    rw [hcall, StreamEvent.stream.injEq] at hsame
    exact ⟨stream, hget, hsame.symm⟩
  · intro stream hmem
    exact ⟨(hstreams stream hmem).sorted, (hstreams stream hmem).above⟩
  · intro i hmem stream hget
    obtain ⟨hok, hnow⟩ := hopen i hmem stream hget
    exact hok.reached hnow _ (hok.opened hnow)
  · intro before e after i revision hsplit hresult hnotified hmem stream hget
    obtain ⟨hok, hnow⟩ := hopen i hmem stream hget
    exact hok.reached hnow _ (h.notified before e after i revision hsplit hresult hnotified stream hget hnow)
  · -- both lists name every open stream once
    have hperm : (events.openIn trace).Perm
        ((List.range (events.streams s).length).filter fun i => (events.streams s)[i]?.any (·.isOpen)) := by
      rw [List.perm_ext_iff_of_nodup h.nodup (List.nodup_range.filter _)]
      intro i
      rw [h.isOpen, List.mem_filter, List.mem_range]
      constructor
      · rintro ⟨stream, hget, hnow⟩
        refine ⟨(List.getElem?_eq_some_iff.1 hget).1, ?_⟩
        rw [hget]
        exact hnow
      · rintro ⟨hlt, hany⟩
        rw [List.getElem?_eq_getElem hlt] at hany
        exact ⟨_, List.getElem?_eq_getElem hlt, hany⟩
    rw [hlawful.counted s h.ok, hperm.length_eq, length_open]

theorem Followed.start (hlawful : Lawful events Ok Closed) : Followed events Ok Closed [] events.init := by
  have hempty := hlawful.empty
  constructor
  · exact hlawful.init
  · exact fun hclosed => absurd hclosed hlawful.opening
  · intro _ hmem
    cases hmem
  · intro i
    rw [hempty]
    constructor
    · intro hmem
      cases hmem
    · rintro ⟨_, hget, -⟩
      cases hget
  · exact List.nodup_nil
  · intro before e after i revision hsplit
    cases before <;> cases hsplit

/-- The induction over the run: an opening, or any other step. -/
theorem Lawful.followed (hlawful : Lawful events Ok Closed) {clock : Nat}
    (h : StreamRun events events.Sound trace s clock) : Followed events Ok Closed trace s := by
  apply Run.invariant (fun trace s _ => Followed events Ok Closed trace s) (Followed.start hlawful) _ h
  intro trace s clock event _ hfollowed _ hok
  by_cases hopening : ∃ request, event = .stream request
  · obtain ⟨request, rfl⟩ := hopening
    exact hfollowed.stream hlawful hok.1 hok.2
  · exact hfollowed.other hlawful hok.2 fun request heq => hopening ⟨request, heq⟩

end

/-- As long as nothing throws where an implementation does not expect it, its
streams lose nothing, repeat nothing and are counted right. -/
theorem revision_streams_kept {events : PolicyEvents} (hmem : events ∈ policyEvents) {trace : List (StreamStep events)}
    {s : events.State} {clock : Nat} (h : StreamRun events events.Sound trace s clock) : StreamsKept events trace s := by
  simp only [policyEvents, List.mem_cons, List.not_mem_nil, or_false] at hmem
  rcases hmem with rfl | rfl | rfl
  · exact (inProcess_lawful.followed h).kept inProcess_lawful
  · exact (redis_lawful.followed h).kept redis_lawful
  · exact (durableObject_lawful.followed h).kept durableObject_lawful

def sampleRequest : StreamRequest :=
  { lastRevision := some 0, currentRevision := 1, subscriptionId := none, aborted := false, torn := false, stored := .ok 1 }

theorem sampleRequest_admissible (events : PolicyEvents) : Admissible ([] : List (StreamStep events)) (.stream sampleRequest) := by
  refine ⟨by decide, ?_, ?_⟩
  · intro last hmem
    cases hmem
    decide
  · intro _ hmem
    cases hmem

theorem StreamRun.next {events : PolicyEvents} {ok : events.State → StreamEvent → Prop} {trace : List (StreamStep events)}
    {s : events.State} (h : StreamRun events ok trace s 0) (event : StreamEvent) (hadmissible : Admissible trace event)
    (hok : ok s event) : StreamRun events ok (trace ++ [stepOf events.step s event]) (events.step s event).2 0 :=
  h.call event (Nat.le_refl 0) ⟨hadmissible, hok⟩

/-- A stream over Redis that hears of revisions 3 and 2 and is cancelled. -/
def sampleStream : List StreamEvent := [.stream sampleRequest, .notify 3, .receive "2", .cancel 0]

theorem revision_streams_kept_sample :
    StreamsKept redisEvents (execute redisEvents.step redisEvents.init sampleStream)
      (stateAfter redisEvents.step redisEvents.init sampleStream) := by
  have hstart : redisEvents.Sound redisEvents.init (.stream sampleRequest) := by
    intro htorn
    cases htorn
  have hopen := StreamRun.next .start _ (sampleRequest_admissible redisEvents) hstart
  have hwhole : ∀ stream ∈ (redisEvents.step redisEvents.init (.stream sampleRequest)).2.streams, stream.torn = false := by
    decide +kernel
  have hnotify := hopen.next (.notify 3) trivial fun _ _ _ _ stream hmem _ => hwhole stream hmem
  have hreceive := hnotify.next (.receive "2") trivial <| by
    intro revision hmem hnew
    -- 2 is not newer than 3
    have htwo : Redis.parseRevision "2" = some 2 := by decide +kernel
    have heq : revision = 2 := Option.some.inj (hmem.symm.trans htwo)
    subst heq
    exact absurd hnew (by decide +kernel)
  have hcancel := hreceive.next (.cancel 0) trivial <| by
    intro _ hmem
    cases hmem
  have hredis : redisEvents ∈ policyEvents := by simp [policyEvents]
  exact revision_streams_kept hredis hcancel

/-- Over Redis a stream whose controller is gone fails when it is notified, and
keeps its place under the limit. -/
theorem failed_stream_keeps_place : ¬ ∀ events ∈ policyEvents, ∀ (trace : List (StreamStep events)) s clock,
    StreamRun events (fun _ _ => True) trace s clock → StreamsKept events trace s := by
  intro hall
  have hopen : StreamRun redisEvents (fun _ _ => True) _ _ 0 :=
    StreamRun.next .start _ (sampleRequest_admissible redisEvents) trivial
  have htear := hopen.next (.tear 0) trivial trivial
  have hnotify := htear.next (.notify 2) trivial trivial
  have hredis : redisEvents ∈ policyEvents := by simp [policyEvents]
  have hcounted := (hall redisEvents hredis _ _ _ hnotify).counted
  exact absurd hcounted (by decide +kernel)

end Hyeboard.FeaturePolicy
