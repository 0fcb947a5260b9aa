import Hyeboard.Automation.Consumer
import Hyeboard.Automation.WellFormed
/-!
# The outcome of a redelivered job

Every number below that of an event is in the stream before it, whichever
delivery the numbers come from, so the cursor never meets a gap. But it skips the
first terminal event if an earlier delivery brought it further than the delivery
that ends the job ever got (`OutcomeAhead` rules that out).
-/

namespace Hyeboard.Automation

/-! ## One delivery -/

section
variable {delivery : Delivery} {s : Process}

/-- What a turn publishes, it publishes under the next number. -/
theorem step_published (turn : Turn) :
    (delivery.step s turn).2.published = s.published ++ (delivery.step s turn).1.toList ∧
      ∀ event ∈ (delivery.step s turn).1, event.sequence = s.sequence := by
  have hquiet : ∀ t : Process, t.published = s.published → t.published = s.published ++ (none : Option AutomationEvent).toList ∧
      ∀ event ∈ (none : Option AutomationEvent), event.sequence = s.sequence := by
    intro t ht
    exact ⟨by simp [ht], fun event hmem => by cases hmem⟩
  cases turn with
  | publish emittedAt now failure =>
    simp only [Delivery.step, Delivery.publish]
    split
    · exact hquiet _ rfl
    · split
      · exact hquiet _ (rejected_published _ _)
      · exact hquiet _ (rejected_published _ _)
      · refine ⟨emitted_published _, fun event hmem => ?_⟩
        rw [← Option.some.inj hmem]
        rfl
  | settle outcome => exact hquiet _ (settle_published outcome)
  | ack failure =>
    refine hquiet _ ?_
    simp only [Delivery.step, Delivery.ack]
    split
    all_goals first
      | rfl
      | exact catchError_published _
  | renew answer =>
    refine hquiet _ ?_
    simp only [Delivery.step, Delivery.renew]
    repeat' split
    all_goals rfl
  | assertHeld call failure =>
    refine hquiet _ ?_
    simp only [Delivery.step, Delivery.assertHeld]
    split
    all_goals rfl
  | tick | progress _ _ | challenge _ _ | cleaned =>
    refine hquiet _ ?_
    simp only [Delivery.step]
    split
    all_goals rfl
  | cancel reason => exact hquiet _ rfl

/-- The numbers of what a delivery has published are those below its own. -/
theorem Sound.mem_iff (h : Sound delivery s) (n : Nat) : (∃ event ∈ s.published, event.sequence = n) ↔ n < s.sequence := by
  rw [← List.mem_map, h.sequences, List.mem_range]

theorem Sound.length_published (h : Sound delivery s) : s.published.length = s.sequence := by
  have hlength := congrArg List.length h.sequences
  rwa [List.length_map, List.length_range] at hlength

theorem sequence_le (h : Sound delivery s) (turn : Turn) : s.sequence ≤ (delivery.step s turn).2.sequence := by
  rw [← h.length_published, ← (h.step turn).length_published, (step_published turn).1, List.length_append]
  exact Nat.le_add_right _ _

theorem sequence_succ (h : Sound delivery s) {turn : Turn} {event : AutomationEvent} (hevent : (delivery.step s turn).1 = some event) :
    (delivery.step s turn).2.sequence = s.sequence + 1 := by
  rw [← (h.step turn).length_published, (step_published turn).1, hevent, List.length_append, h.length_published]
  rfl

end

/-! ## The stream -/

theorem eventsOf_append (job : UetImportJob) (messages more : List EventMessage) :
    eventsOf job (messages ++ more) = eventsOf job messages ++ eventsOf job more := List.filterMap_append

/-- Every number below that of an event is there before it. -/
def Gapless (events : List AutomationEvent) : Prop :=
  ∀ pre event post, events = pre ++ event :: post → ∀ n < event.sequence, ∃ earlier ∈ pre, earlier.sequence = n

/-- The first terminal event has the greatest number so far, and one the consumer did not start after. -/
def Ahead (initial : Int) (events : List AutomationEvent) : Prop :=
  ∀ pre event post, events = pre ++ event :: post → isTerminalEvent event = true →
    (∀ earlier ∈ pre, isTerminalEvent earlier = false) →
    initial < event.sequence ∧ ∀ earlier ∈ pre, earlier.sequence < event.sequence

section
variable {initial : Int} {events : List AutomationEvent} {event : AutomationEvent}

theorem Gapless.concat (h : Gapless events) (hevent : ∀ n < event.sequence, ∃ earlier ∈ events, earlier.sequence = n) :
    Gapless (events ++ [event]) := by
  intro pre other post heq
  rcases List.eq_nil_or_concat' post with rfl | ⟨post, last, rfl⟩
  · obtain ⟨rfl, hlast⟩ := List.append_inj' heq rfl
    exact List.singleton_inj.1 hlast ▸ hevent
  · rw [← List.cons_append, ← List.append_assoc] at heq
    exact h pre other post (List.append_inj' heq rfl).1

theorem Ahead.concat (h : Ahead initial events) (hevent : isTerminalEvent event = true →
    (∀ earlier ∈ events, isTerminalEvent earlier = false) →
    initial < event.sequence ∧ ∀ earlier ∈ events, earlier.sequence < event.sequence) : Ahead initial (events ++ [event]) := by
  intro pre other post heq
  rcases List.eq_nil_or_concat' post with rfl | ⟨post, last, rfl⟩
  · obtain ⟨rfl, hlast⟩ := List.append_inj' heq rfl
    exact List.singleton_inj.1 hlast ▸ hevent
  · rw [← List.cons_append, ← List.append_assoc] at heq
    exact h pre other post (List.append_inj' heq rfl).1

end

namespace Redelivery

variable {job : UetImportJob} {initial : Int} {s : Redelivery}

/-- What the workers leave in the stream. -/
structure Published (job : UetImportJob) (initial : Int) (s : Redelivery) : Prop where
  deliveries : ∀ d ∈ s.deliveries, d.1.job = job ∧ Sound d.1 d.2 ∧ ∀ event ∈ d.2.published, event ∈ eventsOf job s.stream
  events : ∀ event ∈ eventsOf job s.stream, assertAutomationEvent event = .ok () ∧ event.jobId = job.jobId ∧
    event.accountId = job.accountId ∧ event.fence = job.fence
  covered : ∀ event ∈ eventsOf job s.stream, ∃ d ∈ s.deliveries, event.sequence < d.2.sequence
  gapless : Gapless (eventsOf job s.stream)
  ahead : Ahead initial (eventsOf job s.stream)

/-- The delivery that ends the job first has by then published as many events as any other, and
more than the consumer starts after. -/
def OutcomeAhead (job : UetImportJob) (initial : Int) (s : Redelivery) : RedeliveryTurn → Prop
  | .worker i turn => ∀ d ∈ s.deliveries[i]?, ∀ event ∈ (d.1.step d.2 turn).1, isTerminalEvent event = true →
      (∀ earlier ∈ eventsOf job s.stream, isTerminalEvent earlier = false) →
      initial < d.2.sequence ∧ ∀ other ∈ s.deliveries, other.2.sequence ≤ d.2.sequence
  | _ => True

/-- No event has expired when it is read. -/
def ReadInTime (job : UetImportJob) (s : Redelivery) : RedeliveryTurn → Prop
  | .message now => ∀ message ∈ s.stream[s.consumer.position]?, message.jobId = job.jobId →
      ∀ event ∈ message.event, now < event.expiresAt
  | _ => True

instance : (turn : RedeliveryTurn) → Decidable (OutcomeAhead job initial s turn)
  | .worker i turn => inferInstanceAs (Decidable (∀ d ∈ s.deliveries[i]?, ∀ event ∈ (d.1.step d.2 turn).1, _ → _ → _))
  | .deliver .. | .foreign _ | .poll _ | .message _ | .stop => .isTrue trivial

instance : (turn : RedeliveryTurn) → Decidable (ReadInTime job s turn)
  | .message now => inferInstanceAs (Decidable (∀ message ∈ s.stream[s.consumer.position]?, _ → ∀ event ∈ message.event, now < event.expiresAt))
  | .deliver .. | .worker .. | .foreign _ | .poll _ | .stop => .isTrue trivial

theorem published_start (cursor : EventCursor) : Published job initial (start cursor) := by
  refine ⟨fun d hmem => (by cases hmem), fun event hmem => (by cases hmem), fun event hmem => (by cases hmem), ?_, ?_⟩
  · intro pre event post heq
    cases pre <;> cases heq
  · intro pre event post heq
    cases pre <;> cases heq

theorem Published.worker (h : Published job initial s) {i : Nat} {turn : Turn} (hahead : OutcomeAhead job initial s (.worker i turn)) :
    Published job initial (s.worker i turn) := by
  unfold Redelivery.worker
  split
  · exact h
  case h_2 d process hget =>
    have hmem := List.mem_of_getElem? hget
    obtain ⟨hjob, hsound, hin⟩ := h.deliveries _ hmem
    obtain ⟨hpublished, hsequence⟩ : (d.step process turn).2.published = process.published ++ (d.step process turn).1.toList ∧
        ∀ event ∈ (d.step process turn).1, event.sequence = process.sequence := step_published turn
    have hnext := hsound.step turn
    have hle := sequence_le hsound turn
    have hlt : i < s.deliveries.length := (List.getElem?_eq_some_iff.1 hget).1
    simp only
    generalize hresult : d.step process turn = result at hpublished hsequence hnext hle
    obtain ⟨published, next⟩ := result
    -- what other deliveries published stays covered by them, the rest by the delivery that took the turn
    have hcovered : ∀ event ∈ eventsOf job s.stream, ∃ other ∈ s.deliveries.set i (d, next), event.sequence < other.2.sequence := by
      intro event hevent
      obtain ⟨other, hother, hless⟩ := h.covered event hevent
      by_cases hsame : other = (d, process)
      · refine ⟨(d, next), List.mem_set hlt _, ?_⟩
        rw [hsame] at hless
        exact Nat.lt_of_lt_of_le hless hle
      · obtain ⟨j, hj⟩ := List.getElem?_of_mem hother
        refine ⟨other, ?_, hless⟩
        have hne : i ≠ j := by
          rintro rfl
          exact hsame (Option.some.inj (hj.symm.trans hget))
        exact List.mem_of_getElem? ((List.getElem?_set_ne hne).trans hj)
    cases published with
    | none =>
      simp only [Option.toList_none, List.map_nil, List.append_nil] at hpublished ⊢
      refine ⟨fun other hother => ?_, h.events, hcovered, h.gapless, h.ahead⟩
      rcases List.mem_or_eq_of_mem_set hother with hother | rfl
      · exact h.deliveries other hother
      · exact ⟨hjob, hnext, fun event hevent => hin event (hpublished ▸ hevent)⟩
    | some event =>
      have hnumber : event.sequence = process.sequence := hsequence event rfl
      have hfields := hnext.events event (by rw [hpublished]; exact List.mem_append_right _ List.mem_cons_self)
      rw [hjob] at hfields
      have hone : eventsOf job ([event].map fun event => { jobId := event.jobId, event := some event }) = [event] := by
        simp [eventsOf, hfields.2.1]
      have hevents : eventsOf job (s.stream ++ (some event).toList.map fun event => { jobId := event.jobId, event := some event }) =
          eventsOf job s.stream ++ [event] := by
        rw [eventsOf_append, Option.toList_some, hone]
      have hgreater : next.sequence = process.sequence + 1 := by
        have := sequence_succ hsound (by rw [hresult])
        rwa [hresult] at this
      refine ⟨fun other hother => ?_, ?_, ?_, ?_, ?_⟩
      · rw [hevents]
        rcases List.mem_or_eq_of_mem_set hother with hother | rfl
        · obtain ⟨hjob', hsound', hin'⟩ := h.deliveries other hother
          exact ⟨hjob', hsound', fun e he => List.mem_append_left _ (hin' e he)⟩
        · refine ⟨hjob, hnext, fun e he => ?_⟩
          rw [hpublished] at he
          exact List.mem_append.2 ((List.mem_append.1 he).imp (hin e) id)
      · rw [hevents]
        intro e he
        rcases List.mem_append.1 he with he | he
        · exact h.events e he
        · rw [List.mem_singleton.1 he]
          exact hfields
      · rw [hevents]
        intro e he
        rcases List.mem_append.1 he with he | he
        · exact hcovered e he
        · rw [List.mem_singleton.1 he]
          exact ⟨(d, next), List.mem_set hlt _, by rw [hgreater, hnumber]; exact Nat.lt_succ_self _⟩
      · rw [hevents]
        refine h.gapless.concat fun n hn => ?_
        obtain ⟨earlier, hearlier, heq⟩ := (hsound.mem_iff n).2 (hnumber ▸ hn)
        exact ⟨earlier, hin earlier hearlier, heq⟩
      · rw [hevents]
        refine h.ahead.concat fun hterminal hopen => ?_
        obtain ⟨hinitial, hmost⟩ := hahead (d, process) hget event (by rw [hresult]; rfl) hterminal hopen
        rw [hnumber]
        refine ⟨hinitial, fun earlier hearlier => ?_⟩
        obtain ⟨other, hother, hless⟩ := h.covered earlier hearlier
        exact Nat.lt_of_lt_of_le hless (hmost other hother)

theorem Published.foreign (h : Published job initial s) {message : EventMessage}
    (hforeign : message.jobId ≠ job.jobId ∨ message.event = none) :
    Published job initial { s with stream := s.stream ++ [message] } := by
  have hnone : eventsOf job [message] = [] := by
    rcases hforeign with hjob | hevent
    · simp [eventsOf, hjob]
    · simp [eventsOf, hevent]
  have hevents : eventsOf job (s.stream ++ [message]) = eventsOf job s.stream := by
    rw [eventsOf_append, hnone, List.append_nil]
  constructor
  · simpa only [hevents] using h.deliveries
  · simpa only [hevents] using h.events
  · simpa only [hevents] using h.covered
  · simpa only [hevents] using h.gapless
  · simpa only [hevents] using h.ahead

theorem Published.deliver (h : Published job initial s) (deliveryCount maxDeliveryCount resultTtlMs : Nat) :
    Published job initial (s.deliver job deliveryCount maxDeliveryCount resultTtlMs) := by
  refine ⟨fun d hmem => ?_, h.events, fun event hevent => ?_, h.gapless, h.ahead⟩
  · rcases List.mem_append.1 hmem with hmem | hmem
    · exact h.deliveries d hmem
    · rw [List.mem_singleton.1 hmem]
      exact ⟨rfl, sound_start, fun event hevent => by cases hevent⟩
  · obtain ⟨d, hd, hless⟩ := h.covered event hevent
    exact ⟨d, List.mem_append_left _ hd, hless⟩

theorem poll_stream (count : Nat) : (s.poll count).stream = s.stream ∧ (s.poll count).deliveries = s.deliveries := by
  unfold Redelivery.poll
  split <;> exact ⟨rfl, rfl⟩

theorem message_stream (now : Nat) : (s.message job now).stream = s.stream ∧ (s.message job now).deliveries = s.deliveries := by
  unfold Redelivery.message
  repeat' split
  all_goals exact ⟨rfl, rfl⟩

/-- What the consumer does leaves the stream alone. -/
theorem Published.congr (h : Published job initial s) {t : Redelivery} (hstream : t.stream = s.stream)
    (hdeliveries : t.deliveries = s.deliveries) : Published job initial t := by
  constructor
  · rw [hstream, hdeliveries]
    exact h.deliveries
  · rw [hstream]
    exact h.events
  · rw [hstream, hdeliveries]
    exact h.covered
  · rw [hstream]
    exact h.gapless
  · rw [hstream]
    exact h.ahead

theorem Published.step (h : Published job initial s) {turn : RedeliveryTurn} (hahead : OutcomeAhead job initial s turn) :
    Published job initial (step job s turn).2 := by
  cases turn with
  | deliver deliveryCount maxDeliveryCount resultTtlMs => exact h.deliver _ _ _
  | worker delivery turn => exact h.worker hahead
  | foreign message =>
    simp only [Redelivery.step]
    split
    case isTrue hforeign => exact h.foreign hforeign
    case isFalse => exact h
  | poll count => exact h.congr (poll_stream count).1 (poll_stream count).2
  | message now => exact h.congr (message_stream now).1 (message_stream now).2
  | stop =>
    simp only [Redelivery.step]
    split
    · exact h.congr rfl rfl
    · exact h

/-! ## The consumer -/

/-- Where the cursor is while the consumer waits. -/
structure Waiting (job : UetImportJob) (initial : Int) (events : List AutomationEvent) (cursor : EventCursor) : Prop where
  jobId : cursor.jobId = job.jobId
  accountId : cursor.accountId = job.accountId
  fence : cursor.fence = job.fence
  open_ : cursor.terminal = false
  least : -1 ≤ cursor.lastSequence
  bound : ∀ event ∈ events, event.sequence ≤ cursor.lastSequence
  last : cursor.lastSequence = initial ∨ ∃ event ∈ events, (event.sequence : Int) = cursor.lastSequence
  ongoing : ∀ event ∈ events, isTerminalEvent event = false

structure Reading (job : UetImportJob) (initial : Int) (s : Redelivery) : Prop where
  position : s.consumer.position ≤ s.stream.length
  fetched : s.consumer.fetched ≤ s.stream.length
  orderly : ∀ error, s.consumer.status ≠ .threw error
  settled : ∀ event, s.consumer.status = .settled event → isTerminalEvent event = true ∧ event ∈ eventsOf job s.stream
  waiting : s.consumer.status = .waiting →
    Waiting job initial (eventsOf job (s.stream.take s.consumer.position)) s.consumer.cursor

theorem reading_start {cursor : EventCursor} (hcursor : createEventCursor job initial = .ok cursor) :
    Reading job initial (start cursor) := by
  simp only [createEventCursor, bind_eq_ok, require_eq_ok, pure_eq_ok, decide_eq_true_eq] at hcursor
  obtain ⟨-, -, -, ⟨hleast, -⟩, -, -, rfl⟩ := hcursor
  refine ⟨Nat.le_refl 0, Nat.le_refl 0, fun error h => (by cases h), fun event h => (by cases h), fun _ => ?_⟩
  exact ⟨rfl, rfl, rfl, rfl, hleast, fun event hmem => (by cases hmem), .inl rfl, fun event hmem => by cases hmem⟩

/-- The stream grows behind what has been read. -/
theorem Reading.grow (h : Reading job initial s) {t : Redelivery} {more : List EventMessage}
    (hstream : t.stream = s.stream ++ more) (hconsumer : t.consumer = s.consumer) : Reading job initial t := by
  have htake : t.stream.take s.consumer.position = s.stream.take s.consumer.position := by
    rw [hstream, List.take_append_of_le_length h.position]
  have hlength : s.stream.length ≤ t.stream.length := by
    rw [hstream, List.length_append]
    exact Nat.le_add_right _ _
  constructor
  · rw [hconsumer]
    exact Nat.le_trans h.position hlength
  · rw [hconsumer]
    exact Nat.le_trans h.fetched hlength
  · rw [hconsumer]
    exact h.orderly
  · intro event hevent
    rw [hconsumer] at hevent
    obtain ⟨hterminal, hmem⟩ := h.settled event hevent
    rw [hstream, eventsOf_append]
    exact ⟨hterminal, List.mem_append_left _ hmem⟩
  · rw [hconsumer, htake]
    exact h.waiting

/-- An event the cursor has not passed is the one it expects. -/
theorem Waiting.expects {pre : List AutomationEvent} {cursor : EventCursor} (h : Waiting job initial pre cursor)
    {event : AutomationEvent} (hevent : assertAutomationEvent event = .ok () ∧ event.jobId = job.jobId ∧
      event.accountId = job.accountId ∧ event.fence = job.fence)
    (hgapless : ∀ n < event.sequence, ∃ earlier ∈ pre, earlier.sequence = n) (hlater : cursor.lastSequence < event.sequence) :
    cursor.Expects event := by
  obtain ⟨hassert, hjob, haccount, hfence⟩ := hevent
  refine ⟨hassert, hjob.trans h.jobId.symm, haccount.trans h.accountId.symm, hfence.trans h.fence.symm, h.open_, ?_⟩
  have hleast := h.least
  cases hnumber : event.sequence with
  | zero => omega
  | succ n =>
    -- the event before it has been read
    obtain ⟨earlier, hmem, heq⟩ := hgapless n (by omega)
    have hbound := h.bound earlier hmem
    omega

/-- An event the cursor has passed does not end the job. -/
theorem Waiting.passed {pre : List AutomationEvent} {cursor : EventCursor} (h : Waiting job initial pre cursor)
    {event : AutomationEvent} (hahead : isTerminalEvent event = true →
      initial < event.sequence ∧ ∀ earlier ∈ pre, earlier.sequence < event.sequence)
    (hpassed : event.sequence ≤ cursor.lastSequence) : isTerminalEvent event = false := by
  cases hterminal : isTerminalEvent event with
  | false => rfl
  | true =>
    obtain ⟨hinitial, hmost⟩ := hahead hterminal
    rcases h.last with hlast | ⟨earlier, hmem, hlast⟩
    · omega
    · have hless := hmost earlier hmem
      omega

theorem Reading.message (h : Reading job initial s) (hpublished : Published job initial s) {now : Nat}
    (hintime : ReadInTime job s (.message now)) : Reading job initial (s.message job now) := by
  unfold Redelivery.message
  split
  case isFalse => exact h
  case isTrue hready =>
    obtain ⟨hstatus, hlt⟩ := hready
    have hwaiting := h.waiting hstatus
    split
    case h_1 => exact h
    case h_2 message hget =>
      obtain ⟨hposition, hmessage⟩ := List.getElem?_eq_some_iff.1 hget
      have htake : s.stream.take (s.consumer.position + 1) = s.stream.take s.consumer.position ++ [message] := by
        rw [List.take_add_one, hget]
        rfl
      have hsplit : s.stream = s.stream.take s.consumer.position ++ message :: s.stream.drop (s.consumer.position + 1) := by
        rw [← hmessage, ← List.drop_eq_getElem_cons hposition, List.take_append_drop]
      -- a message that is none of the job's, or whose event has been passed
      have hskip : ∀ cursor, Waiting job initial (eventsOf job (s.stream.take (s.consumer.position + 1))) cursor →
          Reading job initial { s with consumer :=
            { position := s.consumer.position + 1, fetched := s.consumer.fetched, cursor, status := .waiting } } := by
        intro cursor hcursor
        exact ⟨hposition, h.fetched, fun error heq => (by cases heq), fun event heq => (by cases heq), fun _ => hcursor⟩
      have hnothing : eventsOf job [message] = [] →
          Waiting job initial (eventsOf job (s.stream.take (s.consumer.position + 1))) s.consumer.cursor := by
        intro hnone
        rw [htake, eventsOf_append, hnone, List.append_nil]
        exact hwaiting
      unfold Consumer.read
      simp only [hstatus]
      split
      case isTrue hjob => exact hskip _ (hnothing (by simp [eventsOf, hjob]))
      case isFalse hjob =>
        rw [not_not] at hjob
        cases hevent : message.event with
        | none => exact hskip _ (hnothing (by simp [eventsOf, hevent]))
        | some event =>
          have hone : eventsOf job [message] = [event] := by simp [eventsOf, hjob, hevent]
          have hevents : eventsOf job s.stream = eventsOf job (s.stream.take s.consumer.position) ++ event ::
              eventsOf job (s.stream.drop (s.consumer.position + 1)) := by
            conv_lhs => rw [hsplit]
            rw [← List.singleton_append, eventsOf_append, eventsOf_append, hone]
            rfl
          have hread : eventsOf job (s.stream.take (s.consumer.position + 1)) =
              eventsOf job (s.stream.take s.consumer.position) ++ [event] := by rw [htake, eventsOf_append, hone]
          have hmem : event ∈ eventsOf job s.stream := by
            rw [hevents]
            exact List.mem_append_right _ List.mem_cons_self
          have hfields := hpublished.events event hmem
          have hlive : now < event.expiresAt := hintime message hget hjob event hevent
          have hparsed : parseAutomationEvent event now = .ok event := parseAutomationEvent_eq_ok.2 ⟨rfl, hfields.1, hlive⟩
          have hahead := fun hterminal => hpublished.ahead _ _ _ hevents hterminal hwaiting.ongoing
          simp only [hparsed]
          split
          case isTrue hpassed =>
            refine hskip _ ?_
            rw [hread]
            refine ⟨hwaiting.jobId, hwaiting.accountId, hwaiting.fence, hwaiting.open_, hwaiting.least, ?_, ?_, ?_⟩
            · intro earlier hearlier
              rcases List.mem_append.1 hearlier with hearlier | hearlier
              · exact hwaiting.bound earlier hearlier
              · rw [List.mem_singleton.1 hearlier]
                exact hpassed
            · exact hwaiting.last.imp_right fun ⟨earlier, hearlier, heq⟩ => ⟨earlier, List.mem_append_left _ hearlier, heq⟩
            · intro earlier hearlier
              rcases List.mem_append.1 hearlier with hearlier | hearlier
              · exact hwaiting.ongoing earlier hearlier
              · rw [List.mem_singleton.1 hearlier]
                exact hwaiting.passed hahead hpassed
          case isFalse hpassed =>
            rw [Int.not_le] at hpassed
            have hexpects := hwaiting.expects hfields (hpublished.gapless _ _ _ hevents) hpassed
            rw [validateNext_of_expects hexpects hlive]
            cases hterminal : isTerminalEvent event with
            | true =>
              refine ⟨hposition, h.fetched, fun error heq => (by cases heq), fun other heq => ?_, fun heq => by cases heq⟩
              cases heq
              exact ⟨hterminal, hmem⟩
            | false =>
              refine hskip _ ?_
              rw [hread]
              refine ⟨hwaiting.jobId, hwaiting.accountId, hwaiting.fence, rfl, ?_, ?_, ?_, ?_⟩
              · exact Int.le_trans hwaiting.least (Int.le_of_lt hpassed)
              · intro earlier hearlier
                rcases List.mem_append.1 hearlier with hearlier | hearlier
                · exact Int.le_trans (hwaiting.bound earlier hearlier) (Int.le_of_lt hpassed)
                · rw [List.mem_singleton.1 hearlier]
              · exact .inr ⟨event, List.mem_append_right _ List.mem_cons_self, rfl⟩
              · intro earlier hearlier
                rcases List.mem_append.1 hearlier with hearlier | hearlier
                · exact hwaiting.ongoing earlier hearlier
                · rw [List.mem_singleton.1 hearlier]
                  exact hterminal

theorem Reading.step (h : Reading job initial s) (hpublished : Published job initial s) {turn : RedeliveryTurn}
    (hintime : ReadInTime job s turn) : Reading job initial (step job s turn).2 := by
  cases turn with
  | deliver deliveryCount maxDeliveryCount resultTtlMs => exact h.grow (List.append_nil _).symm rfl
  | worker delivery turn =>
    simp only [Redelivery.step, Redelivery.worker]
    split
    · exact h
    · exact h.grow rfl rfl
  | foreign message =>
    simp only [Redelivery.step]
    split
    · exact h.grow rfl rfl
    · exact h
  | poll count =>
    simp only [Redelivery.step, Redelivery.poll]
    split
    · exact ⟨h.position, Nat.min_le_left _ _, h.orderly, h.settled, h.waiting⟩
    · exact h
  | message now => exact h.message hpublished hintime
  | stop =>
    simp only [Redelivery.step]
    split
    · exact ⟨h.position, h.fetched, fun error heq => (by cases heq), fun event heq => (by cases heq), fun heq => by cases heq⟩
    · exact h

/-! ## Runs -/

/-- The consumer sees the outcome of its job. -/
structure OutcomeKept (job : UetImportJob) (s : Redelivery) : Prop where
  in_order : ∀ error, s.consumer.status ≠ .threw error
  /-- It does not go on past a terminal event. -/
  not_skipped : s.consumer.status = .waiting →
    ∀ event ∈ eventsOf job (s.stream.take s.consumer.position), isTerminalEvent event = false
  settled : ∀ event, s.consumer.status = .settled event → isTerminalEvent event = true ∧ event ∈ eventsOf job s.stream
  /-- It reads on as long as there is something to read. -/
  reads : s.consumer.status = .waiting → s.consumer.position < s.stream.length → ∀ count now, 0 < count →
    (stateAfter (step job) s [.poll count, .message now]).consumer.position = s.consumer.position + 1

section
variable {cursor : EventCursor} {trace : List (Step Redelivery RedeliveryTurn Unit)} {clock : Nat}

theorem read_position (consumer : Consumer) (message : EventMessage) (now : Nat) :
    (consumer.read job message now).position = consumer.position + 1 := by
  unfold Consumer.read
  simp only
  split
  · rfl
  · split
    · rfl
    · split
      · rfl
      · split
        · rfl
        · split <;> rfl

theorem position_after_read (hstatus : s.consumer.status = .waiting)
    (hlt : s.consumer.position < s.stream.length) {count : Nat} (now : Nat) (hcount : 0 < count) :
    (stateAfter (Redelivery.step job) s [.poll count, .message now]).consumer.position = s.consumer.position + 1 := by
  have hread : ∀ t : Redelivery, t.stream = s.stream → t.consumer.position = s.consumer.position →
      t.consumer.status = .waiting → t.consumer.position < t.consumer.fetched →
      (t.message job now).consumer.position = s.consumer.position + 1 := by
    intro t hstream hposition hwaiting hfetched
    unfold Redelivery.message
    rw [if_pos ⟨hwaiting, hfetched⟩, hstream, hposition, List.getElem?_eq_getElem hlt]
    simp only [read_position, hposition]
  show ((s.poll count).message job now).consumer.position = _
  unfold Redelivery.poll
  split
  case isTrue hdone => exact hread _ rfl rfl hstatus (Nat.lt_min.2 ⟨hlt, Nat.lt_add_of_pos_right hcount⟩)
  case isFalse hmore =>
    rw [not_and, Nat.not_le] at hmore
    exact hread s rfl rfl hstatus (hmore hstatus)

theorem outcome_run (hcursor : createEventCursor job initial = .ok cursor) (h : RedeliveryRun job cursor trace s clock)
    (hahead : ∀ e ∈ trace, OutcomeAhead job initial e.before e.call) (hintime : ∀ e ∈ trace, ReadInTime job e.before e.call) :
    Published job initial s ∧ Reading job initial s := by
  induction h with
  | start => exact ⟨published_start cursor, reading_start hcursor⟩
  | @call trace s clock turn _ _ _ ih =>
    have hlast : stepOf (step job) s turn ∈ trace ++ [stepOf (step job) s turn] := List.mem_append_right _ List.mem_cons_self
    obtain ⟨hpublished, hreading⟩ := ih (fun e hmem => hahead e (List.mem_append_left _ hmem))
      fun e hmem => hintime e (List.mem_append_left _ hmem)
    exact ⟨hpublished.step (hahead _ hlast), hreading.step hpublished (hintime _ hlast)⟩

/-- In a run in which the job ends ahead of all its deliveries, and whose events are read in
time, the consumer sees the outcome. -/
theorem outcome_kept (hcursor : createEventCursor job initial = .ok cursor) (h : RedeliveryRun job cursor trace s clock)
    (hahead : ∀ e ∈ trace, OutcomeAhead job initial e.before e.call) (hintime : ∀ e ∈ trace, ReadInTime job e.before e.call) :
    OutcomeKept job s := by
  obtain ⟨-, hreading⟩ := outcome_run hcursor h hahead hintime
  exact ⟨hreading.orderly, fun hstatus => (hreading.waiting hstatus).ongoing, hreading.settled,
    fun hstatus hlt _ now hcount => position_after_read hstatus hlt now hcount⟩

end

/-! ## A delivery that got further than the last one -/

/-- A delivery up to its executor, with one heartbeat. -/
def beatOnce (delivery : Nat) : List RedeliveryTurn :=
  [.deliver (delivery + 1) 3 600000, .worker delivery (.publish 0 0 none), .worker delivery .tick,
    .worker delivery (.renew (.ok true)), .worker delivery (.publish 1 1 none)]

/-- A delivery whose job cannot be opened. -/
def failAtOnce (delivery : Nat) : List RedeliveryTurn :=
  [.deliver (delivery + 1) 3 600000, .worker delivery (.publish 2 2 none),
    .worker delivery (.settle (.error { code := "GOOGLE_2FA_REQUIRED", retryable := false })),
    .worker delivery (.publish 3 3 none)]

def readAll (count : Nat) : List RedeliveryTurn := .poll 10 :: List.replicate count (.message 4)

def sampleCursor : EventCursor := .fresh sampleDelivery.job

theorem redelivery_run (turns : List RedeliveryTurn) : ∃ clock, RedeliveryRun sampleDelivery.job sampleCursor
    (execute (step sampleDelivery.job) (start sampleCursor) turns)
    (stateAfter (step sampleDelivery.job) (start sampleCursor) turns) clock := by
  have hstart : RedeliveryRun sampleDelivery.job sampleCursor [] (start sampleCursor) 0 := .start
  exact hstart.follow turns (by simp [List.pairwise_cons]) fun _ _ _ => trivial

theorem sampleCursor_created : createEventCursor sampleDelivery.job (-1) = .ok sampleCursor :=
  createEventCursor_fresh (by decide +kernel)

/-- The job ends with the delivery that got furthest. -/
def endedAhead : List RedeliveryTurn := failAtOnce 0 ++ readAll 2

theorem outcome_kept_sample : createEventCursor sampleDelivery.job (-1) = .ok sampleCursor ∧
    OutcomeKept sampleDelivery.job (stateAfter (step sampleDelivery.job) (start sampleCursor) endedAhead) := by
  obtain ⟨clock, hrun⟩ := redelivery_run endedAhead
  exact ⟨sampleCursor_created, outcome_kept sampleCursor_created hrun (by decide +kernel) (by decide +kernel)⟩

/-- The first delivery crashed after two events; the second fails with its second one, which
the consumer skips. -/
theorem outcome_skipped : ¬ ∀ trace s clock, RedeliveryRun sampleDelivery.job sampleCursor trace s clock →
    (∀ e ∈ trace, ReadInTime sampleDelivery.job e.before e.call) → OutcomeKept sampleDelivery.job s := by
  intro h
  obtain ⟨clock, hrun⟩ := redelivery_run (beatOnce 0 ++ failAtOnce 1 ++ readAll 4)
  have hskipped := (h _ _ clock hrun (by decide +kernel)).not_skipped
  revert hskipped
  decide +kernel

end Redelivery

end Hyeboard.Automation
