import Hyeboard.Automation.EventStream
/-!
# The terminal event is the last one

What a delivery publishes is well formed if nothing waits behind a terminal event
when it is published and nothing is emitted after it (`Orderly`). Three callers
of `emit` take no part in that: the heartbeat, which runs until the finally, a
call of the executor that it did not await, and the catch, when `ack` fails.
-/

namespace Hyeboard.Automation

/-- What a consumer may expect of the events of one delivery. -/
structure StreamWellFormed (job : UetImportJob) (events : List AutomationEvent) (acked : Bool) : Prop where
  numbered : events.map (·.sequence) = List.range events.length
  terminal_last : events.Pairwise fun earlier _ => isTerminalEvent earlier = false
  accepted : ∀ now, (∀ event ∈ events, now < event.expiresAt) → ∃ cursor final, createEventCursor job (-1) = .ok cursor ∧
    validateAutomationEventSequence events cursor now = .ok final
  acknowledged : acked = true → ∃ event ∈ events, isTerminalEvent event = true

instance (s : Process) : Decidable s.Ended := inferInstanceAs (Decidable (∃ event ∈ s.published, _))

namespace Delivery

variable (delivery : Delivery) (s : Process)

/-- The catch emits nothing: the delivery ends without a word, or the job is retried. -/
def CatchSilent (error : Thrown) : Prop :=
  s.cancellation = some .shutdown ∨ s.cancellation = some .leaseLost ∨ error.code = "LEASE_LOST" ∨
    s.cancellation = none ∧ error.retryable = true ∧ delivery.deliveryCount < delivery.maxDeliveryCount

instance (error : Thrown) : Decidable (delivery.CatchSilent s error) := inferInstanceAs (Decidable (_ ∨ _))

/-- The condition on a turn: no emission waits behind a terminal event that is
published, and none is asked for once there is one. -/
def Orderly : Turn → Prop
  | .publish emittedAt now none => ∀ emission ∈ s.queue.head?, emission.body.terminal = true →
      assertAutomationEvent (delivery.event emission.body s.sequence emittedAt now) = .ok () → s.queue.tail = []
  | .renew (.ok true) => s.Ended → s.renewing = 0
  | .assertHeld call none => s.Ended → s.checking[call]? = none
  | .challenge _ _ => s.Ended → s.called = false
  | .ack (some error) => s.phase = .acking → delivery.CatchSilent s error
  | _ => True

instance (emittedAt now : Nat) : Decidable (delivery.Orderly s (.publish emittedAt now none)) :=
  inferInstanceAs (Decidable (∀ emission ∈ s.queue.head?, _ → _ → _))

instance : (turn : Turn) → Decidable (delivery.Orderly s turn)
  | .publish _ _ none => inferInstance
  | .renew (.ok true) => inferInstanceAs (Decidable (_ → _))
  | .assertHeld _ none => inferInstanceAs (Decidable (_ → _))
  | .challenge _ _ => inferInstanceAs (Decidable (_ → _))
  | .ack (some _) => inferInstanceAs (Decidable (_ → _))
  | .publish _ _ (some _) | .renew (.ok false) | .renew (.error _) | .assertHeld _ (some _) | .ack none | .settle _ | .tick
  | .progress _ _ | .cancel _ | .cleaned => .isTrue trivial

/-- The runs of one delivery: its turns in any order. -/
abbrev DeliveryRun (ok : Process → Turn → Prop) :=
  Run delivery.step (fun _ => 0) (fun _ s turn => ok s turn) Process.start

end Delivery

/-! ## What a cursor accepts -/

/-- Numbered events of one job, only the last of them terminal. -/
theorem validateSequence_of_numbered {now : Nat} {events : List AutomationEvent} : ∀ (cursor : EventCursor) (first : Nat),
    cursor.lastSequence = (first : Int) - 1 → cursor.terminal = false →
    (∀ event ∈ events, assertAutomationEvent event = .ok () ∧ event.jobId = cursor.jobId ∧
      event.accountId = cursor.accountId ∧ event.fence = cursor.fence) →
    events.map (·.sequence) = List.range' first events.length →
    events.Pairwise (fun earlier _ => isTerminalEvent earlier = false) → (∀ event ∈ events, now < event.expiresAt) →
    ∃ final, validateAutomationEventSequence events cursor now = .ok final := by
  induction events with
  | nil =>
    intro cursor first _ _ _ _ _ _
    exact ⟨cursor, rfl⟩
  | cons event rest ih =>
    intro cursor first hlast hopen hevents hnumbers hterminal hlive
    rw [List.map_cons, List.length_cons, List.range'_succ, List.cons.injEq] at hnumbers
    rw [List.forall_mem_cons] at hevents hlive
    rw [List.pairwise_cons] at hterminal
    obtain ⟨hassert, hjob, haccount, hfence⟩ := hevents.1
    have hnext : cursor.Expects event := ⟨hassert, hjob, haccount, hfence, hopen, by rw [hnumbers.1, hlast]; omega⟩
    rw [validateAutomationEventSequence, List.foldlM_cons, validateNext_of_expects hnext hlive.1]
    cases rest with
    | nil => exact ⟨_, rfl⟩
    | cons second rest =>
      apply ih _ (first + 1)
      · simp only [hnumbers.1]
        omega
      · exact hterminal.1 second List.mem_cons_self
      · exact hevents.2
      · exact hnumbers.2
      · exact hterminal.2
      · exact hlive.2

/-- The cursor of a job of which no event has been seen. -/
def EventCursor.fresh (job : UetImportJob) : EventCursor :=
  { jobId := job.jobId, accountId := job.accountId, fence := job.fence, lastSequence := -1, terminal := false }

theorem createEventCursor_fresh {job : UetImportJob} (hjob : job.ok = true) :
    createEventCursor job (-1) = .ok (.fresh job) := by
  simp only [UetImportJob.ok, Bool.and_eq_true] at hjob
  simp [createEventCursor, EventCursor.fresh, hjob.1.1, hjob.1.2, hjob.2, maxSafeInteger, require]

/-! ## Orderly runs -/

/-- `process` is past its last emission. -/
def ProcessPhase.done : ProcessPhase → Bool
  | .acking | .settling | .cleaning | .finished => true
  | _ => false

structure Closed (s : Process) : Prop where
  terminal_last : s.published.Pairwise fun earlier _ => isTerminalEvent earlier = false
  drained : s.Ended → s.queue = [] ∧ s.phase.done = true

section
variable {delivery : Delivery} {s : Process}

theorem closed_start : Closed .start := by
  constructor
  · exact List.Pairwise.nil
  · rintro ⟨event, hmem, -⟩
    cases hmem

/-- Nothing is published: what the end asks for has to be kept once it has come. -/
theorem Closed.quiet (h : Closed s) {t : Process} (hpublished : t.published = s.published)
    (hkept : s.Ended → t.queue = s.queue ∧ (s.phase.done = true → t.phase.done = true)) : Closed t := by
  constructor
  · rw [hpublished]
    exact h.terminal_last
  · intro hended
    rw [Process.Ended, hpublished] at hended
    obtain ⟨hqueue, hphase⟩ := hkept hended
    obtain ⟨hempty, hdone⟩ := h.drained hended
    exact ⟨hqueue.trans hempty, hphase hdone⟩

theorem catchError_published (error : Thrown) : (delivery.catchError s error).published = s.published := by
  unfold Delivery.catchError
  repeat' split
  all_goals rfl

theorem catchError_of_silent {error : Thrown} (h : delivery.CatchSilent s error) :
    delivery.catchError s error = s.cleanup := by
  unfold Delivery.catchError
  rcases h with hreason | hreason | hcode | ⟨hreason, hretryable, hcount⟩
  · rw [hreason]
  · rw [hreason]
  · split
    · rfl
    · rfl
    · rw [if_pos hcode]
  · simp [hreason, hretryable, hcount]

theorem catchError_of_loud {error : Thrown} (h : ¬ delivery.CatchSilent s error) :
    (delivery.catchError s error).queue ≠ [] := by
  have happend : ∀ (queue : List Emission) (emission : Emission), queue ++ [emission] ≠ [] := by simp
  simp only [Delivery.CatchSilent, not_or, not_and] at h
  obtain ⟨hshutdown, hlease, hcode, hretried⟩ := h
  unfold Delivery.catchError
  split
  · exact absurd ‹_› hshutdown
  · exact absurd ‹_› hlease
  · rw [if_neg hcode]
    split
    · exact happend _ _
    · exact happend _ _
    · rename_i hreason
      split
      · rename_i hretry
        simp only [Bool.and_eq_true, decide_eq_true_eq] at hretry
        exact absurd hretry.2 (hretried hreason hretry.1)
      · exact happend _ _

theorem settle_published (outcome : Except Thrown String) : (delivery.settle s outcome).published = s.published := by
  unfold Delivery.settle Delivery.unlessCancelled
  split
  all_goals first
    | rfl
    | exact catchError_published _
    | (split
       · exact catchError_published _
       · rfl)

theorem settle_of_done (h : s.phase.done = true) (outcome : Except Thrown String) : delivery.settle s outcome = s := by
  unfold Delivery.settle
  split
  all_goals first
    | rfl
    | (rename_i hphase
       rw [hphase] at h
       cases h)

theorem rejected_published (emission : Emission) (error : Thrown) :
    (delivery.rejected s emission error).published = s.published := by
  unfold Delivery.rejected
  repeat' split
  all_goals first
    | rfl
    | exact catchError_published _

theorem emitted_published (emission : Emission) : (Delivery.emitted s emission).published = s.published := by
  unfold Delivery.emitted
  repeat' split
  all_goals rfl

theorem emitted_queue (emission : Emission) : (Delivery.emitted s emission).queue = s.queue := by
  unfold Delivery.emitted
  repeat' split
  all_goals rfl

/-- `process` awaited a terminal emission, and it is through. -/
theorem emitted_done {emission : Emission} (hawaited : emission.awaited = true)
    (hemits : s.phase.emits emission.body = true) (hterminal : emission.body.terminal = true) :
    (Delivery.emitted s emission).phase.done = true := by
  unfold Delivery.emitted
  rw [if_pos hawaited]
  generalize emission.body = body at hemits hterminal
  cases hphase : s.phase with
  | succeeding | cancelling | failing => rfl
  | _ =>
    -- the other phases await `started` or no emission at all
    rw [hphase] at hemits
    cases body <;> first | (cases hemits; done) | cases hterminal

/-- An event joins a stream that has not ended. -/
theorem ended_append {event : AutomationEvent} {t : Process} (hopen : ¬ s.Ended)
    (hpublished : t.published = s.published ++ [event]) : t.Ended ↔ isTerminalEvent event = true := by
  rw [Process.Ended, hpublished]
  constructor
  · rintro ⟨other, hmem, hterminal⟩
    rcases List.mem_append.1 hmem with hmem | hmem
    · exact absurd ⟨other, hmem, hterminal⟩ hopen
    · rwa [List.mem_singleton.1 hmem] at hterminal
  · intro hterminal
    exact ⟨event, List.mem_append_right _ (List.mem_singleton_self _), hterminal⟩

theorem Closed.publish (hsound : Sound delivery s) (h : Closed s) {emittedAt now : Nat} {failure : Option Thrown}
    (horderly : delivery.Orderly s (.publish emittedAt now failure)) :
    Closed (delivery.publish s emittedAt now failure).2 := by
  unfold Delivery.publish
  split
  case h_1 => exact h
  case h_2 emission queue hqueue =>
    -- something waits, so the stream has not ended
    have hopen : ¬ s.Ended := by
      intro hended
      rw [(h.drained hended).1] at hqueue
      cases hqueue
    simp only
    split
    · exact h.quiet (rejected_published _ _) fun hended => absurd hended hopen
    · exact h.quiet (rejected_published _ _) fun hended => absurd hended hopen
    case h_3 _ hassert =>
      constructor
      · rw [emitted_published, List.pairwise_append]
        refine ⟨h.terminal_last, List.pairwise_singleton _ _, ?_⟩
        intro earlier hmem _ _
        exact Bool.eq_false_iff.2 fun hterminal => hopen ⟨earlier, hmem, hterminal⟩
      · intro hended
        rw [ended_append hopen (emitted_published _)] at hended
        have hbody : emission.body.terminal = true := hended
        have hrest : queue = [] := by
          have := horderly emission (by rw [hqueue]; rfl) hbody hassert
          rwa [hqueue] at this
        refine ⟨by rw [emitted_queue]; exact hrest, ?_⟩
        have hmem : emission ∈ s.queue := hqueue ▸ List.mem_cons_self
        have hawaited : emission.awaited = true := by
          by_contra hnot
          rw [hsound.others emission hmem (Bool.eq_false_iff.2 hnot)] at hbody
          cases hbody
        exact emitted_done hawaited (hsound.awaited emission hmem hawaited) hbody

theorem Closed.ack (h : Closed s) {failure : Option Thrown}
    (horderly : delivery.Orderly s (.ack failure)) : Closed (delivery.ack s failure) := by
  unfold Delivery.ack
  split
  · exact h.quiet rfl fun _ => ⟨rfl, fun _ => rfl⟩
  · exact h.quiet rfl fun _ => ⟨rfl, fun _ => rfl⟩
  · rename_i error hphase
    rw [catchError_of_silent (horderly hphase)]
    exact h.quiet rfl fun _ => ⟨rfl, fun _ => rfl⟩
  · exact h.quiet rfl fun _ => ⟨rfl, fun _ => rfl⟩
  · exact h

/-- What one orderly turn preserves. -/
theorem Closed.step (hsound : Sound delivery s) (h : Closed s) {turn : Turn} (horderly : delivery.Orderly s turn) :
    Closed (delivery.step s turn).2 := by
  cases turn with
  | settle outcome =>
    by_cases hended : s.Ended
    · rw [Delivery.step, settle_of_done (h.drained hended).2]
      exact h
    · exact h.quiet (settle_published _) fun hnow => absurd hnow hended
  | publish emittedAt now failure => exact h.publish hsound horderly
  | ack failure => exact h.ack horderly
  | tick =>
    simp only [Delivery.step]
    split
    · exact h.quiet rfl fun _ => ⟨rfl, id⟩
    · exact h
  | renew answer =>
    simp only [Delivery.step, Delivery.renew]
    split
    · exact h
    · rename_i hrenewing
      rcases answer with error | held
      · exact h.quiet rfl fun _ => ⟨rfl, id⟩
      · cases held with
        | false => exact h.quiet rfl fun _ => ⟨rfl, id⟩
        | true => exact h.quiet rfl fun hended => absurd (horderly hended) hrenewing
  | progress phase percent =>
    simp only [Delivery.step]
    split
    · exact h.quiet rfl fun _ => ⟨rfl, id⟩
    · exact h
  | assertHeld call failure =>
    simp only [Delivery.step, Delivery.assertHeld]
    split
    · rename_i hcall
      exact h.quiet rfl fun hended => absurd (hcall.symm.trans (horderly hended)) (by simp)
    · exact h.quiet rfl fun _ => ⟨rfl, id⟩
    · exact h
  | challenge challengeId image =>
    simp only [Delivery.step]
    split
    · rename_i hcalled
      exact h.quiet rfl fun hended => absurd (hcalled.symm.trans (horderly hended)) (by simp)
    · exact h
  | cancel reason => exact h.quiet rfl fun _ => ⟨rfl, id⟩
  | cleaned =>
    simp only [Delivery.step]
    split
    · exact h.quiet rfl fun _ => ⟨rfl, fun _ => rfl⟩
    · exact h

end

/-! ## Every run -/

section
variable {delivery : Delivery} {trace : List (Step Process Turn (Option AutomationEvent))} {s : Process} {clock : Nat}

/-- In every run, orderly or not. -/
theorem sound_of_run {ok : Process → Turn → Prop} (h : delivery.DeliveryRun ok trace s clock) : Sound delivery s :=
  h.invariant (fun _ s _ => Sound delivery s) sound_start fun _ _ _ turn _ hsound _ _ => hsound.step turn

theorem closed_of_run (h : delivery.DeliveryRun delivery.Orderly trace s clock) : Closed s :=
  h.invariant (fun _ s _ => Closed s) closed_start fun _ _ _ _ hrun hclosed _ horderly =>
    hclosed.step (sound_of_run hrun) horderly

theorem wellFormed_of_orderly (hjob : delivery.job.ok = true) (h : delivery.DeliveryRun delivery.Orderly trace s clock) :
    StreamWellFormed delivery.job s.published s.acked := by
  have hsound := sound_of_run h
  have hclosed := closed_of_run h
  have hlength : s.published.length = s.sequence := by
    have := congrArg List.length hsound.sequences
    rwa [List.length_map, List.length_range] at this
  have hnumbered : s.published.map (·.sequence) = List.range s.published.length := by rw [hsound.sequences, hlength]
  constructor
  · exact hnumbered
  · exact hclosed.terminal_last
  · intro now hlive
    obtain ⟨final, hfinal⟩ := validateSequence_of_numbered (.fresh delivery.job) 0 rfl rfl hsound.events
      (hnumbered.trans List.range_eq_range') hclosed.terminal_last hlive
    exact ⟨_, final, createEventCursor_fresh hjob, hfinal⟩
  · exact hsound.acked

/-- A delivery whose executor ends at once. -/
def sampleDelivery : Delivery :=
  { job := { jobId := "AAAAAAAAAAAAAAAAAAAAAA", accountId := "BBBBBBBBBBBBBBBBBBBBBA", fence := 1, expiresAt := 900000 }
    deliveryCount := 1, maxDeliveryCount := 3, resultTtlMs := 600000 }

def upToResult : List Turn :=
  [.publish 0 0 none, .settle (.ok ""), .settle (.ok ""), .tick, .renew (.ok true), .publish 1 1 none, .settle (.ok ""),
    .settle (.ok ""), .settle (.ok "aep1.kid.body"), .publish 2 2 none]

theorem sampleDelivery_wellFormed :
    (stateAfter sampleDelivery.step .start (upToResult ++ [.ack none, .cleaned])).acked = true ∧
      StreamWellFormed sampleDelivery.job (stateAfter sampleDelivery.step .start (upToResult ++ [.ack none, .cleaned])).published true := by
  have horderly : ∀ e ∈ execute sampleDelivery.step .start (upToResult ++ [.ack none, .cleaned]),
      sampleDelivery.Orderly e.before e.call := by decide +kernel
  have hstart : sampleDelivery.DeliveryRun sampleDelivery.Orderly [] .start 0 := .start
  obtain ⟨_, hrun⟩ := hstart.follow (upToResult ++ [.ack none, .cleaned]) (by decide) fun e hmem _ => horderly e hmem
  exact ⟨by decide +kernel, wellFormed_of_orderly (by decide +kernel) hrun⟩

/-- The heartbeat beats on while the acknowledgement is awaited. -/
theorem heartbeat_follows_terminal :
    ¬ ∀ (delivery : Delivery) (trace : List (Step Process Turn (Option AutomationEvent))) (s : Process) (clock : Nat),
      delivery.job.ok = true → delivery.DeliveryRun (fun _ _ => True) trace s clock →
        StreamWellFormed delivery.job s.published s.acked := by
  intro hall
  have hstart : sampleDelivery.DeliveryRun (fun _ _ => True) [] .start 0 := .start
  obtain ⟨clock, hrun⟩ := hstart.follow (upToResult ++ [.tick, .renew (.ok true), .publish 3 3 none]) (by decide)
    fun _ _ _ => trivial
  have hlast := (hall sampleDelivery _ _ clock (by decide +kernel) hrun).terminal_last
  exact absurd hlast (by decide +kernel)

/-- The condition is exact: a turn that is not orderly leaves an emission waiting behind a terminal event, ... -/
theorem waiting_of_not_orderly (h : delivery.DeliveryRun delivery.Orderly trace s clock) {turn : Turn}
    (hturn : ¬ delivery.Orderly s turn) :
    (delivery.step s turn).2.Ended ∧ (delivery.step s turn).2.queue ≠ [] := by
  have hsound := sound_of_run h
  have happend : ∀ (queue : List Emission) (emission : Emission), queue ++ [emission] ≠ [] := by simp
  cases turn with
  | publish emittedAt now failure =>
    rcases failure with _ | error
    · simp only [Delivery.Orderly, not_forall] at hturn
      obtain ⟨emission, hhead, hterminal, hassert, htail⟩ := hturn
      obtain ⟨queue, hqueue⟩ : ∃ queue, s.queue = emission :: queue := by
        cases hcase : s.queue with
        | nil =>
          rw [hcase] at hhead
          cases hhead
        | cons first rest =>
          rw [hcase, List.head?_cons, Option.mem_some] at hhead
          exact ⟨rest, by rw [hhead]⟩
      simp only [Delivery.step, Delivery.publish, hqueue, hassert]
      constructor
      · refine ⟨delivery.event emission.body s.sequence emittedAt now, ?_, hterminal⟩
        rw [emitted_published]
        exact List.mem_append_right _ (List.mem_singleton_self _)
      · rw [emitted_queue]
        rwa [hqueue] at htail
    · exact absurd trivial hturn
  | renew answer =>
    rcases answer with error | _ | _
    · exact absurd trivial hturn
    · exact absurd trivial hturn
    · simp only [Delivery.Orderly, not_forall] at hturn
      obtain ⟨hended, hrenewing⟩ := hturn
      simp only [Delivery.step, Delivery.renew, if_neg hrenewing]
      exact ⟨hended, happend _ _⟩
  | assertHeld call failure =>
    rcases failure with _ | error
    · simp only [Delivery.Orderly, not_forall] at hturn
      obtain ⟨hended, hcall⟩ := hturn
      obtain ⟨checked, hcall⟩ := Option.ne_none_iff_exists'.1 hcall
      simp only [Delivery.step, Delivery.assertHeld, hcall]
      exact ⟨hended, happend _ _⟩
    · exact absurd trivial hturn
  | challenge challengeId image =>
    simp only [Delivery.Orderly, not_forall, Bool.not_eq_false] at hturn
    obtain ⟨hended, hcalled⟩ := hturn
    simp only [Delivery.step, if_pos hcalled]
    exact ⟨hended, happend _ _⟩
  | ack failure =>
    rcases failure with _ | error
    · exact absurd trivial hturn
    · simp only [Delivery.Orderly, not_forall] at hturn
      obtain ⟨hphase, hloud⟩ := hturn
      simp only [Delivery.step, Delivery.ack, hphase]
      obtain ⟨event, hmem, hterminal⟩ := hsound.settled (by rw [hphase]; rfl)
      exact ⟨⟨event, by rw [catchError_published]; exact hmem, hterminal⟩, catchError_of_loud hloud⟩
  | settle _ | tick | progress _ _ | cancel _ | cleaned => exact absurd trivial hturn

/-- ... and once the sink takes that emission, the terminal event is not the last. -/
theorem not_wellFormed_of_waiting {emission : Emission} {queue : List Emission} (hended : s.Ended)
    (hqueue : s.queue = emission :: queue) {emittedAt now : Nat}
    (hassert : assertAutomationEvent (delivery.event emission.body s.sequence emittedAt now) = .ok ()) :
    ¬ StreamWellFormed delivery.job (delivery.step s (.publish emittedAt now none)).2.published
      (delivery.step s (.publish emittedAt now none)).2.acked := by
  intro hwell
  have hlast := hwell.terminal_last
  simp only [Delivery.step, Delivery.publish, hqueue, hassert, emitted_published] at hlast
  obtain ⟨event, hmem, hterminal⟩ := hended
  have hopen := (List.pairwise_append.1 hlast).2.2 event hmem _ (List.mem_singleton_self _)
  rw [hterminal] at hopen
  cases hopen

end

end Hyeboard.Automation
