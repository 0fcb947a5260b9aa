import Hyeboard.Automation.Worker
/-!
# The event stream of one delivery

Whatever happens, a delivery numbers its events 0, 1, 2, ... and acknowledges its
message only after a terminal event (`Sound`). That the terminal event is the last
one takes more: nothing may wait behind it when it is published, and nothing may
be emitted after it (`Orderly`).
-/

namespace Hyeboard.Automation

/-! ## What holds in every run -/

/-- The emission `process` awaits in a phase. -/
def ProcessPhase.emits : ProcessPhase → EventBody → Bool
  | .starting, .started => true
  | .succeeding, .succeeded _ => true
  | .cancelling, .cancelled _ => true
  | .failing, .failed _ _ => true
  | _, _ => false

/-- `process` has seen a terminal event published. -/
def ProcessPhase.settled : ProcessPhase → Bool
  | .acking | .settling => true
  | _ => false

/-- `process` awaits `started` and terminal emissions. -/
theorem terminal_of_emits {phase : ProcessPhase} {body : EventBody} (h : phase.emits body = true)
    (hphase : phase ≠ .starting) : body.terminal = true := by
  cases phase with
  | starting => exact absurd rfl hphase
  | _ => cases body <;> first | rfl | cases h

namespace Process

/-- A terminal event is in the stream. -/
def Ended (s : Process) : Prop := ∃ event ∈ s.published, isTerminalEvent event = true

end Process

structure Sound (delivery : Delivery) (s : Process) : Prop where
  sequences : s.published.map (·.sequence) = List.range s.sequence
  events : ∀ event ∈ s.published, assertAutomationEvent event = .ok () ∧ event.jobId = delivery.job.jobId ∧
    event.accountId = delivery.job.accountId ∧ event.fence = delivery.job.fence
  awaited : ∀ emission ∈ s.queue, emission.awaited = true → s.phase.emits emission.body = true
  single : (s.queue.filter (·.awaited)).length ≤ 1
  others : ∀ emission ∈ s.queue, emission.awaited = false → emission.body.terminal = false
  settled : s.phase.settled = true → s.Ended
  acked : s.acked = true → s.Ended

section
variable {delivery : Delivery} {s : Process}

theorem sound_start : Sound delivery .start := by
  constructor
  · rfl
  · intro _ hmem
    cases hmem
  · intro emission hmem _
    rw [List.mem_singleton.1 hmem]
    rfl
  · exact Nat.le_refl 1
  · intro emission hmem hawaited
    rw [List.mem_singleton.1 hmem] at hawaited
    cases hawaited
  · intro h
    cases h
  · intro h
    cases h

/-- No emission of the queue is awaited when the phase awaits none. -/
theorem Sound.unawaited (h : Sound delivery s) (hphase : ∀ body, s.phase.emits body = false) :
    ∀ emission ∈ s.queue, emission.awaited = false := by
  intro emission hmem
  cases hawaited : emission.awaited with
  | false => rfl
  | true =>
    have hemits := h.awaited emission hmem hawaited
    rw [hphase] at hemits
    cases hemits

/-- What is not part of the stream changes. -/
theorem Sound.congr (h : Sound delivery s) {t : Process} (hpublished : t.published = s.published)
    (hsequence : t.sequence = s.sequence) (hqueue : t.queue = s.queue) (hphase : t.phase = s.phase)
    (hacked : t.acked = s.acked) : Sound delivery t := by
  have hended : t.Ended ↔ s.Ended := by rw [Process.Ended, Process.Ended, hpublished]
  constructor
  · rw [hpublished, hsequence]
    exact h.sequences
  · rw [hpublished]
    exact h.events
  · rw [hqueue, hphase]
    exact h.awaited
  · rw [hqueue]
    exact h.single
  · rw [hqueue]
    exact h.others
  · rw [hphase, hended]
    exact h.settled
  · rw [hacked, hended]
    exact h.acked

/-- `process` moves on, awaiting no emission before or after. -/
theorem Sound.phase (h : Sound delivery s) (hquiet : ∀ emission ∈ s.queue, emission.awaited = false) {t : Process}
    (hpublished : t.published = s.published) (hsequence : t.sequence = s.sequence) (hqueue : t.queue = s.queue)
    (hacked : t.acked = true → s.Ended) (hsettled : t.phase.settled = true → s.Ended) : Sound delivery t := by
  have hended : t.Ended ↔ s.Ended := by rw [Process.Ended, Process.Ended, hpublished]
  constructor
  · rw [hpublished, hsequence]
    exact h.sequences
  · rw [hpublished]
    exact h.events
  · intro emission hmem hawaited
    rw [hqueue] at hmem
    rw [hquiet emission hmem] at hawaited
    cases hawaited
  · rw [hqueue]
    exact h.single
  · rw [hqueue]
    exact h.others
  · exact fun hphase => hended.2 (hsettled hphase)
  · exact fun hthere => hended.2 (hacked hthere)

/-- Another emission is asked for. -/
theorem Sound.emit (h : Sound delivery s) {body : EventBody} (hbody : body.terminal = false) :
    Sound delivery (s.emit body false) := by
  refine ⟨h.sequences, h.events, ?_, ?_, ?_, h.settled, h.acked⟩
  · intro emission hmem hawaited
    rcases List.mem_append.1 hmem with hmem | hmem
    · exact h.awaited emission hmem hawaited
    · rw [List.mem_singleton.1 hmem] at hawaited
      cases hawaited
  · have hfilter : (s.emit body false).queue.filter (·.awaited) = s.queue.filter (·.awaited) := by
      simp [Process.emit]
    rw [hfilter]
    exact h.single
  · intro emission hmem hawaited
    rcases List.mem_append.1 hmem with hmem | hmem
    · exact h.others emission hmem hawaited
    · rw [List.mem_singleton.1 hmem]
      exact hbody

/-- `process` asks for an emission and awaits it. -/
theorem Sound.await (h : Sound delivery s) (hquiet : ∀ emission ∈ s.queue, emission.awaited = false) {body : EventBody}
    {phase : ProcessPhase} (hemits : phase.emits body = true) :
    Sound delivery { s.emit body true with phase } := by
  refine ⟨h.sequences, h.events, ?_, ?_, ?_, ?_, h.acked⟩
  · intro emission hmem hawaited
    rcases List.mem_append.1 hmem with hmem | hmem
    · rw [hquiet emission hmem] at hawaited
      cases hawaited
    · rw [List.mem_singleton.1 hmem]
      exact hemits
  · have hfilter : ({ s.emit body true with phase } : Process).queue.filter (·.awaited) = [{ body, awaited := true }] := by
      have hnone : s.queue.filter (·.awaited) = [] := by
        rw [List.filter_eq_nil_iff]
        intro emission hmem
        rw [hquiet emission hmem]
        exact Bool.false_ne_true
      simp [Process.emit, hnone]
    rw [hfilter]
    exact Nat.le_refl 1
  · intro emission hmem hawaited
    rcases List.mem_append.1 hmem with hmem | hmem
    · exact h.others emission hmem hawaited
    · rw [List.mem_singleton.1 hmem] at hawaited
      cases hawaited
  · intro hsettled
    -- `ack` is awaited only once the emission is through
    cases phase with
    | acking => cases body <;> cases hemits
    | settling => cases body <;> cases hemits
    | _ => cases hsettled

theorem Sound.cleanup (h : Sound delivery s) (hquiet : ∀ emission ∈ s.queue, emission.awaited = false) :
    Sound delivery s.cleanup :=
  h.phase hquiet rfl rfl rfl h.acked fun hsettled => by cases hsettled

theorem Sound.catchError (h : Sound delivery s) (hquiet : ∀ emission ∈ s.queue, emission.awaited = false) (error : Thrown) :
    Sound delivery (delivery.catchError s error) := by
  unfold Delivery.catchError
  split
  · exact h.cleanup hquiet
  · exact h.cleanup hquiet
  · split
    · exact h.cleanup hquiet
    · split
      · exact h.await hquiet rfl
      · exact h.await hquiet rfl
      · split
        · exact h.cleanup hquiet
        · exact h.await hquiet rfl

theorem Sound.unlessCancelled (h : Sound delivery s) (hquiet : ∀ emission ∈ s.queue, emission.awaited = false)
    {next : ProcessPhase} (hnext : next.settled = false) : Sound delivery (delivery.unlessCancelled s next) := by
  unfold Delivery.unlessCancelled
  split
  · exact h.catchError hquiet _
  · exact h.phase hquiet rfl rfl rfl h.acked fun hsettled => by
      rw [show next.settled = true from hsettled] at hnext
      cases hnext

theorem Sound.settle (h : Sound delivery s) (outcome : Except Thrown String) : Sound delivery (delivery.settle s outcome) := by
  have hquiet : ∀ phase, s.phase = phase → (∀ body, phase.emits body = false) →
      ∀ emission ∈ s.queue, emission.awaited = false := by
    rintro phase rfl hphase
    exact h.unawaited hphase
  have hnone : ∀ phase : ProcessPhase, phase = .opening ∨ phase = .browsing ∨ phase = .executing ∨ phase = .asserting ∨
      phase = .closing → ∀ body, phase.emits body = false := by
    rintro phase (rfl | rfl | rfl | rfl | rfl) body <;> cases body <;> rfl
  unfold Delivery.settle
  split <;> rename_i hphase
  · exact h.unlessCancelled (hquiet _ hphase (hnone _ (by simp))) rfl
  · exact h.phase (hquiet _ hphase (hnone _ (by simp))) rfl rfl rfl h.acked fun hsettled => by cases hsettled
  · exact h.unlessCancelled (hquiet _ hphase (hnone _ (by simp))) rfl
  · exact h.phase (hquiet _ hphase (hnone _ (by simp))) rfl rfl rfl h.acked fun hsettled => by cases hsettled
  · exact h.await (hquiet _ hphase (hnone _ (by simp))) rfl
  all_goals first
    | exact h.catchError (hquiet _ hphase (hnone _ (by simp))) _
    | exact h

/-- The first emission leaves the queue. -/
theorem Sound.dequeue (h : Sound delivery s) {emission : Emission} {queue : List Emission}
    (hqueue : s.queue = emission :: queue) : Sound delivery { s with queue } := by
  refine ⟨h.sequences, h.events, ?_, ?_, ?_, h.settled, h.acked⟩
  · intro other hmem
    apply h.awaited other
    rw [hqueue]
    exact List.mem_cons_of_mem _ hmem
  · apply Nat.le_trans _ h.single
    rw [hqueue, List.filter_cons]
    split
    · exact Nat.le_succ _
    · exact Nat.le_refl _
  · intro other hmem
    apply h.others other
    rw [hqueue]
    exact List.mem_cons_of_mem _ hmem

/-- Behind an awaited emission no other is awaited. -/
theorem Sound.quiet_behind (h : Sound delivery s) {emission : Emission} {queue : List Emission}
    (hqueue : s.queue = emission :: queue) (hawaited : emission.awaited = true) :
    ∀ other ∈ queue, other.awaited = false := by
  have hsingle := h.single
  rw [hqueue, List.filter_cons_of_pos hawaited, List.length_cons] at hsingle
  have hnone : queue.filter (·.awaited) = [] := List.length_eq_zero_iff.1 (Nat.le_zero.1 (Nat.le_of_succ_le_succ hsingle))
  intro other hmem
  exact Bool.eq_false_iff.2 (List.filter_eq_nil_iff.1 hnone other hmem)

/-- An event reaches the stream. -/
theorem Sound.append (h : Sound delivery s) {body : EventBody} {emittedAt now : Nat}
    (hassert : assertAutomationEvent (delivery.event body s.sequence emittedAt now) = .ok ()) :
    Sound delivery { s with
      sequence := s.sequence + 1, published := s.published ++ [delivery.event body s.sequence emittedAt now] } := by
  have hkept : s.Ended → Process.Ended { s with
      sequence := s.sequence + 1, published := s.published ++ [delivery.event body s.sequence emittedAt now] } := by
    rintro ⟨event, hmem, hterminal⟩
    exact ⟨event, List.mem_append_left _ hmem, hterminal⟩
  refine ⟨?_, ?_, h.awaited, h.single, h.others, fun hsettled => hkept (h.settled hsettled), fun hacked => hkept (h.acked hacked)⟩
  · rw [List.map_append, h.sequences, List.range_succ]
    rfl
  · intro event hmem
    rcases List.mem_append.1 hmem with hmem | hmem
    · exact h.events event hmem
    · rw [List.mem_singleton.1 hmem]
      exact ⟨hassert, rfl, rfl, rfl⟩

/-- The promise of an emission that is through is fulfilled. -/
theorem Sound.emitted (h : Sound delivery s) {emission : Emission}
    (hquiet : emission.awaited = true → ∀ other ∈ s.queue, other.awaited = false)
    (hemits : emission.awaited = true → s.phase.emits emission.body = true)
    (hended : emission.body.terminal = true → s.Ended) : Sound delivery (Delivery.emitted s emission) := by
  unfold Delivery.emitted
  split
  case isFalse => exact h
  case isTrue hawaited =>
    have hbody := hemits hawaited
    split <;> rename_i hphase
    · exact h.phase (hquiet hawaited) rfl rfl rfl h.acked fun hsettled => by cases hsettled
    · exact h.phase (hquiet hawaited) rfl rfl rfl h.acked fun _ => hended (terminal_of_emits hbody (by simp [hphase]))
    · exact h.phase (hquiet hawaited) rfl rfl rfl h.acked fun _ => hended (terminal_of_emits hbody (by simp [hphase]))
    · exact h.phase (hquiet hawaited) rfl rfl rfl h.acked fun _ => hended (terminal_of_emits hbody (by simp [hphase]))
    · exact h

theorem Sound.rejected (h : Sound delivery s) {emission : Emission}
    (hquiet : emission.awaited = true → ∀ other ∈ s.queue, other.awaited = false) (error : Thrown) :
    Sound delivery (delivery.rejected s emission error) := by
  unfold Delivery.rejected
  split
  case isFalse => exact h
  case isTrue hawaited =>
    split
    · exact h.catchError (hquiet hawaited) error
    · exact h.catchError (hquiet hawaited) error
    · exact h.cleanup (hquiet hawaited)
    · exact h.cleanup (hquiet hawaited)
    · exact h

theorem Sound.publish (h : Sound delivery s) (emittedAt now : Nat) (failure : Option Thrown) :
    Sound delivery (delivery.publish s emittedAt now failure).2 := by
  unfold Delivery.publish
  split
  case h_1 => exact h
  case h_2 emission queue hqueue =>
    have hquiet := h.quiet_behind hqueue
    have hrest := h.dequeue hqueue
    have hemits := h.awaited emission (hqueue ▸ List.mem_cons_self)
    simp only
    split
    · exact hrest.rejected hquiet _
    · exact hrest.rejected hquiet _
    case h_3 _ hassert =>
      apply (hrest.append hassert).emitted hquiet hemits
      intro hterminal
      exact ⟨_, List.mem_append_right _ (List.mem_singleton_self _), hterminal⟩

theorem Sound.ack (h : Sound delivery s) (failure : Option Thrown) : Sound delivery (delivery.ack s failure) := by
  have hquiet : ∀ phase, s.phase = phase → phase.settled = true → ∀ emission ∈ s.queue, emission.awaited = false := by
    rintro phase rfl hsettled
    apply h.unawaited
    intro body
    generalize s.phase = phase at hsettled
    cases phase with
    | acking | settling => cases body <;> rfl
    | _ => cases hsettled
  unfold Delivery.ack
  split <;> rename_i hphase
  · exact h.phase (hquiet _ hphase rfl) rfl rfl rfl (fun _ => h.settled (by rw [hphase]; rfl)) fun hsettled => by cases hsettled
  · exact h.phase (hquiet _ hphase rfl) rfl rfl rfl (fun _ => h.settled (by rw [hphase]; rfl)) fun hsettled => by cases hsettled
  · exact h.catchError (hquiet _ hphase rfl) _
  · exact h.cleanup (hquiet _ hphase rfl)
  · exact h

theorem Sound.renew (h : Sound delivery s) (answer : Except Thrown Bool) : Sound delivery (Delivery.renew s answer) := by
  have hleft : Sound delivery { s with renewing := s.renewing - 1 } := h.congr rfl rfl rfl rfl rfl
  unfold Delivery.renew
  split
  · exact h
  · simp only
    split
    · exact hleft.emit rfl
    · exact h.congr rfl rfl rfl rfl rfl
    · exact hleft

theorem Sound.assertHeld (h : Sound delivery s) (call : Nat) (failure : Option Thrown) :
    Sound delivery (Delivery.assertHeld s call failure) := by
  have hleft : Sound delivery { s with checking := s.checking.eraseIdx call } := h.congr rfl rfl rfl rfl rfl
  unfold Delivery.assertHeld
  split
  · exact hleft.emit rfl
  · exact hleft
  · exact h

/-- What one turn preserves. -/
theorem Sound.step (h : Sound delivery s) (turn : Turn) : Sound delivery (delivery.step s turn).2 := by
  cases turn with
  | settle outcome => exact h.settle outcome
  | publish emittedAt now failure => exact h.publish emittedAt now failure
  | ack failure => exact h.ack failure
  | tick =>
    simp only [Delivery.step]
    split
    · exact h.congr rfl rfl rfl rfl rfl
    · exact h
  | renew answer => exact h.renew answer
  | progress phase percent =>
    simp only [Delivery.step]
    split
    · exact h.congr rfl rfl rfl rfl rfl
    · exact h
  | assertHeld call failure => exact h.assertHeld call failure
  | challenge challengeId image =>
    simp only [Delivery.step]
    split
    · exact h.emit rfl
    · exact h
  | cancel reason => exact h.congr rfl rfl rfl rfl rfl
  | cleaned =>
    simp only [Delivery.step]
    split
    case isTrue hphase =>
      have hquiet := h.unawaited fun body => by rw [hphase]; cases body <;> rfl
      exact h.phase hquiet rfl rfl rfl h.acked fun hsettled => by cases hsettled
    · exact h

end

end Hyeboard.Automation
