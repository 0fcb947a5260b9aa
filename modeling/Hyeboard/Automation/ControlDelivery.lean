import Hyeboard.Automation.Controls
/-!
# Whether a control reaches its worker

The group hands a message to any one of the workers, and `process` acknowledges
it whatever `onControl` returned. So an accepted control is lost when it is
handed to a worker that does not hold its job: `Routed` is what a run has to
keep to for no control to be lost.
-/

namespace Hyeboard.Automation

namespace Controls

/-- The runs of the system: its turns in any order, whatever clock each worker reads. -/
abbrev ControlRun (ok : Controls → ControlTurn → Prop) :=
  Run Controls.step (fun _ => 0) (fun _ s turn => ok s turn) Controls.start

/-- The step that stores `control` as the message `id`. -/
def Stores (control : AutomationControl) (id : Nat) (e : Step Controls ControlTurn (Except HyeboardError Unit)) : Prop :=
  ∃ call expiresAt, e.call = .publish call expiresAt ∧ e.before.publishing[call]? = some control ∧
    id = e.before.stream.length

/-- Whenever a control was stored while a worker held its job and challenge, and
the worker kept holding them until it accepted it, no consumer acknowledged the
message before. -/
def NoControlLost (trace : List (Step Controls ControlTurn (Except HyeboardError Unit))) (s : Controls) : Prop :=
  ∀ pre post e control id worker, trace = pre ++ e :: post → Stores control id e →
    (∀ later ∈ e :: post, (later.after.workers worker).Holds control = true ∨ (worker, id) ∈ later.after.accepted) →
    id ∈ s.acked → (worker, id) ∈ s.accepted

/-- The condition on a turn: whoever processes a control that some worker holds
is that worker, and the envelope has not expired. -/
def Routed (s : Controls) : ControlTurn → Prop
  | .process worker now => ∀ id ∈ (s.workers worker).batch.head?, ∀ message ∈ s.stream[id]?,
      ∀ control ∈ message.control, ∀ holder, (s.workers holder).Holds control = true →
        worker = holder ∧ ∀ envelope ∈ message.controlEnvelope, now < envelope.expiresAt
  | _ => True

/-- Some consumer is through with the message, up to its `ack`. -/
def Handled (s : Controls) (id : Nat) : Prop := id ∈ s.acked ∨ ∃ worker, (s.workers worker).acking = some id

/-! ## The messages of the group -/

/-- No message is known that is not in the stream. -/
structure Bounded (s : Controls) : Prop where
  acked : ∀ id ∈ s.acked, id < s.stream.length
  unacked : ∀ id ∈ s.unacked, id < s.stream.length
  batch : ∀ worker, ∀ id ∈ (s.workers worker).batch, id < s.stream.length
  acking : ∀ worker, ∀ id ∈ (s.workers worker).acking, id < s.stream.length

section
variable {s : Controls}

theorem bounded_start : Bounded start := by
  constructor
  · intro id h
    cases h
  · intro id h
    cases h
  · intro worker id h
    cases h
  · intro worker id h
    cases h

/-- What a turn may do to the messages. -/
structure Kept (s s' : Controls) : Prop where
  stream : s.stream <+: s'.stream
  accepted : s.accepted ⊆ s'.accepted
  handled : ∀ id, Handled s' id → Handled s id
  bounded : Bounded s → Bounded s'

theorem Kept.refl : Kept s s := ⟨List.prefix_rfl, List.Subset.refl _, fun _ => id, id⟩

theorem Kept.trans {t u : Controls} (h : Kept s t) (h' : Kept t u) : Kept s u :=
  ⟨h.stream.trans h'.stream, List.Subset.trans h.accepted h'.accepted, fun id hid => h.handled id (h'.handled id hid),
    fun hbounded => h'.bounded (h.bounded hbounded)⟩

/-- The API does something, or messages are added to the stream. -/
theorem Kept.of_eq {t : Controls} (hstream : s.stream <+: t.stream) (hacked : t.acked = s.acked)
    (hunacked : t.unacked = s.unacked) (hworkers : t.workers = s.workers) (haccepted : t.accepted = s.accepted) :
    Kept s t := by
  constructor
  · exact hstream
  · rw [haccepted]
    exact List.Subset.refl _
  · intro id h
    rwa [Handled, hacked, hworkers] at h
  · intro h
    have hlength : ∀ {id}, id < s.stream.length → id < t.stream.length := fun hid => Nat.lt_of_lt_of_le hid hstream.length_le
    constructor
    · rw [hacked]
      exact fun id hid => hlength (h.acked id hid)
    · rw [hunacked]
      exact fun id hid => hlength (h.unacked id hid)
    · rw [hworkers]
      exact fun worker id hid => hlength (h.batch worker id hid)
    · rw [hworkers]
      exact fun worker id hid => hlength (h.acking worker id hid)

/-- One worker changes. -/
theorem Kept.setWorker {worker : Nat} {w : WorkerState} (hacking : ∀ id ∈ w.acking, Handled s id)
    (hbatch : Bounded s → ∀ id ∈ w.batch, id < s.stream.length) : Kept s (s.setWorker worker w) := by
  have hold : ∀ id, Handled (s.setWorker worker w) id → Handled s id := by
    rintro id (hacked | ⟨other, hother⟩)
    · exact .inl hacked
    · by_cases hsame : other = worker
      · subst hsame
        simp only [Controls.setWorker, Function.update_self] at hother
        exact hacking id hother
      · simp only [Controls.setWorker, Function.update_of_ne hsame] at hother
        exact .inr ⟨other, hother⟩
  refine ⟨List.prefix_rfl, List.Subset.refl _, hold, fun h => ⟨h.acked, h.unacked, ?_, ?_⟩⟩
  · intro other id hid
    by_cases hsame : other = worker
    · subst hsame
      simp only [Controls.setWorker, Function.update_self] at hid
      exact hbatch h id hid
    · simp only [Controls.setWorker, Function.update_of_ne hsame] at hid
      exact h.batch other id hid
  · intro other id hid
    rcases hold id (.inr ⟨other, hid⟩) with hacked | ⟨holder, hholder⟩
    · exact h.acked id hacked
    · exact h.acking holder id hholder

/-- One worker changes, and the messages it has stay the same. -/
theorem Kept.setJobs {worker : Nat} {w : WorkerState} (hbatch : w.batch = (s.workers worker).batch)
    (hacking : w.acking = (s.workers worker).acking) : Kept s (s.setWorker worker w) := by
  apply Kept.setWorker
  · rw [hacking]
    exact fun id hid => .inr ⟨worker, hid⟩
  · rw [hbatch]
    exact fun h => h.batch worker

theorem cancelJob_batch (w : WorkerState) (jobId : OpaqueId) (reason : CancellationReason) :
    (w.cancelJob jobId reason).batch = w.batch ∧ (w.cancelJob jobId reason).acking = w.acking := by
  unfold WorkerState.cancelJob
  split
  · split <;> exact ⟨rfl, rfl⟩
  · exact ⟨rfl, rfl⟩

theorem waitForAnswer_batch (w : WorkerState) (owner : Owner) (challengeId : OpaqueId) (tokenSignal : Bool) :
    (w.waitForAnswer owner challengeId tokenSignal).batch = w.batch ∧
      (w.waitForAnswer owner challengeId tokenSignal).acking = w.acking := by
  unfold WorkerState.waitForAnswer
  split
  · split <;> exact ⟨rfl, rfl⟩
  · exact ⟨rfl, rfl⟩

theorem requestFencedCancel_batch (w : WorkerState) (owner : Owner) :
    (w.requestFencedCancel owner).2.batch = w.batch ∧ (w.requestFencedCancel owner).2.acking = w.acking := by
  unfold WorkerState.requestFencedCancel
  split
  · split
    · exact cancelJob_batch _ _ _
    · exact ⟨rfl, rfl⟩
  · exact ⟨rfl, rfl⟩

theorem applyControl_batch (w : WorkerState) (control : AutomationControl) :
    (w.applyControl control).2.batch = w.batch ∧ (w.applyControl control).2.acking = w.acking := by
  cases control with
  | captchaAnswer owner challengeId answer =>
    simp only [WorkerState.applyControl, WorkerState.applyAnswer]
    split
    · split <;> exact ⟨rfl, rfl⟩
    · exact ⟨rfl, rfl⟩
  | cancel owner challengeId =>
    cases challengeId with
    | none => exact requestFencedCancel_batch w owner
    | some challengeId =>
      simp only [WorkerState.applyControl]
      split
      · exact requestFencedCancel_batch w owner
      · exact ⟨rfl, rfl⟩

theorem completeChallenge_kept {owner : Owner} {challengeId : OpaqueId} {status : ChallengeStatus} {t : Controls}
    (h : s.completeChallenge owner challengeId status = some t) :
    t = { s with challenges := t.challenges } := by
  unfold Controls.completeChallenge at h
  split at h
  · split at h
    · cases h
      rfl
    · cases h
  · cases h

theorem kept_runOnce (worker : Nat) (idle : List Nat) : Kept s (s.runOnce worker idle) := by
  by_cases hready : ((s.workers worker).running && (s.workers worker).batch.isEmpty && (s.workers worker).acking.isNone) = true
  case neg =>
    rw [Controls.runOnce, if_neg hready]
    exact Kept.refl
  case pos =>
    rw [Controls.runOnce, if_pos hready]
    simp only [Bool.and_eq_true, Option.isNone_iff_eq_none] at hready
    have hidle : ∀ id ∈ (s.workers worker).acking, Handled s id := by
      rw [hready.2]
      intro id hid
      cases hid
    split
    case h_1 =>
      have hbatch : ∀ id ∈ ((List.range s.stream.length).drop s.delivered).take 10, id < s.stream.length := fun id hid =>
        List.mem_range.1 (List.mem_of_mem_drop (List.mem_of_mem_take hid))
      apply Kept.trans (t := { s with delivered := _, unacked := s.unacked ++ _ })
      · refine ⟨List.prefix_rfl, List.Subset.refl _, fun _ => id, fun h => ⟨h.acked, ?_, h.batch, h.acking⟩⟩
        intro id hid
        rcases List.mem_append.1 hid with hid | hid
        · exact h.unacked id hid
        · exact hbatch id hid
      · exact Kept.setWorker hidle fun _ => hbatch
    case h_2 =>
      apply Kept.setWorker
      · exact hidle
      · exact fun h id hid => h.unacked id (List.mem_filter.1 (List.mem_of_mem_take hid)).1

theorem kept_ack (worker : Nat) (failed : Bool) : Kept s (s.ack worker failed) := by
  cases hid : (s.workers worker).acking with
  | none =>
    simp only [Controls.ack, hid]
    exact Kept.refl
  | some id =>
    simp only [Controls.ack, hid]
    split
    · apply Kept.setWorker
      · intro _ hnone
        cases hnone
      · intro _ _ hnone
        cases hnone
    · apply Kept.trans (t := { s with unacked := s.unacked.erase id, acked := id :: s.acked })
      · refine ⟨List.prefix_rfl, List.Subset.refl _, ?_, fun h => ⟨?_, ?_, h.batch, h.acking⟩⟩
        · rintro other (hacked | hacking)
          · rcases List.mem_cons.1 hacked with rfl | hacked
            · exact .inr ⟨worker, hid⟩
            · exact .inl hacked
          · exact .inr hacking
        · intro other hother
          rcases List.mem_cons.1 hother with rfl | hother
          · exact h.acking worker _ hid
          · exact h.acked other hother
        · exact fun other hother => h.unacked other (List.mem_of_mem_erase hother)
      · apply Kept.setWorker
        · intro _ hnone
          cases hnone
        · exact fun h => h.batch worker

/-- Every turn but `process`. -/
theorem kept_step {turn : ControlTurn} (hturn : ∀ worker now, turn ≠ .process worker now) : Kept s (s.step turn).2 := by
  cases turn with
  | answerCaptcha owner challengeId answer =>
    simp only [Controls.step, Controls.answerCaptcha]
    split
    · split
      · rename_i hcomplete
        rw [completeChallenge_kept hcomplete]
        exact Kept.of_eq List.prefix_rfl rfl rfl rfl rfl
      · exact Kept.refl
    · exact Kept.refl
  | cancelCaptcha owner challengeId =>
    simp only [Controls.step, Controls.cancelCaptcha]
    split
    · rename_i hcomplete
      rw [completeChallenge_kept hcomplete]
      exact Kept.of_eq List.prefix_rfl rfl rfl rfl rfl
    · exact Kept.refl
  | cancelAutomation owner =>
    simp only [Controls.step, Controls.cancelAutomation]
    split
    · exact Kept.of_eq List.prefix_rfl rfl rfl rfl rfl
    · exact Kept.refl
  | publish call expiresAt =>
    simp only [Controls.step, Controls.publishControl]
    split
    · exact Kept.of_eq (List.prefix_append _ _) rfl rfl rfl rfl
    · exact Kept.refl
  | prepareChallenge owner challengeId =>
    simp only [Controls.step, Controls.prepareChallenge]
    split
    · exact Kept.refl
    · exact Kept.of_eq List.prefix_rfl rfl rfl rfl rfl
  | enqueue jobId => exact Kept.of_eq List.prefix_rfl rfl rfl rfl rfl
  | expireJob jobId => exact Kept.of_eq List.prefix_rfl rfl rfl rfl rfl
  | expireCancel jobId => exact Kept.of_eq List.prefix_rfl rfl rfl rfl rfl
  | expireChallenge challengeId => exact Kept.of_eq List.prefix_rfl rfl rfl rfl rfl
  | foreign message => exact Kept.of_eq (List.prefix_append _ _) rfl rfl rfl rfl
  | runOnce worker idle => exact kept_runOnce worker idle
  | process worker now => exact absurd rfl (hturn worker now)
  | ack worker failed => exact kept_ack worker failed
  | stop worker => exact Kept.setJobs rfl rfl
  | crash worker =>
    apply Kept.setWorker
    · intro _ hnone
      cases hnone
    · intro _ _ hnone
      cases hnone
  | begin worker owner => exact Kept.setJobs rfl rfl
  | finish worker jobId => exact Kept.setJobs rfl rfl
  | waitForAnswer worker owner challengeId tokenSignal =>
    exact Kept.setJobs (waitForAnswer_batch _ _ _ _).1 (waitForAnswer_batch _ _ _ _).2
  | abort worker challengeId => exact Kept.setJobs rfl rfl
  | cancelJob worker jobId reason => exact Kept.setJobs (cancelJob_batch _ _ _).1 (cancelJob_batch _ _ _).2

/-- `process` works on the next message of a batch, if at all. -/
inductive Processes (s : Controls) (worker now : Nat) : Controls → Prop
  | idle : Processes s worker now s
  | accepted {id batch control w} : (s.workers worker).batch = id :: batch →
      s.stream[id]?.bind (·.opened now) = some control →
      (WorkerState.applyControl { s.workers worker with batch, acking := some id } control) = (true, w) →
      Processes s worker now ({ s with accepted := (worker, id) :: s.accepted }.setWorker worker w)
  | refused {id batch control w} : (s.workers worker).batch = id :: batch →
      s.stream[id]?.bind (·.opened now) = some control →
      (WorkerState.applyControl { s.workers worker with batch, acking := some id } control) = (false, w) →
      Processes s worker now (s.setWorker worker w)
  | discarded {id batch} : (s.workers worker).batch = id :: batch → s.stream[id]?.bind (·.opened now) = none →
      Processes s worker now (s.setWorker worker { s.workers worker with batch, acking := some id })

theorem process_cases (s : Controls) (worker now : Nat) : Processes s worker now (s.process worker now) := by
  cases hacking : (s.workers worker).acking with
  | some id =>
    simp only [Controls.process, hacking]
    exact .idle
  | none =>
    cases hbatch : (s.workers worker).batch with
    | nil =>
      simp only [Controls.process, hacking, hbatch]
      exact .idle
    | cons id batch =>
      simp only [Controls.process, hacking, hbatch]
      split
      case h_1 control hcontrol =>
        split
        · exact .accepted hbatch hcontrol ‹_›
        · exact .refused hbatch hcontrol ‹_›
      case h_2 hnone => exact .discarded hbatch hnone

theorem applied_batch {worker id : Nat} {batch : List Nat} {control : AutomationControl} {accepted : Bool} {w : WorkerState}
    (h : WorkerState.applyControl { s.workers worker with batch, acking := some id } control = (accepted, w)) :
    w.batch = batch ∧ w.acking = some id := by
  have hkept := applyControl_batch { s.workers worker with batch, acking := some id } control
  rwa [h] at hkept

/-- What is handled after `process` was handled before, or is the next message. -/
theorem handled_setWorker {worker id : Nat} {w : WorkerState} (hacking : w.acking = some id) {other : Nat}
    (h : Handled (s.setWorker worker w) other) : Handled s other ∨ other = id := by
  rcases h with hacked | ⟨holder, hholder⟩
  · exact .inl (.inl hacked)
  · by_cases hsame : holder = worker
    · subst hsame
      simp only [Controls.setWorker, Function.update_self, hacking, Option.some.injEq] at hholder
      exact .inr hholder.symm
    · simp only [Controls.setWorker, Function.update_of_ne hsame] at hholder
      exact .inl (.inr ⟨holder, hholder⟩)

/-- The worker takes the next message of its batch. -/
theorem Bounded.take (h : Bounded s) {worker id : Nat} {batch : List Nat} (hbatch : (s.workers worker).batch = id :: batch)
    {w : WorkerState} (hw : w.batch = batch ∧ w.acking = some id) : Bounded (s.setWorker worker w) := by
  have hbounds := h.batch worker
  rw [hbatch, List.forall_mem_cons] at hbounds
  refine ⟨h.acked, h.unacked, ?_, ?_⟩
  · intro other other' hid
    by_cases hsame : other = worker
    · subst hsame
      simp only [Controls.setWorker, Function.update_self, hw.1] at hid
      exact hbounds.2 other' hid
    · simp only [Controls.setWorker, Function.update_of_ne hsame] at hid
      exact h.batch other other' hid
  · intro other other' hid
    by_cases hsame : other = worker
    · subst hsame
      simp only [Controls.setWorker, Function.update_self, hw.2, Option.mem_some_iff] at hid
      exact hid ▸ hbounds.1
    · simp only [Controls.setWorker, Function.update_of_ne hsame] at hid
      exact h.acking other other' hid

theorem Bounded.process (h : Bounded s) (worker now : Nat) : Bounded (s.process worker now) := by
  have hcases := process_cases s worker now
  generalize s.process worker now = t at hcases ⊢
  cases hcases with
  | idle => exact h
  | @accepted id _ _ _ hbatch _ happly =>
    have hlogged : Bounded { s with accepted := (worker, id) :: s.accepted } := ⟨h.acked, h.unacked, h.batch, h.acking⟩
    exact hlogged.take hbatch (applied_batch happly)
  | refused hbatch _ happly => exact h.take hbatch (applied_batch happly)
  | discarded hbatch _ => exact h.take hbatch ⟨rfl, rfl⟩

theorem process_stream (worker now : Nat) : (s.process worker now).stream = s.stream ∧
    s.accepted ⊆ (s.process worker now).accepted := by
  have hcases := process_cases s worker now
  generalize s.process worker now = t at hcases ⊢
  cases hcases with
  | idle => exact ⟨rfl, List.Subset.refl _⟩
  | accepted _ _ _ => exact ⟨rfl, List.subset_cons_self _ _⟩
  | refused _ _ _ => exact ⟨rfl, List.Subset.refl _⟩
  | discarded _ _ => exact ⟨rfl, List.Subset.refl _⟩

theorem Bounded.step (h : Bounded s) (turn : ControlTurn) : Bounded (s.step turn).2 := by
  by_cases hturn : ∀ worker now, turn ≠ .process worker now
  · exact (kept_step hturn).bounded h
  · push Not at hturn
    obtain ⟨worker, now, rfl⟩ := hturn
    exact h.process worker now

/-! ## The control reaches its worker -/

/-- The message carries the control, and the worker has accepted it once some
consumer is through with it. -/
structure Reached (control : AutomationControl) (id worker : Nat) (s : Controls) : Prop where
  message : ∃ expiresAt, s.stream[id]? = some (controlMessage control expiresAt)
  handled : Handled s id → (worker, id) ∈ s.accepted

theorem control_controlMessage (control : AutomationControl) (expiresAt : Nat) :
    (controlMessage control expiresAt).control = some control := by
  simp [ControlMessage.control, controlMessage, parse_payload, Except.toOption, guard]

/-- A worker that holds the control processes the message in time. -/
theorem reached_process {control : AutomationControl} {id worker : Nat} {processor now : Nat}
    (h : Reached control id worker s) (hheld : (s.workers worker).Holds control = true ∨ (worker, id) ∈ s.accepted)
    (hrouted : Routed s (.process processor now)) : Reached control id worker (s.process processor now) := by
  obtain ⟨hstream, haccepted⟩ := process_stream (s := s) processor now
  obtain ⟨expiresAt, hmessage⟩ := h.message
  have hcases := process_cases s processor now
  refine ⟨⟨expiresAt, hstream ▸ hmessage⟩, ?_⟩
  rcases hheld with hheld | hdone
  case inr => exact fun _ => haccepted hdone
  have hopened : (s.workers processor).batch.head? = some id →
      processor = worker ∧ s.stream[id]?.bind (·.opened now) = some control := by
    intro hhead
    obtain ⟨hsame, hlive⟩ := hrouted id hhead _ hmessage control (control_controlMessage control expiresAt) worker hheld
    refine ⟨hsame, ?_⟩
    rw [hmessage, Option.bind_some]
    exact (if_pos (hlive _ rfl)).trans (control_controlMessage control expiresAt)
  generalize s.process processor now = t at hcases ⊢
  cases hcases with
  | idle => exact h.handled
  | @accepted first batch other w hbatch hcontrol happly =>
    intro hhandled
    rcases handled_setWorker (applied_batch happly).2 hhandled with hbefore | rfl
    · exact List.mem_cons_of_mem _ (h.handled hbefore)
    · rw [(hopened (by rw [hbatch]; rfl)).1]
      exact List.mem_cons_self
  | @refused first batch other w hbatch hcontrol happly =>
    intro hhandled
    rcases handled_setWorker (applied_batch happly).2 hhandled with hbefore | rfl
    · exact h.handled hbefore
    · obtain ⟨rfl, hsame⟩ := hopened (by rw [hbatch]; rfl)
      rw [hsame] at hcontrol
      cases hcontrol
      have haccepts := WorkerState.applyControl_of_holds (w := { s.workers processor with batch, acking := some id }) hheld
      rw [happly] at haccepts
      cases haccepts
  | @discarded first batch hbatch hnone =>
    intro hhandled
    rcases handled_setWorker rfl hhandled with hbefore | rfl
    · exact h.handled hbefore
    · rw [(hopened (by rw [hbatch]; rfl)).2] at hnone
      cases hnone

/-- What one turn preserves. -/
theorem reached_step {control : AutomationControl} {id worker : Nat} {turn : ControlTurn}
    (h : Reached control id worker s) (hheld : (s.workers worker).Holds control = true ∨ (worker, id) ∈ s.accepted)
    (hrouted : Routed s turn) : Reached control id worker (s.step turn).2 := by
  by_cases hturn : ∀ worker now, turn ≠ .process worker now
  · have hkept := kept_step (s := s) hturn
    obtain ⟨expiresAt, hmessage⟩ := h.message
    obtain ⟨added, hadded⟩ := hkept.stream
    have hlength := (List.getElem?_eq_some_iff.1 hmessage).1
    refine ⟨⟨expiresAt, ?_⟩, fun hhandled => hkept.accepted (h.handled (hkept.handled id hhandled))⟩
    rw [← hadded, List.getElem?_append_left hlength]
    exact hmessage
  · push Not at hturn
    obtain ⟨processor, now, rfl⟩ := hturn
    exact reached_process h hheld hrouted

/-- The message has just been stored: nobody knows of it. -/
theorem reached_stored {control : AutomationControl} {id worker : Nat} {turn : ControlTurn} (hbounded : Bounded s)
    (hstores : Stores control id (stepOf Controls.step s turn)) : Reached control id worker (s.step turn).2 := by
  obtain ⟨call, expiresAt, hcall, hcontrol, rfl⟩ := hstores
  obtain rfl : turn = .publish call expiresAt := hcall
  have hnext : (s.step (.publish call expiresAt)).2 =
      { s with publishing := s.publishing.eraseIdx call, stream := s.stream ++ [controlMessage control expiresAt] } := by
    simp only [Controls.step, Controls.publishControl]
    rw [show s.publishing[call]? = some control from hcontrol]
  have hfresh : ∀ id, Handled s id → id < s.stream.length := by
    rintro id (hacked | ⟨holder, hholder⟩)
    · exact hbounded.acked id hacked
    · exact hbounded.acking holder id hholder
  rw [hnext]
  constructor
  · exact ⟨expiresAt, by simp [stepOf]⟩
  · exact fun hhandled => absurd (hfresh _ hhandled) (Nat.lt_irrefl _)

end

section
variable {trace : List (Step Controls ControlTurn (Except HyeboardError Unit))} {s : Controls} {clock : Nat}

/-- What a run of routed turns keeps of the controls stored in it. -/
structure Tracked (trace : List (Step Controls ControlTurn (Except HyeboardError Unit))) (s : Controls) : Prop where
  bounded : Bounded s
  last : ∀ pre e, trace = pre ++ [e] → e.after = s
  reached : ∀ pre post e control id worker, trace = pre ++ e :: post → Stores control id e →
    (∀ later ∈ e :: post, (later.after.workers worker).Holds control = true ∨ (worker, id) ∈ later.after.accepted) →
    Reached control id worker s

theorem tracked_start : Tracked [] start := by
  refine ⟨bounded_start, ?_, ?_⟩
  · intro pre e h
    cases pre <;> cases h
  · intro pre post e _ _ _ h
    cases pre <;> cases h

theorem Tracked.step (h : Tracked trace s) {turn : ControlTurn} (hrouted : Routed s turn) :
    Tracked (trace ++ [stepOf Controls.step s turn]) (s.step turn).2 := by
  refine ⟨h.bounded.step turn, ?_, ?_⟩
  · intro pre e heq
    rw [← List.singleton_inj.1 (List.append_inj' heq rfl).2]
    rfl
  · intro pre post e control id worker heq hstores hheld
    rcases List.eq_nil_or_concat' post with rfl | ⟨before, last, rfl⟩
    · -- the last turn stores the control
      obtain rfl := List.singleton_inj.1 (List.append_inj' heq rfl).2
      exact reached_stored h.bounded hstores
    · rw [← List.cons_append, ← List.append_assoc] at heq
      have htrace := (List.append_inj' heq rfl).1
      have hearlier : ∀ later ∈ e :: before,
          (later.after.workers worker).Holds control = true ∨ (worker, id) ∈ later.after.accepted := fun later hlater =>
        hheld later (List.mem_append_left [last] hlater)
      apply reached_step (h.reached pre before e control id worker htrace hstores hearlier) _ hrouted
      -- the state before this turn is the one after the latest turn
      obtain ⟨front, latest, hlatest⟩ := (List.eq_nil_or_concat' (e :: before)).resolve_left (List.cons_ne_nil _ _)
      rw [← h.last (pre ++ front) latest (by rw [htrace, hlatest, List.append_assoc])]
      exact hearlier latest (by rw [hlatest]; simp)

theorem tracked_run (h : ControlRun Routed trace s clock) : Tracked trace s := by
  induction h with
  | start => exact tracked_start
  | call turn _ _ hrouted ih => exact ih.step hrouted

/-- In every run that hands each control to the worker that holds it, in time, no
accepted control is lost. -/
theorem control_not_lost (h : ControlRun Routed trace s clock) : NoControlLost trace s := by
  intro pre post e control id worker heq hstores hheld hacked
  exact ((tracked_run h).reached pre post e control id worker heq hstores hheld).handled (.inl hacked)

end

/-! ## A run that loses an answer -/

def sampleId : OpaqueId := ⟨"AAAAAAAAAAAAAAAAAAAAAA", by decide +kernel⟩

def sampleOwner : Owner := { jobId := sampleId, accountId := sampleId, fence := ⟨1, by decide⟩ }

/-- The job and its challenge are with worker 0, `processor` gets the answer. -/
def sampleTurns (processor : Nat) : List ControlTurn :=
  [.enqueue sampleId, .begin 0 sampleOwner, .waitForAnswer 0 sampleOwner sampleId true,
    .prepareChallenge sampleOwner sampleId, .answerCaptcha sampleOwner sampleId "x7k2", .publish 0 1000,
    .runOnce processor [], .process processor 0, .ack processor false]

def sampleState (processor : Nat) : Controls := stateAfter Controls.step start (sampleTurns processor)

def sampleTrace (processor : Nat) : List (Step Controls ControlTurn (Except HyeboardError Unit)) :=
  execute Controls.step start (sampleTurns processor)

def sampleControl : AutomationControl := .captchaAnswer sampleOwner sampleId ⟨"x7k2", by decide +kernel⟩

theorem sampleRun (processor : Nat) (ok : Controls → ControlTurn → Prop)
    (hok : ∀ e ∈ sampleTrace processor, ok e.before e.call) :
    ∃ clock, ControlRun ok (sampleTrace processor) (sampleState processor) clock := by
  have hstart : ControlRun ok [] start 0 := .start
  have hrun := hstart.follow (sampleTurns processor) (by simp [sampleTurns]) fun e he _ => hok e he
  rwa [List.nil_append] at hrun

/-- Worker 0 holds the challenge and keeps it, worker 1 gets the answer, refuses
and acknowledges it. -/
theorem answer_lost :
    ¬ ∀ trace s clock, ControlRun (fun _ _ => True) trace s clock → NoControlLost trace s := by
  intro h
  obtain ⟨clock, hrun⟩ := sampleRun 1 (fun _ _ => True) fun _ _ => trivial
  have hlost := h _ _ _ hrun ((sampleTrace 1).take 5) ((sampleTrace 1).drop 6)
    (stepOf Controls.step (stateAfter Controls.step start ((sampleTurns 1).take 5)) (.publish 0 1000)) sampleControl 0 0 rfl
    ⟨0, 1000, rfl, by decide +kernel, by decide +kernel⟩ (by decide +kernel) (by decide +kernel)
  exact absurd hlost (by decide +kernel)

/-- Nobody but worker 0 holds the challenge when worker 0 processes the answer. -/
theorem sample_routed : Routed (stateAfter Controls.step start ((sampleTurns 0).take 7)) (.process 0 0) := by
  intro id hid message hmessage control hcontrol holder hholds
  obtain rfl := Option.some.inj (show some 0 = some id from hid)
  obtain rfl := Option.some.inj (show some (controlMessage sampleControl 1000) = some message from hmessage)
  obtain rfl := Option.some.inj ((control_controlMessage _ _).symm.trans hcontrol)
  cases holder with
  | zero =>
    refine ⟨rfl, fun envelope henvelope => ?_⟩
    obtain rfl := Option.some.inj henvelope
    decide
  | succ other =>
    have hnone : WorkerState.start.Holds sampleControl = false := by decide +kernel
    exact absurd (hnone.symm.trans hholds) Bool.false_ne_true

/-- The answer reaches worker 0. -/
theorem control_not_lost_sample : NoControlLost (sampleTrace 0) (sampleState 0) := by
  have hrouted : ∀ e ∈ sampleTrace 0, Routed e.before e.call := by
    simp only [sampleTrace, sampleTurns, execute, List.forall_mem_cons, List.not_mem_nil, false_imp_iff, implies_true,
      and_true]
    exact ⟨trivial, trivial, trivial, trivial, trivial, trivial, trivial, sample_routed, trivial⟩
  obtain ⟨clock, hrun⟩ := sampleRun 0 Routed hrouted
  exact control_not_lost hrun

end Controls

end Hyeboard.Automation
