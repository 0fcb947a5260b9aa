import Hyeboard.Automation.ControlDelivery
/-!
# Control calls whose commands fail

`answerCaptcha`, `cancelCaptcha` and `cancelAutomation` again (`node/automation/backend.ts`),
command by command: each command of a call can fail, before or behind its effect, and the
commands of several calls interleave in any way. The status of a challenge is changed
before its control is encrypted and appended, so a call that fails in between cannot be
made again.
-/

namespace Hyeboard.Automation

inductive ControlCall where
  | answerCaptcha (owner : Owner) (challengeId : OpaqueId) (answer : String)
  | cancelCaptcha (owner : Owner) (challengeId : OpaqueId)
  | cancelAutomation (owner : Owner)
deriving DecidableEq

def ControlCall.owner : ControlCall → Owner
  | .answerCaptcha owner _ _ | .cancelCaptcha owner _ | .cancelAutomation owner => owner

/-- What the call publishes, if its answer is one. -/
def ControlCall.control : ControlCall → Option AutomationControl
  | .answerCaptcha owner challengeId answer =>
    if h : 1 ≤ jsLength answer ∧ jsLength answer ≤ 64 then some (.captchaAnswer owner challengeId ⟨answer, h⟩) else none
  | .cancelCaptcha owner challengeId => some (.cancel owner (some challengeId))
  | .cancelAutomation owner => some (.cancel owner none)

/-- The challenge that the call completes, and the status it gives it. -/
def ControlCall.completes : ControlCall → Option (OpaqueId × ChallengeStatus)
  | .answerCaptcha _ challengeId _ => some (challengeId, .answered)
  | .cancelCaptcha _ challengeId => some (challengeId, .cancelled)
  | .cancelAutomation _ => none

/-- Whether the call sets the `cancel` key. -/
def ControlCall.cancels : ControlCall → Bool
  | .answerCaptcha _ _ _ => false
  | .cancelCaptcha _ _ | .cancelAutomation _ => true

/-- What a call does next, or how it settled; `threw` says whether a command of it failed. -/
inductive CallPhase where
  | reading
  | completing
  | flagging
  | encrypting
  | appending
  | returned
  | threw (failed : Bool)
deriving DecidableEq, Repr

/-- How a command ends: done, failed, or done without its answer getting back. -/
inductive CommandOutcome where
  | done
  | failed
  | lost
deriving DecidableEq, Repr

/-- A challenge, and which call completed it. -/
structure Challenge where
  state : ChallengeState
  completedBy : Option Nat
deriving DecidableEq

/-- The keys, and the control stream with the call of each message. -/
structure ControlStore where
  jobs : List OpaqueId
  cancels : List OpaqueId
  challenges : OpaqueId → Option Challenge
  stream : List (Nat × AutomationControl)

/-- The challenge is there for its owner, with a status. -/
def ControlStore.matches (store : ControlStore) (owner : Owner) (challengeId : OpaqueId) : Bool :=
  match store.challenges challengeId with
  | some challenge => challenge.state.owner = owner && challenge.state.status = .pending
  | none => false

/-- `COMPLETE_CHALLENGE_SCRIPT`, where the state is still the one that was read. -/
def ControlStore.complete (store : ControlStore) (call : Nat) (owner : Owner) (challengeId : OpaqueId) (status : ChallengeStatus) :
    ControlStore :=
  { store with challenges := Function.update store.challenges challengeId (some ⟨⟨owner, status⟩, some call⟩) }

/-- The phase a call starts in: an answer is checked before any command. -/
def ControlCall.begin (call : ControlCall) : CallPhase := if call.control.isSome then .reading else .threw false

/-- Behind the change of the status, or what stands in its place. -/
def ControlCall.publishing (call : ControlCall) : CallPhase := if call.cancels then .flagging else .encrypting

/-- What the first command finds out. -/
def ControlCall.found (call : ControlCall) (store : ControlStore) : Bool :=
  match call.completes with
  | some (challengeId, _) => store.matches call.owner challengeId
  | none => call.owner.jobId ∈ store.jobs

/-- The next command of call `i`. -/
def ControlCall.advance (call : ControlCall) (i : Nat) (store : ControlStore) : CallPhase → CommandOutcome → CallPhase × ControlStore
  | .reading, .done =>
    if call.found store then (if call.completes.isSome then .completing else call.publishing, store) else (.threw false, store)
  | .reading, _ => (.threw true, store)
  | .completing, .failed => (.threw true, store)
  | .completing, outcome =>
    match call.completes with
    | some (challengeId, status) =>
      if store.matches call.owner challengeId then
        (if outcome = .done then call.publishing else .threw true, store.complete i call.owner challengeId status)
      else (if outcome = .done then .threw false else .threw true, store)
    | none => (.threw true, store)
  | .flagging, .failed => (.threw true, store)
  | .flagging, outcome =>
    (if outcome = .done then .encrypting else .threw true, { store with cancels := call.owner.jobId :: store.cancels })
  | .encrypting, .done => (.appending, store)
  | .encrypting, _ => (.threw true, store)
  | .appending, .failed => (.threw true, store)
  | .appending, outcome =>
    (if outcome = .done then .returned else .threw true,
      { store with stream := store.stream ++ (call.control.map fun control => (i, control)).toList })
  | .returned, _ => (.returned, store)
  | .threw failed, _ => (.threw failed, store)

structure ControlCalls where
  store : ControlStore
  calls : List (ControlCall × CallPhase)

inductive CallTurn where
  | call (call : ControlCall)
  | command (i : Nat) (outcome : CommandOutcome)
  | enqueue (jobId : OpaqueId)
  | expireJob (jobId : OpaqueId)
  | expireCancel (jobId : OpaqueId)
  | prepareChallenge (owner : Owner) (challengeId : OpaqueId)
  | expireChallenge (challengeId : OpaqueId)

namespace ControlCalls

def start : ControlCalls := ⟨⟨[], [], fun _ => none, []⟩, []⟩

def command (s : ControlCalls) (i : Nat) (outcome : CommandOutcome) : ControlCalls :=
  match s.calls[i]? with
  | some (call, phase) =>
    let (phase, store) := call.advance i s.store phase outcome
    ⟨store, s.calls.set i (call, phase)⟩
  | none => s

def step (s : ControlCalls) : CallTurn → Unit × ControlCalls
  | .call call => ((), { s with calls := s.calls ++ [(call, call.begin)] })
  | .command i outcome => ((), s.command i outcome)
  | .enqueue jobId => ((), { s with store := { s.store with jobs := jobId :: s.store.jobs } })
  | .expireJob jobId => ((), { s with store := { s.store with jobs := s.store.jobs.filter (· ≠ jobId) } })
  | .expireCancel jobId => ((), { s with store := { s.store with cancels := s.store.cancels.filter (· ≠ jobId) } })
  | .prepareChallenge owner challengeId =>
    ((), match s.store.challenges challengeId with
      | some _ => s
      | none => { s with store := { s.store with
          challenges := Function.update s.store.challenges challengeId (some ⟨⟨owner, .pending⟩, none⟩) } })
  | .expireChallenge challengeId =>
    ((), { s with store := { s.store with challenges := Function.update s.store.challenges challengeId none } })

end ControlCalls

/-! ## Calls that can be made again -/

/-- The phase of the call when it runs alone and nothing fails. -/
def ControlCall.alone (call : ControlCall) (i : Nat) (store : ControlStore) : CallPhase :=
  ((fun reached : CallPhase × ControlStore => call.advance i reached.2 reached.1 .done)^[5] (call.begin, store)).1

/-- Nobody else has completed the challenge of call `i`, and it has not expired; or its job has not. -/
def ControlCall.stillOpen (call : ControlCall) (i : Nat) (store : ControlStore) : Prop :=
  match call.completes with
  | some (challengeId, _) => ∃ challenge, store.challenges challengeId = some challenge ∧ challenge.state.owner = call.owner ∧
      (challenge.completedBy = none ∨ challenge.completedBy = some i)
  | none => call.owner.jobId ∈ store.jobs

/-- A call takes effect entirely, or it can be made again; and no challenge is marked answered without its answer. -/
structure ControlCalls.Whole (s : ControlCalls) : Prop where
  returned : ∀ i call, s.calls[i]? = some (call, .returned) →
    ∃ control, call.control = some control ∧ s.store.stream.filter (·.1 = i) = [(i, control)]
  retryable : ∀ (i : Nat) (call : ControlCall), s.calls[i]? = some (call, .threw true) → call.stillOpen i s.store → call.alone s.calls.length s.store = .returned
  answered : ∀ challengeId challenge i, s.store.challenges challengeId = some challenge → challenge.state.status = .answered →
    challenge.completedBy = some i → ∃ call phase, s.calls[i]? = some (call, phase) ∧
      ((∀ failed, phase ≠ .threw failed) ∧ (phase = .returned → ∃ control, (i, control) ∈ s.store.stream))

/-- The challenge of call `i` bears its mark. -/
def ControlCall.marked (call : ControlCall) (i : Nat) (store : ControlStore) : Prop :=
  ∃ challengeId status challenge, call.completes = some (challengeId, status) ∧ store.challenges challengeId = some challenge ∧
    challenge.completedBy = some i

/-- Between the change of the status and the message. -/
def CallPhase.publishes : CallPhase → Bool
  | .flagging | .encrypting | .appending => true
  | _ => false

/-- No command of a call fails while the challenge bears the mark of the call, and the one that marks it does not lose its answer. -/
def FailsUnmarked (s : ControlCalls) : CallTurn → Prop
  | .command i outcome => outcome ≠ .done → ∀ call phase, s.calls[i]? = some (call, phase) →
      (phase.publishes = true → ¬ call.marked i s.store) ∧ (phase = .completing → outcome = .lost → call.found s.store = false)
  | _ => True

/-! ## One command -/

section
variable {call : ControlCall} {i : Nat} {store : ControlStore} {phase : CallPhase} {outcome : CommandOutcome}

/-- A call whose challenge is pending, or whose job is there, returns when it runs alone. -/
theorem alone_returned (hcontrol : call.control.isSome = true) (hfound : call.found store = true) : call.alone i store = .returned := by
  cases call with
  | answerCaptcha owner challengeId answer =>
    have hmatches : store.matches owner challengeId = true := hfound
    simp [ControlCall.alone, ControlCall.begin, hcontrol, ControlCall.advance, hfound, ControlCall.completes, ControlCall.publishing,
      ControlCall.cancels, ControlCall.owner, hmatches]
  | cancelCaptcha owner challengeId =>
    have hmatches : store.matches owner challengeId = true := hfound
    simp [ControlCall.alone, ControlCall.begin, hcontrol, ControlCall.advance, hfound, ControlCall.completes, ControlCall.publishing,
      ControlCall.cancels, ControlCall.owner, hmatches]
  | cancelAutomation owner =>
    simp [ControlCall.alone, ControlCall.begin, hcontrol, ControlCall.advance, hfound, ControlCall.completes, ControlCall.publishing,
      ControlCall.cancels, ControlCall.owner]

/-- The stream grows by the message of the call, when it appends. -/
theorem advance_stream (call : ControlCall) (i : Nat) (store : ControlStore) (phase : CallPhase) (outcome : CommandOutcome) :
    ((call.advance i store phase outcome).2.stream = store.stream ∧ ((call.advance i store phase outcome).1 = .returned → phase = .returned)) ∨
      (phase = .appending ∧ (call.advance i store phase outcome).2.stream =
        store.stream ++ (call.control.map fun control => (i, control)).toList ∧
        ((call.advance i store phase outcome).1 = .returned ∨ (call.advance i store phase outcome).1 = .threw true)) := by
  cases phase <;> cases outcome <;> simp [ControlCall.advance]
  · unfold ControlCall.publishing
    grind
  · grind [ControlCall.publishing, ControlStore.complete]
  · grind [ControlStore.complete]

/-- A challenge changes when a call completes it. -/
theorem advance_challenges (call : ControlCall) (i : Nat) (store : ControlStore) (phase : CallPhase) (outcome : CommandOutcome) :
    (call.advance i store phase outcome).2.challenges = store.challenges ∨
      ∃ challengeId status, phase = .completing ∧ outcome ≠ .failed ∧ call.completes = some (challengeId, status) ∧
        call.found store = true ∧
        (call.advance i store phase outcome).2.challenges =
          Function.update store.challenges challengeId (some ⟨⟨call.owner, status⟩, some i⟩) ∧
        (outcome = .done → (call.advance i store phase outcome).1.publishes = true) := by
  cases phase <;> cases outcome <;> simp [ControlCall.advance]
  · grind
  · grind [ControlCall.publishing, ControlStore.complete, ControlCall.found, CallPhase.publishes]
  · grind [ControlStore.complete, ControlCall.found]

/-- A call that has completed its challenge publishes, has returned, or has just failed. -/
theorem advance_publishes (h : phase.publishes = true ∨ phase = .returned) :
    ((call.advance i store phase outcome).1.publishes = true ∨ (call.advance i store phase outcome).1 = .returned) ∨
      (outcome ≠ .done ∧ phase.publishes = true) := by
  cases phase <;> cases outcome <;> simp_all [ControlCall.advance, CallPhase.publishes]

theorem advance_settled : (call.advance i store phase outcome).1 ≠ .threw false → phase ≠ .threw false := by
  rintro h rfl
  exact h rfl

/-- A call that is under way. -/
def CallPhase.running : CallPhase → Bool
  | .returned | .threw _ => false
  | _ => true

theorem advance_running (h : (call.advance i store phase outcome).1.running = true) : phase.running = true := by
  cases phase with
  | returned => exact h
  | threw failed => exact h
  | reading | completing | flagging | encrypting | appending => rfl

/-- Only a call that appends has no message in the stream and may then have one. -/
theorem advance_running_stream (h : (call.advance i store phase outcome).1.running = true) :
    (call.advance i store phase outcome).2.stream = store.stream := by
  rcases advance_stream call i store phase outcome with ⟨hsame, -⟩ | ⟨-, -, hreturned | hthrew⟩
  · exact hsame
  · rw [hreturned] at h
    cases h
  · rw [hthrew] at h
    cases h

end

/-! ## Any order of commands -/

/-- What holds of the calls as long as none fails marked. -/
structure CallsOk (s : ControlCalls) : Prop where
  ids : ∀ message ∈ s.store.stream, message.1 < s.calls.length
  marks : ∀ challengeId challenge i, s.store.challenges challengeId = some challenge → challenge.completedBy = some i →
    ∃ call phase, s.calls[i]? = some (call, phase) ∧ call.completes = some (challengeId, challenge.state.status) ∧
      (phase.publishes = true ∨ phase = .returned)
  pending : ∀ challengeId challenge, s.store.challenges challengeId = some challenge → challenge.completedBy = none →
    challenge.state.status = .pending
  controls : ∀ (i : Nat) (call : ControlCall) (phase : CallPhase), s.calls[i]? = some (call, phase) → phase ≠ .threw false → call.control.isSome = true
  unsent : ∀ (i : Nat) (call : ControlCall) (phase : CallPhase), s.calls[i]? = some (call, phase) → phase.running = true → s.store.stream.filter (·.1 = i) = []
  returned : ∀ i call, s.calls[i]? = some (call, .returned) →
    ∃ control, call.control = some control ∧ s.store.stream.filter (·.1 = i) = [(i, control)]

theorem callsOk_start : CallsOk .start where
  ids := List.forall_mem_nil _
  marks := nofun
  pending := nofun
  controls := nofun
  unsent := nofun
  returned := nofun

section
variable {s : ControlCalls}

theorem CallsOk.whole (h : CallsOk s) : s.Whole where
  returned := h.returned
  retryable := by
    intro i call hcall hopen
    have hcontrol := h.controls i call _ hcall (by simp)
    apply alone_returned hcontrol
    cases hcompletes : call.completes with
    | none =>
      simp only [ControlCall.stillOpen, hcompletes] at hopen
      simpa [ControlCall.found, hcompletes] using hopen
    | some completed =>
      obtain ⟨challengeId, status⟩ := completed
      simp only [ControlCall.stillOpen, hcompletes] at hopen
      obtain ⟨challenge, hchallenge, howner, hmark⟩ := hopen
      rcases hmark with hnone | hself
      · have hpending := h.pending challengeId challenge hchallenge hnone
        simp [ControlCall.found, hcompletes, ControlStore.matches, hchallenge, howner, hpending]
      · obtain ⟨_, phase, hcall', -, hphase⟩ := h.marks challengeId challenge i hchallenge hself
        rw [hcall, Option.some_inj, Prod.mk.injEq] at hcall'
        rw [← hcall'.2] at hphase
        rcases hphase with hphase | hphase
        · cases hphase
        · cases hphase
  answered := by
    intro challengeId challenge i hchallenge _ hmark
    obtain ⟨call, phase, hcall, -, hphase⟩ := h.marks challengeId challenge i hchallenge hmark
    refine ⟨call, phase, hcall, ?_, ?_⟩
    · rintro failed rfl
      rcases hphase with hphase | hphase
      · cases hphase
      · cases hphase
    · rintro rfl
      obtain ⟨control, -, hstream⟩ := h.returned i call hcall
      have hmem : (i, control) ∈ s.store.stream.filter (·.1 = i) := by
        rw [hstream]
        exact List.mem_singleton_self _
      exact ⟨control, List.mem_of_mem_filter hmem⟩

/-- A call that is not there yet has no message. -/
theorem CallsOk.fresh (h : CallsOk s) : s.store.stream.filter (·.1 = s.calls.length) = [] := by
  rw [List.filter_eq_nil_iff]
  intro message hmessage
  have hlt := h.ids message hmessage
  simp only [decide_eq_true_eq]
  omega

theorem CallsOk.call (h : CallsOk s) (call : ControlCall) : CallsOk { s with calls := s.calls ++ [(call, call.begin)] } := by
  have hold : ∀ {i : Nat} {entry : ControlCall × CallPhase}, (s.calls ++ [(call, call.begin)])[i]? = some entry →
      s.calls[i]? = some entry ∨ (i = s.calls.length ∧ entry = (call, call.begin)) := by
    intro i entry hget
    rw [List.getElem?_append] at hget
    split at hget
    · exact .inl hget
    · rename_i hlt
      rw [List.getElem?_singleton] at hget
      split at hget
      · cases hget
        exact .inr ⟨by omega, rfl⟩
      · cases hget
  have hbegin : call.begin ≠ .threw false → call.control.isSome = true := by
    unfold ControlCall.begin
    split
    · exact fun _ => ‹_›
    · exact fun hne => absurd rfl hne
  constructor
  · intro message hmessage
    have hlt := h.ids message hmessage
    rw [List.length_append]
    omega
  · intro challengeId challenge i hchallenge hmark
    obtain ⟨other, phase, hother, hcompletes, hphase⟩ := h.marks challengeId challenge i hchallenge hmark
    refine ⟨other, phase, ?_, hcompletes, hphase⟩
    rw [List.getElem?_append_left (List.getElem?_eq_some_iff.1 hother).1]
    exact hother
  · exact h.pending
  · intro i other phase hget hne
    rcases hold hget with hget | ⟨-, heq⟩
    · exact h.controls i other phase hget hne
    · cases heq
      exact hbegin hne
  · intro i other phase hget hrunning
    rcases hold hget with hget | ⟨rfl, -⟩
    · exact h.unsent i other phase hget hrunning
    · exact h.fresh
  · intro i other hget
    rcases hold hget with hget | ⟨-, heq⟩
    · exact h.returned i other hget
    · have hnot : call.begin ≠ .returned := by
        unfold ControlCall.begin
        split <;> nofun
      rw [Prod.mk.injEq] at heq
      exact absurd heq.2.symm hnot

/-- A challenge that is prepared or expires. -/
theorem CallsOk.setChallenge (h : CallsOk s) (challengeId : OpaqueId) {challenge : Option Challenge}
    (hpending : ∀ c, challenge = some c → c.completedBy = none ∧ c.state.status = .pending) :
    CallsOk { s with store := { s.store with challenges := Function.update s.store.challenges challengeId challenge } } where
  ids := h.ids
  marks := by
    intro other c i hc hmark
    simp only [Function.update_apply] at hc
    split at hc
    · rw [(hpending c hc).1] at hmark
      cases hmark
    · exact h.marks other c i hc hmark
  pending := by
    intro other c hc hnone
    simp only [Function.update_apply] at hc
    split at hc
    · exact (hpending c hc).2
    · exact h.pending other c hc hnone
  controls := h.controls
  unsent := h.unsent
  returned := h.returned

theorem CallsOk.command (h : CallsOk s) {i : Nat} {outcome : CommandOutcome} (hfails : FailsUnmarked s (.command i outcome)) :
    CallsOk (s.command i outcome) := by
  cases hget : s.calls[i]? with
  | none =>
    rw [ControlCalls.command, hget]
    exact h
  | some entry =>
    obtain ⟨call, phase⟩ := entry
    obtain ⟨hlt, -⟩ := List.getElem?_eq_some_iff.1 hget
    have hcommand : s.command i outcome = ⟨(call.advance i s.store phase outcome).2,
        s.calls.set i (call, (call.advance i s.store phase outcome).1)⟩ := by
      rw [ControlCalls.command, hget]
    rw [hcommand]
    have hself : (s.calls.set i (call, (call.advance i s.store phase outcome).1))[i]? =
        some (call, (call.advance i s.store phase outcome).1) := List.getElem?_set_self hlt
    have hother : ∀ j, j ≠ i → (s.calls.set i (call, (call.advance i s.store phase outcome).1))[j]? = s.calls[j]? :=
      fun j hne => List.getElem?_set_ne (Ne.symm hne)
    have hfilter : ∀ j, j ≠ i → (call.advance i s.store phase outcome).2.stream.filter (·.1 = j) = s.store.stream.filter (·.1 = j) := by
      intro j hne
      rcases advance_stream call i s.store phase outcome with ⟨hsame, -⟩ | ⟨-, hsame, -⟩
      · rw [hsame]
      · have hnone : (call.control.map fun control => (i, control)).toList.filter (·.1 = j) = [] := by
          rw [List.filter_eq_nil_iff]
          intro message hmessage
          obtain ⟨control, -, rfl⟩ := Option.map_eq_some_iff.1 (Option.mem_toList.1 hmessage)
          simpa using Ne.symm hne
        rw [hsame, List.filter_append, hnone, List.append_nil]
    have hmarks : ∀ challengeId challenge j, (call.advance i s.store phase outcome).2.challenges challengeId = some challenge →
        challenge.completedBy = some j → s.store.challenges challengeId = some challenge ∨
          (j = i ∧ call.completes = some (challengeId, challenge.state.status) ∧
            (call.advance i s.store phase outcome).1.publishes = true) := by
      intro challengeId challenge j hchallenge hmark
      rcases advance_challenges call i s.store phase outcome with hsame | ⟨completed, status, hphase, hne, hcompletes, hfound, hset, hdone⟩
      · rw [hsame] at hchallenge
        exact .inl hchallenge
      · rw [hset, Function.update_apply] at hchallenge
        split at hchallenge
        · rename_i heq
          subst heq
          cases hchallenge
          have houtcome : outcome = .done := by
            cases outcome with
            | done => rfl
            | failed => exact absurd rfl hne
            | lost =>
              have hnot := (hfails (by simp) call phase hget).2 hphase rfl
              rw [hfound] at hnot
              cases hnot
          exact .inr ⟨(Option.some_inj.1 hmark).symm, hcompletes, hdone houtcome⟩
        · exact .inl hchallenge
    constructor
    · intro message hmessage
      rw [List.length_set]
      rcases advance_stream call i s.store phase outcome with ⟨hsame, -⟩ | ⟨-, hsame, -⟩
      · rw [hsame] at hmessage
        exact h.ids message hmessage
      · rw [hsame, List.mem_append] at hmessage
        rcases hmessage with hold | hnew
        · exact h.ids message hold
        · obtain ⟨control, -, rfl⟩ := Option.map_eq_some_iff.1 (Option.mem_toList.1 hnew)
          exact hlt
    · intro challengeId challenge j hchallenge hmark
      rcases hmarks challengeId challenge j hchallenge hmark with hold | ⟨rfl, hcompletes, hpublishes⟩
      · obtain ⟨marker, markerPhase, hmarker, hcompletes, hphase⟩ := h.marks challengeId challenge j hold hmark
        by_cases heq : j = i
        · subst heq
          rw [hget, Option.some_inj, Prod.mk.injEq] at hmarker
          obtain ⟨rfl, rfl⟩ := hmarker
          rcases @advance_publishes call j s.store phase outcome hphase with hphase' | ⟨hne, hpublishes⟩
          · exact ⟨call, _, hself, hcompletes, hphase'⟩
          · -- it would have failed while the challenge bears its mark
            exact absurd ⟨challengeId, _, challenge, hcompletes, hold, hmark⟩ ((hfails hne call phase hget).1 hpublishes)
        · exact ⟨marker, markerPhase, by rw [hother j heq]; exact hmarker, hcompletes, hphase⟩
      · exact ⟨call, _, hself, hcompletes, .inl hpublishes⟩
    · intro challengeId challenge hchallenge hnone
      rcases advance_challenges call i s.store phase outcome with hsame | ⟨completed, status, -, -, -, -, hset, -⟩
      · rw [hsame] at hchallenge
        exact h.pending challengeId challenge hchallenge hnone
      · rw [hset, Function.update_apply] at hchallenge
        split at hchallenge
        · cases hchallenge
          cases hnone
        · exact h.pending challengeId challenge hchallenge hnone
    · intro j other otherPhase hj hne
      by_cases heq : j = i
      · subst heq
        rw [hself] at hj
        cases hj
        exact h.controls j call phase hget (advance_settled hne)
      · rw [hother j heq] at hj
        exact h.controls j other otherPhase hj hne
    · intro j other otherPhase hj hrunning
      by_cases heq : j = i
      · subst heq
        rw [hself] at hj
        cases hj
        simp only [advance_running_stream hrunning]
        exact h.unsent j call phase hget (advance_running hrunning)
      · rw [hother j heq] at hj
        simp only [hfilter j heq]
        exact h.unsent j other otherPhase hj hrunning
    · intro j other hj
      by_cases heq : j = i
      · subst heq
        rw [hself, Option.some_inj, Prod.mk.injEq] at hj
        obtain ⟨rfl, hreturned⟩ := hj
        rcases advance_stream call j s.store phase outcome with ⟨hsame, hphase⟩ | ⟨hphase, hsame, -⟩
        · simp only [hsame]
          exact h.returned j call (by rw [hget, hphase hreturned])
        · have hcontrol := h.controls j call phase hget (by rw [hphase]; simp)
          obtain ⟨control, hcontrol⟩ := Option.isSome_iff_exists.1 hcontrol
          have hunsent := h.unsent j call phase hget (by rw [hphase]; rfl)
          refine ⟨control, hcontrol, ?_⟩
          simp only [hsame, hcontrol, Option.map_some, Option.toList_some, List.filter_append, hunsent]
          simp
      · rw [hother j heq] at hj
        simp only [hfilter j heq]
        exact h.returned j other hj

/-- Every step keeps the calls whole. -/
theorem CallsOk.step (h : CallsOk s) {turn : CallTurn} (hfails : FailsUnmarked s turn) : CallsOk (s.step turn).2 := by
  cases turn with
  | call call => exact h.call call
  | command i outcome => exact h.command hfails
  | enqueue jobId => exact ⟨h.ids, h.marks, h.pending, h.controls, h.unsent, h.returned⟩
  | expireJob jobId => exact ⟨h.ids, h.marks, h.pending, h.controls, h.unsent, h.returned⟩
  | expireCancel jobId => exact ⟨h.ids, h.marks, h.pending, h.controls, h.unsent, h.returned⟩
  | prepareChallenge owner challengeId =>
    simp only [ControlCalls.step]
    cases s.store.challenges challengeId with
    | some challenge => exact h
    | none =>
      apply h.setChallenge
      rintro c ⟨⟩
      exact ⟨rfl, rfl⟩
  | expireChallenge challengeId => exact h.setChallenge challengeId nofun

end

/-- Control calls, and commands of them, in any order. -/
abbrev CallRun (ok : ControlCalls → CallTurn → Prop) : List (Step ControlCalls CallTurn Unit) → ControlCalls → Nat → Prop :=
  Run ControlCalls.step (fun _ => 0) (fun _ => ok) .start

/-- As long as no command fails behind the change of its challenge, every call takes effect entirely or can be made again. -/
theorem control_calls_whole {trace : List (Step ControlCalls CallTurn Unit)} {s : ControlCalls} {clock : Nat}
    (h : CallRun FailsUnmarked trace s clock) : s.Whole := by
  have hok : CallsOk s := by
    refine h.invariant (fun _ s _ => CallsOk s) callsOk_start ?_
    intro _ s _ turn _ hok _ hfails
    exact hok.step hfails
  exact hok.whole

/-! ## An answer that is lost -/

open Controls (sampleId sampleOwner)

def sampleCall : ControlCall := .answerCaptcha sampleOwner sampleId "x7k2"

/-- A command of the first call fails, behind some that are done. -/
def failingTurns (done : Nat) : List CallTurn :=
  [.enqueue sampleId, .prepareChallenge sampleOwner sampleId, .call sampleCall] ++ List.replicate done (.command 0 .done) ++
    [.command 0 .failed]

theorem control_calls_whole_sample : (stateAfter ControlCalls.step .start (failingTurns 0)).Whole := by
  have hfails : ∀ e ∈ execute ControlCalls.step .start (failingTurns 0), FailsUnmarked e.before e.call := by
    intro e he
    simp only [failingTurns, List.replicate_zero, List.append_nil, List.cons_append, List.nil_append, execute, List.mem_cons,
      List.not_mem_nil, or_false] at he
    rcases he with rfl | rfl | rfl | rfl
    · trivial
    · trivial
    · trivial
    · rintro - call phase hget
      have hreading : (stateAfter ControlCalls.step .start ((failingTurns 0).take 3)).calls[0]? = some (sampleCall, .reading) := by
        decide +kernel
      cases Option.some_inj.1 (hreading.symm.trans hget)
      constructor
      · intro hpublishes
        cases hpublishes
      · intro hphase
        cases hphase
  obtain ⟨clock, hrun⟩ := Run.follow (failingTurns 0) (.start : CallRun FailsUnmarked [] .start 0) (by decide) fun e he _ => hfails e he
  exact control_calls_whole hrun

/-- The challenge is marked, and encrypting the answer fails. -/
theorem answer_never_published : ¬ ∀ trace s clock, CallRun (fun _ _ => True) trace s clock → s.Whole := by
  intro hall
  obtain ⟨clock, hrun⟩ := Run.follow (failingTurns 2) (.start : CallRun (fun _ _ => True) [] .start 0) (by decide) (fun _ _ _ => trivial)
  have hwhole := hall _ _ _ hrun
  have hcalls : (stateAfter ControlCalls.step .start (failingTurns 2)).calls[0]? = some (sampleCall, .threw true) := by decide +kernel
  have hchallenge : (stateAfter ControlCalls.step .start (failingTurns 2)).store.challenges sampleId =
      some ⟨⟨sampleOwner, .answered⟩, some 0⟩ := by
    decide +kernel
  obtain ⟨call, phase, hget, hnot, -⟩ := hwhole.answered sampleId _ 0 hchallenge rfl rfl
  rw [hcalls, Option.some_inj, Prod.mk.injEq] at hget
  exact hnot true hget.2.symm

end Hyeboard.Automation
