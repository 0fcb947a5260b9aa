import Mathlib.Logic.Function.Basic
import Hyeboard.Automation.Worker
/-!
# Controls

A CAPTCHA answer or a cancellation reaches the worker that runs the job through
the control stream: the API stores it there, and the workers share one consumer
group over it. The API's keys, the group and the workers are one state here, and
whatever any of them does next is a `ControlTurn`. A message is known by its
position in the stream.
-/

namespace Hyeboard.Automation

abbrev OpaqueId := { value : String // isOpaqueId value = true }

instance : LawfulBEq OpaqueId := inferInstance

def asOpaqueId (value : String) : Except String OpaqueId :=
  if h : isOpaqueId value = true then .ok ⟨value, h⟩ else .error "Invalid opaque identifier."

/-- Who a control, a job and a challenge belong to. -/
structure Owner where
  jobId : OpaqueId
  accountId : OpaqueId
  fence : { fence : Nat // PositiveSafe fence }
deriving DecidableEq

abbrev CaptchaAnswer := { answer : String // 1 ≤ jsLength answer ∧ jsLength answer ≤ 64 }

/-- The reason of a `cancel` is always `"requested"`. -/
inductive AutomationControl where
  | captchaAnswer (owner : Owner) (challengeId : OpaqueId) (answer : CaptchaAnswer)
  | cancel (owner : Owner) (challengeId : Option OpaqueId)
deriving DecidableEq

def AutomationControl.owner : AutomationControl → Owner
  | .captchaAnswer owner _ _ | .cancel owner _ => owner

/-! ## Messages -/

def controlKeys : String → List String
  | "captcha-answer" => ["type", "jobId", "accountId", "fence", "challengeId", "answer"]
  | _ => ["type", "jobId", "accountId", "fence", "challengeId", "reason"]

def asFence : JsValue → Except String { fence : Nat // PositiveSafe fence }
  | .integer n => if h : PositiveSafe n.toNat then .ok ⟨n.toNat, h⟩ else .error "Invalid automation control."
  | _ => .error "Invalid automation control."

def parseControlOwner (fields : List (String × JsValue)) : Except String Owner := do
  let jobId ← (JsValue.field fields "jobId").asString "Invalid automation control." fun _ => true
  let accountId ← (JsValue.field fields "accountId").asString "Invalid automation control." fun _ => true
  let fence ← asFence (JsValue.field fields "fence")
  let jobId ← asOpaqueId jobId
  let accountId ← asOpaqueId accountId
  return { jobId, accountId, fence }

def parseControlChallenge (fields : List (String × JsValue)) : Except String (Option OpaqueId) :=
  match JsValue.field fields "challengeId" with
  | .undefined => .ok none
  | .string challengeId => some <$> asOpaqueId challengeId
  | _ => .error "Invalid automation control challenge."

def parseAutomationControl (value : JsValue) : Except String AutomationControl := do
  let fields ← value.asObject "Invalid automation control."
  let type ← (JsValue.field fields "type").asString "Invalid automation control." ["captcha-answer", "cancel"].contains
  let owner ← parseControlOwner fields
  require "Invalid automation control fields." ((fields.map Prod.fst).all (controlKeys type).contains)
  let challengeId ← parseControlChallenge fields
  if type = "captcha-answer" then
    match challengeId, JsValue.field fields "answer" with
    | some challengeId, .string answer =>
      if h : 1 ≤ jsLength answer ∧ jsLength answer ≤ 64 then .ok (.captchaAnswer owner challengeId ⟨answer, h⟩)
      else .error "Invalid CAPTCHA control."
    | _, _ => .error "Invalid CAPTCHA control."
  else
    match JsValue.field fields "reason", JsValue.field fields "answer" with
    | .string "requested", .undefined => .ok (.cancel owner challengeId)
    | _, _ => .error "Invalid cancellation control."

/-- The `ControlPayload` the API encrypts. -/
def controlPayload : AutomationControl → JsValue
  | .captchaAnswer owner challengeId answer => .object [("type", .string "captcha-answer"),
      ("jobId", .string owner.jobId), ("accountId", .string owner.accountId), ("fence", .ofNat owner.fence),
      ("challengeId", .string challengeId), ("answer", .string answer)]
  | .cancel owner challengeId => .object ([("type", .string "cancel"), ("jobId", .string owner.jobId),
      ("accountId", .string owner.accountId), ("fence", .ofNat owner.fence)] ++
      JsValue.optionalField "challengeId" (fun challengeId => .string challengeId.val) challengeId ++
      [("reason", .string "requested")])

@[simp] theorem asOpaqueId_val (id : OpaqueId) : asOpaqueId id.val = .ok id := dif_pos id.property

theorem parseControlOwner_eq_ok {fields : List (String × JsValue)} {owner : Owner}
    (hjobId : JsValue.field fields "jobId" = .string owner.jobId.val)
    (haccountId : JsValue.field fields "accountId" = .string owner.accountId.val)
    (hfence : JsValue.field fields "fence" = .ofNat owner.fence.val) : parseControlOwner fields = .ok owner := by
  simp only [parseControlOwner, bind_eq_ok, pure_eq_ok]
  refine ⟨owner.jobId, ?_, owner.accountId, ?_, owner.fence, ?_, _, asOpaqueId_val _, _, asOpaqueId_val _, rfl⟩
  · rw [hjobId]
    rfl
  · rw [haccountId]
    rfl
  · rw [hfence]
    exact dif_pos owner.fence.property

/-- What the API stores, a worker reads back. -/
theorem parse_payload (control : AutomationControl) :
    parseAutomationControl (controlPayload control) = .ok control := by
  cases control with
  | captchaAnswer owner challengeId answer =>
    simp only [parseAutomationControl, bind_eq_ok]
    refine ⟨_, rfl, "captcha-answer", rfl, owner, parseControlOwner_eq_ok rfl rfl rfl, (), rfl, some challengeId, ?_, ?_⟩
    · exact congrArg (some <$> ·) (asOpaqueId_val challengeId)
    · exact dif_pos answer.property
  | cancel owner challengeId =>
    simp only [parseAutomationControl, bind_eq_ok]
    cases challengeId with
    | none =>
      exact ⟨_, rfl, "cancel", rfl, owner, parseControlOwner_eq_ok rfl rfl rfl, (), rfl, none, rfl, rfl⟩
    | some challengeId =>
      refine ⟨_, rfl, "cancel", rfl, owner, parseControlOwner_eq_ok rfl rfl rfl, (), rfl, some challengeId, ?_, rfl⟩
      exact congrArg (some <$> ·) (asOpaqueId_val challengeId)

/-- `controlEnvelope`, encrypted under the job's identifier. -/
structure ControlEnvelope where
  jobId : String
  expiresAt : Nat
  payload : JsValue

/-- The fields of a message of the control stream. -/
structure ControlMessage where
  jobId : Option String
  controlEnvelope : Option ControlEnvelope

/-- The control in a message whose envelope has not expired. -/
def ControlMessage.control (message : ControlMessage) : Option AutomationControl := do
  let envelope ← message.controlEnvelope
  guard (envelope.jobId = message.jobId.getD "")
  let control ← (parseAutomationControl envelope.payload).toOption
  guard (some control.owner.jobId.val = message.jobId)
  return control

/-- The control `process` passes to `onControl`: none of a message it discards. -/
def ControlMessage.opened (message : ControlMessage) (now : Nat) : Option AutomationControl :=
  match message.controlEnvelope with
  | some envelope => if now < envelope.expiresAt then message.control else none
  | none => none

/-! ## Workers -/

/-- An entry of `active`, under its job. -/
structure ActiveJob where
  accountId : OpaqueId
  fence : { fence : Nat // PositiveSafe fence }
  /-- The reason of its token, once cancelled. -/
  cancellation : Option CancellationReason
deriving DecidableEq

/-- An entry of `pending`, under its challenge. A signal that aborts takes its
entry out of the map at once, so that of an entry never is aborted. -/
structure PendingCaptcha where
  owner : Owner
  /-- Its signal is that of the job's token. -/
  tokenSignal : Bool
deriving DecidableEq

/-- A worker with its control consumer. -/
structure WorkerState where
  active : Record ActiveJob
  pending : Record PendingCaptcha
  running : Bool
  /-- What is left of the batch `runOnce` got. -/
  batch : List Nat
  /-- The message whose `ack` is under way. -/
  acking : Option Nat
deriving DecidableEq

namespace WorkerState

def start : WorkerState :=
  { active := .empty, pending := .empty, running := true, batch := [], acking := none }

variable (w : WorkerState)

/-- `token.cancel`, and the `onAbort` of what waits under its signal. -/
def cancelJob (jobId : OpaqueId) (reason : CancellationReason) : WorkerState :=
  match w.active.get? jobId with
  | some job =>
    if job.cancellation.isSome then w
    else { w with
      active := w.active.set jobId { job with cancellation := some reason }
      pending := w.pending.filter fun pending => !(pending.tokenSignal && decide (pending.owner.jobId = jobId)) }
  | none => w

/-- `true` once the answer is with whoever waits for it. -/
def applyAnswer (owner : Owner) (challengeId : OpaqueId) : Bool × WorkerState :=
  match w.pending.get? challengeId with
  | some pending => if pending.owner = owner then (true, { w with pending := w.pending.delete challengeId }) else (false, w)
  | none => (false, w)

def matchesChallenge (owner : Owner) (challengeId : OpaqueId) : Bool :=
  (w.pending.get? challengeId).any fun pending => pending.owner = owner

def requestFencedCancel (owner : Owner) : Bool × WorkerState :=
  match w.active.get? owner.jobId with
  | some job =>
    if job.accountId = owner.accountId ∧ job.fence = owner.fence then (true, w.cancelJob owner.jobId .requested)
    else (false, w)
  | none => (false, w)

def applyControl : AutomationControl → Bool × WorkerState
  | .captchaAnswer owner challengeId _ => w.applyAnswer owner challengeId
  | .cancel owner none => w.requestFencedCancel owner
  | .cancel owner (some challengeId) =>
    if w.matchesChallenge owner challengeId then w.requestFencedCancel owner else (false, w)

/-- `process` registers the job whose lease it got. -/
def begin (owner : Owner) : WorkerState :=
  { w with active := w.active.set owner.jobId { accountId := owner.accountId, fence := owner.fence, cancellation := none } }

/-- `waitForAnswer` of a job that runs here. -/
def waitForAnswer (owner : Owner) (challengeId : OpaqueId) (tokenSignal : Bool) : WorkerState :=
  match w.active.get? owner.jobId with
  | some job =>
    if job.accountId = owner.accountId ∧ job.fence = owner.fence ∧ (tokenSignal = true → job.cancellation = none) then
      { w with pending := w.pending.set challengeId { owner, tokenSignal } }
    else w
  | none => w

/-- The job of a control runs here, and the challenge it names is pending here. -/
def Holds : AutomationControl → Bool
  | .captchaAnswer owner challengeId _ => w.matchesChallenge owner challengeId
  | .cancel owner challengeId => challengeId.all (w.matchesChallenge owner ·) &&
      (w.active.get? owner.jobId).any fun job => job.accountId = owner.accountId ∧ job.fence = owner.fence

theorem applyControl_of_holds {control : AutomationControl} (h : w.Holds control = true) :
    (w.applyControl control).1 = true := by
  cases control with
  | captchaAnswer owner challengeId answer =>
    simp only [Holds, matchesChallenge, Option.any_eq_true, decide_eq_true_eq] at h
    obtain ⟨pending, hpending, howner⟩ := h
    simp [applyControl, applyAnswer, hpending, howner]
  | cancel owner challengeId =>
    simp only [Holds, Bool.and_eq_true, Option.any_eq_true, decide_eq_true_eq] at h
    obtain ⟨hchallenge, job, hjob, howner⟩ := h
    have haccepted : (w.requestFencedCancel owner).1 = true := by
      simp [requestFencedCancel, hjob, howner]
    cases challengeId with
    | none => exact haccepted
    | some challengeId =>
      rw [applyControl, if_pos (Option.all_some.symm.trans hchallenge)]
      exact haccepted

end WorkerState

/-! ## The API -/

inductive ChallengeStatus where
  | pending
  | answered
  | cancelled
deriving DecidableEq, Repr

structure ChallengeState where
  owner : Owner
  status : ChallengeStatus
deriving DecidableEq

structure HyeboardError where
  code : String
  message : String
  status : Nat
deriving DecidableEq, Repr

def automationNotFound : HyeboardError :=
  { code := "STUDENTHUB_CAPTCHA_CHALLENGE_NOT_FOUND"
    message := "This verification code request has expired or already been answered.", status := 404 }

structure Controls where
  /-- The jobs whose `job` key is there, and those with a `cancel` key. -/
  jobs : List OpaqueId
  cancels : List OpaqueId
  challenges : Record ChallengeState
  /-- The accepted controls whose `xAdd` is under way. -/
  publishing : List AutomationControl
  stream : List ControlMessage
  /-- How many messages the group has handed out, those it has pending, and
  those that are acknowledged. -/
  delivered : Nat
  unacked : List Nat
  acked : List Nat
  workers : Nat → WorkerState
  /-- The worker and the message of every `applyControl` that returned true. -/
  accepted : List (Nat × Nat)

inductive ControlTurn where
  | answerCaptcha (owner : Owner) (challengeId : OpaqueId) (answer : String)
  | cancelCaptcha (owner : Owner) (challengeId : OpaqueId)
  | cancelAutomation (owner : Owner)
  /-- One of the `publishControl` calls under way stores its message. -/
  | publish (call : Nat) (expiresAt : Nat)
  /-- `enqueue` and `prepareChallenge` store their keys. -/
  | enqueue (jobId : OpaqueId)
  | prepareChallenge (owner : Owner) (challengeId : OpaqueId)
  /-- Keys expire. -/
  | expireJob (jobId : OpaqueId)
  | expireCancel (jobId : OpaqueId)
  | expireChallenge (challengeId : OpaqueId)
  /-- Anything else is added to the stream. -/
  | foreign (message : ControlMessage)
  /-- `runOnce` gets its batch; `idle` are the messages to reclaim. -/
  | runOnce (worker : Nat) (idle : List Nat)
  /-- `process` opens the next message of the batch and calls `onControl`. -/
  | process (worker now : Nat)
  | ack (worker : Nat) (failed : Bool)
  | stop (worker : Nat)
  | crash (worker : Nat)
  | begin (worker : Nat) (owner : Owner)
  | finish (worker : Nat) (jobId : OpaqueId)
  | waitForAnswer (worker : Nat) (owner : Owner) (challengeId : OpaqueId) (tokenSignal : Bool)
  /-- The signal of a challenge aborts, or its `publishChallenge` fails. -/
  | abort (worker : Nat) (challengeId : OpaqueId)
  | cancelJob (worker : Nat) (jobId : OpaqueId) (reason : CancellationReason)

namespace Controls

def start : Controls :=
  { jobs := [], cancels := [], challenges := .empty, publishing := [], stream := [], delivered := 0, unacked := [],
    acked := [], workers := fun _ => .start, accepted := [] }

variable (s : Controls)

def setWorker (worker : Nat) (w : WorkerState) : Controls :=
  { s with workers := Function.update s.workers worker w }

/-- `readChallenge`, its checks and the script of `completeChallenge`. -/
def completeChallenge (owner : Owner) (challengeId : OpaqueId) (status : ChallengeStatus) : Option Controls :=
  match s.challenges.get? challengeId with
  | some state =>
    if state.owner = owner ∧ state.status = .pending then
      some { s with challenges := s.challenges.set challengeId { state with status } }
    else none
  | none => none

def answerCaptcha (owner : Owner) (challengeId : OpaqueId) (answer : String) : Except HyeboardError Unit × Controls :=
  if h : 1 ≤ jsLength answer ∧ jsLength answer ≤ 64 then
    match s.completeChallenge owner challengeId .answered with
    | some s => (.ok (), { s with publishing := s.publishing ++ [.captchaAnswer owner challengeId ⟨answer, h⟩] })
    | none => (.error automationNotFound, s)
  else (.error automationNotFound, s)

def cancelCaptcha (owner : Owner) (challengeId : OpaqueId) : Except HyeboardError Unit × Controls :=
  match s.completeChallenge owner challengeId .cancelled with
  | some s => (.ok (), { s with
      cancels := owner.jobId :: s.cancels, publishing := s.publishing ++ [.cancel owner (some challengeId)] })
  | none => (.error automationNotFound, s)

def cancelAutomation (owner : Owner) : Except HyeboardError Unit × Controls :=
  if owner.jobId ∈ s.jobs then
    (.ok (), { s with cancels := owner.jobId :: s.cancels, publishing := s.publishing ++ [.cancel owner none] })
  else (.error automationNotFound, s)

/-- The message `publishControl` stores. -/
def controlMessage (control : AutomationControl) (expiresAt : Nat) : ControlMessage :=
  { jobId := some control.owner.jobId
    controlEnvelope := some { jobId := control.owner.jobId, expiresAt, payload := controlPayload control } }

def publishControl (call expiresAt : Nat) : Controls :=
  match s.publishing[call]? with
  | some control => { s with
      publishing := s.publishing.eraseIdx call, stream := s.stream ++ [controlMessage control expiresAt] }
  | none => s

/-- `SET` with `NX`. -/
def prepareChallenge (owner : Owner) (challengeId : OpaqueId) : Controls :=
  match s.challenges.get? challengeId with
  | some _ => s
  | none => { s with challenges := s.challenges.set challengeId { owner, status := .pending } }

/-- What is reclaimed, else what nobody was handed yet. -/
def runOnce (worker : Nat) (idle : List Nat) : Controls :=
  let w := s.workers worker
  if w.running && w.batch.isEmpty && w.acking.isNone then
    match (s.unacked.filter idle.contains).take 10 with
    | [] =>
      let batch := ((List.range s.stream.length).drop s.delivered).take 10
      { s with delivered := s.delivered + batch.length, unacked := s.unacked ++ batch }.setWorker worker { w with batch }
    | reclaimed => s.setWorker worker { w with batch := reclaimed }
  else s

/-- `process`, up to the `ack` in its finally: whatever `onControl` returned. -/
def process (worker now : Nat) : Controls :=
  let w := s.workers worker
  match w.acking, w.batch with
  | none, id :: batch =>
    let w := { w with batch, acking := some id }
    match s.stream[id]?.bind (·.opened now) with
    | some control =>
      match w.applyControl control with
      | (true, w) => { s with accepted := (worker, id) :: s.accepted }.setWorker worker w
      | (false, w) => s.setWorker worker w
    | none => s.setWorker worker w
  | _, _ => s

/-- An `ack` that throws ends the loop of the consumer. -/
def ack (worker : Nat) (failed : Bool) : Controls :=
  let w := s.workers worker
  match w.acking with
  | some id =>
    if failed then s.setWorker worker { w with running := false, batch := [], acking := none }
    else { s with unacked := s.unacked.erase id, acked := id :: s.acked }.setWorker worker { w with acking := none }
  | none => s

def step : ControlTurn → Except HyeboardError Unit × Controls
  | .answerCaptcha owner challengeId answer => s.answerCaptcha owner challengeId answer
  | .cancelCaptcha owner challengeId => s.cancelCaptcha owner challengeId
  | .cancelAutomation owner => s.cancelAutomation owner
  | .publish call expiresAt => (.ok (), s.publishControl call expiresAt)
  | .enqueue jobId => (.ok (), { s with jobs := jobId :: s.jobs })
  | .prepareChallenge owner challengeId => (.ok (), s.prepareChallenge owner challengeId)
  | .expireJob jobId => (.ok (), { s with jobs := s.jobs.filter (· ≠ jobId) })
  | .expireCancel jobId => (.ok (), { s with cancels := s.cancels.filter (· ≠ jobId) })
  | .expireChallenge challengeId => (.ok (), { s with challenges := s.challenges.delete challengeId })
  | .foreign message => (.ok (), { s with stream := s.stream ++ [message] })
  | .runOnce worker idle => (.ok (), s.runOnce worker idle)
  | .process worker now => (.ok (), s.process worker now)
  | .ack worker failed => (.ok (), s.ack worker failed)
  | .stop worker => (.ok (), s.setWorker worker { s.workers worker with running := false })
  | .crash worker => (.ok (), s.setWorker worker { WorkerState.start with running := false })
  | .begin worker owner => (.ok (), s.setWorker worker ((s.workers worker).begin owner))
  | .finish worker jobId => (.ok (), s.setWorker worker { s.workers worker with active := (s.workers worker).active.delete jobId })
  | .waitForAnswer worker owner challengeId tokenSignal =>
    (.ok (), s.setWorker worker ((s.workers worker).waitForAnswer owner challengeId tokenSignal))
  | .abort worker challengeId =>
    (.ok (), s.setWorker worker { s.workers worker with pending := (s.workers worker).pending.delete challengeId })
  | .cancelJob worker jobId reason => (.ok (), s.setWorker worker ((s.workers worker).cancelJob jobId reason))

end Controls

end Hyeboard.Automation
