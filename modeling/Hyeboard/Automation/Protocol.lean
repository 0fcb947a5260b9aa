import Hyeboard.Lib.JsString
import Hyeboard.Lib.JsValue
/-!
# The automation protocol

Events and cursors of `packages/automation-protocol`. Times are the milliseconds
their canonical ISO strings stand for.
-/

namespace Hyeboard.Automation

structure AutomationProtocolError where
  code : String
  message : String
deriving DecidableEq, Repr

structure UetImportJob where
  jobId : String
  accountId : String
  fence : Nat
  expiresAt : Nat
deriving DecidableEq, Repr

inductive EventBody where
  | started
  | progress (phase : String) (percent : Int)
  | challengeRequired (challengeId image : String)
  | heartbeat
  | succeeded (resultEnvelope : Option String)
  | failed (code : String) (retryable : Bool)
  | cancelled (reason : String)
deriving DecidableEq, Repr

structure AutomationEvent where
  body : EventBody
  jobId : String
  accountId : String
  fence : Nat
  sequence : Nat
  emittedAt : Nat
  expiresAt : Nat
deriving DecidableEq, Repr

/-! ## Schemas -/

def isBase64Url (c : Char) : Bool := c.isAlphanum || c == '_' || c == '-'

/-- 22 base64url characters for 16 bytes: the last one carries two bits. -/
def isOpaqueId (value : String) : Bool :=
  value.toList.length == 22 && value.toList.all isBase64Url &&
    value.toList.getLast?.any fun c => c == 'A' || c == 'Q' || c == 'g' || c == 'w'

/-- `/^aep1\.[A-Za-z0-9_-]+\.[A-Za-z0-9_-]+$/`, of at most two mebibytes. -/
def isEnvelopeReference (value : String) : Bool :=
  decide (value.toList.length ≤ 2097152) &&
    match value.toList with
    | 'a' :: 'e' :: 'p' :: '1' :: '.' :: rest =>
      match rest.dropWhile isBase64Url with
      | '.' :: body => !(rest.takeWhile isBase64Url).isEmpty && !body.isEmpty && body.all isBase64Url
      | _ => false
    | _ => false

/-- `/^[A-Z][A-Z0-9_.-]{1,63}$/`. -/
def isErrorCode (value : String) : Bool :=
  match value.toList with
  | first :: rest => first.isUpper && !rest.isEmpty && decide (rest.length ≤ 63) &&
      rest.all fun c => c.isUpper || c.isDigit || c == '_' || c == '.' || c == '-'
  | [] => false

def progressPhases : List String := ["queue", "login", "captcha", "import", "finalize"]

def cancelledReasons : List String := ["requested", "expired", "superseded", "shutdown"]

/-- The fields `automationEventSchema` has for one type of event. -/
def EventBody.ok : EventBody → Bool
  | .started | .heartbeat => true
  | .progress phase percent => progressPhases.contains phase && decide (0 ≤ percent ∧ percent ≤ 100)
  | .challengeRequired challengeId image => isOpaqueId challengeId && decide (1 ≤ jsLength image ∧ jsLength image ≤ 350000)
  | .succeeded resultEnvelope => resultEnvelope.all isEnvelopeReference
  | .failed code _ => isErrorCode code
  | .cancelled reason => cancelledReasons.contains reason

def isFence (fence : Nat) : Bool := decide (0 < fence ∧ fence ≤ maxSafeInteger)

/-- What `parseUetImportJob` checks of the fields that events carry. -/
def UetImportJob.ok (job : UetImportJob) : Bool := isOpaqueId job.jobId && isOpaqueId job.accountId && isFence job.fence

def automationEventOk (event : AutomationEvent) : Bool :=
  isOpaqueId event.jobId && isOpaqueId event.accountId && isFence event.fence &&
    decide (event.sequence ≤ maxSafeInteger) && event.body.ok

def invalidEvent : AutomationProtocolError := { code := "INVALID_EVENT", message := "Invalid automation event." }

def invalidWindow : AutomationProtocolError :=
  { code := "INVALID_INPUT", message := "expiresAt must be later than issuedAt." }

def assertAutomationEvent (event : AutomationEvent) : Except AutomationProtocolError Unit := do
  require invalidEvent (automationEventOk event)
  require invalidWindow (event.emittedAt < event.expiresAt)

def eventExpired : AutomationProtocolError :=
  { code := "EVENT_EXPIRED", message := "The automation protocol value has expired." }

def parseAutomationEvent (event : AutomationEvent) (now : Nat) : Except AutomationProtocolError AutomationEvent := do
  assertAutomationEvent event
  require eventExpired (now < event.expiresAt)
  return event

/-! ## Cursors -/

structure EventCursor where
  jobId : String
  accountId : String
  fence : Nat
  lastSequence : Int
  terminal : Bool
deriving DecidableEq, Repr

def EventBody.terminal : EventBody → Bool
  | .succeeded _ | .failed _ _ | .cancelled _ => true
  | _ => false

def isTerminalEvent (event : AutomationEvent) : Bool := event.body.terminal

def createEventCursor (job : UetImportJob) (initialSequence : Int) : Except AutomationProtocolError EventCursor := do
  require { code := "INVALID_ID", message := "Invalid opaque identifier." } (isOpaqueId job.jobId && isOpaqueId job.accountId)
  require { code := "INVALID_INPUT", message := "Initial event sequence must be -1 or a safe integer." }
    (-1 ≤ initialSequence ∧ initialSequence ≤ maxSafeInteger)
  require { code := "INVALID_INPUT", message := "Event fence must be a positive safe integer." } (isFence job.fence)
  return { jobId := job.jobId, accountId := job.accountId, fence := job.fence, lastSequence := initialSequence, terminal := false }

def validateNextAutomationEvent (event : AutomationEvent) (cursor : EventCursor) (now : Nat) :
    Except AutomationProtocolError EventCursor := do
  let event ← parseAutomationEvent event now
  require { code := "EVENT_JOB_MISMATCH", message := "Automation event belongs to a different job." } (event.jobId == cursor.jobId)
  require { code := "EVENT_ACCOUNT_MISMATCH", message := "Automation event belongs to a different account." }
    (event.accountId == cursor.accountId)
  require { code := "EVENT_FENCE_MISMATCH", message := "Automation event has a stale fence." } (event.fence == cursor.fence)
  require { code := "EVENT_AFTER_TERMINAL", message := "Automation events cannot follow a terminal event." } (!cursor.terminal)
  require { code := "EVENT_SEQUENCE_MISMATCH", message := "Automation event sequence is not contiguous." }
    (event.sequence == cursor.lastSequence + 1)
  return { cursor with lastSequence := event.sequence, terminal := isTerminalEvent event }

def validateAutomationEventSequence (events : List AutomationEvent) (cursor : EventCursor) (now : Nat) :
    Except AutomationProtocolError EventCursor :=
  events.foldlM (fun next event => validateNextAutomationEvent event next now) cursor

/-! ## Well-formed sequences -/

section
variable {event : AutomationEvent} {cursor : EventCursor} {now : Nat}

theorem parseAutomationEvent_eq_ok {parsed : AutomationEvent} :
    parseAutomationEvent event now = .ok parsed ↔
      parsed = event ∧ assertAutomationEvent event = .ok () ∧ now < event.expiresAt := by
  simp only [parseAutomationEvent, bind_eq_ok, require_eq_ok, pure_eq_ok, decide_eq_true_eq]
  constructor
  · rintro ⟨_, hassert, _, hnow, rfl⟩
    exact ⟨rfl, hassert, hnow⟩
  · rintro ⟨rfl, hassert, hnow⟩
    exact ⟨(), hassert, (), hnow, rfl⟩

/-- The next event of a stream, as its cursor sees it. -/
structure EventCursor.Expects (cursor : EventCursor) (event : AutomationEvent) : Prop where
  asserted : assertAutomationEvent event = .ok ()
  jobId : event.jobId = cursor.jobId
  accountId : event.accountId = cursor.accountId
  fence : event.fence = cursor.fence
  open_ : cursor.terminal = false
  sequence : (event.sequence : Int) = cursor.lastSequence + 1

theorem validateNext_of_expects (h : cursor.Expects event) (hnow : now < event.expiresAt) :
    validateNextAutomationEvent event cursor now =
      .ok { cursor with lastSequence := event.sequence, terminal := isTerminalEvent event } := by
  simp only [validateNextAutomationEvent, bind_eq_ok, require_eq_ok, pure_eq_ok]
  refine ⟨event, parseAutomationEvent_eq_ok.2 ⟨rfl, h.asserted, hnow⟩, (), ?_, (), ?_, (), ?_, (), ?_, (), ?_, rfl⟩
  · exact beq_iff_eq.2 h.jobId
  · exact beq_iff_eq.2 h.accountId
  · exact beq_iff_eq.2 h.fence
  · rw [h.open_]
    rfl
  · exact beq_iff_eq.2 h.sequence

end

end Hyeboard.Automation
