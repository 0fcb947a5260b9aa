import Hyeboard.Lib.Runs
/-!
# What a CAPTCHA relay owes

One challenge with one waiter, whichever coordinator serves it. What becomes of it
is a list of events; a `Ledger` takes them one by one and refuses what no relay
may do: to accept twice, to return what was not accepted, to fail a waiter that an
answer came in time for. Whatever the ledger takes keeps the `Contract`.
-/

namespace Hyeboard.Captcha

/-- `CaptchaRelayWaitResult`: what `wait` returns or throws. -/
inductive WaitResult where
  | answer (answer : String)
  | cancelled
  | notFound
  | timeout
deriving DecidableEq, Repr

inductive RelayEvent where
  /-- The waiter is there. -/
  | waits
  | aborted
  /-- An answer (or a cancel) is accepted, before the deadline of the challenge or not. -/
  | accepted (answer : Option String) (inTime : Bool)
  | settled (result : WaitResult)
deriving DecidableEq, Repr

structure Ledger where
  accepted : Option (Option String)
  waiting : Bool
  /-- The answer the waiter has to get. -/
  owed : Option String
  settled : Bool
deriving DecidableEq, Repr

namespace Ledger

def blank : Ledger := { accepted := none, waiting := false, owed := none, settled := false }

variable (l : Ledger)

def accept (answer : Option String) (inTime : Bool) : Ledger :=
  { l with accepted := some answer, owed := if l.waiting && inTime then answer else none }

def close : Ledger := { l with waiting := false, owed := none, settled := true }

def enter : RelayEvent → Option Ledger
  | .waits => some { l with waiting := true }
  | .aborted => some { l with waiting := false, owed := none }
  | .accepted answer inTime => if l.accepted = none then some (l.accept answer inTime) else none
  | .settled (.answer answer) =>
    if l.settled = false ∧ l.accepted = some (some answer) then some l.close else none
  | .settled _ => if l.settled = false ∧ l.owed = none then some l.close else none

def enterAll (events : List RelayEvent) : Option Ledger := events.foldlM enter l

@[simp] theorem enterAll_nil : l.enterAll [] = some l := rfl

@[simp] theorem enterAll_cons (event : RelayEvent) (events : List RelayEvent) :
    l.enterAll (event :: events) = (l.enter event).bind fun next => next.enterAll events := rfl

theorem enterAll_append (events more : List RelayEvent) :
    l.enterAll (events ++ more) = (l.enterAll events).bind fun next => next.enterAll more := List.foldlM_append

end Ledger

/-- What clients may rely on. -/
structure Contract (events : List RelayEvent) : Prop where
  /-- At most one answer or cancel is accepted, ... -/
  once : ∀ pre answer inTime post, events = pre ++ .accepted answer inTime :: post →
    ∀ other late, .accepted other late ∉ post
  /-- ... a value that is returned was accepted, ... -/
  genuine : ∀ pre answer post, events = pre ++ .settled (.answer answer) :: post → ∃ inTime, .accepted (some answer) inTime ∈ pre
  /-- ... and a waiter that an answer came in time for gets nothing else. -/
  kept : ∀ pre answer post, events = pre ++ .accepted (some answer) true :: post → .waits ∈ pre →
    (∀ result, .settled result ∉ pre) → .aborted ∉ events → ∀ result, .settled result ∈ post → result = .answer answer
  settles_once : ∀ pre result post, events = pre ++ .settled result :: post → ∀ other, .settled other ∉ post

/-! ## What the ledger remembers -/

namespace Ledger

variable {l l' : Ledger} {events : List RelayEvent}

theorem enter_settled {result : WaitResult} (h : l.enter (.settled result) = some l') :
    l.settled = false ∧ l' = l.close ∧ ((∃ answer, result = .answer answer ∧ l.accepted = some (some answer)) ∨ l.owed = none) := by
  cases result with
  | answer answer =>
    simp only [enter, Option.ite_none_right_eq_some, Option.some.injEq] at h
    exact ⟨h.1.1, h.2.symm, .inl ⟨answer, rfl, h.1.2⟩⟩
  | cancelled | notFound | timeout =>
    simp only [enter, Option.ite_none_right_eq_some, Option.some.injEq] at h
    exact ⟨h.1.1, h.2.symm, .inr h.1.2⟩

theorem enter_accepted {answer : Option String} {inTime : Bool} (h : l.enter (.accepted answer inTime) = some l') :
    l.accepted = none ∧ l' = l.accept answer inTime := by
  simp only [enter, Option.ite_none_right_eq_some, Option.some.injEq] at h
  exact ⟨h.1, h.2.symm⟩

/-- An event other than an acceptance leaves what was accepted alone. -/
theorem enter_other {event : RelayEvent} (h : l.enter event = some l') (hother : ∀ answer inTime, event ≠ .accepted answer inTime) :
    l'.accepted = l.accepted := by
  cases event with
  | waits | aborted =>
    cases h
    rfl
  | accepted answer inTime => exact absurd rfl (hother answer inTime)
  | settled result => rw [(enter_settled h).2.1, close]

/-- What a ledger knows of the events it took. -/
structure Remembers (l : Ledger) (events : List RelayEvent) : Prop where
  accepted : ∀ answer, l.accepted = some answer → ∃ inTime, .accepted answer inTime ∈ events
  nothing : l.accepted = none → ∀ answer inTime, .accepted answer inTime ∉ events
  waiting : .waits ∈ events → .aborted ∉ events → l.settled = false → l.waiting = true
  settled : l.settled = true ↔ ∃ result, .settled result ∈ events

theorem remembers_blank : blank.Remembers [] := by
  constructor <;> simp [blank]

theorem Remembers.concat (h : l.Remembers events) {event : RelayEvent} (hnext : l.enter event = some l') :
    l'.Remembers (events ++ [event]) := by
  cases event with
  | waits =>
    cases hnext
    constructor
    · simpa using h.accepted
    · simpa using h.nothing
    · exact fun _ _ _ => rfl
    · simpa using h.settled
  | aborted =>
    cases hnext
    constructor
    · simpa using h.accepted
    · simpa using h.nothing
    · simp
    · simpa using h.settled
  | accepted answer inTime =>
    obtain ⟨-, rfl⟩ := enter_accepted hnext
    constructor
    · intro other hother
      obtain rfl := Option.some.inj hother
      exact ⟨inTime, by simp⟩
    · exact fun hnone => by cases hnone
    · simpa [accept] using h.waiting
    · simpa [accept] using h.settled
  | settled result =>
    obtain ⟨-, rfl, -⟩ := enter_settled hnext
    constructor
    · simpa [close] using h.accepted
    · simpa [close] using h.nothing
    · exact fun _ _ hopen => by cases hopen
    · exact iff_of_true rfl ⟨result, by simp⟩

theorem remembers (h : blank.enterAll events = some l) : l.Remembers events := by
  induction events using List.reverseRecOn generalizing l with
  | nil =>
    cases h
    exact remembers_blank
  | append_singleton events event ih =>
    rw [enterAll_append, Option.bind_eq_some_iff] at h
    obtain ⟨before, hbefore, hlast⟩ := h
    rw [enterAll_cons, Option.bind_eq_some_iff] at hlast
    obtain ⟨after, hafter, hend⟩ := hlast
    cases hend
    exact (ih hbefore).concat hafter

/-! ## What it refuses later -/

theorem not_accepted_after (h : l.enterAll events = some l') (haccepted : l.accepted ≠ none) (answer : Option String)
    (inTime : Bool) : .accepted answer inTime ∉ events := by
  induction events generalizing l with
  | nil => exact List.not_mem_nil
  | cons event rest ih =>
    rw [enterAll_cons, Option.bind_eq_some_iff] at h
    obtain ⟨next, hnext, hrest⟩ := h
    have hother : ∀ answer inTime, event ≠ .accepted answer inTime := by
      rintro answer inTime rfl
      exact haccepted (enter_accepted hnext).1
    rw [List.mem_cons, not_or]
    exact ⟨fun heq => hother answer inTime heq.symm, ih hrest (enter_other hnext hother ▸ haccepted)⟩

theorem enter_settled_same {event : RelayEvent} (h : l.enter event = some l') (hsettled : l.settled = true) :
    (∀ result, event ≠ .settled result) ∧ l'.settled = true := by
  cases event with
  | waits | aborted =>
    cases h
    exact ⟨fun result heq => (by cases heq), hsettled⟩
  | accepted answer inTime =>
    obtain ⟨-, rfl⟩ := enter_accepted h
    exact ⟨fun result heq => (by cases heq), hsettled⟩
  | settled result =>
    rw [(enter_settled h).1] at hsettled
    cases hsettled

theorem not_settled_after (h : l.enterAll events = some l') (hsettled : l.settled = true) (result : WaitResult) :
    .settled result ∉ events := by
  induction events generalizing l with
  | nil => exact List.not_mem_nil
  | cons event rest ih =>
    rw [enterAll_cons, Option.bind_eq_some_iff] at h
    obtain ⟨next, hnext, hrest⟩ := h
    obtain ⟨hother, hkept⟩ := enter_settled_same hnext hsettled
    rw [List.mem_cons, not_or]
    exact ⟨fun heq => hother result heq.symm, ih hrest hkept⟩

/-- The waiter gets what it is owed, or is still owed it. -/
theorem owed_after {answer : String} (h : l.enterAll events = some l') (howed : l.owed = some answer)
    (haccepted : l.accepted = some (some answer)) (haborted : .aborted ∉ events) :
    (∀ result, .settled result ∈ events → result = .answer answer) ∧
      (.settled (.answer answer) ∈ events ∨ l'.owed = some answer) := by
  induction events generalizing l with
  | nil =>
    cases h
    exact ⟨fun result hin => (by cases hin), .inr howed⟩
  | cons event rest ih =>
    rw [enterAll_cons, Option.bind_eq_some_iff] at h
    obtain ⟨next, hnext, hrest⟩ := h
    rw [List.mem_cons, not_or] at haborted
    cases event with
    | waits =>
      cases hnext
      obtain ⟨honly, hgot⟩ := ih hrest howed haccepted haborted.2
      refine ⟨fun result hin => ?_, hgot.imp_left (List.mem_cons_of_mem _)⟩
      rcases List.mem_cons.1 hin with heq | hin
      · cases heq
      · exact honly result hin
    | aborted => exact absurd rfl haborted.1
    | accepted other inTime =>
      rw [(enter_accepted hnext).1] at haccepted
      cases haccepted
    | settled result =>
      obtain ⟨-, rfl, hresult⟩ := enter_settled hnext
      rcases hresult with ⟨other, rfl, hother⟩ | hnone
      · rw [haccepted] at hother
        obtain rfl : answer = other := by cases hother; rfl
        refine ⟨fun result hin => ?_, .inl List.mem_cons_self⟩
        rcases List.mem_cons.1 hin with heq | hin
        · cases heq
          rfl
        · exact absurd hin (not_settled_after hrest rfl result)
      · rw [howed] at hnone
        cases hnone

/-- The ledger before an event, after it, and at the end. -/
theorem enterAll_split {pre post : List RelayEvent} {event : RelayEvent} (h : blank.enterAll (pre ++ event :: post) = some l) :
    ∃ before after : Ledger, before.Remembers pre ∧ before.enter event = some after ∧ after.enterAll post = some l := by
  rw [enterAll_append, Option.bind_eq_some_iff] at h
  obtain ⟨before, hbefore, hlast⟩ := h
  rw [enterAll_cons, Option.bind_eq_some_iff] at hlast
  obtain ⟨after, hafter, hend⟩ := hlast
  exact ⟨before, after, remembers hbefore, hafter, hend⟩

/-- An answer accepted in time for a waiter that is there is owed to it. -/
theorem owed_of_accepted {pre post : List RelayEvent} {answer : String}
    (h : blank.enterAll (pre ++ .accepted (some answer) true :: post) = some l) (hwaits : .waits ∈ pre)
    (hopen : ∀ result, .settled result ∉ pre) (haborted : .aborted ∉ pre ++ .accepted (some answer) true :: post) :
    (∀ result, .settled result ∈ post → result = .answer answer) ∧
      (.settled (.answer answer) ∈ post ∨ l.owed = some answer) := by
  obtain ⟨before, after, hremembers, hafter, hend⟩ := enterAll_split h
  obtain ⟨-, rfl⟩ := enter_accepted hafter
  rw [List.mem_append, List.mem_cons, not_or, not_or] at haborted
  have hsettled : before.settled = false := by
    rw [Bool.eq_false_iff, Ne, hremembers.settled]
    exact fun ⟨result, hin⟩ => hopen result hin
  have hwaiting := hremembers.waiting hwaits haborted.1 hsettled
  exact owed_after hend (by simp [accept, hwaiting]) rfl haborted.2.2

/-- Whatever a ledger takes keeps the contract. -/
theorem contract (h : blank.enterAll events = some l) : Contract events := by
  constructor
  · rintro pre answer inTime post rfl other late
    obtain ⟨before, after, -, hafter, hend⟩ := enterAll_split h
    obtain ⟨-, rfl⟩ := enter_accepted hafter
    exact not_accepted_after hend (by simp [accept]) other late
  · rintro pre answer post rfl
    obtain ⟨before, after, hremembers, hafter, -⟩ := enterAll_split h
    simp only [enter, Option.ite_none_right_eq_some] at hafter
    exact hremembers.accepted _ hafter.1.2
  · rintro pre answer post rfl hwaits hopen haborted
    exact (owed_of_accepted h hwaits hopen haborted).1
  · rintro pre result post rfl other
    obtain ⟨before, after, -, hafter, hend⟩ := enterAll_split h
    obtain ⟨-, rfl, -⟩ := enter_settled hafter
    exact not_settled_after hend rfl other

end Ledger

/-! ## Runs -/

section
universe u v
variable {S : Type u} {T : Type v} {step : S → T → List RelayEvent × S} {time : T → Nat} {init s : S}
variable {trace : List (Step S T (List RelayEvent))} {clock : Nat}

def eventsOf (trace : List (Step S T (List RelayEvent))) : List RelayEvent := trace.flatMap (·.result)

/-- A machine whose every step, made under a condition, some ledger takes. -/
theorem ledger_of_run {Good : S → T → Prop} (Fits : Ledger → S → Nat → Prop) (hinit : Fits .blank init 0)
    (hstep : ∀ l s clock turn, Fits l s clock → clock ≤ time turn → Good s turn →
      ∃ l', l.enterAll (step s turn).1 = some l' ∧ Fits l' (step s turn).2 (time turn))
    (h : Run step time (fun _ _ _ => True) init trace s clock) (hgood : ∀ e ∈ trace, Good e.before e.call) :
    ∃ l, Ledger.blank.enterAll (eventsOf trace) = some l ∧ Fits l s clock := by
  induction h with
  | start => exact ⟨.blank, rfl, hinit⟩
  | @call trace s clock turn _ hle _ ih =>
    obtain ⟨l, htaken, hfits⟩ := ih fun e hmem => hgood e (List.mem_append_left _ hmem)
    have hturn : Good s turn := hgood (stepOf step s turn) (List.mem_append_right _ List.mem_cons_self)
    obtain ⟨l', hnext, hfits'⟩ := hstep l s clock turn hfits hle hturn
    refine ⟨l', ?_, hfits'⟩
    have hevents : eventsOf (trace ++ [stepOf step s turn]) = eventsOf trace ++ (step s turn).1 := by
      simp [eventsOf, stepOf]
    rw [hevents, Ledger.enterAll_append, htaken]
    exact hnext

/-- What a run owes its client: the contract, and that an answer that came in time is on its way. -/
structure Delivers (events : List RelayEvent) (Returns : String → Prop) : Prop where
  contract : Contract events
  returns : ∀ pre answer post, events = pre ++ .accepted (some answer) true :: post → .waits ∈ pre →
    (∀ result, .settled result ∉ pre) → .aborted ∉ events → .settled (.answer answer) ∈ post ∨ Returns answer

theorem Delivers.of_ledger {events : List RelayEvent} {Returns : String → Prop} {l : Ledger}
    (h : Ledger.blank.enterAll events = some l) (howed : ∀ answer, l.owed = some answer → Returns answer) :
    Delivers events Returns := by
  refine ⟨Ledger.contract h, ?_⟩
  rintro pre answer post rfl hwaits hopen haborted
  exact (Ledger.owed_of_accepted h hwaits hopen haborted).2.imp_right (howed answer)

end

end Hyeboard.Captcha
