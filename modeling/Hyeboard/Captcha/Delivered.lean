import Hyeboard.Captcha.Coordinators
/-!
# The answers the coordinators deliver

Each coordinator against the ledger of its challenge, step by step.
-/

namespace Hyeboard.Captcha

/-! ## Local -/

namespace Local

/-- A ledger and what the local coordinator knows. -/
structure Fits (l : Ledger) (s : Coordinator) : Prop where
  owed : l.owed = none
  settled : l.settled = true → ∃ result, s.caller = .settled result
  waiting : l.waiting = true → s.caller = .waiting
  fresh : s.deadline = none → s.relay = none ∧ l.accepted = none
  pending : ∀ relay, s.relay = some relay → relay.status = .pending → l.accepted = none
  waiter : ∀ relay, s.relay = some relay → (relay.waiting = true ↔ s.caller = .waiting)
  answered : ∀ relay, s.relay = some relay → relay.status ≠ .pending → s.caller ≠ .waiting ∧
    ∃ answer, relay.status = .answered ∧ relay.answer = some answer ∧ l.accepted = some (some answer)
  relayed : s.caller = .waiting → s.relay ≠ none

/-- No cancel comes for an answer that is kept for a waiter to come. -/
def CancelsPending (s : Coordinator) (turn : Turn) : Prop :=
  turn.action = .cancel → ∀ relay, s.relay = some relay → relay.status = .pending

variable {l : Ledger} {s : Coordinator}

theorem fits_start : Fits .blank start := by
  constructor <;> simp [Ledger.blank, start]

theorem Fits.deadline (h : Fits l s) {relay : LocalRelay} (hrelay : s.relay = some relay) : s.deadline ≠ none := by
  intro hnone
  rw [(h.fresh hnone).1] at hrelay
  cases hrelay

theorem Fits.open_of_waiting (h : Fits l s) (hcaller : s.caller = .waiting) : l.settled = false := by
  rw [Bool.eq_false_iff]
  intro htrue
  obtain ⟨other, hother⟩ := h.settled htrue
  rw [hcaller] at hother
  cases hother

/-- The relay is cleared, and its waiter, if it is there, gets what the ledger allows. -/
theorem Fits.clear (h : Fits l s) {relay : LocalRelay} (hrelay : s.relay = some relay) (l' : Ledger)
    (hsettled : l'.settled = l.settled) (hwaiting : l'.waiting = true → l.waiting = true) (result : WaitResult)
    (hallowed : (∃ answer, result = .answer answer ∧ l'.accepted = some (some answer) ∧ relay.waiting = true) ∨ l'.owed = none ∧
      ∀ answer, result ≠ .answer answer) :
    ∃ l'', l'.enterAll (clearWith s relay result).1 = some l'' ∧ Fits l'' (clearWith s relay result).2 := by
  have hdeadline := h.deadline hrelay
  unfold clearWith
  by_cases hwaiter : relay.waiting = true
  · rw [if_pos hwaiter]
    have hopen : l'.settled = false := hsettled.trans (h.open_of_waiting ((h.waiter relay hrelay).1 hwaiter))
    have henter : l'.enter (.settled result) = some l'.close := by
      rcases hallowed with ⟨answer, rfl, haccepted, -⟩ | ⟨howed, hother⟩
      · simp [Ledger.enter, hopen, haccepted]
      · cases result with
        | answer answer => exact absurd rfl (hother answer)
        | cancelled | notFound | timeout => simp [Ledger.enter, hopen, howed]
    refine ⟨l'.close, by simp [henter], ?_⟩
    constructor <;> simp [Ledger.close, hdeadline]
  · rw [if_neg hwaiter]
    have hcaller : s.caller ≠ .waiting := fun heq => hwaiter ((h.waiter relay hrelay).2 heq)
    refine ⟨l', rfl, ?_⟩
    constructor
    · rcases hallowed with ⟨-, -, -, hthere⟩ | ⟨howed, -⟩
      · exact absurd hthere hwaiter
      · exact howed
    · exact fun htrue => h.settled (hsettled.symm.trans htrue)
    · exact fun htrue => h.waiting (hwaiting htrue)
    · exact fun hnone => absurd hnone hdeadline
    · simp
    · simp
    · simp
    · exact fun heq => absurd heq hcaller

/-- A cancel of a challenge that nobody has answered. -/
theorem Fits.cancel (h : Fits l s) (now : Nat) (hpending : ∀ relay, s.relay = some relay → relay.status = .pending) :
    ∃ l', l.enterAll (cancel s now).1 = some l' ∧ Fits l' (cancel s now).2 := by
  unfold Local.cancel
  cases hrelay : s.relay with
  | none => exact ⟨l, rfl, h⟩
  | some relay =>
    have hnone := h.pending relay hrelay (hpending relay hrelay)
    obtain ⟨l', htaken, hfits⟩ := h.clear hrelay (l.accept none (inTime s now)) rfl id .cancelled
      (.inr ⟨by simp [Ledger.accept], by simp⟩)
    refine ⟨l', ?_, hfits⟩
    simp only [Ledger.enterAll_cons, Ledger.enter, if_pos hnone, Option.bind_some]
    exact htaken

theorem Fits.answer (h : Fits l s) (now : Nat) (text : String) :
    ∃ l', l.enterAll (answer s now text).1 = some l' ∧ Fits l' (answer s now text).2 := by
  unfold Local.answer
  cases hrelay : s.relay with
  | none => exact ⟨l, rfl, h⟩
  | some relay =>
    simp only
    by_cases hstatus : relay.status = .pending
    · rw [if_neg (not_not.2 hstatus)]
      have hnone := h.pending relay hrelay hstatus
      by_cases hwaiting : relay.waiting = true
      · rw [if_pos hwaiting]
        obtain ⟨l', htaken, hfits⟩ := h.clear hrelay (l.accept (some text) (inTime s now)) rfl id (.answer text)
          (.inl ⟨text, rfl, rfl, hwaiting⟩)
        refine ⟨l', ?_, hfits⟩
        simp only [Ledger.enterAll_cons, Ledger.enter, if_pos hnone, Option.bind_some]
        exact htaken
      · rw [if_neg hwaiting]
        have hcaller : s.caller ≠ .waiting := fun heq => hwaiting ((h.waiter relay hrelay).2 heq)
        have hidle : l.waiting = false := Bool.eq_false_iff.2 fun htrue => hcaller (h.waiting htrue)
        refine ⟨l.accept (some text) (inTime s now), by simp [Ledger.enter, hnone], ?_⟩
        constructor
        · simp [Ledger.accept, hidle]
        · exact h.settled
        · exact h.waiting
        · exact fun hfresh => absurd hfresh (h.deadline hrelay)
        · rintro other heq hpending
          cases heq
          cases hpending
        · rintro other heq
          cases heq
          exact h.waiter relay hrelay
        · rintro other heq -
          cases heq
          exact ⟨hcaller, text, rfl, rfl, rfl⟩
        · exact fun heq => absurd heq hcaller
    · rw [if_pos hstatus]
      exact ⟨l, rfl, h⟩

theorem Fits.wait (h : Fits l s) (now : Nat) (aborted : Bool) :
    ∃ l', l.enterAll (wait s now aborted).1 = some l' ∧ Fits l' (wait s now aborted).2 := by
  unfold Local.wait
  split
  case isTrue => exact ⟨l, rfl, h⟩
  case isFalse hready =>
    rw [not_or, not_not, Option.isNone_iff_eq_none] at hready
    obtain ⟨hidle, hprepared⟩ := hready
    have hopen : l.settled = false := by
      rw [Bool.eq_false_iff]
      intro htrue
      obtain ⟨other, hother⟩ := h.settled htrue
      rw [hidle] at hother
      cases hother
    have hclose : ∀ t : Coordinator, t.relay = none → t.deadline ≠ none → (∃ result, t.caller = .settled result) → Fits l.close t := by
      rintro t hrelay hdeadline ⟨result, hcaller⟩
      constructor <;> simp [Ledger.close, hrelay, hdeadline, hcaller]
    cases hrelay : s.relay with
    | none =>
      exact ⟨l.close, by simp [Ledger.enter, hopen, h.owed], hclose _ rfl hprepared ⟨_, rfl⟩⟩
    | some relay =>
      have hwaiter : relay.waiting = false := by
        rw [Bool.eq_false_iff, Ne, h.waiter relay hrelay, hidle]
        exact fun heq => by cases heq
      by_cases hstatus : relay.status = .pending
      · have hnone := h.pending relay hrelay hstatus
        simp only [hstatus]
        cases aborted with
        | true =>
          refine ⟨((({ l with waiting := false, owed := none } : Ledger).accept none (inTime s now))).close, ?_, ?_⟩
          · simp [Local.cancel, hrelay, clearWith, hwaiter, Ledger.enter, hnone, hopen, Ledger.accept]
          · constructor <;> simp [Ledger.close, Local.cancel, hrelay, clearWith, hwaiter, hprepared]
        | false =>
          refine ⟨{ l with waiting := true }, by simp [Ledger.enter], ?_⟩
          constructor
          · exact h.owed
          · exact fun htrue => by rw [hopen] at htrue; cases htrue
          · exact fun _ => rfl
          · exact fun hfresh => absurd hfresh hprepared
          · exact fun _ _ _ => hnone
          · rintro other heq
            cases heq
            simp
          · rintro other heq hother
            cases heq
            exact absurd rfl hother
          · simp
      · obtain ⟨-, answer, hanswered, hanswer, haccepted⟩ := h.answered relay hrelay hstatus
        simp only [hanswered, hanswer]
        exact ⟨l.close, by simp [Ledger.enter, hopen, haccepted], hclose _ rfl hprepared ⟨_, rfl⟩⟩

/-- What one turn preserves. -/
theorem Fits.step (h : Fits l s) {turn : Turn} (hcancels : CancelsPending s turn) :
    ∃ l', l.enterAll (step s turn).1 = some l' ∧ Fits l' (step s turn).2 := by
  obtain ⟨now, action⟩ := turn
  cases action with
  | prepare timeoutMs =>
    refine ⟨l, rfl, ?_⟩
    simp only [Local.step, Local.prepare]
    split
    case isTrue => exact h
    case isFalse hfresh =>
      rw [Option.not_isSome_iff_eq_none] at hfresh
      obtain ⟨hrelay, hnone⟩ := h.fresh hfresh
      have hcaller : s.caller ≠ .waiting := fun heq => h.relayed heq hrelay
      constructor
      · exact h.owed
      · exact h.settled
      · exact h.waiting
      · exact fun heq => by cases heq
      · exact fun _ _ _ => hnone
      · rintro relay heq
        cases heq
        simp [hcaller]
      · rintro relay heq hstatus
        cases heq
        exact absurd rfl hstatus
      · simp
  | wait aborted => exact h.wait now aborted
  | answer text => exact h.answer now text
  | cancel => exact h.cancel now (hcancels rfl)
  | abort =>
    simp only [Local.step, Local.abort]
    split
    case isTrue hcaller =>
      have hfits : Fits { l with waiting := false, owed := none } s :=
        ⟨rfl, h.settled, fun heq => (by cases heq), h.fresh, h.pending, h.waiter, h.answered, h.relayed⟩
      have hpending : ∀ relay, s.relay = some relay → relay.status = .pending := by
        intro relay hrelay
        by_contra hstatus
        exact (h.answered relay hrelay hstatus).1 hcaller
      exact hfits.cancel now hpending
    case isFalse => exact ⟨l, rfl, h⟩
  | timer =>
    simp only [Local.step, Local.timer]
    cases hrelay : s.relay with
    | none => exact ⟨l, rfl, h⟩
    | some relay =>
      simp only
      split
      · exact ⟨l, rfl, h⟩
      · exact h.clear hrelay l rfl id .timeout (.inr ⟨h.owed, by simp⟩)

theorem delivers {trace : List (Step Coordinator Turn (List RelayEvent))} {clock : Nat} (h : RelayRun trace s clock)
    (hcancels : ∀ e ∈ trace, CancelsPending e.before e.call) : Delivers (eventsOf trace) fun _ => False := by
  obtain ⟨l, htaken, hfits⟩ := ledger_of_run (fun l s _ => Fits l s) fits_start
    (fun l s clock turn hfits _ hturn => hfits.step hturn) h hcancels
  refine .of_ledger htaken fun answer howed => ?_
  rw [hfits.owed] at howed
  cases howed

end Local

/-! ## Durable Object -/

namespace Durable

/-- A ledger and what the object and the caller know. -/
structure Fits (l : Ledger) (s : Relay) : Prop where
  settled : l.settled = true → ∃ result, s.caller = .settled result
  waiting : l.waiting = true → s.caller = .waiting
  fresh : s.deadline = none → s.row = none ∧ l.accepted = none ∧ s.caller = .idle
  idle : s.caller = .idle → s.rpc = .none
  pending : ∀ row, s.row = some row → row.status = .pending → l.accepted = none
  answered : ∀ row, s.row = some row → row.status = .answered → ∃ answer, row.answer = some answer ∧
    l.accepted = some (some answer) ∧ s.rpc ≠ .registered
  kept : ∀ row, s.row = some row → row.status ≠ .cancelled ∧ s.deadline = some row.expiresAt
  alarm : ∀ t, s.alarm = some t → s.deadline = some t
  called : s.caller = .waiting → s.rpc ≠ .none
  through : ∀ result, s.rpc = .resolved result ∨ s.rpc = .replied result → ∀ row, s.row = some row → row.status ≠ .pending
  registered : s.rpc = .registered → ∃ row, s.row = some row ∧ row.status = .pending
  result : ∀ answer, s.rpc = .resolved (.answer answer) ∨ s.rpc = .replied (.answer answer) → l.accepted = some (some answer)
  /-- Where the answer the waiter has to get is. -/
  owed : ∀ answer, l.owed = some answer → l.accepted = some (some answer) ∧ s.caller = .waiting ∧
    ((s.rpc = .arriving ∧ ∃ row, s.row = some row ∧ row.status = .answered) ∨ s.rpc = .resolved (.answer answer) ∨
      s.rpc = .replied (.answer answer))

/-- The call of `wait` reaches the object before the deadline of an answered challenge. -/
def ReachesInTime (s : Relay) (turn : Turn) : Prop :=
  turn.action = .arrive ∨ turn.action = .alarm → s.caller = .waiting → s.rpc = .arriving →
    ∀ row, s.row = some row → row.status = .answered → turn.now < row.expiresAt

variable {l : Ledger} {s : Relay}

theorem fits_start : Fits .blank start := by
  constructor <;> simp [Ledger.blank, start]

theorem Fits.prepare (h : Fits l s) (expiresAt : Nat) : Fits l (prepare s expiresAt) := by
  unfold Durable.prepare
  split
  case isTrue => exact h
  case isFalse hfresh =>
    rw [not_or, Option.not_isSome_iff_eq_none, Option.not_isSome_iff_eq_none] at hfresh
    obtain ⟨-, hnone, hcaller⟩ := h.fresh hfresh.1
    have hrpc := h.idle hcaller
    constructor
    · exact h.settled
    · exact h.waiting
    · simp
    · exact h.idle
    · exact fun _ _ _ => hnone
    · rintro row heq hstatus
      cases heq
      cases hstatus
    · rintro row heq
      cases heq
      simp
    · simp
    · exact h.called
    · rw [hrpc]
      simp
    · rw [hrpc]
      simp
    · rw [hrpc]
      simp
    · intro answer howed
      obtain ⟨-, hwaiting, -⟩ := h.owed answer howed
      rw [hcaller] at hwaiting
      cases hwaiting

/-- The object has a result for the call of `wait`, and has cleaned up. -/
theorem Fits.through_with (h : Fits l s) (hrpc : s.rpc ≠ .none) (rpc : Rpc) (result : WaitResult)
    (hresult : rpc = .resolved result ∨ rpc = .replied result)
    (haccepted : ∀ answer, result = .answer answer → l.accepted = some (some answer))
    (howed : ∀ answer, l.owed = some answer → result = .answer answer) : Fits l { cleanup s with rpc } := by
  have hidle : s.caller ≠ .idle := fun heq => hrpc (h.idle heq)
  constructor
  · exact h.settled
  · exact h.waiting
  · exact fun hfresh => absurd (h.fresh hfresh).2.2 hidle
  · exact fun heq => absurd heq hidle
  · simp [cleanup]
  · simp [cleanup]
  · simp [cleanup]
  · simp [cleanup]
  · rintro -
    rcases hresult with rfl | rfl <;> simp
  · simp [cleanup]
  · intro heq
    rcases hresult with rfl | rfl <;> cases heq
  · intro answer heq
    apply haccepted
    rcases hresult with rfl | rfl <;> rcases heq with heq | heq <;> cases heq <;> rfl
  · intro answer hanswer
    obtain ⟨hmine, hcaller, -⟩ := h.owed answer hanswer
    obtain rfl := howed answer hanswer
    exact ⟨hmine, hcaller, hresult.elim (fun heq => .inr (.inl heq)) fun heq => .inr (.inr heq)⟩

/-- What is owed to a caller whose call is on its way is in the row. -/
theorem Fits.owed_arriving (h : Fits l s) (hrpc : s.rpc = .arriving) {answer : String} (howed : l.owed = some answer) :
    l.accepted = some (some answer) ∧ s.caller = .waiting ∧ ∃ row, s.row = some row ∧ row.status = .answered := by
  obtain ⟨haccepted, hcaller, ⟨-, hrow⟩ | heq | heq⟩ := h.owed answer howed
  · exact ⟨haccepted, hcaller, hrow⟩
  · rw [hrpc] at heq
    cases heq
  · rw [hrpc] at heq
    cases heq

theorem Fits.arrive (h : Fits l s) {now : Nat} (hreaches : ReachesInTime s ⟨now, .arrive⟩) : Fits l (arrive s now) := by
  unfold Durable.arrive
  split
  · exact h
  case isFalse hrpc =>
    rw [not_not] at hrpc
    have hcalled : s.rpc ≠ .none := by simp [hrpc]
    cases hrow : s.row with
    | none =>
      have hnone : ∀ answer, l.owed ≠ some answer := by
        intro answer howed
        obtain ⟨-, -, row, hthere, -⟩ := h.owed_arriving hrpc howed
        rw [hrow] at hthere
        cases hthere
      have hidle : s.caller ≠ .idle := fun heq => hcalled (h.idle heq)
      refine ⟨h.settled, h.waiting, fun hfresh => absurd (h.fresh hfresh).2.2 hidle, fun heq => absurd heq hidle, ?_, ?_, ?_,
        h.alarm, by simp, ?_, by simp, by simp, fun answer howed => absurd howed (hnone answer)⟩
      all_goals simp
    | some row =>
      simp only
      split
      case isTrue hexpired =>
        refine h.through_with hcalled _ .timeout (.inr rfl) (by simp) fun answer howed => ?_
        obtain ⟨-, hcaller, row', hrow', hanswered⟩ := h.owed_arriving hrpc howed
        exact absurd (hreaches (.inl rfl) hcaller hrpc row' hrow' hanswered) (by
          rw [hrow] at hrow'
          cases hrow'
          exact Nat.not_lt.2 hexpired)
      case isFalse =>
        cases hstatus : row.status with
        | pending =>
          have hnone : ∀ answer, l.owed ≠ some answer := by
            intro answer howed
            obtain ⟨-, -, row', hrow', hanswered⟩ := h.owed_arriving hrpc howed
            rw [hrow] at hrow'
            cases hrow'
            rw [hstatus] at hanswered
            cases hanswered
          have hidle : s.caller ≠ .idle := fun heq => hcalled (h.idle heq)
          refine ⟨h.settled, h.waiting, fun hfresh => absurd (h.fresh hfresh).2.2 hidle, fun heq => absurd heq hidle,
            fun _ _ _ => h.pending row hrow hstatus, ?_, ?_, h.alarm, by simp, by simp, fun _ => ⟨row, rfl, hstatus⟩, by simp,
            fun answer howed => absurd howed (hnone answer)⟩
          · rintro other heq hanswered
            cases heq
            rw [hstatus] at hanswered
            cases hanswered
          · rintro other heq
            cases heq
            exact h.kept row hrow
        | answered =>
          obtain ⟨answer, hanswer, haccepted, -⟩ := h.answered row hrow hstatus
          simp only [hanswer]
          refine h.through_with hcalled _ (.answer answer) (.inr rfl) (fun other heq => by cases heq; exact haccepted) ?_
          intro other howed
          have hother := (h.owed other howed).1
          rw [haccepted] at hother
          cases hother
          rfl
        | cancelled => exact absurd hstatus (h.kept row hrow).1

theorem Fits.answer (h : Fits l s) (now : Nat) (text : String) :
    ∃ l', l.enterAll (answer s now text).1 = some l' ∧ Fits l' (answer s now text).2 := by
  unfold Durable.answer
  cases hrow : s.row with
  | none => exact ⟨l, rfl, h⟩
  | some row =>
    simp only
    split
    · exact ⟨l, rfl, h⟩
    case isFalse hopen =>
      rw [not_or, not_not] at hopen
      obtain ⟨hstatus, -⟩ := hopen
      have hnone := h.pending row hrow hstatus
      have hdeadline : s.deadline ≠ none := by
        intro hfresh
        rw [(h.fresh hfresh).1] at hrow
        cases hrow
      have hrpc : ∀ result, s.rpc ≠ .resolved result ∧ s.rpc ≠ .replied result := by
        intro result
        exact ⟨fun heq => h.through result (.inl heq) row hrow hstatus, fun heq => h.through result (.inr heq) row hrow hstatus⟩
      refine ⟨l.accept (some text) (inTime s now), by simp [Ledger.enter, hnone], ?_⟩
      have howed : ∀ answer, (l.accept (some text) (inTime s now)).owed = some answer → l.waiting = true ∧ text = answer := by
        intro answer heq
        simp only [Ledger.accept, Bool.and_eq_true] at heq
        split at heq
        case isTrue hwaiting => exact ⟨hwaiting.1, Option.some.inj heq⟩
        case isFalse => cases heq
      by_cases hregistered : s.rpc = .registered
      · simp only [resolveWaiters, if_pos hregistered]
        have hidle : s.caller ≠ .idle := by
          intro heq
          rw [h.idle heq] at hregistered
          cases hregistered
        refine ⟨h.settled, h.waiting, fun hfresh => absurd hfresh hdeadline, fun heq => absurd heq hidle, ?_, ?_, ?_, h.alarm,
          by simp, ?_, by simp, ?_, ?_⟩
        · rintro other heq hpending
          cases heq
          cases hpending
        · rintro other heq -
          cases heq
          exact ⟨text, rfl, rfl, by simp⟩
        · rintro other heq
          cases heq
          exact ⟨by simp, (h.kept row hrow).2⟩
        · rintro result - other heq
          cases heq
          simp
        · rintro answer (heq | heq)
          · cases heq
            rfl
          · cases heq
        · intro answer heq
          obtain ⟨hwaiting, rfl⟩ := howed answer heq
          exact ⟨rfl, h.waiting hwaiting, .inr (.inl rfl)⟩
      · simp only [resolveWaiters, if_neg hregistered]
        refine ⟨h.settled, h.waiting, fun hfresh => absurd hfresh hdeadline, h.idle, ?_, ?_, ?_, h.alarm, h.called, ?_, ?_, ?_, ?_⟩
        · rintro other heq hpending
          cases heq
          cases hpending
        · rintro other heq -
          cases heq
          exact ⟨text, rfl, rfl, hregistered⟩
        · rintro other heq
          cases heq
          exact ⟨by simp, (h.kept row hrow).2⟩
        · rintro result heq
          exact absurd heq (not_or.2 (hrpc result))
        · exact fun heq => absurd heq hregistered
        · rintro answer heq
          exact absurd heq (not_or.2 (hrpc _))
        · intro answer heq
          obtain ⟨hwaiting, rfl⟩ := howed answer heq
          have hcaller := h.waiting hwaiting
          refine ⟨rfl, hcaller, .inl ⟨?_, _, rfl, rfl⟩⟩
          -- the waiter is there, so its call is on its way
          cases hcase : s.rpc with
          | none => exact absurd hcase (h.called hcaller)
          | arriving => rfl
          | registered => exact absurd hcase hregistered
          | resolved result => exact absurd hcase (hrpc result).1
          | replied result => exact absurd hcase (hrpc result).2

theorem Fits.cancel (h : Fits l s) (now : Nat) :
    ∃ l', l.enterAll (cancel s now).1 = some l' ∧ Fits l' (cancel s now).2 ∧ (cancel s now).2.caller = s.caller ∧
      (cancel s now).2.deadline = s.deadline ∧ l'.settled = l.settled := by
  unfold Durable.cancel
  cases hrow : s.row with
  | none => exact ⟨l, rfl, h, rfl, rfl, rfl⟩
  | some row =>
    simp only
    split
    · exact ⟨l, rfl, h, rfl, rfl, rfl⟩
    case isFalse hstatus =>
      rw [not_not] at hstatus
      have hnone := h.pending row hrow hstatus
      have hrpc : ∀ result, s.rpc ≠ .resolved result ∧ s.rpc ≠ .replied result := by
        intro result
        exact ⟨fun heq => h.through result (.inl heq) row hrow hstatus, fun heq => h.through result (.inr heq) row hrow hstatus⟩
      have hdeadline : s.deadline ≠ none := by
        intro hfresh
        rw [(h.fresh hfresh).1] at hrow
        cases hrow
      have howed : ∀ answer, (l.accept none (inTime s now)).owed ≠ some answer := by simp [Ledger.accept]
      refine ⟨l.accept none (inTime s now), by simp [Ledger.enter, hnone], ?_⟩
      unfold resolveWaiters
      split
      case isTrue hregistered =>
        have hidle : s.caller ≠ .idle := by
          intro heq
          rw [h.idle heq] at hregistered
          cases hregistered
        refine ⟨⟨h.settled, h.waiting, fun hfresh => absurd hfresh hdeadline, fun heq => absurd heq hidle, ?_, ?_, ?_, ?_, ?_, ?_,
          ?_, ?_, fun answer heq => absurd heq (howed answer)⟩, rfl, rfl, rfl⟩
        all_goals simp [cleanup]
      case isFalse hregistered =>
        refine ⟨⟨h.settled, h.waiting, fun hfresh => absurd hfresh hdeadline, h.idle, ?_, ?_, ?_, ?_, h.called, ?_, ?_, ?_,
          fun answer heq => absurd heq (howed answer)⟩, rfl, rfl, rfl⟩
        · simp [cleanup]
        · simp [cleanup]
        · simp [cleanup]
        · simp [cleanup]
        · simp [cleanup]
        · exact fun heq => absurd heq hregistered
        · exact fun answer heq => absurd heq (not_or.2 (hrpc _))

/-- The caller is done, and owed nothing. -/
theorem Fits.close (h : Fits l s) (hprepared : s.deadline ≠ none) (result : WaitResult) :
    Fits l.close { s with caller := .settled result } := by
  refine ⟨fun _ => ⟨result, rfl⟩, fun heq => (by cases heq), fun hfresh => absurd hfresh hprepared,
    fun heq => (by cases heq), h.pending, h.answered, h.kept, h.alarm, fun heq => (by cases heq), h.through, h.registered, h.result,
    fun answer heq => by cases heq⟩

theorem Fits.open_of_unsettled (h : Fits l s) (hcaller : ∀ result, s.caller ≠ .settled result) : l.settled = false := by
  rw [Bool.eq_false_iff]
  intro htrue
  obtain ⟨result, heq⟩ := h.settled htrue
  exact hcaller result heq

theorem Fits.wait (h : Fits l s) (now : Nat) (aborted : Bool) :
    ∃ l', l.enterAll (wait s now aborted).1 = some l' ∧ Fits l' (wait s now aborted).2 := by
  unfold Durable.wait
  split
  case isTrue => exact ⟨l, rfl, h⟩
  case isFalse hready =>
    rw [not_or, not_not, Option.isNone_iff_eq_none] at hready
    obtain ⟨hidle, hprepared⟩ := hready
    have hopen := h.open_of_unsettled fun result heq => by rw [hidle] at heq; cases heq
    have hrpc := h.idle hidle
    split
    case isTrue =>
      have hquiet : Fits { l with waiting := false, owed := none } s :=
        ⟨h.settled, fun heq => (by cases heq), h.fresh, h.idle, h.pending, h.answered, h.kept, h.alarm, h.called, h.through,
          h.registered, h.result, fun answer heq => by cases heq⟩
      obtain ⟨l', htaken, hfits, hcaller, hdeadline, hsettled⟩ := hquiet.cancel now
      have howed : l'.owed = none := by
        cases hcase : l'.owed with
        | none => rfl
        | some answer =>
          have hwaiting := (hfits.owed answer hcase).2.1
          rw [hcaller, hidle] at hwaiting
          cases hwaiting
      refine ⟨l'.close, ?_, ?_⟩
      · simp only [Ledger.enterAll_cons, Ledger.enter, Option.bind_some]
        rw [Ledger.enterAll_append, htaken]
        simp [Ledger.enter, hsettled, hopen, howed]
      · exact hfits.close (hdeadline ▸ hprepared) .cancelled
    case isFalse =>
      refine ⟨{ l with waiting := true }, by simp [Ledger.enter], ?_⟩
      have hnotowed : ∀ answer, l.owed ≠ some answer := by
        intro answer howed
        have hwaiting := (h.owed answer howed).2.1
        rw [hidle] at hwaiting
        cases hwaiting
      refine ⟨fun heq => (by rw [hopen] at heq; cases heq), fun _ => rfl, fun hfresh => absurd hfresh hprepared,
        fun heq => (by cases heq), h.pending, ?_, h.kept, h.alarm, by simp, by simp, by simp, by simp,
        fun answer howed => absurd howed (hnotowed answer)⟩
      intro row hrow hstatus
      obtain ⟨answer, hanswer, haccepted, -⟩ := h.answered row hrow hstatus
      exact ⟨answer, hanswer, haccepted, by simp⟩

theorem Fits.resume (h : Fits l s) : Fits l (resume s) := by
  unfold Durable.resume
  split
  case h_1 result hrpc =>
    refine h.through_with (by simp [hrpc]) _ result (.inr rfl) (fun answer heq => h.result answer (.inl (heq ▸ hrpc))) ?_
    intro answer howed
    obtain ⟨-, -, ⟨heq, -⟩ | heq | heq⟩ := h.owed answer howed
    all_goals rw [hrpc] at heq
    · cases heq
    · cases heq
      rfl
    · cases heq
  case h_2 => exact h

/-- The object cleans up, and the call of `wait` loses nothing. -/
theorem Fits.cleaned (h : Fits l s) (hregistered : s.rpc ≠ .registered) (harriving : s.rpc = .arriving → l.owed = none) :
    Fits l (cleanup s) := by
  refine ⟨h.settled, h.waiting, fun hfresh => ⟨rfl, (h.fresh hfresh).2⟩, h.idle, ?_, ?_, ?_, ?_, h.called, ?_,
    fun heq => absurd heq hregistered, h.result, fun answer howed => ?_⟩
  · simp [cleanup]
  · simp [cleanup]
  · simp [cleanup]
  · simp [cleanup]
  · simp [cleanup]
  · obtain ⟨haccepted, hcaller, ⟨heq, -⟩ | heq⟩ := h.owed answer howed
    · rw [harriving heq] at howed
      cases howed
    · exact ⟨haccepted, hcaller, .inr heq⟩

theorem Fits.alarm_step (h : Fits l s) {now : Nat} (hreaches : ReachesInTime s ⟨now, .alarm⟩) :
    Fits l (Durable.alarm s now) := by
  unfold Durable.alarm
  split
  case isFalse => exact h
  case isTrue hdue =>
    rw [Option.any_eq_true] at hdue
    obtain ⟨t, halarm, hle⟩ := hdue
    have harriving : s.rpc = .arriving → l.owed = none := by
      intro hrpc
      cases hcase : l.owed with
      | none => rfl
      | some answer =>
        -- the alarm is due at the deadline, which the call was to reach the object before
        obtain ⟨-, hcaller, row, hrow, hanswered⟩ := h.owed_arriving hrpc hcase
        have hlive := hreaches (.inr rfl) hcaller hrpc row hrow hanswered
        have hdeadline := h.alarm t halarm
        rw [(h.kept row hrow).2] at hdeadline
        cases hdeadline
        exact absurd hlive (Nat.not_lt.2 (of_decide_eq_true hle))
    by_cases hregistered : s.rpc = .registered
    · obtain ⟨row, hrow, -⟩ := h.registered hregistered
      simp only [hrow, Option.isSome_some, if_true, resolveWaiters, if_pos hregistered]
      refine h.through_with (by simp [hregistered]) _ .timeout (.inl rfl) (by simp) fun answer howed => ?_
      obtain ⟨-, -, ⟨heq, -⟩ | heq | heq⟩ := h.owed answer howed
      all_goals
        rw [hregistered] at heq
        cases heq
    · have hsame : (if s.row.isSome then resolveWaiters s .timeout else s) = s := by
        simp [resolveWaiters, hregistered]
      rw [hsame]
      exact h.cleaned hregistered harriving

theorem Fits.reply (h : Fits l s) : ∃ l', l.enterAll (reply s).1 = some l' ∧ Fits l' (reply s).2 := by
  unfold Durable.reply
  split
  case h_1 result hrpc hcaller =>
    have hopen := h.open_of_unsettled fun other heq => by rw [hcaller] at heq; cases heq
    have hprepared : s.deadline ≠ none := by
      intro hfresh
      rw [(h.fresh hfresh).2.2] at hcaller
      cases hcaller
    refine ⟨l.close, ?_, h.close hprepared result⟩
    have howed : ∀ answer, l.owed = some answer → result = .answer answer := by
      intro answer howed
      obtain ⟨-, -, ⟨heq, -⟩ | heq | heq⟩ := h.owed answer howed
      all_goals rw [hrpc] at heq
      · cases heq
      · cases heq
      · cases heq
        rfl
    have hnone : (∀ answer, result ≠ .answer answer) → l.owed = none := by
      intro hother
      cases hcase : l.owed with
      | none => rfl
      | some answer => exact absurd (howed answer hcase) (hother answer)
    cases result with
    | answer answer => simp [Ledger.enter, hopen, h.result answer (.inr hrpc)]
    | cancelled | notFound | timeout => simp [Ledger.enter, hopen, hnone (by simp)]
  case h_2 => exact ⟨l, rfl, h⟩

theorem Fits.abort (h : Fits l s) : ∃ l', l.enterAll (abort s).1 = some l' ∧ Fits l' (abort s).2 := by
  unfold Durable.abort
  split
  case isTrue hcaller =>
    have hopen := h.open_of_unsettled fun other heq => by rw [hcaller] at heq; cases heq
    have hprepared : s.deadline ≠ none := by
      intro hfresh
      rw [(h.fresh hfresh).2.2] at hcaller
      cases hcaller
    exact ⟨l.close, by simp [Ledger.enter, hopen, Ledger.close], h.close hprepared .cancelled⟩
  case isFalse => exact ⟨l, rfl, h⟩

/-- What one turn preserves. -/
theorem Fits.step (h : Fits l s) {turn : Turn} (hreaches : ReachesInTime s turn) :
    ∃ l', l.enterAll (step s turn).1 = some l' ∧ Fits l' (step s turn).2 := by
  obtain ⟨now, action⟩ := turn
  cases action with
  | prepare expiresAt => exact ⟨l, rfl, h.prepare expiresAt⟩
  | wait aborted => exact h.wait now aborted
  | arrive => exact ⟨l, rfl, h.arrive hreaches⟩
  | answer text => exact h.answer now text
  | cancel =>
    obtain ⟨l', htaken, hfits, -⟩ := h.cancel now
    exact ⟨l', htaken, hfits⟩
  | alarm => exact ⟨l, rfl, h.alarm_step hreaches⟩
  | resume => exact ⟨l, rfl, h.resume⟩
  | reply => exact h.reply
  | abort => exact h.abort

/-- The turns of the call of `wait` alone, all at `now`, bring the answer. -/
def Returns (s : Relay) (clock : Nat) (answer : String) : Prop :=
  ∀ now, clock ≤ now → inTime s now = true → ∃ actions : List Action,
    (∀ action ∈ actions, action = .arrive ∨ action = .resume ∨ action = .reply) ∧
      .settled (.answer answer) ∈ eventsOf (execute Durable.step s (actions.map fun action => { now, action }))

theorem Fits.returns (h : Fits l s) (clock : Nat) {answer : String} (howed : l.owed = some answer) : Returns s clock answer := by
  rintro now - hnow
  obtain ⟨haccepted, hcaller, ⟨hrpc, row, hrow, hstatus⟩ | hrpc | hrpc⟩ := h.owed answer howed
  · refine ⟨[.arrive, .reply], by simp, ?_⟩
    obtain ⟨other, hother, hmine, -⟩ := h.answered row hrow hstatus
    obtain rfl : answer = other := by
      rw [haccepted] at hmine
      cases hmine
      rfl
    have hlive : ¬ row.expiresAt ≤ now := by
      have hdeadline := (h.kept row hrow).2
      simpa [inTime, hdeadline] using hnow
    simp [eventsOf, execute, stepOf, Durable.step, Durable.arrive, hrpc, hrow, hlive, hstatus, hother, Durable.reply, cleanup, hcaller]
  · refine ⟨[.resume, .reply], by simp, ?_⟩
    simp [eventsOf, execute, stepOf, Durable.step, Durable.resume, hrpc, Durable.reply, cleanup, hcaller]
  · refine ⟨[.reply], by simp, ?_⟩
    simp [eventsOf, execute, stepOf, Durable.step, Durable.reply, hrpc, hcaller]

theorem delivers {trace : List (Step Relay Turn (List RelayEvent))} {clock : Nat} (h : RelayRun trace s clock)
    (hreaches : ∀ e ∈ trace, ReachesInTime e.before e.call) : Delivers (eventsOf trace) (Returns s clock) := by
  obtain ⟨l, htaken, hfits⟩ := ledger_of_run (fun l s _ => Fits l s) fits_start
    (fun l s clock turn hfits _ hturn => hfits.step hturn) h hreaches
  exact .of_ledger htaken fun answer howed => hfits.returns clock howed

end Durable

end Hyeboard.Captcha
