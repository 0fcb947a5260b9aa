import Hyeboard.Captcha.RedisDelivered
/-!
# What the relays deliver

The three coordinators together, and the answer the Redis coordinator loses: BLPOP
told its waiter of it, and the key was gone when the waiter read it again.
-/

namespace Hyeboard.Captcha

/-- An answered challenge is delivered by every coordinator, as long as no cancel finds an answer that is kept (local), the call
of `wait` reaches the object in time (Durable Object), and `wait` reads the key in time (Redis). -/
theorem relays_deliver (timeoutMs : Nat) :
    (∀ trace s clock, Local.RelayRun trace s clock → (∀ e ∈ trace, Local.CancelsPending e.before e.call) →
      Delivers (eventsOf trace) fun _ => False) ∧
    (∀ trace s clock, Durable.RelayRun trace s clock → (∀ e ∈ trace, Durable.ReachesInTime e.before e.call) →
      Delivers (eventsOf trace) (Durable.Returns s clock)) ∧
    ∀ trace s clock, Redis.RelayRun timeoutMs trace s clock → (∀ e ∈ trace, Redis.ReadsInTime e.before e.call) →
      Delivers (eventsOf trace) (Redis.Returns s clock) :=
  ⟨fun _ _ _ h hcancels => Local.delivers h hcancels, fun _ _ _ h hreaches => Durable.delivers h hreaches,
    fun _ _ _ h hreads => Redis.delivers h hreads⟩

/-! ## Two runs of the Redis coordinator -/

namespace Redis

/-- `ReadsInTime`, computed. -/
def readsInTime (s : Relay) (turn : Turn) : Bool :=
  match turn.action, s.phase with
  | .command, .reading | .command, .rereading _ _ =>
    s.wasAborted || s.key.all fun entry => entry.value.status != .answered || entry.alive turn.now
  | .proceed, .read (some state) | .proceed, .reread _ _ (some state) =>
    s.wasAborted || state.status != .pending ||
      s.key.all fun entry => entry.value.status != .answered || decide (turn.now < state.expiresAt)
  | _, _ => true

theorem readsInTime_of_check {s : Relay} {turn : Turn} (h : readsInTime s turn = true) : ReadsInTime s turn := by
  constructor
  · rintro haction haborted hphase entry hentry hstatus
    rcases hphase with hphase | ⟨state, notification, hphase⟩ <;>
      simpa [readsInTime, haction, haborted, hphase, hentry, hstatus] using h
  · rintro haction haborted state hphase hpending entry hentry hstatus
    rcases hphase with hphase | ⟨before, notification, hphase⟩ <;>
      simpa [readsInTime, haction, haborted, hphase, hpending, hentry, hstatus] using h

/-- `CAPTCHA_RELAY_TIMEOUT_MS`. -/
def relayTimeoutMs : Nat := 120000

/-- A waiter comes half a second before the challenge ends; the answer comes a millisecond before. -/
def answeredTurns : List Turn :=
  [⟨1000, .prepare 0⟩, ⟨120500, .wait false⟩, ⟨120500, .command⟩, ⟨120500, .proceed⟩, ⟨120999, .answer 0 "k7f2"⟩, ⟨120999, .command⟩]

/-- The waiter reads the key when it is gone. -/
def lateTurns : List Turn := answeredTurns ++ [⟨121000, .command⟩, ⟨121000, .proceed⟩]

/-- The waiter reads the key at once. -/
def promptTurns : List Turn := answeredTurns ++ [⟨120999, .command⟩, ⟨120999, .proceed⟩, ⟨120999, .command⟩, ⟨121000, .command⟩]

theorem relay_run (turns : List Turn) (hsorted : (0 :: turns.map Turn.now).Pairwise (· ≤ ·)) :
    ∃ clock, RelayRun relayTimeoutMs (execute step (start relayTimeoutMs) turns) (stateAfter step (start relayTimeoutMs) turns) clock := by
  have hstart : RelayRun relayTimeoutMs [] (start relayTimeoutMs) 0 := .start
  exact hstart.follow turns hsorted fun _ _ _ => trivial

theorem lateTurns_events : eventsOf (execute step (start relayTimeoutMs) lateTurns) =
    [.waits, .accepted (some "k7f2") true, .settled .timeout] := by
  decide +kernel

theorem promptTurns_events : eventsOf (execute step (start relayTimeoutMs) promptTurns) =
    [.waits, .accepted (some "k7f2") true, .settled (.answer "k7f2")] := by
  decide +kernel

theorem promptTurns_reads : (execute step (start relayTimeoutMs) promptTurns).all (fun e => readsInTime e.before e.call) = true := by
  decide +kernel

end Redis

theorem relays_deliver_prompt : ∃ clock, Delivers [.waits, .accepted (some "k7f2") true, .settled (.answer "k7f2")]
    (Redis.Returns (stateAfter Redis.step (Redis.start Redis.relayTimeoutMs) Redis.promptTurns) clock) := by
  obtain ⟨clock, hrun⟩ := Redis.relay_run Redis.promptTurns (by decide)
  rw [← Redis.promptTurns_events]
  refine ⟨clock, (relays_deliver Redis.relayTimeoutMs).2.2 _ _ _ hrun fun e hmem => Redis.readsInTime_of_check ?_⟩
  exact List.all_eq_true.1 Redis.promptTurns_reads e hmem

/-- Not every run of the Redis coordinator keeps the contract. -/
theorem relays_lose_an_answer : ¬ ∀ trace s clock, Redis.RelayRun Redis.relayTimeoutMs trace s clock → Contract (eventsOf trace) := by
  intro h
  obtain ⟨clock, hrun⟩ := Redis.relay_run Redis.lateTurns (by decide)
  have hcontract := h _ _ _ hrun
  rw [Redis.lateTurns_events] at hcontract
  have heq := hcontract.kept [.waits] "k7f2" [.settled .timeout] rfl (by simp) (by simp) (by simp) .timeout (by simp)
  cases heq

end Hyeboard.Captcha
