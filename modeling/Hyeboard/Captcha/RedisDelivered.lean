import Hyeboard.Captcha.Delivered
/-!
# The answers the Redis coordinator delivers

`wait` polls the key of its challenge, which vanishes at its time to live. What
it has read is true of the key for as long as there is one, and an answer that
was accepted in time is in the key until `wait` has read it.
-/

namespace Hyeboard.Captcha.Redis

open ExpiringKeys

/-- A state that was read once. -/
structure Seen (l : Ledger) (s : Relay) (state : RelayState) : Prop where
  expiresAt : ∀ entry, s.key = some entry → entry.value.expiresAt = state.expiresAt
  status : state.status = .pending ∨
    ∃ answer, state.status = .answered ∧ state.answer = some answer ∧ l.accepted = some (some answer)

/-- The key has vanished for good. -/
def Gone (s : Relay) (clock : Nat) : Prop := Key.live s.key clock = none

/-- No answer comes in time any more. -/
def Late (s : Relay) (clock : Nat) : Prop := ∀ entry, s.key = some entry → entry.value.expiresAt ≤ clock

/-- What the phase of `wait` says of the key. -/
def Knows (l : Ledger) (s : Relay) (clock : Nat) : WaitPhase → Prop
  | .read (some state) | .reread _ _ (some state) => Seen l s state
  | .blocking state | .rereading state _ => Seen l s state
  | .read none => Gone s clock
  | .reread _ _ none => Gone s clock
  | .cleaning (.answer answer) _ _ => l.accepted = some (some answer)
  | .cleaning _ _ _ => l.waiting = true → Late s clock
  | .idle | .cancelling | .reading | .settled _ => True

/-- `wait` will read the key. -/
def WaitPhase.polls : WaitPhase → Bool
  | .reading | .read (some _) | .blocking _ | .rereading .. | .reread _ _ (some _) => true
  | _ => false

structure Fits (l : Ledger) (s : Relay) (clock : Nat) : Prop where
  settled : l.settled = true → ∃ result, s.phase = .settled result
  waiting : l.waiting = true → s.wasAborted = false ∧ s.phase ≠ .idle ∧ s.phase ≠ .cancelling ∧ ∀ result, s.phase ≠ .settled result
  fresh : s.prepared = false → s.key = none ∧ l.accepted = none ∧ s.phase = .idle
  lifetime : ∀ entry, s.key = some entry → (∃ t, entry.expiresAt = some t ∧ entry.value.expiresAt ≤ t) ∧
    entry.value.expiresAt ≤ clock + s.timeoutMs
  unaborted : s.phase = .idle → s.wasAborted = false
  deadline : s.phase.polls = true → ∀ entry, s.key = some entry → entry.value.expiresAt ≤ s.deadline
  stored : ∀ entry, s.key = some entry → (entry.value.status = .pending ∧ l.accepted = none) ∨
    ∃ answer, entry.value.status = .answered ∧ entry.value.answer = some answer ∧ l.accepted = some (some answer)
  knows : Knows l s clock s.phase
  /-- Where the answer the waiter has to get is. -/
  owed : ∀ answer, l.owed = some answer → l.accepted = some (some answer) ∧ s.wasAborted = false ∧
    ((∃ signalOnly last, s.phase = .cleaning (.answer answer) signalOnly last) ∨
      s.phase.polls = true ∧ ∃ entry, s.key = some entry ∧ entry.value.status = .answered)

/-- `wait` reads an answered challenge before its key vanishes, and does not find it late by a
read from before the answer. -/
structure ReadsInTime (s : Relay) (turn : Turn) : Prop where
  reads : turn.action = .command → s.wasAborted = false → (s.phase = .reading ∨ ∃ state notification, s.phase = .rereading state notification) →
    ∀ entry, s.key = some entry → entry.value.status = .answered → entry.alive turn.now = true
  proceeds : turn.action = .proceed → s.wasAborted = false →
    ∀ state, (s.phase = .read (some state) ∨ ∃ before notification, s.phase = .reread before notification (some state)) →
    state.status = .pending → ∀ entry, s.key = some entry → entry.value.status = .answered → turn.now < state.expiresAt

variable {l : Ledger} {s : Relay} {clock : Nat}

theorem Knows.congr {k : Ledger} {t : Relay} {phase : WaitPhase} (h : Knows l s clock phase) (hkey : t.key = s.key)
    (haccepted : k.accepted = l.accepted) (hwaiting : k.waiting = true → l.waiting = true) : Knows k t clock phase := by
  have hseen : ∀ state, Seen l s state → Seen k t state :=
    fun _ hseen => ⟨hkey ▸ hseen.expiresAt, haccepted ▸ hseen.status⟩
  have hgone : Gone s clock → Gone t clock := by
    unfold Gone
    rw [hkey]
    exact id
  have hlate : Late s clock → Late t clock := by
    unfold Late
    rw [hkey]
    exact id
  cases phase with
  | read state => cases state <;> first | exact hseen _ h | exact hgone h
  | reread state notification after => cases after <;> first | exact hseen _ h | exact hgone h
  | blocking state => exact hseen _ h
  | rereading state notification => exact hseen _ h
  | cleaning result signalOnly last =>
    cases result with
    | answer answer => exact haccepted.trans h
    | cancelled | notFound | timeout => exact fun hthere => hlate (h (hwaiting hthere))
  | idle | cancelling | reading | settled _ => trivial

theorem fits_start (timeoutMs : Nat) : Fits .blank (start timeoutMs) 0 := by
  constructor <;> simp [Ledger.blank, start, Knows]

/-- Time passes. -/
theorem Fits.later (h : Fits l s clock) {now : Nat} (hle : clock ≤ now) : Fits l s now := by
  refine ⟨h.settled, h.waiting, h.fresh, ?_, h.unaborted, h.deadline, h.stored, ?_, h.owed⟩
  · intro entry hentry
    obtain ⟨hlifetime, hbound⟩ := h.lifetime entry hentry
    exact ⟨hlifetime, Nat.le_trans hbound (Nat.add_le_add_right hle _)⟩
  · have hknows := h.knows
    have hgone : Gone s clock → Gone s now := Key.live_eq_none_of_le hle
    have hlate : Late s clock → Late s now := fun hlate entry hentry => Nat.le_trans (hlate entry hentry) hle
    generalize s.phase = phase at hknows ⊢
    cases phase with
    | read state => cases state <;> first | exact hknows | exact hgone hknows
    | reread state notification after => cases after <;> first | exact hknows | exact hgone hknows
    | cleaning result signalOnly last => cases result <;> first | exact hknows | exact fun hwaiting => hlate (hknows hwaiting)
    | _ => exact hknows

theorem Fits.open_of_unsettled (h : Fits l s clock) (hphase : ∀ result, s.phase ≠ .settled result) : l.settled = false := by
  rw [Bool.eq_false_iff]
  intro htrue
  obtain ⟨result, heq⟩ := h.settled htrue
  exact hphase result heq

/-- What GET returns. -/
theorem Fits.get (h : Fits l s clock) :
    (s.key.get clock = none ∧ Gone s clock) ∨ ∃ entry, s.key = some entry ∧ s.key.get clock = some entry.value ∧
      Seen l s entry.value := by
  cases hlive : Key.live s.key clock with
  | none => exact .inl ⟨by rw [Key.get, hlive]; rfl, hlive⟩
  | some entry =>
    have hkey := (Key.live_eq_some.1 hlive).1
    refine .inr ⟨entry, hkey, Key.get_of_live hlive, ?_, ?_⟩
    · intro other hother
      rw [hkey] at hother
      cases hother
      rfl
    · exact (h.stored entry hkey).imp And.left id

theorem Fits.prepare (h : Fits l s clock) (delay : Nat) : Fits l (prepare s clock delay) clock := by
  unfold Redis.prepare
  split
  case isTrue => exact h
  case isFalse hfresh =>
    rw [Bool.not_eq_true] at hfresh
    obtain ⟨hkey, hnone, hphase⟩ := h.fresh hfresh
    have hget : s.key.get clock = none := by rw [hkey]; rfl
    simp only [hget, Option.isSome_none, Bool.false_eq_true, if_false]
    refine ⟨h.settled, h.waiting, fun heq => (by cases heq), ?_, h.unaborted, ?_, ?_, ?_, ?_⟩
    · rintro entry heq
      cases heq
      exact ⟨⟨_, rfl, Nat.add_le_add_right (Nat.sub_le _ _) _⟩, Nat.add_le_add_right (Nat.sub_le _ _) _⟩
    · intro hpolls
      simp [hphase, WaitPhase.polls] at hpolls
    · rintro entry heq
      cases heq
      exact .inl ⟨rfl, hnone⟩
    · rw [hphase]
      trivial
    · intro answer howed
      rw [(h.owed answer howed).1] at hnone
      cases hnone

theorem Fits.wait (h : Fits l s clock) (aborted : Bool) :
    ∃ l', l.enterAll (wait s clock aborted).1 = some l' ∧ Fits l' (wait s clock aborted).2 clock := by
  unfold Redis.wait
  split
  case isTrue => exact ⟨l, rfl, h⟩
  case isFalse hready =>
    rw [not_or, not_not, Bool.not_eq_true, Bool.not_eq_false'] at hready
    obtain ⟨hidle, hprepared⟩ := hready
    have hopen := h.open_of_unsettled fun result heq => by rw [hidle] at heq; cases heq
    have hnotowed : ∀ answer, l.owed ≠ some answer := by
      intro answer howed
      obtain ⟨-, -, ⟨_, _, hcleaning⟩ | ⟨hpolls, -⟩⟩ := h.owed answer howed
      · rw [hidle] at hcleaning
        cases hcleaning
      · rw [hidle] at hpolls
        cases hpolls
    have hfresh : ∀ {p : Prop}, s.prepared = false → p := fun heq => by rw [hprepared] at heq; cases heq
    split
    case isTrue =>
      refine ⟨{ l with waiting := false, owed := none }, by simp [Ledger.enter], ?_⟩
      exact ⟨fun heq => (by rw [hopen] at heq; cases heq), fun heq => (by cases heq), hfresh, h.lifetime, fun heq => (by cases heq),
        fun heq => (by cases heq), h.stored, trivial, fun answer heq => by cases heq⟩
    case isFalse =>
      refine ⟨{ l with waiting := true }, by simp [Ledger.enter], ?_⟩
      exact ⟨fun heq => (by rw [hopen] at heq; cases heq), fun _ => ⟨h.unaborted hidle, by simp⟩, hfresh, h.lifetime,
        fun heq => (by cases heq), fun _ entry hentry => (h.lifetime entry hentry).2, h.stored, trivial,
        fun answer heq => absurd heq (hnotowed answer)⟩

/-- The body is through, with a result the ledger allows. -/
theorem Fits.finallyClause (h : Fits l s clock) (hphase : ∀ result, s.phase ≠ .settled result) (hprepared : s.prepared = true)
    {result : WaitResult} (hresult : (∃ answer, result = .answer answer ∧ l.accepted = some (some answer)) ∨ l.owed = none ∧
      ∀ answer, result ≠ .answer answer) (last : Bool) :
    ∃ l', l.enterAll (finallyClause s result last).1 = some l' ∧ Fits l' (finallyClause s result last).2 clock := by
  have hopen := h.open_of_unsettled hphase
  have hfresh : ∀ {p : Prop}, s.prepared = false → p := fun heq => by rw [hprepared] at heq; cases heq
  unfold Redis.finallyClause
  split
  case isTrue haborted =>
    rw [Bool.and_eq_true] at haborted
    have hidle : l.waiting = false := by
      rw [Bool.eq_false_iff]
      intro htrue
      rw [(h.waiting htrue).1] at haborted
      cases haborted.1
    have hnotowed : ∀ answer, l.owed ≠ some answer := by
      intro answer howed
      have := (h.owed answer howed).2.1
      rw [haborted.1] at this
      cases this
    refine ⟨l, rfl, fun heq => (by rw [hopen] at heq; cases heq), fun heq => (by rw [hidle] at heq; cases heq), hfresh, h.lifetime,
      fun heq => (by cases heq), fun heq => (by cases heq), h.stored, ?_, fun answer heq => absurd heq (hnotowed answer)⟩
    · rcases hresult with ⟨answer, rfl, haccepted⟩ | ⟨-, hother⟩
      · exact haccepted
      · cases result with
        | answer answer => exact absurd rfl (hother answer)
        | cancelled | notFound | timeout => exact fun heq => by rw [hidle] at heq; cases heq
  case isFalse =>
    refine ⟨l.close, ?_, fun _ => ⟨result, rfl⟩, fun heq => (by cases heq), hfresh, h.lifetime, fun heq => (by cases heq),
      fun heq => (by cases heq), h.stored, trivial, fun answer heq => by cases heq⟩
    · rcases hresult with ⟨answer, rfl, haccepted⟩ | ⟨howed, hother⟩
      · simp [Ledger.enter, hopen, haccepted]
      · cases result with
        | answer answer => exact absurd rfl (hother answer)
        | cancelled | notFound | timeout => simp [Ledger.enter, hopen, howed]

/-! ## What the script does -/

/-- A waiter that is there and may still be answered in time polls. -/
theorem Fits.polls (h : Fits l s clock) (hwaiting : l.waiting = true) {entry : Entry RelayState}
    (hlive : Key.live s.key clock = some entry) (hnone : l.accepted = none) (hintime : clock < entry.value.expiresAt) :
    s.phase.polls = true := by
  obtain ⟨-, hidle, hcancelling, hsettled⟩ := h.waiting hwaiting
  have hknows := h.knows
  have hgone : ¬ Gone s clock := fun heq => by rw [Gone, hlive] at heq; cases heq
  have hlate : ¬ Late s clock := fun heq => Nat.not_lt.2 (heq entry (Key.live_eq_some.1 hlive).1) hintime
  cases hphase : s.phase with
  | idle => exact absurd hphase hidle
  | cancelling => exact absurd hphase hcancelling
  | settled result => exact absurd hphase (hsettled result)
  | reading | blocking _ | rereading _ _ => rfl
  | read state =>
    cases state with
    | none =>
      rw [hphase] at hknows
      exact absurd hknows hgone
    | some state => rfl
  | reread state notification after =>
    cases after with
    | none =>
      rw [hphase] at hknows
      exact absurd hknows hgone
    | some after => rfl
  | cleaning result signalOnly last =>
    rw [hphase] at hknows
    cases result with
    | answer answer =>
      rw [Knows, hnone] at hknows
      cases hknows
    | cancelled | notFound | timeout => exact absurd (hknows hwaiting) hlate

/-- The challenge ends, its key replaced or deleted. -/
theorem Fits.accept (h : Fits l s clock) {entry : Entry RelayState} (hlive : Key.live s.key clock = some entry)
    (hpending : entry.value.status = .pending) (answer : Option String) (inTime : Bool) {t : Relay}
    (hphase : t.phase = s.phase) (haborted : t.wasAborted = s.wasAborted) (hprepared : t.prepared = s.prepared)
    (htimeout : t.timeoutMs = s.timeoutMs) (hdeadline : t.deadline = s.deadline)
    (hkey : ∀ other, t.key = some other → other.expiresAt = entry.expiresAt ∧ other.value.expiresAt = entry.value.expiresAt ∧
      other.value.status = .answered ∧ other.value.answer = answer ∧ answer ≠ none)
    (hintime : inTime = decide (clock < entry.value.expiresAt)) (hthere : answer ≠ none → t.key ≠ none) :
    Fits (l.accept answer inTime) t clock := by
  have hentry := (Key.live_eq_some.1 hlive).1
  have hnone : l.accepted = none := by
    rcases h.stored entry hentry with ⟨-, hnone⟩ | ⟨_, hstatus, -⟩
    · exact hnone
    · rw [hpending] at hstatus
      cases hstatus
  have hseen : ∀ state, Seen l s state → Seen (l.accept answer inTime) t state := by
    intro state hseen
    refine ⟨fun other hother => (hkey other hother).2.1.trans (hseen.expiresAt entry hentry), .inl ?_⟩
    rcases hseen.status with hstatus | ⟨_, -, -, haccepted⟩
    · exact hstatus
    · rw [hnone] at haccepted
      cases haccepted
  have hlate : Late s clock → Late t clock := fun heq other hother => (hkey other hother).2.1 ▸ heq entry hentry
  have hgone : ¬ Gone s clock := fun heq => by rw [Gone, hlive] at heq; cases heq
  constructor
  · rw [hphase]
    exact h.settled
  · rw [hphase, haborted]
    exact h.waiting
  · intro hfresh
    rw [(h.fresh (hprepared ▸ hfresh)).1] at hentry
    cases hentry
  · intro other hother
    obtain ⟨hlifetime, hbound⟩ := h.lifetime entry hentry
    obtain ⟨hexpiry, hexpires, -⟩ := hkey other hother
    rw [hexpiry, hexpires, htimeout]
    exact ⟨hlifetime, hbound⟩
  · rw [hphase, haborted]
    exact h.unaborted
  · rw [hphase, hdeadline]
    intro hpolls other hother
    rw [(hkey other hother).2.1]
    exact h.deadline hpolls entry hentry
  · intro other hother
    obtain ⟨-, -, hstatus, hanswer, hsome⟩ := hkey other hother
    obtain ⟨text, rfl⟩ := Option.ne_none_iff_exists'.1 hsome
    exact .inr ⟨text, hstatus, hanswer, rfl⟩
  · have hknows := h.knows
    rw [hphase]
    generalize s.phase = phase at hknows ⊢
    cases phase with
    | read state => cases state <;> first | exact hseen _ hknows | exact absurd hknows hgone
    | reread state notification after => cases after <;> first | exact hseen _ hknows | exact absurd hknows hgone
    | blocking state => exact hseen _ hknows
    | rereading state notification => exact hseen _ hknows
    | cleaning result signalOnly last =>
      cases result with
      | answer answer =>
        rw [Knows, hnone] at hknows
        cases hknows
      | cancelled | notFound | timeout => exact fun hwaiting => hlate (hknows hwaiting)
    | idle | cancelling | reading | settled _ => trivial
  · intro text howed
    simp only [Ledger.accept, Bool.and_eq_true] at howed
    split at howed
    case isTrue hboth =>
      subst howed
      have hclock : clock < entry.value.expiresAt := by
        rw [hintime] at hboth
        exact of_decide_eq_true hboth.2
      obtain ⟨other, hother⟩ := Option.ne_none_iff_exists'.1 (hthere (by simp))
      refine ⟨rfl, haborted ▸ (h.waiting hboth.1).1, .inr ⟨hphase ▸ h.polls hboth.1 hlive hnone hclock, other, hother, ?_⟩⟩
      exact (hkey other hother).2.2.1
    case isFalse => cases howed

theorem Fits.terminal (h : Fits l s clock) (at' : Nat) {status : RelayStatus} (hstatus : status ≠ .pending) (text : String) :
    ∃ l', l.enterAll (terminal s clock at' status text).1 = some l' ∧ Fits l' (terminal s clock at' status text).2 clock ∧
      l'.waiting = l.waiting := by
  unfold Redis.terminal
  split
  · exact ⟨l, rfl, h, rfl⟩
  case h_2 entry hlive =>
    split
    · exact ⟨l, rfl, h, rfl⟩
    case isFalse hopen =>
      rw [not_or, not_not] at hopen
      have hentry := (Key.live_eq_some.1 hlive).1
      have hnone : l.accepted = none := by
        rcases h.stored entry hentry with ⟨-, hnone⟩ | ⟨_, hother, -⟩
        · exact hnone
        · rw [hopen.1] at hother
          cases hother
      refine ⟨l.accept (if status = .answered then some text else none) (decide (clock < entry.value.expiresAt)),
        by simp [Ledger.enter, hnone], ?_, rfl⟩
      cases status with
      | pending => exact absurd rfl hstatus
      | answered =>
        refine h.accept hlive hopen.1 (some text) _ rfl rfl rfl rfl rfl ?_ rfl (by simp)
        rintro other heq
        cases heq
        exact ⟨rfl, rfl, rfl, rfl, by simp⟩
      | cancelled =>
        refine h.accept hlive hopen.1 none _ rfl rfl rfl rfl rfl ?_ rfl (by simp)
        rintro other heq
        cases heq

/-! ## What `wait` does -/

/-- `wait` moves on without a word, and knows what its new phase says. -/
theorem Fits.move (h : Fits l s clock) {signal : Key (List RelayStatus)} {phase : WaitPhase}
    (hbusy : s.phase ≠ .idle ∧ s.phase ≠ .cancelling ∧ ∀ result, s.phase ≠ .settled result)
    (hto : phase ≠ .idle ∧ phase ≠ .cancelling ∧ ∀ result, phase ≠ .settled result)
    (hdeadline : phase.polls = true → s.phase.polls = true) (hknows : Knows l s clock phase)
    (howed : ∀ answer, l.owed = some answer → (∃ signalOnly last, phase = .cleaning (.answer answer) signalOnly last) ∨
      phase.polls = true ∧ ∃ entry, s.key = some entry ∧ entry.value.status = .answered) :
    Fits l { s with signal, phase } clock := by
  refine ⟨fun htrue => ?_, fun hwaiting => ⟨(h.waiting hwaiting).1, hto⟩, fun hfresh => absurd (h.fresh hfresh).2.2 hbusy.1,
    h.lifetime, fun heq => absurd heq hto.1, fun hpolls => h.deadline (hdeadline hpolls), h.stored,
    hknows.congr rfl rfl id,
    fun answer heq => ?_⟩
  · obtain ⟨result, heq⟩ := h.settled htrue
    exact absurd heq (hbusy.2.2 result)
  · obtain ⟨haccepted, haborted, -⟩ := h.owed answer heq
    exact ⟨haccepted, haborted, howed answer heq⟩

/-- While `wait` polls, what is owed is in the key. -/
theorem Fits.owed_polling (h : Fits l s clock) (hphase : ∀ result signalOnly last, s.phase ≠ .cleaning result signalOnly last)
    {answer : String} (howed : l.owed = some answer) :
    l.accepted = some (some answer) ∧ s.wasAborted = false ∧ s.phase.polls = true ∧
      ∃ entry, s.key = some entry ∧ entry.value.status = .answered := by
  obtain ⟨haccepted, haborted, ⟨signalOnly, last, heq⟩ | hkey⟩ := h.owed answer howed
  · exact absurd heq (hphase _ _ _)
  · exact ⟨haccepted, haborted, hkey⟩

/-- A read of an ended challenge: `wait` cleans up with its result. -/
theorem Seen.result {state : RelayState} (hseen : Seen l s state) {result : WaitResult}
    (hended : ended state = some result) : ∃ answer, result = .answer answer ∧ l.accepted = some (some answer) := by
  unfold ended at hended
  rcases hseen.status with hstatus | ⟨answer, hstatus, hanswer, haccepted⟩
  · rw [hstatus] at hended
    cases hended
  · rw [hstatus] at hended
    simp only [hanswer, Option.getD_some] at hended
    exact ⟨answer, (Option.some.inj hended).symm, haccepted⟩

theorem terminal_rest (at' : Nat) (status : RelayStatus) (text : String) :
    (terminal s clock at' status text).2.phase = s.phase ∧ (terminal s clock at' status text).2.prepared = s.prepared := by
  unfold Redis.terminal
  split
  · exact ⟨rfl, rfl⟩
  · split <;> exact ⟨rfl, rfl⟩

/-- The reply to GET: the state of the key, as long as what is owed is read in time. -/
theorem Fits.getReply (h : Fits l s clock) (hpolls : s.phase.polls = true)
    (hbusy : s.phase ≠ .idle ∧ s.phase ≠ .cancelling ∧ ∀ result, s.phase ≠ .settled result)
    (hcleaning : ∀ result signalOnly last, s.phase ≠ .cleaning result signalOnly last) {next : Option RelayState → WaitPhase}
    (hnext : (∀ state, next state = .read state) ∨ ∃ before notification, ∀ state, next state = .reread before notification state)
    (halive : ∀ entry, s.wasAborted = false → s.key = some entry → entry.value.status = .answered → entry.alive clock = true) :
    Fits l { s with phase := next (s.key.get clock) } clock := by
  have hto : ∀ state, next state ≠ .idle ∧ next state ≠ .cancelling ∧ ∀ result, next state ≠ .settled result := by
    intro state
    rcases hnext with hread | ⟨before, notification, hread⟩ <;> simp [hread]
  rcases h.get with ⟨hget, hgone⟩ | ⟨entry, hentry, hget, hseen⟩
  · refine h.move hbusy (hto _) (fun _ => hpolls) ?_ fun answer howed => ?_
    · rcases hnext with hread | ⟨before, notification, hread⟩ <;> rw [hread, hget] <;> exact hgone
    · obtain ⟨-, haborted, -, entry, hentry, hstatus⟩ := h.owed_polling hcleaning howed
      have hlive := Key.live_eq_some.2 ⟨hentry, halive entry haborted hentry hstatus⟩
      rw [Gone, hlive] at hgone
      cases hgone
  · refine h.move hbusy (hto _) (fun _ => hpolls) ?_ fun answer howed => ?_
    · rcases hnext with hread | ⟨before, notification, hread⟩ <;> rw [hread, hget] <;> exact hseen
    · obtain ⟨-, -, -, hkey⟩ := h.owed_polling hcleaning howed
      refine .inr ⟨?_, hkey⟩
      rcases hnext with hread | ⟨before, notification, hread⟩ <;> rw [hread, hget] <;> rfl

theorem Fits.command (h : Fits l s clock) (hreads : ReadsInTime s ⟨clock, .command⟩) :
    ∃ l', l.enterAll (command s clock).1 = some l' ∧ Fits l' (command s clock).2 clock := by
  unfold Redis.command
  cases hphase : s.phase with
  | idle | read _ | reread _ _ _ | settled _ => exact ⟨l, rfl, h⟩
  | cancelling =>
    have hstatus : RelayStatus.cancelled ≠ .pending := by simp
    obtain ⟨l', htaken, hfits, hwaiting⟩ := h.terminal clock hstatus ""
    obtain ⟨hsame, hprepared⟩ : (Redis.terminal s clock clock .cancelled "").2.phase = s.phase ∧
        (Redis.terminal s clock clock .cancelled "").2.prepared = s.prepared := terminal_rest clock .cancelled ""
    rw [hphase] at hsame
    have hidle : l'.waiting = false := by
      rw [hwaiting, Bool.eq_false_iff]
      exact fun htrue => absurd hphase (h.waiting htrue).2.2.1
    refine ⟨l', htaken, fun htrue => ?_, fun heq => (by rw [hidle] at heq; cases heq), fun hfresh => ?_, hfits.lifetime,
      fun heq => (by cases heq), fun heq => (by cases heq), hfits.stored, fun heq => (by rw [hidle] at heq; cases heq),
      fun answer howed => ?_⟩
    · obtain ⟨result, heq⟩ := hfits.settled htrue
      rw [hsame] at heq
      cases heq
    · have heq := (hfits.fresh hfresh).2.2
      rw [hsame] at heq
      cases heq
    · obtain ⟨-, -, ⟨_, _, heq⟩ | ⟨heq, -⟩⟩ := hfits.owed answer howed
      · rw [hsame] at heq
        cases heq
      · rw [hsame] at heq
        cases heq
  | reading =>
    exact ⟨l, rfl, h.getReply (by rw [hphase]; rfl) (by simp [hphase]) (by simp [hphase]) (.inl fun _ => rfl)
      fun entry haborted => hreads.reads rfl haborted (.inl hphase) entry⟩
  | blocking state =>
    have hknows := h.knows
    rw [hphase] at hknows
    refine ⟨l, rfl, h.move (by simp [hphase]) (by simp) (fun _ => by rw [hphase]; rfl) hknows fun answer howed => ?_⟩
    exact .inr ⟨rfl, (h.owed_polling (by simp [hphase]) howed).2.2.2⟩
  | rereading state notification =>
    exact ⟨l, rfl, h.getReply (by rw [hphase]; rfl) (by simp [hphase]) (by simp [hphase]) (.inr ⟨state, notification, fun _ => rfl⟩)
      fun entry haborted => hreads.reads rfl haborted (.inr ⟨state, notification, hphase⟩) entry⟩
  | cleaning result signalOnly last =>
    have hprepared : s.prepared = true := by
      rw [← Bool.not_eq_false]
      intro hfresh
      rw [(h.fresh hfresh).2.2] at hphase
      cases hphase
    have hknows := h.knows
    rw [hphase] at hknows
    have hopen := h.open_of_unsettled fun result heq => by rw [hphase] at heq; cases heq
    have howed : ∀ answer, l.owed = some answer → result = .answer answer := by
      intro answer heq
      obtain ⟨-, -, ⟨_, _, hcleaning⟩ | ⟨hpolls, -⟩⟩ := h.owed answer heq
      · rw [hphase] at hcleaning
        cases hcleaning
        rfl
      · rw [hphase] at hpolls
        cases hpolls
    cases signalOnly with
    | false =>
      refine ⟨l, rfl, fun heq => (by rw [hopen] at heq; cases heq), fun hwaiting => ⟨(h.waiting hwaiting).1, by simp⟩,
        fun hfresh => (by rw [hprepared] at hfresh; cases hfresh), fun entry heq => (by cases heq), fun heq => (by cases heq),
        fun heq => (by cases heq), fun entry heq => (by cases heq), ?_, fun answer heq => ?_⟩
      · cases result with
        | answer answer => exact hknows
        | cancelled | notFound | timeout => exact fun _ entry heq => by cases heq
      · obtain ⟨haccepted, haborted, -⟩ := h.owed answer heq
        exact ⟨haccepted, haborted, .inl ⟨true, last, by rw [howed answer heq]⟩⟩
    | true =>
      have hfits : Fits l { s with signal := none } clock :=
        ⟨h.settled, h.waiting, h.fresh, h.lifetime, h.unaborted, h.deadline, h.stored,
          h.knows.congr rfl rfl id, h.owed⟩
      refine hfits.finallyClause (fun other heq => ?_) hprepared ?_ last
      · rw [show s.phase = .settled other from heq] at hphase
        cases hphase
      · cases result with
        | answer answer => exact .inl ⟨answer, rfl, hknows⟩
        | cancelled | notFound | timeout =>
          refine .inr ⟨?_, by simp⟩
          cases hcase : l.owed with
          | none => rfl
          | some answer => cases howed answer hcase

theorem Fits.prepared (h : Fits l s clock) (hphase : s.phase ≠ .idle) : s.prepared = true := by
  rw [← Bool.not_eq_false]
  exact fun hfresh => hphase (h.fresh hfresh).2.2

/-- `wait` gives up after a read of a challenge that nobody ended. -/
theorem Fits.timeout (h : Fits l s clock) (hphase : ∀ result signalOnly last, s.phase ≠ .cleaning result signalOnly last)
    (hbusy : s.phase ≠ .idle ∧ s.phase ≠ .cancelling ∧ ∀ result, s.phase ≠ .settled result) (hlate : Late s clock)
    (hanswered : s.wasAborted = false → ∀ entry, s.key = some entry → entry.value.status ≠ .answered) :
    Fits l { s with phase := .cleaning .timeout false false } clock := by
  refine h.move hbusy (by simp) (fun heq => by cases heq) (fun _ => hlate) fun answer howed => ?_
  obtain ⟨-, haborted, -, entry, hentry, hstatus⟩ := h.owed_polling hphase howed
  exact absurd hstatus (hanswered haborted entry hentry)

theorem Fits.ended (h : Fits l s clock) (hphase : ∀ result signalOnly last, s.phase ≠ .cleaning result signalOnly last)
    (hbusy : s.phase ≠ .idle ∧ s.phase ≠ .cancelling ∧ ∀ result, s.phase ≠ .settled result) {state : RelayState}
    (hseen : Seen l s state) {result : WaitResult} (hended : Redis.ended state = some result) :
    Fits l { s with phase := .cleaning result false false } clock := by
  obtain ⟨answer, rfl, haccepted⟩ := hseen.result hended
  refine h.move hbusy (by simp) (fun heq => by cases heq) haccepted fun other howed => ?_
  have hother := (h.owed_polling hphase howed).1
  rw [haccepted] at hother
  cases hother
  exact .inl ⟨false, false, rfl⟩

/-- `wait` throws: nothing is owed, as it does not poll. -/
theorem Fits.throw (h : Fits l s clock) (hphase : ∀ result signalOnly last, s.phase ≠ .cleaning result signalOnly last)
    (hbusy : s.phase ≠ .idle ∧ s.phase ≠ .cancelling ∧ ∀ result, s.phase ≠ .settled result)
    (hquiet : s.phase.polls = false ∨ s.wasAborted = true) {result : WaitResult} (hresult : ∀ answer, result ≠ .answer answer) :
    ∃ l', l.enterAll (Redis.finallyClause s result false).1 = some l' ∧ Fits l' (Redis.finallyClause s result false).2 clock := by
  refine h.finallyClause hbusy.2.2 (h.prepared hbusy.1) (.inr ⟨?_, hresult⟩) false
  cases hcase : l.owed with
  | none => rfl
  | some answer =>
    obtain ⟨-, haborted, hpolls, -⟩ := h.owed_polling hphase hcase
    rcases hquiet with hquiet | hquiet
    · rw [hpolls] at hquiet
      cases hquiet
    · rw [haborted] at hquiet
      cases hquiet

theorem ended_eq_none {state : RelayState} (h : ended state = none) : state.status = .pending := by
  unfold ended at h
  cases hstatus : state.status with
  | pending => rfl
  | answered | cancelled =>
    rw [hstatus] at h
    cases h

theorem Fits.proceed (h : Fits l s clock) (hreads : ReadsInTime s ⟨clock, .proceed⟩) :
    ∃ l', l.enterAll (proceed s clock).1 = some l' ∧ Fits l' (proceed s clock).2 clock := by
  have hknows := h.knows
  unfold Redis.proceed
  cases hphase : s.phase with
  | idle | cancelling | reading | blocking _ | rereading _ _ | cleaning _ _ _ | settled _ => exact ⟨l, rfl, h⟩
  | read state =>
    rw [hphase] at hknows
    have hcleaning : ∀ result signalOnly last, s.phase ≠ .cleaning result signalOnly last := by simp [hphase]
    have hbusy : s.phase ≠ .idle ∧ s.phase ≠ .cancelling ∧ ∀ result, s.phase ≠ .settled result := by simp [hphase]
    cases state with
    | none => exact h.throw hcleaning hbusy (.inl (by rw [hphase]; rfl)) (by simp)
    | some state =>
      cases hended : Redis.ended state with
      | some result =>
        simp only [hended]
        exact ⟨l, rfl, h.ended hcleaning hbusy hknows hended⟩
      | none =>
        have hpending := ended_eq_none hended
        simp only [hended]
        split
        case isTrue hexpired =>
          refine ⟨l, rfl, h.timeout hcleaning hbusy (fun entry hentry => hknows.expiresAt entry hentry ▸ hexpired) ?_⟩
          intro haborted entry hentry hstatus
          exact absurd (hreads.proceeds rfl haborted state (.inl hphase) hpending entry hentry hstatus) (Nat.not_lt.2 hexpired)
        case isFalse =>
          split
          case isTrue haborted => exact h.throw hcleaning hbusy (.inr haborted) (by simp)
          case isFalse =>
            refine ⟨l, rfl, h.move hbusy (by simp) (fun _ => by rw [hphase]; rfl) hknows fun answer howed => ?_⟩
            exact .inr ⟨rfl, (h.owed_polling hcleaning howed).2.2.2⟩
  | reread before notification after =>
    rw [hphase] at hknows
    have hcleaning : ∀ result signalOnly last, s.phase ≠ .cleaning result signalOnly last := by simp [hphase]
    have hbusy : s.phase ≠ .idle ∧ s.phase ≠ .cancelling ∧ ∀ result, s.phase ≠ .settled result := by simp [hphase]
    cases after with
    | none =>
      have hthrow : ∀ {result : WaitResult}, (∀ answer, result ≠ .answer answer) →
          ∃ l', l.enterAll (Redis.finallyClause s result false).1 = some l' ∧ Fits l' (Redis.finallyClause s result false).2 clock :=
        fun hresult => h.throw hcleaning hbusy (.inl (by rw [hphase]; rfl)) hresult
      simp only
      split
      · exact hthrow (by simp)
      · split
        · exact hthrow (by simp)
        · exact hthrow (by simp)
    | some after =>
      cases hended : Redis.ended after with
      | some result =>
        simp only [hended]
        exact ⟨l, rfl, h.ended hcleaning hbusy hknows hended⟩
      | none =>
        have hpending := ended_eq_none hended
        have hbound := h.deadline (by rw [hphase]; rfl)
        simp only [hended]
        split
        case isTrue hexpired =>
          have hlate : Late s clock := by
            intro entry hentry
            rcases hexpired with hexpired | hexpired
            · exact Nat.le_trans (hbound entry hentry) hexpired
            · exact hknows.expiresAt entry hentry ▸ hexpired
          refine ⟨l, rfl, h.timeout hcleaning hbusy hlate fun haborted entry hentry hstatus => ?_⟩
          have hintime := hreads.proceeds rfl haborted after (.inr ⟨before, notification, hphase⟩) hpending entry hentry hstatus
          exact absurd (hlate entry hentry) (Nat.not_le.2 (hknows.expiresAt entry hentry ▸ hintime))
        case isFalse =>
          refine ⟨l, rfl, h.move hbusy (by simp) (fun _ => by rw [hphase]; rfl) trivial fun answer howed => ?_⟩
          exact .inr ⟨rfl, (h.owed_polling hcleaning howed).2.2.2⟩

/-- The caller aborts: nothing is owed to it any more. -/
theorem Fits.aborted (h : Fits l s clock) (hbusy : s.phase ≠ .idle) :
    Fits { l with waiting := false, owed := none } { s with wasAborted := true } clock :=
  ⟨h.settled, fun heq => (by cases heq), h.fresh, h.lifetime, fun heq => absurd heq hbusy, h.deadline, h.stored,
    h.knows.congr rfl rfl fun heq => (by cases heq), fun answer heq => by cases heq⟩

theorem Fits.abort (h : Fits l s clock) : ∃ l', l.enterAll (abort s).1 = some l' ∧ Fits l' (abort s).2 clock := by
  unfold Redis.abort
  cases hphase : s.phase with
  | idle | cancelling | settled _ => exact ⟨l, rfl, h⟩
  | blocking state =>
    have hfits := h.aborted (by simp [hphase])
    have hprepared := h.prepared (by simp [hphase])
    have hresult : (∃ answer, WaitResult.cancelled = .answer answer ∧ l.accepted = some (some answer)) ∨
        (none : Option String) = none ∧ ∀ answer, WaitResult.cancelled ≠ .answer answer := .inr ⟨rfl, by simp⟩
    obtain ⟨l', htaken, hleft⟩ := hfits.finallyClause (fun other heq => by cases hphase.symm.trans heq) hprepared hresult false
    exact ⟨l', htaken, hleft⟩
  | reading | read _ | rereading _ _ | reread _ _ _ | cleaning _ _ _ =>
    have haborted := h.aborted (by simp [hphase])
    rw [hphase] at haborted
    exact ⟨_, rfl, haborted⟩

theorem Fits.step (h : Fits l s clock) {turn : Turn} (hle : clock ≤ turn.now) (hreads : ReadsInTime s turn) :
    ∃ l', l.enterAll (step s turn).1 = some l' ∧ Fits l' (step s turn).2 turn.now := by
  obtain ⟨now, action⟩ := turn
  have hnow := h.later hle
  cases action with
  | prepare delay => exact ⟨l, rfl, hnow.prepare delay⟩
  | wait aborted => exact hnow.wait aborted
  | command => exact hnow.command hreads
  | proceed => exact hnow.proceed hreads
  | answer delay text =>
    have hstatus : RelayStatus.answered ≠ .pending := by simp
    obtain ⟨l', htaken, hfits, -⟩ := hnow.terminal (now - delay) hstatus text
    exact ⟨l', htaken, hfits⟩
  | cancel delay =>
    have hstatus : RelayStatus.cancelled ≠ .pending := by simp
    obtain ⟨l', htaken, hfits, -⟩ := hnow.terminal (now - delay) hstatus ""
    exact ⟨l', htaken, hfits⟩
  | abort => exact hnow.abort

/-! ## The way of an answer to its waiter -/

/-- The commands of `wait` alone, all at `now`, bring the answer. -/
def Brings (s : Relay) (now : Nat) (answer : String) : Prop :=
  ∃ actions : List Action, (∀ action ∈ actions, action = .command ∨ action = .proceed) ∧
    .settled (.answer answer) ∈ eventsOf (execute Redis.step s (actions.map fun action => { now, action }))

variable {now : Nat} {answer : String}

theorem Brings.cons {action : Action} (haction : action = .command ∨ action = .proceed)
    (h : Brings (Redis.step s { now, action }).2 now answer) : Brings s now answer := by
  obtain ⟨actions, honly, hin⟩ := h
  refine ⟨action :: actions, ?_, ?_⟩
  · simpa [haction] using honly
  · simp only [eventsOf, List.map_cons, execute, List.flatMap_cons, List.mem_append]
    exact .inr hin

theorem brings_cleaning (haborted : s.wasAborted = false) (signalOnly last : Bool)
    (hphase : s.phase = .cleaning (.answer answer) signalOnly last) : Brings s now answer := by
  have hlast : ∀ t : Relay, t.wasAborted = false → t.phase = .cleaning (.answer answer) true last → Brings t now answer := by
    intro t hunaborted hcleaning
    refine ⟨[.command], by simp, ?_⟩
    simp [eventsOf, execute, stepOf, Redis.step, Redis.command, hcleaning, Redis.finallyClause, hunaborted]
  cases signalOnly with
  | true => exact hlast s haborted hphase
  | false =>
    refine .cons (.inl rfl) (hlast _ ?_ ?_)
    · simpa [Redis.step, Redis.command, hphase] using haborted
    · simp [Redis.step, Redis.command, hphase]

section

variable {stored : RelayState} (haborted : s.wasAborted = false) (hget : s.key.get now = some stored)
  (hended : Redis.ended stored = some (.answer answer))

include haborted hended in
theorem brings_reread (before : RelayState) (notification : Option RelayStatus)
    (hphase : s.phase = .reread before notification (some stored)) : Brings s now answer := by
  refine .cons (.inr rfl) (brings_cleaning ?_ false false ?_)
  · simpa [Redis.step, Redis.proceed, hphase, hended] using haborted
  · simp [Redis.step, Redis.proceed, hphase, hended]

include haborted hget hended

theorem brings_rereading (before : RelayState) (notification : Option RelayStatus)
    (hphase : s.phase = .rereading before notification) : Brings s now answer := by
  refine .cons (.inl rfl) (brings_reread ?_ hended before notification ?_)
  · simpa [Redis.step, Redis.command, hphase] using haborted
  · simp [Redis.step, Redis.command, hphase, hget]

theorem brings_blocking (before : RelayState) (hphase : s.phase = .blocking before) : Brings s now answer := by
  refine .cons (.inl rfl) (brings_rereading ?_ ?_ hended before (Redis.blPop s now).1 ?_)
  · simpa [Redis.step, Redis.command, hphase] using haborted
  · simpa [Redis.step, Redis.command, hphase] using hget
  · simp [Redis.step, Redis.command, hphase]

/-- A read that still says pending: the next one does not. -/
theorem brings_read (state : RelayState) (hphase : s.phase = .read (some state)) (hintime : now < state.expiresAt)
    (hstate : Redis.ended state = none ∨ Redis.ended state = some (.answer answer)) : Brings s now answer := by
  have hopen : ¬ state.expiresAt ≤ now := Nat.not_le.2 hintime
  rcases hstate with hnone | hsome
  · refine .cons (.inr rfl) (brings_blocking ?_ ?_ hended state ?_)
    · simp [Redis.step, Redis.proceed, hphase, hnone, hopen, haborted]
    · simpa [Redis.step, Redis.proceed, hphase, hnone, hopen, haborted] using hget
    · simp [Redis.step, Redis.proceed, hphase, hnone, hopen, haborted]
  · refine .cons (.inr rfl) (brings_cleaning ?_ false false ?_)
    · simpa [Redis.step, Redis.proceed, hphase, hsome] using haborted
    · simp [Redis.step, Redis.proceed, hphase, hsome]

theorem brings_reading (hphase : s.phase = .reading) (hintime : now < stored.expiresAt) : Brings s now answer := by
  refine .cons (.inl rfl) (brings_read ?_ ?_ hended stored ?_ hintime (.inr hended))
  · simpa [Redis.step, Redis.command, hphase] using haborted
  · simpa [Redis.step, Redis.command, hphase] using hget
  · simp [Redis.step, Redis.command, hphase, hget]

end

/-- The challenge has not timed out. -/
def inTime (s : Relay) (now : Nat) : Prop := ∀ entry, s.key = some entry → now < entry.value.expiresAt

def Returns (s : Relay) (clock : Nat) (answer : String) : Prop := ∀ now, clock ≤ now → inTime s now → Brings s now answer

theorem Seen.ended {state : RelayState} (hseen : Seen l s state) (haccepted : l.accepted = some (some answer)) :
    Redis.ended state = none ∨ Redis.ended state = some (.answer answer) := by
  rcases hseen.status with hstatus | ⟨other, hstatus, hother, hmine⟩
  · left
    simp [Redis.ended, hstatus]
  · right
    obtain rfl : other = answer := by
      rw [haccepted] at hmine
      cases hmine
      rfl
    simp [Redis.ended, hstatus, hother]

theorem Fits.returns (h : Fits l s clock) (howed : l.owed = some answer) : Returns s clock answer := by
  intro now hle hintime
  obtain ⟨haccepted, haborted, ⟨signalOnly, last, hphase⟩ | ⟨hpolls, entry, hentry, hstatus⟩⟩ := h.owed answer howed
  · exact brings_cleaning haborted signalOnly last hphase
  · have hnow := hintime entry hentry
    obtain ⟨⟨t, hexpiry, hbound⟩, -⟩ := h.lifetime entry hentry
    have halive : entry.alive now = true := by
      simp only [Entry.alive, hexpiry]
      simpa using Nat.lt_of_lt_of_le hnow hbound
    have hget : s.key.get now = some entry.value := Key.get_of_live (Key.live_eq_some.2 ⟨hentry, halive⟩)
    have hended : Redis.ended entry.value = some (.answer answer) := by
      rcases h.stored entry hentry with ⟨hpending, -⟩ | ⟨other, -, hother, hmine⟩
      · rw [hstatus] at hpending
        cases hpending
      · rw [haccepted] at hmine
        cases hmine
        simp [Redis.ended, hstatus, hother]
    have hknows := h.knows
    cases hphase : s.phase with
    | idle | cancelling | cleaning _ _ _ | settled _ => simp [hphase, WaitPhase.polls] at hpolls
    | reading => exact brings_reading haborted hget hended hphase hnow
    | blocking state => exact brings_blocking haborted hget hended state hphase
    | rereading state notification => exact brings_rereading haborted hget hended state notification hphase
    | read state =>
      cases state with
      | none => simp [hphase, WaitPhase.polls] at hpolls
      | some state =>
        rw [hphase] at hknows
        exact brings_read haborted hget hended state hphase (hknows.expiresAt entry hentry ▸ hnow) (hknows.ended haccepted)
    | reread before notification after =>
      cases after with
      | none => simp [hphase, WaitPhase.polls] at hpolls
      | some after =>
        rw [hphase] at hknows
        rcases hknows.ended haccepted with hnone | hsome
        · -- the key was read before the answer: another round finds it
          have hafter : ¬ after.expiresAt ≤ now := Nat.not_le.2 (hknows.expiresAt entry hentry ▸ hnow)
          have hdeadline : ¬ s.deadline ≤ now := Nat.not_le.2 (Nat.lt_of_lt_of_le hnow (h.deadline hpolls entry hentry))
          refine .cons (.inr rfl) (brings_reading ?_ ?_ hended ?_ hnow)
          · simpa [Redis.step, Redis.proceed, hphase, hnone, hafter, hdeadline] using haborted
          · simpa [Redis.step, Redis.proceed, hphase, hnone, hafter, hdeadline] using hget
          · simp [Redis.step, Redis.proceed, hphase, hnone, hafter, hdeadline]
        · exact brings_reread haborted hsome before notification hphase

theorem delivers {timeoutMs : Nat} {trace : List (Step Relay Turn (List RelayEvent))} (h : RelayRun timeoutMs trace s clock)
    (hreads : ∀ e ∈ trace, ReadsInTime e.before e.call) : Delivers (eventsOf trace) (Returns s clock) := by
  have hstep : ∀ l s clock (turn : Turn), Fits l s clock → clock ≤ turn.now → ReadsInTime s turn →
      ∃ l', l.enterAll (step s turn).1 = some l' ∧ Fits l' (step s turn).2 turn.now :=
    fun _ _ _ _ hfits hle hturn => hfits.step hle hturn
  obtain ⟨l, htaken, hfits⟩ := ledger_of_run Fits (fits_start timeoutMs) hstep h hreads
  exact .of_ledger htaken fun answer howed => hfits.returns howed

end Hyeboard.Captcha.Redis
