import Hyeboard.Lib.Runs
/-!
# Enqueueing a job

`enqueue` (`node/automation/backend.ts`), command by command, by any number of calls with
one idempotency key: the record of the job is stored first, then the key of the job, and
the message last. Jobs are numbered in the order in which their identifiers are drawn.
-/

namespace Hyeboard.Enqueue

section
variable {Token : Type}

/-- The record of a job: its identifier, and the capability for it. -/
structure JobRecord (Token : Type) where
  jobId : Nat
  ownershipToken : Token
deriving DecidableEq

/-- The next command of a call, or how it settled. -/
inductive EnqueuePhase (Token : Type) where
  | lookingUp
  | reading (record : JobRecord Token)
  | storing (record : JobRecord Token)
  | storingJob (record : JobRecord Token)
  | appending (record : JobRecord Token)
  | deleting (record : JobRecord Token)
  | returned (record : JobRecord Token)
  | threw
deriving DecidableEq

/-- How a command ends: done, done when the envelope of the job has expired, failed, or done without its answer getting back. -/
inductive CommandOutcome where
  | done
  | late
  | failed
  | lost
deriving DecidableEq

/-- Whether the client sees the command fail. -/
def CommandOutcome.fails : CommandOutcome → Bool
  | .done | .late => false
  | .failed | .lost => true

structure Enqueues (Token : Type) where
  idempotency : Option (JobRecord Token)
  /-- The jobs whose `job` key is there. -/
  jobs : List Nat
  jobStream : List Nat
  /-- How many jobs were drawn. -/
  drawn : Nat
  calls : List (EnqueuePhase Token)
  /-- Some command failed. -/
  disturbed : Bool

inductive EnqueueTurn where
  | enqueue
  | command (call : Nat) (outcome : CommandOutcome)

def Enqueues.start : Enqueues Token := ⟨none, [], [], 0, [], false⟩

/-- The command of a call in `phase`: what the call does next, and the keys. -/
def Enqueues.advance (capability : Nat → Token) (s : Enqueues Token) : EnqueuePhase Token → CommandOutcome →
    EnqueuePhase Token × Enqueues Token
  | .lookingUp, outcome =>
    if outcome.fails then (.threw, s)
    else
      match s.idempotency with
      | some record => (.reading record, s)
      | none => (.storing ⟨s.drawn, capability s.drawn⟩, { s with drawn := s.drawn + 1 })
  | .reading record, outcome => (if outcome = .done ∧ record.jobId ∈ s.jobs then .returned record else .threw, s)
  | .storing record, outcome =>
    match s.idempotency with
    | some _ => (if outcome.fails then .threw else .lookingUp, s)
    | none =>
      (if outcome.fails then .threw else .storingJob record, if outcome = .failed then s else { s with idempotency := some record })
  | .storingJob record, outcome =>
    (if outcome.fails then .deleting record else .appending record,
      if outcome = .failed then s else { s with jobs := record.jobId :: s.jobs })
  | .appending record, outcome =>
    (if outcome.fails then .deleting record else .returned record,
      if outcome = .failed then s else { s with jobStream := s.jobStream ++ [record.jobId] })
  | .deleting _, outcome => (.threw, if outcome = .failed then s else { s with idempotency := none })
  | .returned record, _ => (.returned record, s)
  | .threw, _ => (.threw, s)

def Enqueues.command (capability : Nat → Token) (s : Enqueues Token) (call : Nat) (outcome : CommandOutcome) : Enqueues Token :=
  match s.calls[call]? with
  | some phase =>
    let (next, t) := s.advance capability phase outcome
    { t with calls := s.calls.set call next, disturbed := s.disturbed || outcome.fails }
  | none => s

def Enqueues.step (capability : Nat → Token) (s : Enqueues Token) : EnqueueTurn → Unit × Enqueues Token
  | .enqueue => ((), { s with calls := s.calls ++ [.lookingUp] })
  | .command call outcome => ((), s.command capability call outcome)

/-! ## Idempotency -/

def EnqueuePhase.settled : EnqueuePhase Token → Bool
  | .returned _ | .threw => true
  | _ => false

/-- A job that was looked up is read when its key is there, its envelope has not expired and its message is appended or just being
appended; and the message is not lost once the job was returned. -/
def LooksUpAppended (s : Enqueues Token) : EnqueueTurn → Prop
  | .enqueue => True
  | .command call outcome => ∀ record,
    (s.calls[call]? = some (.reading record) →
      (s.disturbed = false → outcome.fails = false → record.jobId ∈ s.jobs ∧ outcome = .done) ∧
      (record.jobId ∈ s.jobs → outcome = .done → record.jobId ∈ s.jobStream ∨ .appending record ∈ s.calls)) ∧
    (s.calls[call]? = some (.appending record) → outcome = .failed → .returned record ∉ s.calls)

/-! ## One command -/

/-- The job that the call has drawn and not yet appended. -/
def EnqueuePhase.holds : EnqueuePhase Token → Option Nat
  | .storing record | .storingJob record | .appending record => some record.jobId
  | _ => none

/-- A call that has stored its record and not yet appended its job. -/
def EnqueuePhase.creates (record : JobRecord Token) (phase : EnqueuePhase Token) : Prop :=
  phase = .storingJob record ∨ phase = .appending record

/-- A call that has not seen a record yet. -/
def EnqueuePhase.unaware : EnqueuePhase Token → Bool
  | .lookingUp | .storing _ => true
  | _ => false

/-- What holds as long as nothing has failed. -/
structure Undisturbed (s : Enqueues Token) : Prop where
  fresh : s.idempotency = none → s.jobStream = [] ∧ ∀ (i : Nat) (phase : EnqueuePhase Token), s.calls[i]? = some phase → phase.unaware = true
  stored : ∀ record, s.idempotency = some record →
    (∀ (i : Nat) (phase : EnqueuePhase Token), s.calls[i]? = some phase →
      phase.unaware = true ∨ phase = .reading record ∨ phase.creates record ∨ phase = .returned record) ∧
    ((s.jobStream = [] ∧ ∃ creator : Nat, (∃ phase, s.calls[creator]? = some phase ∧ phase.creates record) ∧
        ∀ (i : Nat) (phase : EnqueuePhase Token), s.calls[i]? = some phase → phase.creates record → i = creator) ∨
      (s.jobStream = [record.jobId] ∧ ∀ (i : Nat) (phase : EnqueuePhase Token), s.calls[i]? = some phase → ¬ phase.creates record))

/-- What holds whatever has failed. -/
structure Drawn (s : Enqueues Token) : Prop where
  holds : ∀ (i : Nat) (phase : EnqueuePhase Token) (n : Nat), s.calls[i]? = some phase → phase.holds = some n → n < s.drawn ∧ n ∉ s.jobStream
  distinct : ∀ (i j : Nat) (phase other : EnqueuePhase Token) (n : Nat), s.calls[i]? = some phase → phase.holds = some n →
    s.calls[j]? = some other → other.holds = some n → i = j
  below : ∀ n ∈ s.jobStream, n < s.drawn
  once : s.jobStream.Nodup
  appended : ∀ (i : Nat) (record : JobRecord Token), s.calls[i]? = some (.returned record) →
    record.jobId ∈ s.jobStream ∨ ∃ j : Nat, s.calls[j]? = some (.appending record)

variable {capability : Nat → Token} {s : Enqueues Token} {call : Nat} {outcome : CommandOutcome} {phase : EnqueuePhase Token}

/-- A call behind its command, and the others. -/
theorem get_set {calls : List (EnqueuePhase Token)} {i j : Nat} {next entry : EnqueuePhase Token} (h : (calls.set i next)[j]? = some entry) :
    (j = i ∧ entry = next) ∨ (j ≠ i ∧ calls[j]? = some entry) := by
  by_cases heq : j = i
  · subst heq
    rw [List.getElem?_set_self'] at h
    obtain ⟨_, -, rfl⟩ := Option.map_eq_some_iff.1 h
    exact .inl ⟨rfl, rfl⟩
  · rw [List.getElem?_set_ne (Ne.symm heq)] at h
    exact .inr ⟨heq, h⟩

theorem set_get {calls : List (EnqueuePhase Token)} {i j : Nat} {next entry : EnqueuePhase Token} (hne : j ≠ i) (h : calls[j]? = some entry) :
    (calls.set i next)[j]? = some entry := by
  rw [List.getElem?_set_ne (Ne.symm hne)]
  exact h

theorem get_append {calls : List (EnqueuePhase Token)} {j : Nat} {next entry : EnqueuePhase Token}
    (h : (calls ++ [next])[j]? = some entry) : (j = calls.length ∧ entry = next) ∨ calls[j]? = some entry := by
  rw [List.getElem?_append] at h
  split at h
  · exact .inr h
  · rw [List.getElem?_singleton] at h
    split at h
    · cases h
      exact .inl ⟨by omega, rfl⟩
    · cases h

theorem Drawn.enqueue (h : Drawn s) : Drawn { s with calls := s.calls ++ [.lookingUp] } where
  holds := by
    intro i phase n hget hholds
    rcases get_append hget with ⟨-, rfl⟩ | hget
    · cases hholds
    · exact h.holds i phase n hget hholds
  distinct := by
    intro i j phase other n hget hholds hother hholds'
    rcases get_append hget with ⟨-, rfl⟩ | hget
    · cases hholds
    · rcases get_append hother with ⟨-, rfl⟩ | hother
      · cases hholds'
      · exact h.distinct i j phase other n hget hholds hother hholds'
  below := h.below
  once := h.once
  appended := by
    intro i record hget
    rcases get_append hget with ⟨-, heq⟩ | hget
    · cases heq
    · rcases h.appended i record hget with hmem | ⟨j, hj⟩
      · exact .inl hmem
      · exact .inr ⟨j, List.getElem?_append_left (List.getElem?_eq_some_iff.1 hj).1 ▸ hj⟩

theorem Undisturbed.enqueue (h : Undisturbed s) : Undisturbed { s with calls := s.calls ++ [.lookingUp] } where
  fresh := by
    intro hnone
    obtain ⟨hstream, hall⟩ := h.fresh hnone
    refine ⟨hstream, fun i phase hget => ?_⟩
    rcases get_append hget with ⟨-, rfl⟩ | hget
    · rfl
    · exact hall i phase hget
  stored := by
    intro record hsome
    obtain ⟨hall, hcreator⟩ := h.stored record hsome
    refine ⟨fun i phase hget => ?_, ?_⟩
    · rcases get_append hget with ⟨-, rfl⟩ | hget
      · exact .inl rfl
      · exact hall i phase hget
    · rcases hcreator with ⟨hstream, creator, ⟨phase, hphase, hcreates⟩, hunique⟩ | ⟨hstream, hnone⟩
      · refine .inl ⟨hstream, creator, ⟨phase, ?_, hcreates⟩, fun i other hget hother => ?_⟩
        · exact List.getElem?_append_left (List.getElem?_eq_some_iff.1 hphase).1 ▸ hphase
        · rcases get_append hget with ⟨-, rfl⟩ | hget
          · rcases hother with hother | hother
            · cases hother
            · cases hother
          · exact hunique i other hget hother
      · refine .inr ⟨hstream, fun i other hget hother => ?_⟩
        rcases get_append hget with ⟨-, rfl⟩ | hget
        · rcases hother with hother | hother
          · cases hother
          · cases hother
        · exact hnone i other hget hother

/-- A call goes on: it keeps its job, draws one, or appends the one it has. -/
theorem Drawn.move (h : Drawn s) (hget : s.calls[call]? = some phase) {next : EnqueuePhase Token} {t : Enqueues Token}
    (hcalls : t.calls = s.calls.set call next) (hdrawn : s.drawn ≤ t.drawn)
    (hholds : ∀ n, next.holds = some n → t.jobStream = s.jobStream ∧ (phase.holds = some n ∨ (n = s.drawn ∧ t.drawn = s.drawn + 1)))
    (hstream : t.jobStream = s.jobStream ∨ ∃ n, phase.holds = some n ∧ next.holds = none ∧ t.jobStream = s.jobStream ++ [n])
    (hreturned : ∀ record, next = .returned record →
      record.jobId ∈ t.jobStream ∨ ∃ j : Nat, j ≠ call ∧ s.calls[j]? = some (.appending record))
    (happending : ∀ record, phase = .appending record → record.jobId ∈ t.jobStream ∨ ∀ i : Nat, s.calls[i]? ≠ some (.returned record)) :
    Drawn t := by
  have hsub : ∀ n ∈ s.jobStream, n ∈ t.jobStream := by
    intro n hn
    rcases hstream with heq | ⟨_, -, -, heq⟩
    · rw [heq]
      exact hn
    · rw [heq]
      exact List.mem_append_left _ hn
  constructor
  · intro i entry n hentry hn
    rw [hcalls] at hentry
    rcases get_set hentry with ⟨rfl, rfl⟩ | ⟨hne, hentry⟩
    · obtain ⟨hsame, hkept | ⟨rfl, hnext⟩⟩ := hholds n hn
      · obtain ⟨hlt, hnot⟩ := h.holds i phase n hget hkept
        exact ⟨by omega, by rwa [hsame]⟩
      · refine ⟨by omega, fun hmem => ?_⟩
        rw [hsame] at hmem
        exact absurd (h.below _ hmem) (Nat.lt_irrefl _)
    · obtain ⟨hlt, hnot⟩ := h.holds i entry n hentry hn
      refine ⟨by omega, ?_⟩
      rcases hstream with heq | ⟨m, hm, -, heq⟩
      · rwa [heq]
      · rw [heq, List.mem_append, List.mem_singleton, not_or]
        refine ⟨hnot, ?_⟩
        rintro rfl
        exact hne (h.distinct i call entry phase n hentry hn hget hm)
  · intro i j entry other n hentry hn hother hn'
    rw [hcalls] at hentry hother
    have hclash : ∀ (k : Nat) (third : EnqueuePhase Token), k ≠ call → s.calls[k]? = some third → third.holds = some n →
        next.holds ≠ some n := by
      intro k third hne hthird hk hnext
      obtain ⟨-, hkept | ⟨rfl, -⟩⟩ := hholds n hnext
      · exact hne (h.distinct k call third phase n hthird hk hget hkept)
      · exact absurd (h.holds k third _ hthird hk).1 (Nat.lt_irrefl _)
    rcases get_set hentry with ⟨rfl, rfl⟩ | ⟨hne, hkept⟩
    · rcases get_set hother with ⟨rfl, -⟩ | ⟨hne, hkept⟩
      · rfl
      · exact absurd hn (hclash j other hne hkept hn')
    · rcases get_set hother with ⟨rfl, rfl⟩ | ⟨-, hkept'⟩
      · exact absurd hn' (hclash i entry hne hkept hn)
      · exact h.distinct i j entry other n hkept hn hkept' hn'
  · intro n hn
    rcases hstream with heq | ⟨m, hm, -, heq⟩
    · rw [heq] at hn
      exact Nat.lt_of_lt_of_le (h.below n hn) hdrawn
    · rw [heq, List.mem_append, List.mem_singleton] at hn
      rcases hn with hn | rfl
      · exact Nat.lt_of_lt_of_le (h.below n hn) hdrawn
      · exact Nat.lt_of_lt_of_le (h.holds call phase n hget hm).1 hdrawn
  · rcases hstream with heq | ⟨m, hm, -, heq⟩
    · rw [heq]
      exact h.once
    · rw [heq, List.nodup_append]
      refine ⟨h.once, List.nodup_cons.2 ⟨List.not_mem_nil, List.nodup_nil⟩, ?_⟩
      rintro n hn m' hm' rfl
      rw [List.mem_singleton] at hm'
      subst hm'
      exact (h.holds call phase n hget hm).2 hn
  · intro i record hentry
    rw [hcalls] at hentry ⊢
    rcases get_set hentry with ⟨rfl, heq⟩ | ⟨hne, hentry⟩
    · rcases hreturned record heq.symm with hmem | ⟨j, hj, hjget⟩
      · exact .inl hmem
      · exact .inr ⟨j, set_get hj hjget⟩
    · rcases h.appended i record hentry with hmem | ⟨j, hj⟩
      · exact .inl (hsub _ hmem)
      · by_cases heq : j = call
        · rw [heq, hget, Option.some_inj] at hj
          rcases happending record hj with hmem | hnone
          · exact .inl hmem
          · exact absurd hentry (hnone i)
        · exact .inr ⟨j, set_get heq hj⟩

theorem Drawn.command (h : Drawn s) (hok : LooksUpAppended s (.command call outcome)) : Drawn (s.command capability call outcome) := by
  cases hget : s.calls[call]? with
  | none =>
    rw [Enqueues.command, hget]
    exact h
  | some phase =>
    have hcommand : s.command capability call outcome =
        { (s.advance capability phase outcome).2 with
          calls := s.calls.set call (s.advance capability phase outcome).1, disturbed := s.disturbed || outcome.fails } := by
      rw [Enqueues.command, hget]
    rw [hcommand]
    cases phase with
    | lookingUp =>
      apply h.move hget rfl
      · grind [Enqueues.advance]
      · grind [Enqueues.advance, EnqueuePhase.holds]
      · grind [Enqueues.advance]
      · grind [Enqueues.advance]
      · nofun
    | reading record =>
      have hread := (hok record).1 hget
      apply h.move hget rfl
      · exact Nat.le_refl _
      · grind [Enqueues.advance, EnqueuePhase.holds]
      · exact .inl rfl
      · intro other hother
        have hreturned : outcome = .done ∧ record.jobId ∈ s.jobs ∧ other = record := by grind [Enqueues.advance]
        obtain ⟨hdone, hjob, rfl⟩ := hreturned
        rcases hread.2 hjob hdone with hmem | hmem
        · exact .inl hmem
        · obtain ⟨j, hj⟩ := List.mem_iff_getElem?.1 hmem
          refine .inr ⟨j, ?_, hj⟩
          rintro rfl
          rw [hget] at hj
          cases hj
      · nofun
    | storing record =>
      apply h.move hget rfl
      · grind [Enqueues.advance]
      · grind [Enqueues.advance, EnqueuePhase.holds]
      · grind [Enqueues.advance]
      · grind [Enqueues.advance]
      · nofun
    | storingJob record =>
      apply h.move hget rfl
      · grind [Enqueues.advance]
      · grind [Enqueues.advance, EnqueuePhase.holds]
      · grind [Enqueues.advance]
      · grind [Enqueues.advance]
      · nofun
    | appending record =>
      have happend := (hok record).2 hget
      apply h.move hget rfl
      · grind [Enqueues.advance]
      · grind [Enqueues.advance, EnqueuePhase.holds]
      · grind [Enqueues.advance, EnqueuePhase.holds]
      · grind [Enqueues.advance, CommandOutcome.fails]
      · rintro other ⟨⟩
        by_cases hfailed : outcome = .failed
        · right
          intro i hi
          exact happend hfailed (List.mem_iff_getElem?.2 ⟨i, hi⟩)
        · left
          simp [Enqueues.advance, hfailed]
    | deleting record =>
      apply h.move hget rfl
      · grind [Enqueues.advance]
      · grind [Enqueues.advance, EnqueuePhase.holds]
      · grind [Enqueues.advance]
      · grind [Enqueues.advance]
      · nofun
    | returned record =>
      have hset : s.calls.set call (.returned record) = s.calls := by
        obtain ⟨hlt, heq⟩ := List.getElem?_eq_some_iff.1 hget
        rw [← heq, List.set_getElem_self]
      simp only [Enqueues.advance, hset]
      exact ⟨h.holds, h.distinct, h.below, h.once, h.appended⟩
    | threw =>
      apply h.move hget rfl
      · exact Nat.le_refl _
      · grind [Enqueues.advance, EnqueuePhase.holds]
      · exact .inl rfl
      · grind [Enqueues.advance]
      · nofun

theorem not_creates {record : JobRecord Token} (h : phase.holds = none) : ¬ phase.creates record := by
  rintro (rfl | rfl)
  · cases h
  · cases h

/-- A call that neither creates nor stores anything. -/
theorem Undisturbed.quiet (h : Undisturbed s) (hget : s.calls[call]? = some phase) {next : EnqueuePhase Token} {t : Enqueues Token}
    (hcalls : t.calls = s.calls.set call next) (hidempotency : t.idempotency = s.idempotency) (hstream : t.jobStream = s.jobStream)
    (hphase : ∀ record, ¬ phase.creates record) (hnext : ∀ record, ¬ next.creates record)
    (hnone : s.idempotency = none → next.unaware = true)
    (hsome : ∀ record, s.idempotency = some record → next.unaware = true ∨ next = .reading record ∨ next = .returned record) :
    Undisturbed t where
  fresh := by
    intro hfresh
    rw [hidempotency] at hfresh
    obtain ⟨hempty, hall⟩ := h.fresh hfresh
    rw [hstream, hcalls]
    refine ⟨hempty, fun i entry hentry => ?_⟩
    rcases get_set hentry with ⟨-, rfl⟩ | ⟨-, hkept⟩
    · exact hnone hfresh
    · exact hall i entry hkept
  stored := by
    intro record hrecord
    rw [hidempotency] at hrecord
    obtain ⟨hall, hcreator⟩ := h.stored record hrecord
    rw [hstream, hcalls]
    constructor
    · intro i entry hentry
      rcases get_set hentry with ⟨-, rfl⟩ | ⟨-, hkept⟩
      · rcases hsome record hrecord with hnext | hnext | hnext
        · exact .inl hnext
        · exact .inr (.inl hnext)
        · exact .inr (.inr (.inr hnext))
      · exact hall i entry hkept
    · rcases hcreator with ⟨hempty, creator, ⟨creating, hcreating, hcreates⟩, hunique⟩ | ⟨hstored, hnone⟩
      · have hne : creator ≠ call := by
          rintro rfl
          rw [hget, Option.some_inj] at hcreating
          exact hphase record (hcreating ▸ hcreates)
        refine .inl ⟨hempty, creator, ⟨creating, set_get hne hcreating, hcreates⟩, fun i entry hentry hentryCreates => ?_⟩
        rcases get_set hentry with ⟨-, rfl⟩ | ⟨-, hkept⟩
        · exact absurd hentryCreates (hnext record)
        · exact hunique i entry hkept hentryCreates
      · refine .inr ⟨hstored, fun i entry hentry hentryCreates => ?_⟩
        rcases get_set hentry with ⟨-, rfl⟩ | ⟨-, hkept⟩
        · exact hnext record hentryCreates
        · exact hnone i entry hkept hentryCreates

/-- A call that has seen a record has seen the one that is stored. -/
theorem Undisturbed.record_eq (h : Undisturbed s) (hget : s.calls[call]? = some phase) (hunaware : phase.unaware = false) :
    ∃ record, s.idempotency = some record ∧ (phase = .reading record ∨ phase.creates record ∨ phase = .returned record) := by
  cases hidempotency : s.idempotency with
  | none =>
    rw [(h.fresh hidempotency).2 call phase hget] at hunaware
    cases hunaware
  | some record =>
    refine ⟨record, rfl, ?_⟩
    rcases (h.stored record hidempotency).1 call phase hget with hphase | hphase
    · rw [hphase] at hunaware
      cases hunaware
    · exact hphase

/-- A call that creates a job is the only one, and its job is not appended. -/
theorem Undisturbed.creator (h : Undisturbed s) (hget : s.calls[call]? = some phase) {record : JobRecord Token} (hcreates : phase.creates record) :
    s.idempotency = some record ∧ s.jobStream = [] ∧
      ∀ (i : Nat) (entry : EnqueuePhase Token), s.calls[i]? = some entry → entry.creates record → i = call := by
  have hunaware : phase.unaware = false := by
    rcases hcreates with rfl | rfl
    · rfl
    · rfl
  obtain ⟨stored, hstored, heq⟩ := h.record_eq hget hunaware
  have hsame : record = stored := by
    rcases hcreates with rfl | rfl
    · rcases heq with heq | (heq | heq) | heq <;> cases heq
      rfl
    · rcases heq with heq | (heq | heq) | heq <;> cases heq
      rfl
  subst hsame
  refine ⟨hstored, ?_⟩
  rcases (h.stored record hstored).2 with ⟨hempty, creator, -, hunique⟩ | ⟨-, hnone⟩
  · refine ⟨hempty, fun i entry hentry hentryCreates => ?_⟩
    rw [hunique i entry hentry hentryCreates, hunique call phase hget hcreates]
  · exact absurd hcreates (hnone call phase hget)

theorem Undisturbed.command (h : Undisturbed s) (hok : LooksUpAppended s (.command call outcome)) (hdisturbed : s.disturbed = false)
    (hfails : outcome.fails = false) : Undisturbed (s.command capability call outcome) := by
  cases hget : s.calls[call]? with
  | none =>
    rw [Enqueues.command, hget]
    exact h
  | some phase =>
    have hcommand : s.command capability call outcome =
        { (s.advance capability phase outcome).2 with
          calls := s.calls.set call (s.advance capability phase outcome).1, disturbed := s.disturbed || outcome.fails } := by
      rw [Enqueues.command, hget]
    have hfailed : outcome ≠ .failed := by
      rintro rfl
      cases hfails
    rw [hcommand]
    cases phase with
    | lookingUp =>
      apply h.quiet hget rfl
      · grind [Enqueues.advance]
      · grind [Enqueues.advance]
      · exact fun record => not_creates rfl
      · grind [Enqueues.advance, EnqueuePhase.creates]
      · grind [Enqueues.advance, EnqueuePhase.unaware]
      · grind [Enqueues.advance]
    | reading record =>
      obtain ⟨stored, hstored, heq⟩ := h.record_eq hget rfl
      obtain rfl : record = stored := by
        rcases heq with heq | (heq | heq) | heq
        · cases heq
          rfl
        · cases heq
        · cases heq
        · cases heq
      obtain ⟨hjob, hdone⟩ := ((hok record).1 hget).1 hdisturbed hfails
      apply h.quiet hget rfl
      · exact rfl
      · exact rfl
      · exact fun record => not_creates rfl
      · grind [Enqueues.advance, EnqueuePhase.creates]
      · grind
      · grind [Enqueues.advance]
    | storing record =>
      cases hidempotency : s.idempotency with
      | some stored =>
        apply h.quiet hget rfl
        · grind [Enqueues.advance]
        · grind [Enqueues.advance]
        · grind [EnqueuePhase.creates]
        · grind [Enqueues.advance, EnqueuePhase.creates]
        · grind
        · grind [Enqueues.advance, EnqueuePhase.unaware]
      | none =>
        obtain ⟨hempty, hall⟩ := h.fresh hidempotency
        have hadvance : s.advance capability (.storing record) outcome = (.storingJob record, { s with idempotency := some record }) := by
          rw [Enqueues.advance]
          simp [hidempotency, hfails, hfailed]
        rw [hadvance]
        refine ⟨nofun, ?_⟩
        rintro _ ⟨⟩
        constructor
        · intro i entry hentry
          rcases get_set hentry with ⟨-, rfl⟩ | ⟨-, hkept⟩
          · exact .inr (.inr (.inl (.inl rfl)))
          · exact .inl (hall i entry hkept)
        · have hlt := (List.getElem?_eq_some_iff.1 hget).1
          refine .inl ⟨hempty, call, ⟨_, List.getElem?_set_self hlt, .inl rfl⟩, fun i entry hentry hcreates => ?_⟩
          rcases get_set hentry with ⟨rfl, -⟩ | ⟨-, hkept⟩
          · rfl
          · have hunaware := hall i entry hkept
            rcases hcreates with rfl | rfl
            · cases hunaware
            · cases hunaware
    | storingJob record =>
      obtain ⟨hstored, hempty, hunique⟩ := h.creator hget (.inl rfl)
      have hadvance : s.advance capability (.storingJob record) outcome = (.appending record, { s with jobs := record.jobId :: s.jobs }) := by
        rw [Enqueues.advance]
        simp [hfails, hfailed]
      rw [hadvance]
      refine ⟨fun hnone => absurd (hstored.symm.trans hnone) (Option.some_ne_none record), fun other hother => ?_⟩
      cases hstored.symm.trans hother
      constructor
      · intro i entry hentry
        rcases get_set hentry with ⟨-, rfl⟩ | ⟨-, hkept⟩
        · exact .inr (.inr (.inl (.inr rfl)))
        · exact (h.stored record hstored).1 i entry hkept
      · have hlt := (List.getElem?_eq_some_iff.1 hget).1
        refine .inl ⟨hempty, call, ⟨_, List.getElem?_set_self hlt, .inr rfl⟩, fun i entry hentry hcreates => ?_⟩
        rcases get_set hentry with ⟨rfl, -⟩ | ⟨-, hkept⟩
        · rfl
        · exact hunique i entry hkept hcreates
    | appending record =>
      obtain ⟨hstored, hempty, hunique⟩ := h.creator hget (.inr rfl)
      have hadvance : s.advance capability (.appending record) outcome =
          (.returned record, { s with jobStream := s.jobStream ++ [record.jobId] }) := by
        rw [Enqueues.advance]
        simp [hfails, hfailed]
      rw [hadvance]
      refine ⟨fun hnone => absurd (hstored.symm.trans hnone) (Option.some_ne_none record), fun other hother => ?_⟩
      cases hstored.symm.trans hother
      constructor
      · intro i entry hentry
        rcases get_set hentry with ⟨-, rfl⟩ | ⟨-, hkept⟩
        · exact .inr (.inr (.inr rfl))
        · exact (h.stored record hstored).1 i entry hkept
      · refine .inr ⟨by simp [hempty], fun i entry hentry hcreates => ?_⟩
        rcases get_set hentry with ⟨-, rfl⟩ | ⟨hne, hkept⟩
        · exact not_creates rfl hcreates
        · exact hne (hunique i entry hkept hcreates)
    | deleting record =>
      obtain ⟨stored, -, heq⟩ := h.record_eq hget rfl
      rcases heq with heq | (heq | heq) | heq
      · cases heq
      · cases heq
      · cases heq
      · cases heq
    | returned record =>
      have hset : s.calls.set call (.returned record) = s.calls := by
        obtain ⟨hlt, heq⟩ := List.getElem?_eq_some_iff.1 hget
        rw [← heq, List.set_getElem_self]
      simp only [Enqueues.advance, hset]
      exact ⟨h.fresh, h.stored⟩
    | threw =>
      obtain ⟨stored, -, heq⟩ := h.record_eq hget rfl
      rcases heq with heq | (heq | heq) | heq
      · cases heq
      · cases heq
      · cases heq
      · cases heq

/-! ## Any order of commands -/

/-- What holds of the calls as long as jobs are looked up when they are appended. -/
structure EnqueuesOk (s : Enqueues Token) : Prop where
  drawn : Drawn s
  undisturbed : s.disturbed = false → Undisturbed s

theorem EnqueuesOk.step (h : EnqueuesOk s) {turn : EnqueueTurn} (hok : LooksUpAppended s turn) : EnqueuesOk (s.step capability turn).2 := by
  cases turn with
  | enqueue => exact ⟨h.drawn.enqueue, fun hdisturbed => (h.undisturbed hdisturbed).enqueue⟩
  | command call outcome =>
    refine ⟨h.drawn.command hok, fun hdisturbed => ?_⟩
    have hnext : s.disturbed = false ∧ outcome.fails = false ∨ s.calls[call]? = none := by
      cases hget : s.calls[call]? with
      | none => exact .inr rfl
      | some phase =>
        simp only [Enqueues.step, Enqueues.command, hget, Bool.or_eq_false_iff] at hdisturbed
        exact .inl hdisturbed
    rcases hnext with ⟨hclean, hfails⟩ | hnone
    · exact (h.undisturbed hclean).command hok hclean hfails
    · simp only [Enqueues.step, Enqueues.command, hnone] at hdisturbed ⊢
      exact h.undisturbed hdisturbed

end

/-- Calls of `enqueue` with one key, and commands of them, in any order. -/
abbrev EnqueueRun {Token : Type} (capability : Nat → Token) (ok : Enqueues Token → EnqueueTurn → Prop) :
    List (Step (Enqueues Token) EnqueueTurn Unit) → Enqueues Token → Nat → Prop :=
  Run (Enqueues.step capability) (fun _ => 0) (fun _ => ok) .start

section
variable {Token : Type} {capability : Nat → Token}

/-- How many commands a call has left when none of them fails. A record that another call stores sends it back to look that up. -/
def EnqueuePhase.left (idempotency : Option (JobRecord Token)) : EnqueuePhase Token → Nat
  | .lookingUp => if idempotency.isSome then 2 else 4
  | .storing _ => 3
  | .storingJob _ => 2
  | .reading _ | .appending _ | .deleting _ => 1
  | .returned _ | .threw => 0

/-- The commands that a call sent. -/
def sent (call : Nat) (trace : List (Step (Enqueues Token) EnqueueTurn Unit)) : Nat :=
  trace.countP fun e => match e.call with
    | .enqueue => false
    | .command other _ => other = call && e.before.calls[call]?.any fun phase => !phase.settled

theorem left_le {idempotency other : Option (JobRecord Token)} (h : idempotency.isSome = true → other.isSome = true) (phase : EnqueuePhase Token) :
    phase.left other ≤ phase.left idempotency := by
  cases phase with
  | lookingUp => grind [EnqueuePhase.left]
  | _ => exact Nat.le_refl _

/-- A command that does not fail brings its call nearer to the end, and takes no record away. -/
theorem advance_left (capability : Nat → Token) (s : Enqueues Token) {phase : EnqueuePhase Token} {outcome : CommandOutcome} (hfails : outcome.fails = false)
    (hdeleting : ∀ record, phase ≠ .deleting record) :
    (s.advance capability phase outcome).1.left (s.advance capability phase outcome).2.idempotency + (!phase.settled).toNat ≤
        phase.left s.idempotency ∧
      (∀ record, (s.advance capability phase outcome).1 ≠ .deleting record) ∧
      (s.idempotency.isSome = true → (s.advance capability phase outcome).2.idempotency.isSome = true) := by
  cases phase with
  | deleting record => exact absurd rfl (hdeleting record)
  | _ => grind [Enqueues.advance, EnqueuePhase.left, EnqueuePhase.settled]

/-- What a call has sent and what it has left. -/
structure Bounded (trace : List (Step (Enqueues Token) EnqueueTurn Unit)) (s : Enqueues Token) : Prop where
  deleting : ∀ (i : Nat) record, s.calls[i]? ≠ some (.deleting record)
  left : ∀ (i : Nat) (phase : EnqueuePhase Token), s.calls[i]? = some phase → sent i trace + phase.left s.idempotency ≤ 4
  later : ∀ i : Nat, s.calls.length ≤ i → sent i trace = 0

theorem sent_snoc (call : Nat) (trace : List (Step (Enqueues Token) EnqueueTurn Unit)) (e : Step (Enqueues Token) EnqueueTurn Unit) :
    sent call (trace ++ [e]) = sent call trace + sent call [e] := List.countP_append

theorem sent_command (s : Enqueues Token) (call : Nat) (outcome : CommandOutcome) (i : Nat) :
    sent i [stepOf (Enqueues.step capability) s (.command call outcome)] =
      if i = call then (s.calls[call]?.any fun phase => !phase.settled).toNat else 0 := by
  rw [sent, List.countP_singleton, stepOf]
  by_cases hcall : i = call
  · subst hcall
    cases hany : s.calls[i]?.any fun phase => !phase.settled <;> simp
  · simp [hcall, Ne.symm hcall]

theorem Bounded.step {trace : List (Step (Enqueues Token) EnqueueTurn Unit)} {s : Enqueues Token} (h : Bounded trace s) (turn : EnqueueTurn)
    (hdisturbed : (s.step capability turn).2.disturbed = false) :
    Bounded (trace ++ [stepOf (Enqueues.step capability) s turn]) (s.step capability turn).2 := by
  cases turn with
  | enqueue =>
    have hsent : ∀ i, sent i (trace ++ [stepOf (Enqueues.step capability) s .enqueue]) = sent i trace := fun i => sent_snoc i _ _
    refine ⟨fun i record hget => ?_, fun i phase hget => ?_, fun i hlength => ?_⟩
    · rcases get_append hget with ⟨-, heq⟩ | hget
      · cases heq
      · exact h.deleting i record hget
    · rw [hsent]
      rcases get_append hget with ⟨rfl, rfl⟩ | hget
      · rw [h.later _ (Nat.le_refl _)]
        grind [EnqueuePhase.left]
      · exact h.left i phase hget
    · rw [hsent]
      rw [Enqueues.step, List.length_append] at hlength
      exact h.later i (Nat.le_of_add_right_le hlength)
  | command call outcome =>
    cases hget : s.calls[call]? with
    | none =>
      have hsame : (s.step capability (.command call outcome)).2 = s := by simp [Enqueues.step, Enqueues.command, hget]
      have hsent : ∀ i, sent i (trace ++ [stepOf (Enqueues.step capability) s (.command call outcome)]) = sent i trace := by
        intro i
        rw [sent_snoc, sent_command, hget]
        simp
      rw [hsame]
      exact ⟨h.deleting, fun i phase hphase => hsent i ▸ h.left i phase hphase, fun i hlength => hsent i ▸ h.later i hlength⟩
    | some phase =>
      have hstep : (s.step capability (.command call outcome)).2 =
          { (s.advance capability phase outcome).2 with
            calls := s.calls.set call (s.advance capability phase outcome).1, disturbed := s.disturbed || outcome.fails } := by
        simp [Enqueues.step, Enqueues.command, hget]
      have hsent : ∀ i, sent i (trace ++ [stepOf (Enqueues.step capability) s (.command call outcome)]) =
          sent i trace + if i = call then (!phase.settled).toNat else 0 := by
        intro i
        rw [sent_snoc, sent_command, hget]
        rfl
      rw [hstep] at hdisturbed ⊢
      obtain ⟨hleft, hdeleting, hkept⟩ :=
        advance_left capability s (Bool.or_eq_false_iff.1 hdisturbed).2 fun record heq => h.deleting call record (heq ▸ hget)
      refine ⟨fun i record hnext => ?_, fun i entry hnext => ?_, fun i hlength => ?_⟩
      · rcases get_set hnext with ⟨-, heq⟩ | ⟨-, hold⟩
        · exact hdeleting record heq.symm
        · exact h.deleting i record hold
      · rw [hsent]
        rcases get_set hnext with ⟨rfl, rfl⟩ | ⟨hne, hold⟩
        · have hbefore := h.left i phase hget
          rw [if_pos rfl]
          dsimp only
          omega
        · rw [if_neg hne]
          exact Nat.le_trans (Nat.add_le_add_left (left_le hkept entry) _) (h.left i entry hold)
      · rw [List.length_set] at hlength
        have hlt := (List.getElem?_eq_some_iff.1 hget).1
        rw [hsent, if_neg (by omega), h.later i hlength]

theorem disturbed_of_step {s : Enqueues Token} {turn : EnqueueTurn} (h : s.disturbed = true) : (s.step capability turn).2.disturbed = true := by
  cases turn with
  | enqueue => exact h
  | command call outcome =>
    simp only [Enqueues.step, Enqueues.command]
    cases s.calls[call]? with
    | none => exact h
    | some phase => simp [h]

/-- As long as no command fails, a call is done with its fourth command, whatever the others do. -/
theorem settled_after_four {ok : Enqueues Token → EnqueueTurn → Prop} {trace : List (Step (Enqueues Token) EnqueueTurn Unit)}
    {s : Enqueues Token} {clock : Nat} (h : EnqueueRun capability ok trace s clock) (hdisturbed : s.disturbed = false) {call : Nat}
    {phase : EnqueuePhase Token} (hget : s.calls[call]? = some phase) :
    sent call trace ≤ 4 ∧ (sent call trace = 4 → phase.settled = true) := by
  have hbounded : s.disturbed = false → Bounded trace s := by
    refine h.invariant (fun trace s _ => s.disturbed = false → Bounded trace s) 
      (fun _ => ⟨fun _ _ hget => (by cases hget), fun _ _ hget => (by cases hget), fun _ _ => rfl⟩) ?_
    intro trace s _ turn _ ih _ _ hnext
    refine (ih ?_).step turn hnext
    by_contra hdisturbed
    rw [Bool.not_eq_false] at hdisturbed
    rw [disturbed_of_step hdisturbed] at hnext
    cases hnext
  have hleft := (hbounded hdisturbed).left call phase hget
  refine ⟨by omega, fun hfour => ?_⟩
  have hzero : phase.left s.idempotency = 0 := by omega
  cases phase with
  | returned | threw => rfl
  | _ => grind [EnqueuePhase.left]

end

/-! ## A job that is looked up too early -/

end Hyeboard.Enqueue
