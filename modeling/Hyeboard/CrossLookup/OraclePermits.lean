import Hyeboard.CrossLookup.Requests
import Hyeboard.Lib.Runs
import Mathlib.Data.List.Perm.Subperm
/-!
# Permits for the portal

`withVnuOraclePermit` of `app.ts` and `acquireBrc1Permit` of
`vnu-probe-budget.ts`, for all calls that one request makes. The object serves
their messages in the order they were sent, so what it answers is settled when a
message is sent; when the answer arrives is another turn. No lease expires and no
request times out.
-/

namespace Hyeboard.CrossLookup

/-- `busy`. -/
def busy : Thrown := .value "VNU_CROSS_LOOKUP_BUSY" false

/-- Where a call of `withVnuOraclePermit` stands. -/
inductive PermitStage where
  /-- Before the session's key is there. -/
  | hashing
  /-- The acquire has been sent; `granted` is what the object has made of it. -/
  | acquiring (granted : Bool)
  | working
  /-- The release has been sent; the call settles with its answer. -/
  | releasing (outcome : ProbeOutcome)
deriving DecidableEq

/-- The object counts a permit for it. -/
def PermitStage.holds : PermitStage → Bool
  | .acquiring granted => granted
  | .working => true
  | .hashing | .releasing _ => false

@[simp] theorem holds_hashing : PermitStage.holds .hashing = false := rfl
@[simp] theorem holds_acquiring (granted : Bool) : PermitStage.holds (.acquiring granted) = granted := rfl
@[simp] theorem holds_working : PermitStage.holds .working = true := rfl
@[simp] theorem holds_releasing (outcome : ProbeOutcome) : PermitStage.holds (.releasing outcome) = false := rfl

/-- A request, as its calls of `withVnuOraclePermit` see it. -/
structure Host (H Key Turn : Type) where
  step : H → Turn → H
  /-- The calls that have not settled. -/
  pending : H → List Key
  /-- The reason of a call's signal once it is aborted. -/
  reason : H → Key → Option Thrown
  settle : H → Key → ProbeOutcome → H

structure OracleState (H Key : Type) where
  host : H
  calls : List (Key × PermitStage)
  /-- The permits granted to calls that did not wait for the answer: they are
  released when it arrives. -/
  abandoned : Nat
  /-- What the object counts. -/
  permits : Nat
  /-- An acquire has been refused as busy. -/
  refused : Bool
deriving DecidableEq

inductive OracleTurn (Key Turn : Type) where
  | host (turn : Turn)
  /-- The key is there: the acquire is sent. -/
  | hashed (key : Key)
  /-- The answer to the acquire wins the race. -/
  | answered (key : Key)
  /-- The abort wins it. -/
  | cancelled (key : Key)
  | worked (key : Key) (outcome : ProbeOutcome)
  | released (key : Key)
  /-- The answer to an acquire nobody waits for. -/
  | abandonedAnswered
deriving DecidableEq

namespace Host

variable {H Key Turn : Type} [DecidableEq Key] (host : Host H Key Turn) (s : OracleState H Key)

/-- The calls the request has made meanwhile. -/
def openCalls : OracleState H Key :=
  { s with calls := s.calls ++ ((host.pending s.host).filter fun key => !(s.calls.map Prod.fst).contains key).map (·, .hashing) }

def setStage (key : Key) (stage : PermitStage) : OracleState H Key :=
  { s with calls := s.calls.map fun call => if call.1 = key then (key, stage) else call }

def finish (key : Key) (outcome : ProbeOutcome) : OracleState H Key :=
  { s with host := host.settle s.host key outcome, calls := s.calls.filter (·.1 ≠ key) }

/-- `acquireBrc1Permit` is sent, unless the signal is aborted. -/
def acquire (key : Key) : OracleState H Key :=
  match host.reason s.host key with
  | some reason => host.finish s key (.error reason)
  | none =>
    if s.permits < vnuBrc1PermitLimit then setStage { s with permits := s.permits + 1 } key (.acquiring true)
    else setStage { s with refused := true } key (.acquiring false)

def answer (key : Key) (granted : Bool) : OracleState H Key :=
  match granted, host.reason s.host key with
  | false, reason => host.finish s key (.error (reason.getD busy))
  | true, some reason => setStage { s with permits := s.permits - 1 } key (.releasing (.error reason))
  | true, none => setStage s key .working

def abandon (key : Key) (granted : Bool) : OracleState H Key :=
  match host.reason s.host key with
  | some reason => host.finish { s with abandoned := s.abandoned + if granted then 1 else 0 } key (.error reason)
  | none => s

def oracleStep : OracleTurn Key Turn → Unit × OracleState H Key
  | .host turn => ((), host.openCalls { s with host := host.step s.host turn })
  | .hashed key =>
    match s.calls.lookup key with
    | some .hashing => ((), host.acquire s key)
    | _ => ((), s)
  | .answered key =>
    match s.calls.lookup key with
    | some (.acquiring granted) => ((), host.answer s key granted)
    | _ => ((), s)
  | .cancelled key =>
    match s.calls.lookup key with
    | some (.acquiring granted) => ((), host.abandon s key granted)
    | _ => ((), s)
  | .worked key outcome =>
    match s.calls.lookup key with
    | some .working => ((), setStage { s with permits := s.permits - 1 } key (.releasing outcome))
    | _ => ((), s)
  | .released key =>
    match s.calls.lookup key with
    | some (.releasing outcome) => ((), host.finish s key outcome)
    | _ => ((), s)
  | .abandonedAnswered =>
    if 0 < s.abandoned then ((), { s with abandoned := s.abandoned - 1, permits := s.permits - 1 }) else ((), s)

def oracleStart (request : H) : OracleState H Key :=
  host.openCalls { host := request, calls := [], abandoned := 0, permits := 0, refused := false }

end Host

/-! ## What the object counts -/

section
variable {H Key Turn : Type} [DecidableEq Key] {host : Host H Key Turn} {s : OracleState H Key}

/-- The calls that hold a permit. -/
def OracleState.holding (s : OracleState H Key) : Nat := s.calls.countP (·.2.holds)

/-- What the calls of a request rely on; `Ok` is its invariant. -/
structure Host.Lawful (host : Host H Key Turn) (Ok : H → Prop) : Prop where
  nodup : ∀ h, Ok h → (host.pending h).Nodup
  step : ∀ h turn, Ok h → Ok (host.step h turn)
  /-- A call stays pending until it is settled here. -/
  pending_step : ∀ h turn, Ok h → host.pending h ⊆ host.pending (host.step h turn)
  settle : ∀ h key outcome, Ok h → Ok (host.settle h key outcome)
  pending_settle : ∀ h key outcome, Ok h → (host.pending (host.settle h key outcome)).Perm ((host.pending h).filter (· ≠ key))

structure Accounted (host : Host H Key Turn) (Ok : H → Prop) (s : OracleState H Key) : Prop where
  ok : Ok s.host
  calls : (s.calls.map Prod.fst).Perm (host.pending s.host)
  permits : s.permits = s.holding + s.abandoned

variable {Ok : H → Prop}

theorem Accounted.nodup (h : Accounted host Ok s) (hlawful : host.Lawful Ok) : (s.calls.map Prod.fst).Nodup :=
  h.calls.nodup_iff.2 (hlawful.nodup _ h.ok)

theorem accounted_openCalls {request : H} (hok : Ok request) (hlawful : host.Lawful Ok) {calls : List (Key × PermitStage)}
    (hnodup : (calls.map Prod.fst).Nodup) (hsubset : calls.map Prod.fst ⊆ host.pending request) {abandoned permits : Nat}
    {refused : Bool} (hpermits : permits = calls.countP (·.2.holds) + abandoned) :
    Accounted host Ok (host.openCalls { host := request, calls, abandoned, permits, refused }) := by
  refine ⟨hok, ?_, ?_⟩
  · simp only [Host.openCalls, List.map_append, List.map_map]
    have hnew : (Prod.fst ∘ fun key => (key, PermitStage.hashing)) = (id : Key → Key) := rfl
    rw [hnew, List.map_id]
    refine (List.perm_ext_iff_of_nodup ?_ (hlawful.nodup _ hok)).2 fun key => ?_
    · refine hnodup.append ((hlawful.nodup _ hok).filter _) fun key hold hkey => ?_
      have := List.of_mem_filter hkey
      simp only [Bool.not_eq_true', List.contains_eq_mem, decide_eq_false_iff_not] at this
      exact this hold
    · rw [List.mem_append, List.mem_filter]
      constructor
      · rintro (hold | hkey)
        · exact hsubset hold
        · exact hkey.1
      · intro hkey
        by_cases hold : key ∈ calls.map Prod.fst
        · exact .inl hold
        · exact .inr ⟨hkey, by simpa using hold⟩
  · have hfresh : ∀ keys : List Key, (keys.map (·, PermitStage.hashing)).countP (·.2.holds) = 0 := by
      intro keys
      rw [List.countP_eq_zero]
      intro call hmem
      obtain ⟨key, -, rfl⟩ := List.mem_map.1 hmem
      exact Bool.false_ne_true
    simp only [Host.openCalls, OracleState.holding, List.countP_append, hfresh, Nat.add_zero]
    exact hpermits

/-- One call's stage changes. -/
theorem countP_setStage {key : Key} {old : PermitStage} (new : PermitStage) : ∀ {calls : List (Key × PermitStage)},
    (calls.map Prod.fst).Nodup → calls.lookup key = some old →
    (calls.map fun call => if call.1 = key then (key, new) else call).countP (·.2.holds) + old.holds.toNat =
      calls.countP (·.2.holds) + new.holds.toNat := by
  intro calls
  induction calls with
  | nil =>
    intro _ hlookup
    cases hlookup
  | cons call rest ih =>
    intro hnodup hlookup
    rw [List.map_cons, List.nodup_cons] at hnodup
    rw [List.map_cons, List.countP_cons, List.countP_cons]
    by_cases hkey : call.1 = key
    · obtain rfl : call.2 = old := by
        rw [← hkey, List.lookup_cons, beq_self_eq_true] at hlookup
        exact Option.some.inj hlookup
      have hrest : rest.map (fun call => if call.1 = key then (key, new) else call) = rest := by
        have hsame : ∀ other ∈ rest, (if other.1 = key then (key, new) else other) = id other := by
          intro other hmem
          rw [if_neg]
          · rfl
          · intro hother
            exact hnodup.1 (List.mem_map.2 ⟨other, hmem, hother.trans hkey.symm⟩)
        rw [List.map_congr_left hsame, List.map_id]
      rw [hrest, if_pos hkey]
      cases call.2.holds <;> cases new.holds <;> simp
    · rw [List.lookup_cons, beq_false_of_ne (Ne.symm hkey)] at hlookup
      have := ih hnodup.2 hlookup
      rw [if_neg hkey]
      omega

/-- One call is over. -/
theorem countP_finish {key : Key} {old : PermitStage} : ∀ {calls : List (Key × PermitStage)},
    (calls.map Prod.fst).Nodup → calls.lookup key = some old →
    (calls.filter (·.1 ≠ key)).countP (·.2.holds) + old.holds.toNat = calls.countP (·.2.holds) := by
  intro calls
  induction calls with
  | nil =>
    intro _ hlookup
    cases hlookup
  | cons call rest ih =>
    intro hnodup hlookup
    rw [List.map_cons, List.nodup_cons] at hnodup
    rw [List.filter_cons, List.countP_cons]
    by_cases hkey : call.1 = key
    · obtain rfl : call.2 = old := by
        rw [← hkey, List.lookup_cons, beq_self_eq_true] at hlookup
        exact Option.some.inj hlookup
      have hrest : rest.filter (·.1 ≠ key) = rest := by
        rw [List.filter_eq_self]
        intro other hmem
        apply decide_eq_true
        intro hother
        exact hnodup.1 (List.mem_map.2 ⟨other, hmem, hother.trans hkey.symm⟩)
      rw [if_neg (by simpa using hkey), hrest]
      cases call.2.holds <;> simp
    · rw [List.lookup_cons, beq_false_of_ne (Ne.symm hkey)] at hlookup
      have := ih hnodup.2 hlookup
      rw [if_pos (by simpa using hkey), List.countP_cons]
      omega

theorem Accounted.setStage (h : Accounted host Ok s) (hlawful : host.Lawful Ok) {key : Key} {old new : PermitStage}
    (hlookup : s.calls.lookup key = some old) {permits : Nat} {refused : Bool}
    (hpermits : permits + old.holds.toNat = s.permits + new.holds.toNat) :
    Accounted host Ok (Host.setStage { s with permits, refused } key new) := by
  refine ⟨h.ok, ?_, ?_⟩
  · have hkeys : (s.calls.map fun call => if call.1 = key then (key, new) else call).map Prod.fst = s.calls.map Prod.fst := by
      rw [List.map_map]
      apply List.map_congr_left
      intro call _
      simp only [Function.comp]
      split
      · exact Eq.symm ‹_›
      · rfl
    simp only [Host.setStage, hkeys]
    exact h.calls
  · have hcount := countP_setStage new (h.nodup hlawful) hlookup
    have hbefore := h.permits
    simp only [Host.setStage, OracleState.holding] at hbefore ⊢
    omega

theorem Accounted.finish (h : Accounted host Ok s) (hlawful : host.Lawful Ok) {key : Key} {old : PermitStage}
    (hlookup : s.calls.lookup key = some old) {abandoned : Nat} (habandoned : abandoned = s.abandoned + old.holds.toNat)
    (outcome : ProbeOutcome) : Accounted host Ok (host.finish { s with abandoned } key outcome) := by
  refine ⟨hlawful.settle _ _ _ h.ok, ?_, ?_⟩
  · have hkeys : (s.calls.filter (·.1 ≠ key)).map Prod.fst = (s.calls.map Prod.fst).filter (· ≠ key) := by
      rw [List.filter_map]
      rfl
    simp only [Host.finish, hkeys]
    exact (h.calls.filter _).trans (hlawful.pending_settle _ _ _ h.ok).symm
  · have hcount := countP_finish (h.nodup hlawful) hlookup
    have hbefore := h.permits
    simp only [Host.finish, OracleState.holding] at hbefore ⊢
    omega

/-- What a turn preserves. -/
theorem Accounted.step (h : Accounted host Ok s) (hlawful : host.Lawful Ok) (turn : OracleTurn Key Turn) :
    Accounted host Ok (host.oracleStep s turn).2 := by
  cases turn with
  | host turn =>
    have hsubset : s.calls.map Prod.fst ⊆ host.pending (host.step s.host turn) := fun key hmem =>
      hlawful.pending_step _ _ h.ok (h.calls.subset hmem)
    exact accounted_openCalls (hlawful.step _ turn h.ok) hlawful (h.nodup hlawful) hsubset h.permits
  | hashed key =>
    simp only [Host.oracleStep]
    split
    case h_1 hlookup =>
      unfold Host.acquire
      split
      · exact h.finish hlawful hlookup rfl _
      · split
        · exact h.setStage hlawful hlookup rfl
        · exact h.setStage hlawful hlookup rfl
    case h_2 => exact h
  | answered key =>
    simp only [Host.oracleStep]
    split
    case h_1 granted hlookup =>
      unfold Host.answer
      split
      · exact h.finish hlawful hlookup rfl _
      · -- the caller of a permit just granted has gone: it is given back at once
        have hpos : 0 < s.permits := by
          have hcount := countP_finish (h.nodup hlawful) hlookup
          have hholding : s.permits = s.calls.countP (·.2.holds) + s.abandoned := h.permits
          simp only [holds_acquiring, Bool.toNat_true] at hcount
          omega
        apply h.setStage hlawful hlookup
        simp only [holds_acquiring, holds_releasing, Bool.toNat_true, Bool.toNat_false]
        omega
      · exact h.setStage hlawful hlookup rfl
    case h_2 => exact h
  | cancelled key =>
    simp only [Host.oracleStep]
    split
    case h_1 granted hlookup =>
      unfold Host.abandon
      split
      · apply h.finish hlawful hlookup
        cases granted <;> rfl
      · exact h
    case h_2 => exact h
  | worked key outcome =>
    simp only [Host.oracleStep]
    split
    case h_1 hlookup =>
      have hpos : 0 < s.permits := by
        have hcount := countP_finish (h.nodup hlawful) hlookup
        have hholding : s.permits = s.calls.countP (·.2.holds) + s.abandoned := h.permits
        simp only [holds_working, Bool.toNat_true] at hcount
        omega
      apply h.setStage hlawful hlookup
      simp only [holds_working, holds_releasing, Bool.toNat_true, Bool.toNat_false]
      omega
    case h_2 => exact h
  | released key =>
    simp only [Host.oracleStep]
    split
    case h_1 outcome hlookup => exact h.finish hlawful hlookup rfl _
    case h_2 => exact h
  | abandonedAnswered =>
    simp only [Host.oracleStep]
    split
    case isTrue hsome =>
      refine ⟨h.ok, h.calls, ?_⟩
      have hbefore := h.permits
      simp only [OracleState.holding] at hbefore ⊢
      omega
    case isFalse => exact h

theorem accounted_execute (hlawful : host.Lawful Ok) (turns : List (OracleTurn Key Turn)) :
    ∀ {s : OracleState H Key}, Accounted host Ok s → ∀ e ∈ execute host.oracleStep s turns, Accounted host Ok e.before := by
  induction turns with
  | nil =>
    intro s _ e he
    cases he
  | cons turn rest ih =>
    intro s h e he
    rcases List.mem_cons.1 he with rfl | he
    · exact h
    · exact ih (h.step hlawful turn) e he

/-! ## When an acquire is refused -/

/-- The turn sends an acquire. -/
def Host.Sends (host : Host H Key Turn) (e : Hyeboard.Step (OracleState H Key) (OracleTurn Key Turn) Unit) : Prop :=
  ∃ key, e.call = .hashed key ∧ e.before.calls.lookup key = some .hashing ∧ host.reason e.before.host key = none

theorem refused_step (host : Host H Key Turn) (s : OracleState H Key) (turn : OracleTurn Key Turn) :
    ((host.oracleStep s turn).2.refused = true ↔
      s.refused = true ∨ host.Sends (stepOf host.oracleStep s turn) ∧ vnuBrc1PermitLimit ≤ s.permits) := by
  have hquiet : (∀ key, turn ≠ .hashed key) → (host.oracleStep s turn).2.refused = s.refused →
      ((host.oracleStep s turn).2.refused = true ↔
        s.refused = true ∨ host.Sends (stepOf host.oracleStep s turn) ∧ vnuBrc1PermitLimit ≤ s.permits) := by
    intro hother hsame
    rw [hsame]
    refine ⟨.inl, fun h => h.resolve_right ?_⟩
    rintro ⟨⟨key, hkey, -⟩, -⟩
    exact hother key hkey
  cases turn with
  | hashed key =>
    simp only [Host.oracleStep, Host.Sends, stepOf, OracleTurn.hashed.injEq]
    split
    case h_1 hlookup =>
      unfold Host.acquire
      split
      case h_1 reason hreason =>
        refine ⟨.inl, fun h => h.resolve_right ?_⟩
        rintro ⟨⟨_, rfl, -, hnone⟩, -⟩
        rw [hreason] at hnone
        cases hnone
      case h_2 hreason =>
        split
        case isTrue hroom =>
          refine ⟨.inl, fun h => h.resolve_right ?_⟩
          rintro ⟨-, hfull⟩
          exact Nat.lt_irrefl _ (Nat.lt_of_lt_of_le hroom hfull)
        case isFalse hfull =>
          exact ⟨fun _ => .inr ⟨⟨key, rfl, hlookup, hreason⟩, Nat.le_of_not_lt hfull⟩, fun _ => rfl⟩
    case h_2 hlookup =>
      refine ⟨.inl, fun h => h.resolve_right ?_⟩
      rintro ⟨⟨_, rfl, hhashing, -⟩, -⟩
      exact hlookup hhashing
  | host turn => exact hquiet (fun _ h => by cases h) rfl
  | answered key =>
    apply hquiet (fun _ h => by cases h)
    simp only [Host.oracleStep]
    split
    · unfold Host.answer
      split <;> rfl
    · rfl
  | cancelled key =>
    apply hquiet (fun _ h => by cases h)
    simp only [Host.oracleStep]
    split
    · unfold Host.abandon
      split <;> rfl
    · rfl
  | worked key outcome =>
    apply hquiet (fun _ h => by cases h)
    simp only [Host.oracleStep]
    split <;> rfl
  | released key =>
    apply hquiet (fun _ h => by cases h)
    simp only [Host.oracleStep]
    split <;> rfl
  | abandonedAnswered =>
    apply hquiet (fun _ h => by cases h)
    simp only [Host.oracleStep]
    split <;> rfl

/-- An acquire is refused when, and only when, it is sent while six permits are
out: held by calls, or abandoned and not yet given back. -/
theorem refused_iff (hlawful : host.Lawful Ok) (turns : List (OracleTurn Key Turn)) :
    ∀ {s : OracleState H Key}, Accounted host Ok s → s.refused = false →
      ((stateAfter host.oracleStep s turns).refused = true ↔ ∃ e ∈ execute host.oracleStep s turns,
        host.Sends e ∧ vnuBrc1PermitLimit ≤ e.before.holding + e.before.abandoned) := by
  have hlast : ∀ (turns : List (OracleTurn Key Turn)) {s : OracleState H Key}, s.refused = true →
      (stateAfter host.oracleStep s turns).refused = true := by
    intro turns
    induction turns with
    | nil => exact id
    | cons turn rest ih => exact fun hrefused => ih ((refused_step host _ turn).2 (.inl hrefused))
  induction turns with
  | nil =>
    intro s _ hrefused
    simp [stateAfter, execute, hrefused]
  | cons turn rest ih =>
    intro s h hrefused
    have hstep := refused_step host s turn
    rw [h.permits, hrefused] at hstep
    simp only [Bool.false_eq_true, false_or] at hstep
    rw [execute]
    simp only [List.mem_cons, exists_eq_or_imp]
    show (stateAfter host.oracleStep (host.oracleStep s turn).2 rest).refused = true ↔ _
    cases hnext : (host.oracleStep s turn).2.refused with
    | true => exact ⟨fun _ => .inl (hstep.1 hnext), fun _ => hlast rest hnext⟩
    | false =>
      have hnot : ¬ (host.Sends (stepOf host.oracleStep s turn) ∧ vnuBrc1PermitLimit ≤ s.holding + s.abandoned) := by
        rw [← hstep, hnext]
        exact Bool.false_ne_true
      rw [ih (h.step hlawful turn) hnext]
      exact ⟨.inr, fun h => h.resolve_left hnot⟩

/-- A call that sends its acquire holds no permit yet. -/
theorem Accounted.holding_lt (h : Accounted host Ok s) (hlawful : host.Lawful Ok) {key : Key}
    (hlookup : s.calls.lookup key = some .hashing) : s.holding < (host.pending s.host).length := by
  have hcount := countP_finish (h.nodup hlawful) hlookup
  have hfewer : (s.calls.filter (·.1 ≠ key)).length < s.calls.length := by
    obtain ⟨call, hmem, hkey⟩ := List.lookup_isSome_iff.1 (by rw [hlookup]; rfl)
    refine List.length_filter_lt_length_iff_exists.2 ⟨call, hmem, ?_⟩
    simp [(eq_of_beq hkey).symm]
  have hlength : s.calls.length = (host.pending s.host).length := by
    rw [← h.calls.length_eq, List.length_map]
  have hle : (s.calls.filter (·.1 ≠ key)).countP (·.2.holds) ≤ (s.calls.filter (·.1 ≠ key)).length := List.countP_le_length
  simp only [holds_hashing, Bool.toNat_false, Nat.add_zero] at hcount
  rw [OracleState.holding]
  omega

end

end Hyeboard.CrossLookup
