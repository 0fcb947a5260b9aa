import Hyeboard.SingleFlight.Flight
/-!
# What a turn of the single flight does

Every turn of a caller is one of a few effects; what holds of the flight is then
shown effect by effect, without looking at the commands again.
-/

namespace Hyeboard.SingleFlight

open ExpiringKeys

namespace Phase

def isBlocked : Phase → Bool
  | .blocked _ => true
  | _ => false

def isPushing : Phase → Bool
  | .pushing .. => true
  | _ => false

/-- How many commands a caller still has, that does not work. -/
def rank : Phase → Nat
  | .acquiring => 5
  | .checking => 4
  | .popping _ => 3
  | .blocked _ => 2
  | .getting => 1
  | .working .. | .storing .. | .pushing .. | .releasing .. | .returned _ | .thrown => 0

/-- The token of the lock it has acquired, and not released. -/
def token? : Phase → Option Nat
  | .working token _ | .storing token _ | .pushing token _ | .releasing token _ => some token
  | _ => none

end Phase

/-- A caller goes on, and Redis stays as it is. -/
inductive Goes (s : Flight) (now : Nat) (c : Caller) : Move → Phase → Prop
  | hit {serialized} (hphase : c.phase = .getting) (hresult : s.result.get now = some serialized) : Goes s now c .command (.returned serialized)
  | miss (hphase : c.phase = .getting) (hresult : s.result.get now = none) : Goes s now c .command .acquiring
  | busy (hphase : c.phase = .acquiring) (hlock : s.lock.get now ≠ none) : Goes s now c .command .checking
  | finished {token since serialized} (hphase : c.phase = .working token since) :
    Goes s now c (.finishes (some serialized)) (.storing token serialized)
  | failed {token since} (hphase : c.phase = .working token since) : Goes s now c (.finishes none) (.releasing token none)
  | expired (hphase : c.phase = .checking) (hexpired : s.lockTtlMs ≤ now - c.startedAt) : Goes s now c .command .thrown
  | waits {timeoutMs} (hphase : c.phase = .checking) (hwithin : now - c.startedAt < s.lockTtlMs) : Goes s now c .command (.popping timeoutMs)

/-- What a turn of a caller does to the flight. -/
inductive Effect (s : Flight) (now caller : Nat) (c : Caller) : Move → Flight → Prop
  | still {move} (h : move = .command → c.phase.rank = 0 ∨ c.phase.isBlocked = true) : Effect s now caller c move s
  | goes {move phase} (h : Goes s now c move phase) : Effect s now caller c move (setPhase s caller phase)
  | acquires (hphase : c.phase = .acquiring) (hlock : s.lock.get now = none) : Effect s now caller c .command
      { s with
        lock := Key.setPx s.nextToken now s.lockTtlMs
        nextToken := s.nextToken + 1
        callers := s.callers.modify caller fun c => { c with phase := .working s.nextToken now, worked := true } }
  | stores {token serialized} (hphase : c.phase = .storing token serialized) : Effect s now caller c .command (store s now caller token serialized)
  | pushes {token serialized} (hphase : c.phase = .pushing token serialized) (hqueue : s.queue = []) (signal : Key Nat) :
      Effect s now caller c .command (setPhase { s with signal } caller (.releasing token (some serialized)))
  | wakes {token serialized first rest} (hphase : c.phase = .pushing token serialized) (hqueue : s.queue = first :: rest) (signal : Key Nat) :
      Effect s now caller c .command
        (setPhase (setPhase { s with queue := rest, signal } first .getting) caller (.releasing token (some serialized)))
  | releases {token result} (hphase : c.phase = .releasing token result) : Effect s now caller c .command (release s now caller token result)
  | takes {timeoutMs} (hphase : c.phase = .popping timeoutMs) (signal : Key Nat) :
      Effect s now caller c .command (setPhase { s with signal } caller .getting)
  | blocks {timeoutMs} (hphase : c.phase = .popping timeoutMs) (hsignal : ∀ n expiresAt, s.signal.live now ≠ some ⟨n + 1, expiresAt⟩) :
      Effect s now caller c .command (setPhase { s with queue := s.queue ++ [caller] } caller (.blocked (now + timeoutMs)))
  | timesOut {timeoutAt} (hphase : c.phase = .blocked timeoutAt) (hle : timeoutAt ≤ now) :
      Effect s now caller c .timesOut (setPhase { s with queue := s.queue.filter (· != caller) } caller .getting)

section
variable {s : Flight} {now caller : Nat} {c : Caller}

theorem act_effect (move : Move) : Effect s now caller c move (act s now caller c move) := by
  unfold act
  split
  case h_1 hphase =>
    unfold get
    cases hresult : s.result.get now with
    | some serialized => exact .goes (.hit hphase hresult)
    | none => exact .goes (.miss hphase hresult)
  case h_2 hphase =>
    unfold acquire
    cases hlock : s.lock.get now with
    | some token => exact .goes (.busy hphase (by rw [hlock]; simp))
    | none => exact .acquires hphase hlock
  case h_3 hphase => exact .goes (.finished hphase)
  case h_4 hphase => exact .goes (.failed hphase)
  case h_5 hphase => exact .stores hphase
  case h_6 hphase =>
    unfold push
    simp only
    split
    case h_1 hqueue => exact .pushes hphase hqueue _
    case h_2 hqueue => exact .wakes hphase hqueue _
  case h_7 hphase => exact .releases hphase
  case h_8 hphase =>
    unfold check
    split
    case isTrue hexpired => exact .goes (.expired hphase hexpired)
    case isFalse hwithin => exact .goes (.waits hphase (Nat.not_le.1 hwithin))
  case h_9 hphase =>
    unfold pop
    split
    case h_1 => exact .takes hphase _
    case h_2 hsignal => exact .blocks hphase hsignal
  case h_10 hphase =>
    split
    case isTrue hle => exact .timesOut hphase hle
    case isFalse => exact .still fun hmove => by cases hmove
  case h_11 =>
    refine .still ?_
    rintro rfl
    cases hphase : c.phase <;> simp_all [Phase.rank, Phase.isBlocked]

/-! ## Who is in which phase -/

def phaseAt (s : Flight) (i : Nat) : Option Phase := (s.callers[i]?).map (·.phase)

@[simp] theorem phaseAt_setPhase (phase : Phase) (i : Nat) :
    phaseAt (setPhase s caller phase) i = if caller = i then (phaseAt s i).map fun _ => phase else phaseAt s i := by
  simp only [phaseAt, setPhase, List.getElem?_modify]
  cases s.callers[i]? <;> split <;> simp

theorem phaseAt_of_get (hget : s.callers[caller]? = some c) : phaseAt s caller = some c.phase := by
  rw [phaseAt, hget]
  rfl

theorem phaseAt_put (hget : s.callers[caller]? = some c) (phase : Phase) (i : Nat) :
    phaseAt (setPhase s caller phase) i = if caller = i then some phase else phaseAt s i := by
  rw [phaseAt_setPhase]
  split
  case isTrue heq => rw [← heq, phaseAt_of_get hget, Option.map_some]
  case isFalse => rfl

theorem mem_setPhase (hget : s.callers[caller]? = some c) {phase : Phase} {d : Caller} (hmem : d ∈ (setPhase s caller phase).callers) :
    d ∈ s.callers ∨ d = { c with phase } := by
  obtain ⟨i, hi⟩ := List.mem_iff_getElem?.1 hmem
  rw [setPhase, List.getElem?_modify] at hi
  obtain ⟨e, he, rfl⟩ := Option.map_eq_some_iff.1 hi
  split
  case isTrue heq =>
    subst heq
    obtain rfl : c = e := Option.some.inj (hget.symm.trans he)
    exact .inr rfl
  case isFalse => exact .inl (List.mem_of_getElem? he)

end

end Hyeboard.SingleFlight
