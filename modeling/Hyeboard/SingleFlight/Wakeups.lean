import Hyeboard.SingleFlight.Sound
/-!
# No wakeup is lost

In runs whose turns are orderly one caller works at a time, a caller that was there
when a result was stored returns a stored result, and no one waits for a signal that
does not come.
-/

namespace Hyeboard.SingleFlight

open ExpiringKeys

/-- What the order of the turns must leave out; judged by the flight before the turn. -/
def orderly (s : Flight) (turn : Turn) : Bool :=
  let lives := (s.result.get turn.now).isSome
  match turn.action with
  | .caller caller .command =>
    match s.callers[caller]? with
    | some c =>
      match c.phase with
      -- a caller that was there when a result was stored looks for it, and for the lock, while it lives
      | .getting => !c.sawStore || lives
      -- and nobody finds the lock free then, or when the lock of a caller that still works vanishes
      | .acquiring => (!c.sawStore || lives) && (!lives || (s.lock.get turn.now).isSome) && s.callers.all fun d =>
          match d.phase with
          | .working _ since => turn.now < since + s.lockTtlMs
          | _ => true
      -- nobody gave up before
      | .storing .. => s.callers.all fun d => d.worked || d.phase != .thrown
      -- one element wakes one caller
      | .pushing .. => !lives || s.queue.length ≤ 1 || (List.range s.callers.length).any fun i =>
          i != caller && (phaseAt s i).any Phase.isPushing
      | .checking => !c.sawStore || turn.now - c.startedAt < s.lockTtlMs
      | .popping _ => !lives || 0 < (s.signal.get turn.now).getD 0 || s.callers.any fun d => d.phase.isPushing
      | _ => true
    | none => true
  | _ => true

section
variable {s : Flight} {clock now caller : Nat} {c : Caller} {phase : Phase}

/-! ## One turn -/

theorem not_working (h : Sound s now) (hfree : s.lock.get now = none)
    (hworking : ∀ d ∈ s.callers, ∀ token since, d.phase = .working token since → now < since + s.lockTtlMs) (i token since : Nat) :
    phaseAt s i ≠ some (.working token since) := by
  intro hi
  obtain ⟨d, hd, hphase⟩ := Option.map_eq_some_iff.1 hi
  have hwithin := hworking d (List.mem_of_getElem? hd) token since hphase
  rw [h.locked i token since hi, Key.get_some, if_pos (by simpa [Entry.alive] using hwithin)] at hfree
  cases hfree

theorem signal_empty (h : ∀ n expiresAt, s.signal.live now ≠ some ⟨n + 1, expiresAt⟩) : (s.signal.get now).getD 0 = 0 := by
  rw [Key.get]
  cases hlive : s.signal.live now with
  | none => rfl
  | some entry =>
    obtain ⟨value, expiresAt⟩ := entry
    cases value with
    | zero => rfl
    | succ n => exact absurd hlive (h n expiresAt)

theorem Sound.act (h : Sound s now) (hget : s.callers[caller]? = some c) {move : Move}
    (horderly : orderly s ⟨now, .caller caller move⟩ = true) : Sound (act s now caller c move) now := by
  have heffect : Effect s now caller c move (SingleFlight.act s now caller c move) := act_effect move
  generalize SingleFlight.act s now caller c move = t at heffect
  cases heffect with
  | still => exact h
  | goes hgoes =>
    refine h.goes hget hgoes fun hmove hphase hexpired => ?_
    subst hmove
    simp only [orderly, hget, hphase, Bool.or_eq_true, Bool.not_eq_true', decide_eq_true_eq] at horderly
    exact horderly.resolve_right (by omega)
  | acquires hphase hlock =>
    simp only [orderly, hget, hphase, hlock, Option.isSome_none, Bool.or_false, Bool.and_eq_true, Bool.not_eq_true', Bool.or_eq_true] at horderly
    obtain ⟨⟨hsaw, hdead⟩, hworking⟩ := horderly
    refine h.acquires hget hphase (not_working h hlock fun d hd token since hphase => ?_) (hsaw.resolve_right (by rw [hdead]; simp))
    have hwithin := List.all_eq_true.1 hworking d hd
    rw [hphase] at hwithin
    exact of_decide_eq_true hwithin
  | stores hphase =>
    simp only [orderly, hget, hphase, List.all_eq_true, Bool.or_eq_true, bne_iff_ne] at horderly
    exact h.stores hget hphase horderly
  | pushes hphase hqueue signal => exact h.pushes hget hphase hqueue signal
  | wakes hphase hqueue signal =>
    simp only [orderly, hget, hphase, hqueue, Bool.or_eq_true, Bool.not_eq_true', decide_eq_true_eq, List.length_cons, List.any_eq_true,
      Bool.and_eq_true, bne_iff_ne] at horderly
    refine h.wakes hget hphase hqueue (fun hlives hsome => ?_) signal
    rcases horderly with (hdead | hone) | ⟨i, -, hother⟩
    · rw [Option.isSome_eq_false_iff, Option.isNone_iff_eq_none] at hdead
      exact absurd hdead hlives
    · exact absurd (List.length_eq_zero_iff.1 (by omega)) hsome
    · exact ⟨i, hother⟩
  | releases hphase => exact h.releases hget hphase
  | takes hphase signal => exact h.put hget hphase rfl rfl rfl (by simp [Phase.token?]) (by simp) (by simp) (by simp) signal
  | blocks hphase hsignal =>
    simp only [orderly, hget, hphase, Bool.or_eq_true, Bool.not_eq_true', decide_eq_true_eq, List.any_eq_true] at horderly
    refine h.blocks hget hphase fun hlives => ?_
    rcases horderly with (hdead | helement) | ⟨d, hd, hpushing⟩
    · rw [Option.isSome_eq_false_iff, Option.isNone_iff_eq_none] at hdead
      exact absurd hdead hlives
    · exact absurd helement (by rw [signal_empty hsignal]; simp)
    · obtain ⟨i, hi⟩ := List.mem_iff_getElem?.1 hd
      exact ⟨i, by rw [phaseAt_of_get hi]; exact hpushing⟩
  | timesOut hphase hle => exact h.timesOut hget hphase

theorem Sound.step (h : Sound s clock) {turn : Turn} (hle : clock ≤ turn.now) (horderly : orderly s turn = true) :
    Sound (step s turn).2 turn.now := by
  obtain ⟨now, action⟩ := turn
  have hlater := h.later hle
  cases action with
  | run => exact hlater.run
  | caller caller move =>
    unfold SingleFlight.step
    cases hget : s.callers[caller]? with
    | none => simpa [hget] using hlater
    | some c => simpa [hget] using hlater.act hget horderly

/-! ## Callers that saw a result -/

/-- What a turn of another caller does to a caller. -/
def Bystander (c d : Caller) : Prop := d.phase = c.phase ∨ c.phase.isBlocked = true ∧ d.phase = .getting

theorem bystander_setPhase {s' : Flight} {i : Nat} {b : Caller} (hne : caller ≠ i) (hget : s'.callers[i]? = some b) :
    (setPhase s' caller phase).callers[i]? = some b := by
  rw [setPhase, List.getElem?_modify_ne _ _ hne]
  exact hget

theorem act_bystander (h : Sound s now) (c : Caller) (move : Move) {i : Nat} {b : Caller} (hne : caller ≠ i)
    (hi : s.callers[i]? = some b) : ∃ d, (act s now caller c move).callers[i]? = some d ∧ Bystander b d := by
  have heffect : Effect s now caller c move (SingleFlight.act s now caller c move) := act_effect move
  generalize SingleFlight.act s now caller c move = t at heffect
  have hsame : ∀ (s' : Flight) (phase : Phase), s'.callers = s.callers →
      ∃ d, (setPhase s' caller phase).callers[i]? = some d ∧ Bystander b d :=
    fun s' phase heq => ⟨b, bystander_setPhase hne (heq ▸ hi), .inl rfl⟩
  cases heffect with
  | still => exact ⟨b, hi, .inl rfl⟩
  | goes _ | pushes _ _ _ | releases _ | takes _ _ | blocks _ _ | timesOut _ _ => exact hsame _ _ rfl
  | acquires _ _ => exact ⟨b, by rw [List.getElem?_modify_ne _ _ hne]; exact hi, .inl rfl⟩
  | stores _ =>
    have hnoted : (s.callers.map Caller.noteStore)[i]? = some b.noteStore := by
      rw [List.getElem?_map, hi]
      rfl
    exact ⟨b.noteStore, bystander_setPhase hne hnoted, .inl rfl⟩
  | @wakes token serialized first rest hphase hqueue signal =>
    by_cases heq : first = i
    · subst heq
      have hblocked := (h.queue first).1 (hqueue ▸ List.mem_cons_self)
      rw [phaseAt_of_get hi] at hblocked
      refine ⟨{ b with phase := .getting }, bystander_setPhase hne ?_, .inr ⟨hblocked, rfl⟩⟩
      rw [setPhase, List.getElem?_modify_eq, hi]
      rfl
    · exact ⟨b, bystander_setPhase hne (bystander_setPhase heq hi), .inl rfl⟩

theorem Bystander.rank_le {b d : Caller} (h : Bystander b d) : d.phase.rank ≤ b.phase.rank := by
  rcases h with heq | ⟨hblocked, heq⟩
  · exact Nat.le_of_eq (congrArg Phase.rank heq)
  · rw [heq]
    cases hphase : b.phase <;> simp_all [Phase.isBlocked, Phase.rank]

theorem getElem?_setPhase {s' : Flight} (hget : s'.callers[caller]? = some c) :
    (setPhase s' caller phase).callers[caller]? = some { c with phase } := by
  rw [setPhase, List.getElem?_modify_eq, hget]
  rfl

/-- A caller that saw a result goes down in rank with every command. -/
theorem act_rank (hget : s.callers[caller]? = some c) (hsaw : c.sawStore = true) (hok : c.Ok s.stored) {move : Move}
    (horderly : orderly s ⟨now, .caller caller move⟩ = true) :
    ∃ d, (act s now caller c move).callers[caller]? = some d ∧ d.phase.rank ≤ c.phase.rank ∧
      (move = .command → c.phase.rank ≠ 0 → c.phase.isBlocked = false → d.phase.rank < c.phase.rank) := by
  have hidle : c.phase.token? = none := by
    by_contra hbusy
    have hworked := hok.busy hbusy
    rw [(hok.saw hsaw).1] at hworked
    cases hworked
  have hdown : ∀ (s' : Flight) (phase : Phase), s'.callers = s.callers → phase.rank < c.phase.rank →
      ∃ d, (setPhase s' caller phase).callers[caller]? = some d ∧ d.phase.rank ≤ c.phase.rank ∧
        (move = .command → c.phase.rank ≠ 0 → c.phase.isBlocked = false → d.phase.rank < c.phase.rank) :=
    fun s' phase heq hlt => ⟨_, getElem?_setPhase (heq ▸ hget), Nat.le_of_lt hlt, fun _ _ _ => hlt⟩
  have heffect : Effect s now caller c move (SingleFlight.act s now caller c move) := act_effect move
  generalize SingleFlight.act s now caller c move = t at heffect
  cases heffect with
  | still hstill =>
    refine ⟨c, hget, Nat.le_refl _, fun hmove hrank hblocked => ?_⟩
    rcases hstill hmove with hzero | hwaits
    · exact absurd hzero hrank
    · rw [hblocked] at hwaits
      cases hwaits
  | goes hgoes =>
    cases hgoes with
    | hit hphase _ => exact hdown s _ rfl (by rw [hphase]; simp [Phase.rank])
    | miss hphase hresult => simp [orderly, hget, hphase, hsaw, hresult] at horderly
    | busy hphase _ => exact hdown s _ rfl (by rw [hphase]; simp [Phase.rank])
    | finished hphase | failed hphase =>
      rw [hphase] at hidle
      cases hidle
    | expired hphase hexpired =>
      simp only [orderly, hget, hphase, hsaw, Bool.not_true, Bool.false_or, decide_eq_true_eq] at horderly
      omega
    | waits hphase _ => exact hdown s _ rfl (by rw [hphase]; simp [Phase.rank])
  | acquires hphase hlock =>
    simp only [orderly, hget, hphase, hsaw, hlock, Bool.not_true, Bool.false_or, Option.isSome_none, Bool.or_false, Bool.and_eq_true,
      Bool.not_eq_true'] at horderly
    obtain ⟨⟨hlives, hdead⟩, -⟩ := horderly
    rw [hdead] at hlives
    cases hlives
  | stores hphase | pushes hphase _ _ | wakes hphase _ _ | releases hphase =>
    rw [hphase] at hidle
    cases hidle
  | takes hphase signal => exact hdown _ _ rfl (by rw [hphase]; simp [Phase.rank])
  | blocks hphase _ => exact hdown _ _ rfl (by rw [hphase]; simp [Phase.rank])
  | timesOut hphase _ => exact hdown _ _ rfl (by rw [hphase]; simp [Phase.rank])

theorem step_rank (h : Sound s clock) {turn : Turn} (hle : clock ≤ turn.now) (horderly : orderly s turn = true) {i : Nat}
    (hi : s.callers[i]? = some c) (hsaw : c.sawStore = true) :
    ∃ d, (step s turn).2.callers[i]? = some d ∧ d.phase.rank ≤ c.phase.rank ∧
      (turn.action = .caller i .command → c.phase.rank ≠ 0 → c.phase.isBlocked = false → d.phase.rank < c.phase.rank) := by
  obtain ⟨now, action⟩ := turn
  unfold SingleFlight.step
  cases action with
  | run =>
    refine ⟨c, ?_, Nat.le_refl _, fun heq => by cases heq⟩
    exact (List.getElem?_append_left (List.getElem?_eq_some_iff.1 hi).1).trans hi
  | caller caller move =>
    by_cases heq : caller = i
    · subst heq
      obtain ⟨d, hd, hrank, hdown⟩ := act_rank hi hsaw (h.callers c (List.mem_of_getElem? hi)) horderly
      refine ⟨d, by simpa [hi] using hd, hrank, fun hmove => hdown ?_⟩
      exact (Action.caller.inj hmove).2
    · cases hget : s.callers[caller]? with
      | none => exact ⟨c, by simpa [hget] using hi, Nat.le_refl _, fun hmove => absurd (Action.caller.inj hmove).1 heq⟩
      | some b =>
        obtain ⟨d, hd, hbystander⟩ := act_bystander (h.later hle) b move heq hi
        exact ⟨d, by simpa [hget] using hd, hbystander.rank_le, fun hmove => absurd (Action.caller.inj hmove).1 heq⟩

end

/-! ## Runs -/

/-- What a single flight is for. -/
structure Single (trace : List (Step Flight Turn Unit)) (s : Flight) (clock : Nat) : Prop where
  alone : ∀ i j token since token' since', phaseAt s i = some (.working token since) → phaseAt s j = some (.working token' since') → i = j
  once : ∀ c ∈ s.callers, c.sawStore = true → c.worked = false
  returns : ∀ c ∈ s.callers, c.sawStore = true → c.phase.rank = 0 → ∃ serialized ∈ s.stored, c.phase = .returned serialized
  /-- It has five more commands at most, until it returns. -/
  progress : ∀ e ∈ trace, ∀ i c, e.before.callers[i]? = some c → c.sawStore = true → ∃ d, e.after.callers[i]? = some d ∧
    d.phase.rank ≤ c.phase.rank ∧
    (e.call.action = .caller i .command → c.phase.rank ≠ 0 → c.phase.isBlocked = false → d.phase.rank < c.phase.rank)
  /-- While a result is stored, someone is still to push an element for who is blocked. -/
  awake : s.result.get clock ≠ none → (∃ i, (phaseAt s i).any Phase.isBlocked = true) → ∃ i, (phaseAt s i).any Phase.isPushing = true

section
variable {lockTtlMs : Nat} {trace : List (Step Flight Turn Unit)} {s : Flight} {clock : Nat}

theorem sound_start (lockTtlMs : Nat) : Sound (start lockTtlMs) 0 := by
  constructor <;> simp [start, phaseAt]

theorem Sound.alone (h : Sound s clock) {i j token since token' since' : Nat} (hi : phaseAt s i = some (.working token since))
    (hj : phaseAt s j = some (.working token' since')) : i = j := by
  have hlock := h.locked i token since hi
  rw [h.locked j token' since' hj] at hlock
  have htoken : token' = token := congrArg Entry.value (Option.some.inj hlock)
  exact h.owner i j _ _ token hi hj rfl (by rw [htoken]; rfl)

theorem Caller.Ok.returns {stored : List String} {c : Caller} (h : c.Ok stored) (hsaw : c.sawStore = true) (hrank : c.phase.rank = 0) :
    ∃ serialized ∈ stored, c.phase = .returned serialized := by
  obtain ⟨hworked, hthrown⟩ := h.saw hsaw
  have hbusy := h.busy
  rw [hworked] at hbusy
  cases hphase : c.phase with
  | returned serialized => exact ⟨serialized, h.returned serialized hphase hworked, rfl⟩
  | thrown => exact absurd hphase hthrown
  | working | storing | pushing | releasing =>
    rw [hphase] at hbusy
    exact absurd (hbusy (by simp [Phase.token?])) (by simp)
  | getting | acquiring | checking | popping | blocked =>
    rw [hphase] at hrank
    cases hrank

/-- In an orderly run the single flight is one. -/
theorem orderly_flight (h : FlightRun lockTtlMs trace s clock) (horderly : ∀ e ∈ trace, orderly e.before e.call = true) :
    Single trace s clock := by
  have hinvariant : (∀ e ∈ trace, orderly e.before e.call = true) → Sound s clock ∧ ∀ e ∈ trace, ∀ i c, e.before.callers[i]? = some c →
      c.sawStore = true → ∃ d, e.after.callers[i]? = some d ∧ d.phase.rank ≤ c.phase.rank ∧
      (e.call.action = .caller i .command → c.phase.rank ≠ 0 → c.phase.isBlocked = false → d.phase.rank < c.phase.rank) := by
    refine h.invariant (fun trace s clock => (∀ e ∈ trace, orderly e.before e.call = true) → Sound s clock ∧ ∀ e ∈ trace, ∀ i c,
      e.before.callers[i]? = some c → c.sawStore = true → ∃ d, e.after.callers[i]? = some d ∧ d.phase.rank ≤ c.phase.rank ∧
      (e.call.action = .caller i .command → c.phase.rank ≠ 0 → c.phase.isBlocked = false → d.phase.rank < c.phase.rank)) ?_ ?_
    · exact fun _ => ⟨sound_start lockTtlMs, List.forall_mem_nil _⟩
    · intro trace s clock turn _ ih hle _ horderly
      rw [List.forall_mem_append, List.forall_mem_singleton] at horderly
      obtain ⟨hsound, hprogress⟩ := ih horderly.1
      refine ⟨hsound.step hle horderly.2, ?_⟩
      rw [List.forall_mem_append, List.forall_mem_singleton]
      exact ⟨hprogress, fun i c hi hsaw => step_rank hsound hle horderly.2 hi hsaw⟩
  obtain ⟨hsound, hprogress⟩ := hinvariant horderly
  refine ⟨fun i j token since token' since' hi hj => hsound.alone hi hj, fun c hc hsaw => ((hsound.callers c hc).saw hsaw).1,
    fun c hc hsaw hrank => (hsound.callers c hc).returns hsaw hrank, hprogress, fun hlives hblocked => hsound.awake hlives ?_⟩
  obtain ⟨i, hi⟩ := hblocked
  exact List.ne_nil_of_mem ((hsound.queue i).2 hi)

end

/-! ## The second waiter -/

/-- A caller starts and finds no result. -/
def joins (now caller : Nat) : List Turn := [⟨now, .run⟩, ⟨now, .caller caller .command⟩, ⟨now, .caller caller .command⟩]

/-- It waits for the signal. -/
def waits (now caller : Nat) : List Turn := [⟨now, .caller caller .command⟩, ⟨now, .caller caller .command⟩]

/-- The work of a caller ends, and the result is stored and signalled. -/
def lands (now caller : Nat) : List Turn :=
  [⟨now, .caller caller (.finishes (some "\"result\""))⟩, ⟨now, .caller caller .command⟩, ⟨now, .caller caller .command⟩]

def pairTurns : List Turn := joins 0 0 ++ joins 10 1 ++ waits 10 1 ++ lands 5000 0 ++ [⟨5000, .caller 1 .command⟩, ⟨5001, .caller 0 .command⟩]

def tripleTurns : List Turn := joins 0 0 ++ joins 10 1 ++ waits 10 1 ++ joins 20 2 ++ waits 20 2 ++ lands 5000 0

theorem flight_run (turns : List Turn) (hsorted : (0 :: turns.map Turn.now).Pairwise (· ≤ ·))
    (hends : ∀ e ∈ execute step (start 60000) turns, workEnds e.before e.call = true) :
    ∃ clock, FlightRun 60000 (execute step (start 60000) turns) (stateAfter step (start 60000) turns) clock := by
  have hstart : FlightRun 60000 [] (start 60000) 0 := .start
  exact hstart.follow turns hsorted fun e hmem _ => hends e hmem

theorem orderly_flight_pair : ∃ clock, Single (execute step (start 60000) pairTurns) (stateAfter step (start 60000) pairTurns) clock := by
  obtain ⟨clock, hrun⟩ := flight_run pairTurns (by decide) (by decide +kernel)
  exact ⟨clock, orderly_flight hrun (by decide +kernel)⟩

/-- The element wakes one of two callers. -/
theorem wakeup_lost : ¬ ∀ (lockTtlMs : Nat) (trace : List (Step Flight Turn Unit)) (s : Flight) (clock : Nat),
    FlightRun lockTtlMs trace s clock → Single trace s clock := by
  intro h
  obtain ⟨clock, hrun⟩ := flight_run tripleTurns (by decide) (by decide +kernel)
  obtain rfl : clock = 5000 := hrun.clock_eq
  obtain ⟨i, hi⟩ := (h _ _ _ _ hrun).awake (by decide +kernel) ⟨2, by decide +kernel⟩
  have hpushed : ∀ c ∈ (stateAfter step (start 60000) tripleTurns).callers, c.phase.isPushing = false := by decide +kernel
  obtain ⟨c, hc, hpushing⟩ : ∃ c, (stateAfter step (start 60000) tripleTurns).callers[i]? = some c ∧ c.phase.isPushing = true := by
    simpa [phaseAt, Option.any_eq_true] using hi
  rw [hpushed c (List.mem_of_getElem? hc)] at hpushing
  cases hpushing

end Hyeboard.SingleFlight
