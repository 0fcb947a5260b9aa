import Hyeboard.CrossLookup.Pool
/-!
# How a search ends

Every turn that changes a search uses up some of `workLeft`, and once its probes
have settled a search that is not over can go on: so it ends. An abort decides
how, unless the search has thrown before.
-/

namespace Hyeboard.CrossLookup.Resolver

variable {resolver : Resolver} {s : ResolverState}

/-! ## The work that is left -/

/-- The candidates that may still be tried. -/
def candidatesLeft (s : ResolverState) : Nat :=
  match s.phase with
  | .first => 2 * localRadius
  | .racing => s.candidates.length - s.nextIndex
  | .settling _ | .draining _ | .settled _ => 0

def roundsLeft : ResolverPhase → Nat
  | .first => 4
  | .racing => 3
  | .settling _ => 2
  | .draining _ => 1
  | .settled _ => 0

/-- What the active probes still take: to settle, and to be looked at. -/
def probesLeft (probes : List ActiveProbe) : Nat := probes.countP (·.work.isNone) + probes.length

/-- An aborted signal does not abort again. -/
def abortLeft : Option Thrown → Nat
  | none => 1
  | some _ => 0

def workLeft (s : ResolverState) : Nat :=
  2 * candidatesLeft s + probesLeft s.active + roundsLeft s.phase + abortLeft s.callerCancellation

theorem probesLeft_filter (p : ActiveProbe → Bool) (probes : List ActiveProbe) :
    probesLeft (probes.filter p) ≤ probesLeft probes := by
  have hlength := List.length_filter_le p probes
  have hcount := (List.filter_sublist (p := p) (l := probes)).countP_le (p := fun probe => probe.work.isNone)
  simp only [probesLeft]
  omega

theorem probesLeft_filter_lt {p : ActiveProbe → Bool} {probes : List ActiveProbe} {probe : ActiveProbe}
    (hmem : probe ∈ probes) (hp : p probe = false) : probesLeft (probes.filter p) < probesLeft probes := by
  have hlength : (probes.filter p).length < probes.length :=
    List.length_filter_lt_length_iff_exists.2 ⟨probe, hmem, by simp [hp]⟩
  have hcount := (List.filter_sublist (p := p) (l := probes)).countP_le (p := fun probe => probe.work.isNone)
  simp only [probesLeft]
  omega

theorem probesLeft_cancel (reason : Thrown) (probes : List ActiveProbe) :
    probesLeft (probes.map (·.cancel reason)) = probesLeft probes := by
  simp only [probesLeft, List.length_map, List.countP_map]
  congr 2
  funext probe
  simp only [Function.comp, work_cancel]

/-- Either no probe settles, or less is left. -/
theorem map_settle (index : Option Nat) (outcome : ProbeOutcome) (probes : List ActiveProbe) :
    probes.map (fun probe => if probe.index = index then probe.settle outcome else probe) = probes ∨
      probesLeft (probes.map fun probe => if probe.index = index then probe.settle outcome else probe) <
        probesLeft probes := by
  induction probes with
  | nil => exact .inl rfl
  | cons probe rest ih =>
    simp only [List.map_cons, probesLeft, List.countP_cons, List.length_cons, List.length_map] at ih ⊢
    by_cases hsettles : probe.index = index ∧ probe.work = none
    · right
      rw [if_pos hsettles.1, ActiveProbe.settle, hsettles.2]
      simp only [Option.isNone_none, if_true, Option.isNone_some, Bool.false_eq_true, if_false]
      rcases ih with hsame | hless
      · rw [hsame]
        omega
      · omega
    · have hsame : (if probe.index = index then probe.settle outcome else probe) = probe := by
        split
        · rw [ActiveProbe.settle, if_neg fun hnone => hsettles ⟨‹_›, Option.isNone_iff_eq_none.1 hnone⟩]
        · rfl
      rw [hsame]
      rcases ih with hrest | hless
      · rw [hrest]
        exact .inl rfl
      · right
        omega

/-- Filling the pool takes from the candidates what it adds to the probes. -/
theorem probesLeft_fillPool (s : ResolverState) :
    2 * ((fillPool s).candidates.length - (fillPool s).nextIndex) + probesLeft (fillPool s).active =
      2 * (s.candidates.length - s.nextIndex) + probesLeft s.active := by
  apply fillPoolLoop_induction (P := fun t => 2 * (t.candidates.length - t.nextIndex) + probesLeft t.active =
    2 * (s.candidates.length - s.nextIndex) + probesLeft s.active) _ _ rfl
  intro t stdId ht _ _ hget
  have hlt := (List.getElem?_eq_some_iff.1 hget).1
  rw [← ht]
  simp only [startProbe, probesLeft, List.countP_append, List.length_append, List.countP_singleton, Option.isNone_none,
    if_true, List.length_singleton]
  omega

theorem workLeft_fail (s : ResolverState) (error : Thrown) :
    workLeft (fail s error) = probesLeft s.active + 1 + abortLeft s.callerCancellation := by
  simp only [workLeft, fail, candidatesLeft, abortActive, probesLeft_cancel, roundsLeft]
  omega

theorem workLeft_loop (s : ResolverState) :
    workLeft (loop (fillPool s)) ≤ 2 * (s.candidates.length - s.nextIndex) + probesLeft s.active + 3 +
      abortLeft s.callerCancellation := by
  have hfill := probesLeft_fillPool s
  have hcaller : (fillPool s).callerCancellation = s.callerCancellation := by
    obtain ⟨_, _, _, -, heq⟩ := fillPool_eq s
    rw [heq]
  unfold loop
  split
  · rw [workLeft_fail, hcaller]
    omega
  · simp only [workLeft, candidatesLeft, roundsLeft, hcaller]
    omega

/-! ## Every change uses it up -/

theorem workLeft_afterFirst (hphase : s.phase = .first) (probe : ActiveProbe) (outcome : ProbeOutcome) :
    workLeft (resolver.afterFirst s probe outcome) < workLeft s := by
  have hprobes := probesLeft_filter (fun probe => decide (probe.index ≠ none)) s.active
  have hleft : workLeft s = 2 * (2 * localRadius) + probesLeft s.active + 4 +
      abortLeft s.callerCancellation := by
    simp only [workLeft, candidatesLeft, hphase, roundsLeft]
  rw [hleft]
  unfold afterFirst
  simp only
  split
  · rw [workLeft_fail]
    simp only [delete]
    omega
  · rw [workLeft_fail]
    simp only [delete]
    omega
  · rw [workLeft_fail]
    simp only [delete]
    omega
  case h_4 studentCode _ _ =>
    split
    · simp only [workLeft, candidatesLeft, roundsLeft, delete]
      omega
    · have hwindow := resolver.length_candidates studentCode
      refine Nat.lt_of_le_of_lt (workLeft_loop _) ?_
      simp only [delete]
      omega

theorem workLeft_afterRace (hphase : s.phase = .racing) {index : Nat} {probe : ActiveProbe}
    (hfind : s.active.find? (·.index = some index) = some probe) (decision : ProbeDecision) :
    workLeft (resolver.afterRace s index decision) < workLeft s := by
  have hprobes : probesLeft (delete s (some index)).active < probesLeft s.active := by
    apply probesLeft_filter_lt (List.mem_of_find?_eq_some hfind)
    have := List.find?_some hfind
    simpa using this
  have hleft : workLeft s = 2 * (s.candidates.length - s.nextIndex) + probesLeft s.active + 3 +
      abortLeft s.callerCancellation := by
    simp only [workLeft, candidatesLeft, hphase, roundsLeft]
  rw [hleft]
  unfold afterRace
  split
  · simp only [workLeft, candidatesLeft, roundsLeft, abortActive, probesLeft_cancel]
    omega
  · simp only [workLeft, candidatesLeft, roundsLeft, abortActive, probesLeft_cancel]
    omega
  · simp only [workLeft, candidatesLeft, roundsLeft, abortActive, probesLeft_cancel]
    simp only [delete] at hprobes ⊢
    omega
  · simp only
    split
    · simp only [workLeft, candidatesLeft, roundsLeft, abortActive, probesLeft_cancel]
      simp only [delete] at hprobes ⊢
      omega
    · refine Nat.lt_of_le_of_lt (workLeft_loop _) ?_
      simp only [delete] at hprobes ⊢
      omega

theorem workLeft_afterSettling {next : AfterSettling} (hphase : s.phase = .settling next) :
    workLeft (resolver.afterSettling s next) < workLeft s := by
  have hleft : workLeft s = probesLeft s.active + 2 + abortLeft s.callerCancellation := by
    simp only [workLeft, candidatesLeft, hphase, roundsLeft]
    omega
  have hnone : probesLeft [] = 0 := rfl
  have hfail : ∀ error, workLeft (fail (clear s) error) < workLeft s := by
    intro error
    rw [workLeft_fail, hleft]
    simp only [clear, hnone]
    omega
  unfold afterSettling
  split
  · exact hfail _
  · exact hfail _
  · exact hfail _
  · split
    · exact hfail _
    · rw [hleft]
      simp only [workLeft, candidatesLeft, roundsLeft, clear, hnone]
      omega

theorem workLeft_wake (s : ResolverState) (index : Nat) :
    resolver.wake s index = s ∨ workLeft (resolver.wake s index) < workLeft s := by
  unfold wake
  split
  case h_1 hphase =>
    split
    · split
      · exact .inr (workLeft_afterFirst hphase _ _)
      · exact .inl rfl
    · exact .inl rfl
  case h_2 hphase =>
    split
    case h_1 decision hsome =>
      obtain ⟨probe, hfind, -⟩ := Option.bind_eq_some_iff.1 hsome
      exact .inr (workLeft_afterRace hphase hfind decision)
    case h_2 => exact .inl rfl
  case h_3 next hphase =>
    split
    · exact .inr (workLeft_afterSettling hphase)
    · exact .inl rfl
  case h_4 error hphase =>
    split
    · right
      simp only [workLeft, candidatesLeft, roundsLeft, clear, hphase, probesLeft]
      simp only [List.countP_nil, List.length_nil]
      omega
    · exact .inl rfl
  case h_5 => exact .inl rfl

/-- What one turn changes, it pays for. -/
theorem workLeft_step (s : ResolverState) (turn : Turn) :
    (resolver.step s turn).2 = s ∨ workLeft (resolver.step s turn).2 < workLeft s := by
  cases turn with
  | settle index outcome =>
    rcases map_settle index outcome s.active with hsame | hless
    · left
      simp only [step, hsame]
    · right
      simp only [workLeft, candidatesLeft, step]
      omega
  | abort reason =>
    simp only [step, abort]
    split
    · exact .inl rfl
    · exact .inl rfl
    case h_3 hcaller _ =>
      right
      simp only [workLeft, candidatesLeft, abortActive, probesLeft_cancel, hcaller, abortLeft]
      omega
  | wake index => exact workLeft_wake s index

/-- Only so many turns of a search change anything. -/
theorem changes_le (resolver : Resolver) (turns : List Turn) :
    ((execute resolver.step resolver.start turns).filter fun e => e.after ≠ e.before).length ≤ 71 := by
  have hleft : workLeft resolver.start = 71 := rfl
  rw [← hleft]
  apply Nat.le_trans (Nat.le_add_right _ _)
  exact changes_add_le workLeft workLeft_step turns resolver.start

/-- A search whose probes have settled goes on until it is over. -/
theorem settled_of_still (h : Sound resolver s) (hwork : ∀ probe ∈ s.active, probe.work.isSome = true)
    (hstill : ∀ index, resolver.wake s index = s) : ∃ result, s.phase = .settled result := by
  have hshaped := h.shaped
  have hall : s.active.all (·.work.isSome) = true := List.all_eq_true.2 hwork
  have hmoves : ∀ index, ¬ workLeft (resolver.wake s index) < workLeft s := by
    intro index hless
    rw [hstill index] at hless
    exact Nat.lt_irrefl _ hless
  rw [ResolverState.Shaped] at hshaped
  cases hphase : s.phase with
  | settled result => exact ⟨result, rfl⟩
  | first =>
    rw [hphase] at hshaped
    obtain ⟨⟨probe, hactive, -⟩, -⟩ := hshaped
    obtain ⟨outcome, hsome⟩ := Option.isSome_iff_exists.1 (hwork probe (hactive ▸ List.mem_singleton_self probe))
    refine absurd ?_ (hmoves 0)
    simp only [wake, hphase, hactive, hsome]
    exact workLeft_afterFirst hphase probe outcome
  | racing =>
    rw [hphase] at hshaped
    obtain ⟨probe, hmem⟩ := List.exists_mem_of_ne_nil _ hshaped.1
    obtain ⟨index, hindex⟩ := Option.ne_none_iff_exists'.1 (hshaped.2 probe hmem)
    have hfind : (s.active.find? (·.index = some index)).isSome = true := by
      rw [List.find?_isSome]
      exact ⟨probe, hmem, decide_eq_true hindex⟩
    obtain ⟨other, hother⟩ := Option.isSome_iff_exists.1 hfind
    obtain ⟨outcome, hsome⟩ := Option.isSome_iff_exists.1 (hwork other (List.mem_of_find?_eq_some hother))
    obtain ⟨decision, hdecision⟩ : ∃ decision, other.decision = some decision := by
      unfold ActiveProbe.decision
      cases other.cancelled with
      | none => exact ⟨.outcome outcome, congrArg (Option.map ProbeDecision.outcome) hsome⟩
      | some reason => exact ⟨_, rfl⟩
    refine absurd ?_ (hmoves index)
    simp only [wake, hphase, hother, Option.bind_some, hdecision]
    exact workLeft_afterRace hphase hother decision
  | settling next =>
    refine absurd ?_ (hmoves 0)
    simp only [wake, hphase, hall, if_true]
    exact workLeft_afterSettling hphase
  | draining error =>
    refine absurd (hstill 0) ?_
    simp only [wake, hphase, hall, if_true]
    intro hsame
    have := congrArg ResolverState.phase hsame
    rw [hphase] at this
    cases this

/-! ## The caller's abort -/

/-- The caller has aborted, and nothing has been thrown but its reason. -/
structure Rejecting (reason : Thrown) (s : ResolverState) : Prop where
  caller : s.callerCancellation = some reason
  phase : match s.phase with
    | .settling (.throws error) | .draining error => error = reason
    | .settled result => result = .error reason
    | .first | .racing | .settling (.fatal _) | .settling (.winner _) => True

theorem rejecting_abort (h : Sound resolver s) (hcaller : s.callerCancellation = none)
    (hdraining : ∀ error, s.phase ≠ .draining error) (hsettled : ∀ result, s.phase ≠ .settled result) (reason : Thrown) :
    Rejecting reason (abort s reason) := by
  have hshaped := h.shaped
  rw [ResolverState.Shaped] at hshaped
  have habort : abort s reason = { abortActive s reason with callerCancellation := some reason } := by
    unfold abort
    rw [hcaller]
    split
    case h_1 hphase => exact absurd hphase (hsettled _)
    case h_2 heq _ => cases heq
    case h_3 => rfl
  rw [habort]
  refine ⟨rfl, ?_⟩
  simp only [abortActive]
  cases hphase : s.phase with
  | first => trivial
  | racing => trivial
  | draining error => exact absurd hphase (hdraining error)
  | settled result => exact absurd hphase (hsettled result)
  | settling next =>
    rw [hphase] at hshaped
    cases next with
    | fatal error => trivial
    | winner stdId => trivial
    | throws error =>
      rw [show s.callerCancellation = some error from hshaped] at hcaller
      cases hcaller

theorem Rejecting.step {reason : Thrown} (h : Rejecting reason s) (turn : Turn) :
    Rejecting reason (resolver.step s turn).2 := by
  obtain ⟨hcaller, hphase⟩ := h
  cases turn with
  | settle index outcome => exact ⟨hcaller, hphase⟩
  | abort other =>
    simp only [Resolver.step, abort, hcaller]
    split
    case h_1 => exact ⟨hcaller, hphase⟩
    case h_2 => exact ⟨hcaller, hphase⟩
    case h_3 heq _ => cases heq
  | wake index =>
    simp only [Resolver.step, wake]
    split
    case h_1 =>
      split
      · split
        · simp only [afterFirst, delete, hcaller]
          exact ⟨rfl, rfl⟩
        · exact ⟨hcaller, hphase⟩
      · exact ⟨hcaller, hphase⟩
    case h_2 =>
      split
      · simp only [afterRace, hcaller]
        exact ⟨hcaller, rfl⟩
      · exact ⟨hcaller, hphase⟩
    case h_3 next hsettling =>
      split
      · rw [hsettling] at hphase
        unfold afterSettling
        cases next with
        | throws error => exact ⟨hcaller, hphase⟩
        | fatal error =>
          rw [hcaller]
          exact ⟨hcaller, rfl⟩
        | winner stdId =>
          rw [hcaller]
          exact ⟨hcaller, rfl⟩
      · exact ⟨hcaller, hphase⟩
    case h_4 error hdraining =>
      split
      · rw [hdraining] at hphase
        exact ⟨hcaller, congrArg Except.error hphase⟩
      · exact ⟨hcaller, hphase⟩
    case h_5 => exact ⟨hcaller, hphase⟩

theorem Rejecting.stateAfter {reason : Thrown} (turns : List Turn) : ∀ {s : ResolverState}, Rejecting reason s →
    Rejecting reason (stateAfter resolver.step s turns) := by
  induction turns with
  | nil => exact id
  | cons turn rest ih => exact fun h => ih (h.step turn)

end Hyeboard.CrossLookup.Resolver
