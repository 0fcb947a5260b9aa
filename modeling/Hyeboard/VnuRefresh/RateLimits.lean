import Hyeboard.Lib.FixedWindow
import Hyeboard.VnuRefresh.DurableObject
/-!
# The rate limits cannot be evaded

The refresh window and the activation window of the stored record are
fixed-window counters: whatever a call does to the record, it does to each
window one of the steps of `FixedWindow.Moves`. Refresh windows may start empty,
activation windows start with an activation.
-/

namespace Hyeboard.VnuRefresh

open FixedWindow

def RefreshWindow.toWindow (window : RefreshWindow) : Window := { count := window.count, resetAt := window.resetAt }

def slotWindow (slot : Option VnuRefreshControlState) : Option Window := slot.map (·.window.toWindow)

def slotActivationWindow (slot : Option VnuRefreshControlState) : Option Window :=
  (slot.bind (·.activationWindow)).map RefreshWindow.toWindow

/-- The answer of an accepted `beginRefresh`. -/
def isAccepted : Except String OperationResult → Bool
  | .ok (.beginRefresh (.accepted _)) => true
  | _ => false

/-- An `activatePair` that changes what is stored. -/
def isActivation (operation : Operation) (slot slot' : Option VnuRefreshControlState) : Bool :=
  match operation with
  | .activatePair _ => slot != slot'
  | _ => false

def acceptedRefresh (e : Served) : Bool := isAccepted e.result

def changedActivation (e : Served) : Bool := isActivation e.call.operation e.before.state e.after.state

section
variable {slot slot' : Option VnuRefreshControlState} {now : Nat} {operation : Operation}
  {answer : Except String OperationResult} {result : OperationResult} {next : VnuRefreshControlState}

/-! ## The refresh window -/

theorem spent_of_over (h : ∀ state, slot = some state → state.window.resetAt ≤ now) : Spent now (slotWindow slot) := by
  intro v hv
  obtain ⟨state, hs, rfl⟩ := Option.map_eq_some_iff.1 hv
  exact .inr (h state hs)

theorem clean_window_moves (slot : Option VnuRefreshControlState) (now : Nat) :
    Moves vnuRefreshWindowMs vnuRefreshAttemptLimit False now (slotWindow slot) false
      (some (cleanVnuRefreshState slot now).window.toWindow) := by
  rcases clean_window_cases slot now with ⟨state, rfl, -, hw⟩ | ⟨hover, hw⟩
  · rw [hw]
    exact .keep _
  · rw [hw]
    exact .reopen _ (spent_of_over hover) id

theorem Stores.window_eq (h : Stores slot now operation result next) (hb : isAccepted (.ok result) = false) :
    next.window = (cleanVnuRefreshState slot now).window := by
  cases h with
  | activate pair _ _ =>
    simp only [activated]
    split
    · split <;> rfl
    · rfl
  | begin _ _ _ _ _ _ => cases hb
  | _ => rfl

theorem refuses_not_accepted (h : operation.Refuses slot now result) : isAccepted (.ok result) = false := by
  rcases h with h | ⟨-, h⟩
  · cases operation with
    | activatePair _ | revokeLinkedPairByAccess _ | revokePrincipalByLinkedGrant _ =>
      simp only [Operation.shortcut, Option.ite_none_right_eq_some, Option.some.injEq] at h
      rw [← h.2]
      rfl
    | _ => cases h
  · cases operation with
    | checkAccess _ | alarm => cases h
    | _ =>
      simp only [Operation.verdict] at h
      repeat' split at h
      all_goals
        cases h
        try rfl

/-- Every call moves the refresh window as a fixed-window counter moves, and
counts exactly the accepted refreshes. -/
theorem Effect.moves_window (h : Effect slot now operation answer slot') :
    Moves vnuRefreshWindowMs vnuRefreshAttemptLimit False now (slotWindow slot) (isAccepted answer) (slotWindow slot') := by
  cases h with
  | threw _ _ => exact .keep _
  | refused result _ _ _ h =>
    rw [refuses_not_accepted h]
    exact .keep _
  | stored result next _ _ _ h =>
    cases hb : isAccepted (.ok result) with
    | false =>
      have hmoves := clean_window_moves slot now
      rwa [← h.window_eq hb] at hmoves
    | true =>
      cases h with
      | begin pair _ _ _ _ hroom =>
        show Moves _ _ _ _ _ true (some { (cleanVnuRefreshState slot now).window.toWindow with
          count := (cleanVnuRefreshState slot now).window.count + 1 })
        rcases clean_window_cases slot now with ⟨state, rfl, hlive, hw⟩ | ⟨hover, hw⟩
        · rw [hw] at hroom ⊢
          exact .count state.window.toWindow hlive hroom
        · rw [hw]
          exact .first _ (spent_of_over hover) (by decide)
      | _ => cases hb
  | cleaned result _ _ h hv =>
    have hother : isAccepted (.ok result) = false := by
      cases operation with
      | checkAccess _ | alarm =>
        cases hv
        rfl
      | _ => exact h.elim
    rw [hother]
    rcases cleanedSlot_cases slot now with hc | ⟨hc, hq⟩
    · rw [hc]
      exact clean_window_moves slot now
    · rw [hc]
      refine .drop _ fun v hv => ?_
      obtain ⟨state, rfl, rfl⟩ := Option.map_eq_some_iff.1 hv
      rcases clean_window_cases (some state) now with ⟨_, ⟨⟩, -, hw⟩ | ⟨hover, -⟩
      · exact .inl (hw ▸ (isQuiescent_iff.1 hq).2.2.2.2.1)
      · exact .inr (hover state rfl)

/-! ## The activation window -/

theorem isActivation_self (operation : Operation) (slot : Option VnuRefreshControlState) :
    isActivation operation slot slot = false := by
  cases operation <;> simp [isActivation]

theorem spent_of_no_activation (h : (cleanVnuRefreshState slot now).activationWindow = none) :
    Spent now (slotActivationWindow slot) := by
  intro v hv
  obtain ⟨window, hw, rfl⟩ := Option.map_eq_some_iff.1 hv
  by_contra hlive
  rw [not_or, Nat.not_le] at hlive
  rw [clean_activationWindow_eq_some.2 ⟨hw, Nat.pos_of_ne_zero hlive.1, hlive.2⟩] at h
  cases h

theorem clean_activation_moves (slot : Option VnuRefreshControlState) (now : Nat) :
    Moves vnuManualActivationWindowMs vnuManualActivationLimit True now (slotActivationWindow slot) false
      ((cleanVnuRefreshState slot now).activationWindow.map RefreshWindow.toWindow) := by
  cases hw : (cleanVnuRefreshState slot now).activationWindow with
  | none => exact .drop _ (spent_of_no_activation hw)
  | some window =>
    have hslot : slotActivationWindow slot = some window.toWindow := by
      rw [slotActivationWindow, (clean_activationWindow_eq_some.1 hw).1]
      rfl
    rw [hslot]
    exact .keep _

theorem Stores.activationWindow_eq (h : Stores slot now operation result next)
    (hop : ∀ pair, operation ≠ .activatePair pair) :
    next.activationWindow = (cleanVnuRefreshState slot now).activationWindow := by
  cases h with
  | activate pair _ _ => exact absurd rfl (hop pair)
  | _ => rfl

/-- Every call moves the activation window as an anchored counter moves, and
counts exactly the activations that change what is stored. -/
theorem Effect.moves_activation (h : Effect slot now operation answer slot') :
    Moves vnuManualActivationWindowMs vnuManualActivationLimit True now (slotActivationWindow slot)
      (isActivation operation slot slot') (slotActivationWindow slot') := by
  cases h with
  | threw _ _ =>
    rw [isActivation_self]
    exact .keep _
  | refused _ _ _ _ _ =>
    rw [isActivation_self]
    exact .keep _
  | stored result next _ _ hrot h =>
    by_cases hop : ∃ pair, operation = .activatePair pair
    · obtain ⟨pair, rfl⟩ := hop
      have hchanged : isActivation (.activatePair pair) slot (some next) = true := by
        simpa [isActivation] using (h.fresh hrot).1
      rw [hchanged]
      cases h with
      | activate _ _ hroom =>
        show Moves _ _ _ _ _ true (some (countActivation (cleanVnuRefreshState slot now) now).toWindow)
        unfold countActivation
        split
        · rename_i window hw
          obtain ⟨hslot, -, hlive⟩ := clean_activationWindow_eq_some.1 hw
          rw [slotActivationWindow, hslot]
          exact .count window.toWindow hlive (hroom window hw)
        · rename_i hw
          exact .first _ (spent_of_no_activation hw) (by decide)
    · have hplain : isActivation operation slot (some next) = false := by
        cases operation with
        | activatePair pair => exact absurd ⟨pair, rfl⟩ hop
        | _ => rfl
      rw [hplain]
      have hmoves := clean_activation_moves slot now
      rwa [← h.activationWindow_eq fun pair heq => hop ⟨pair, heq⟩] at hmoves
  | cleaned result _ _ h hv =>
    have hplain : isActivation operation slot (cleanedSlot slot now) = false := by
      cases operation with
      | activatePair pair => exact h.elim
      | _ => rfl
    rw [hplain]
    have hmoves := clean_activation_moves slot now
    rcases cleanedSlot_cases slot now with hc | ⟨hc, hq⟩
    · rw [hc]
      exact hmoves
    · rw [hc]
      rwa [(isQuiescent_iff.1 hq).2.2.2.2.2] at hmoves

end

/-! ## Every run -/

def refreshTick (e : Served) : Tick :=
  { now := e.call.now, hit := acceptedRefresh e, after := slotWindow e.after.state }

def activationTick (e : Served) : Tick :=
  { now := e.call.now, hit := changedActivation e, after := slotActivationWindow e.after.state }

section
variable {trace : List Served} {storage : Storage} {clock : Nat}

theorem PrincipalRun.refresh_log (h : PrincipalRun trace storage clock) :
    Log vnuRefreshWindowMs vnuRefreshAttemptLimit False (trace.map refreshTick) (slotWindow storage.state) clock := by
  refine h.invariant (fun trace storage clock => Log vnuRefreshWindowMs vnuRefreshAttemptLimit False
    (trace.map refreshTick) (slotWindow storage.state) clock) .start ?_
  intro trace s clock c _ ih hle _
  rw [List.map_append]
  exact .tick (refreshTick (stepOf serve s c)) ih hle (serve_effect s c).moves_window

theorem PrincipalRun.activation_log (h : PrincipalRun trace storage clock) :
    Log vnuManualActivationWindowMs vnuManualActivationLimit True (trace.map activationTick)
      (slotActivationWindow storage.state) clock := by
  refine h.invariant (fun trace storage clock => Log vnuManualActivationWindowMs vnuManualActivationLimit True
    (trace.map activationTick) (slotActivationWindow storage.state) clock) .start ?_
  intro trace s clock c _ ih hle _
  rw [List.map_append]
  exact .tick (activationTick (stepOf serve s c)) ih hle (serve_effect s c).moves_activation

/-- The calls of a trace in `[low, high)` that satisfy `p`. -/
def countBetween (p : Served → Bool) (low high : Nat) (trace : List Served) : Nat :=
  trace.countP fun e => p e && low ≤ e.call.now && e.call.now < high

theorem hits_refresh (low high : Nat) (trace : List Served) :
    hits low high (trace.map refreshTick) = countBetween acceptedRefresh low high trace := List.countP_map

theorem hits_activation (low high : Nat) (trace : List Served) :
    hits low high (trace.map activationTick) = countBetween changedActivation low high trace := List.countP_map

end

/-- The rate limits cannot be evaded. In any 15 minutes of any run at most ten
refreshes are accepted and nine activations change anything; while one stored
window lasts, at most five of each; and no call restarts a window that has
counted something before its end. -/
theorem rate_limits_hold {trace : List Served} {storage : Storage} {clock : Nat} (h : PrincipalRun trace storage clock) :
    (∀ low, countBetween acceptedRefresh low (low + 15 * 60 * 1000) trace ≤ 10 ∧
      countBetween changedActivation low (low + 15 * 60 * 1000) trace ≤ 9) ∧
    (∀ earlier block later resetAt, trace = earlier ++ block ++ later →
      ((∀ e ∈ block, ∃ state, e.after.state = some state ∧ state.window.resetAt = resetAt) →
        block.countP acceptedRefresh ≤ 5) ∧
      ((∀ e ∈ block, ∃ state window, e.after.state = some state ∧ state.activationWindow = some window ∧
        window.resetAt = resetAt) → block.countP changedActivation ≤ 5)) ∧
    ∀ e ∈ trace, ∀ state, e.before.state = some state →
      (0 < state.window.count → e.call.now < state.window.resetAt → ∃ next, e.after.state = some next ∧
        next.window.resetAt = state.window.resetAt ∧ state.window.count ≤ next.window.count) ∧
      ∀ window, state.activationWindow = some window → 0 < window.count → e.call.now < window.resetAt →
        ∃ next nextWindow, e.after.state = some next ∧ next.activationWindow = some nextWindow ∧
          nextWindow.resetAt = window.resetAt ∧ window.count ≤ nextWindow.count := by
  have hrefresh := PrincipalRun.refresh_log h
  have hactivation := PrincipalRun.activation_log h
  refine ⟨fun low => ⟨?_, ?_⟩, ?_, ?_⟩
  · rw [← hits_refresh]
    exact hrefresh.hits_le (by decide) low 1
  · rw [← hits_activation]
    exact hactivation.anchored_hits_le (by decide) (by decide) low 1
  · intro earlier block later resetAt htrace
    rw [htrace, List.map_append, List.map_append] at hrefresh hactivation
    refine ⟨fun hsame => ?_, fun hsame => ?_⟩
    · have hblock := hrefresh.block_hits_le (by decide) resetAt ?_
      · rwa [List.countP_map] at hblock
      · intro t ht
        obtain ⟨e, he, rfl⟩ := List.mem_map.1 ht
        obtain ⟨state, hs, hr⟩ := hsame e he
        exact ⟨state.window.toWindow, by simp [refreshTick, slotWindow, hs], hr⟩
    · have hblock := hactivation.block_hits_le (by decide) resetAt ?_
      · rwa [List.countP_map] at hblock
      · intro t ht
        obtain ⟨e, he, rfl⟩ := List.mem_map.1 ht
        obtain ⟨state, window, hs, hw, hr⟩ := hsame e he
        exact ⟨window.toWindow, by simp [activationTick, slotActivationWindow, hs, hw], hr⟩
  · intro e he state hbefore
    obtain ⟨earlier, later, htrace⟩ := List.append_of_mem he
    obtain ⟨s, c, _, -, -, -, rfl⟩ := h.cut htrace
    have heffect := serve_effect s c
    rw [show s.state = some state from hbefore] at heffect
    refine ⟨fun hcount hlive => ?_, fun window hw hcount hlive => ?_⟩
    · obtain ⟨v, hv, hreset, hle⟩ := heffect.moves_window.keeps_window hcount hlive
      obtain ⟨next, hnext, rfl⟩ := Option.map_eq_some_iff.1 hv
      exact ⟨next, hnext, hreset, hle⟩
    · have hslot : slotActivationWindow (some state) = some window.toWindow := by simp [slotActivationWindow, hw]
      have hmoves := heffect.moves_activation
      rw [hslot] at hmoves
      obtain ⟨v, hv, hreset, hle⟩ := hmoves.keeps_window hcount hlive
      obtain ⟨nextWindow, hnw, rfl⟩ := Option.map_eq_some_iff.1 hv
      obtain ⟨next, hnext, hnw⟩ := Option.bind_eq_some_iff.1 hnw
      exact ⟨next, nextWindow, hnext, hnw, hreset, hle⟩

/-- Six attempts within a second. -/
def limitedCalls : List Call :=
  ⟨.activatePair oldPair, testNow⟩ :: (List.range 6).flatMap fun i =>
    [⟨.beginRefresh oldPair, testNow + 2 * i + 1⟩, ⟨.abortRefresh oldPair false, testNow + 2 * i + 2⟩]

theorem rate_limits_hold_limited :
    countBetween acceptedRefresh testNow (testNow + 15 * 60 * 1000) (executed limitedCalls) ≤ 10 ∧
      countBetween changedActivation testNow (testNow + 15 * 60 * 1000) (executed limitedCalls) ≤ 9 := by
  obtain ⟨storage, clock, h⟩ := executed_run limitedCalls (by decide)
  exact (rate_limits_hold h).1 testNow

end Hyeboard.VnuRefresh
