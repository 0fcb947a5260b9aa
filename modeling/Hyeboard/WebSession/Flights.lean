import Hyeboard.WebSession.Refresh
/-!
# The flights of a client

A registered flight is under way and has a waiter that is still waiting
(`Consistent`), and only a registered flight is joined. So a flight that lost its
last waiter is dead, and what the handlers check is enough for them to commit only
on behalf of somebody.
-/

namespace Hyeboard.WebSession

namespace VnuRefreshDeps

variable {S : Type} {deps : VnuRefreshDeps S} {s : Refreshes S}

/-! ## Flights -/

structure Consistent (s : Refreshes S) : Prop where
  registered : ∀ key flight, s.registered key = some flight → ∃ f : Flight, s.all[flight]? = some f ∧ flightKey f.account = key ∧
    f.waiters ≠ [] ∧ ∀ outcome, f.phase ≠ .settled outcome
  waiting : ∀ flight (f : Flight), s.all[flight]? = some f → ∀ waiter ∈ f.waiters, ∃ w : Waiter, s.waiters[waiter]? = some w ∧
    w.flight = some flight ∧ w.result = none

theorem consistent_start (world : S) : Consistent (start world) := by
  constructor
  · intro key flight h
    cases h
  · intro flight f h
    cases h

theorem setFlight_get (flight other : Nat) (u : Flight → Flight) :
    (setFlight s flight u).all[other]? = if flight = other then s.all[other]?.map u else s.all[other]? := by
  simp only [setFlight, List.getElem?_modify]
  split <;> simp

theorem setResult_get (waiter other : Nat) (result : Except Thrown VnuRefreshOutcome) :
    (setResult s waiter result).waiters[other]? =
      if waiter = other then s.waiters[other]?.map ({ · with result := some result }) else s.waiters[other]? := by
  simp only [setResult, List.getElem?_modify]
  split <;> simp

/-- A flight changes, and loses waiters at most; while it is registered it keeps
one and stays under way. -/
theorem Consistent.setFlight (h : Consistent s) {flight : Nat} {f : Flight} (hget : s.all[flight]? = some f)
    {u : Flight → Flight} (haccount : (u f).account = f.account) (hwaiters : (u f).waiters ⊆ f.waiters)
    (hregistered : s.registered (flightKey f.account) = some flight → (u f).waiters ≠ [] ∧
      ∀ outcome, (u f).phase ≠ .settled outcome) : Consistent (VnuRefreshDeps.setFlight s flight u) := by
  constructor
  · intro key other hother
    obtain ⟨g, hg, hkey, hlive⟩ := h.registered key other hother
    rw [setFlight_get]
    by_cases hsame : flight = other
    · subst hsame
      rw [hget] at hg
      obtain rfl := Option.some.inj hg
      refine ⟨u f, by simp [hget], by rw [haccount, hkey], hregistered ?_⟩
      rw [hkey]
      exact hother
    · rw [if_neg hsame]
      exact ⟨g, hg, hkey, hlive⟩
  · intro other g hg waiter hmem
    rw [setFlight_get] at hg
    by_cases hsame : flight = other
    · subst hsame
      rw [if_pos rfl, hget, Option.map_some, Option.some.injEq] at hg
      subst hg
      exact h.waiting flight f hget waiter (hwaiters hmem)
    · rw [if_neg hsame] at hg
      exact h.waiting other g hg waiter hmem

theorem Consistent.deregister (h : Consistent s) (account : StoredAccount) (flight : Nat) :
    Consistent (VnuRefreshDeps.deregister s account flight) := by
  unfold VnuRefreshDeps.deregister
  split
  · refine ⟨?_, h.waiting⟩
    intro key other hother
    by_cases hkey : key = flightKey account
    · subst hkey
      simp only [Function.update_self] at hother
      cases hother
    · simp only [Function.update_of_ne hkey] at hother
      exact h.registered key other hother
  · exact h

theorem deregister_registered {account : StoredAccount} {flight : Nat} :
    (deregister s account flight).registered (flightKey account) ≠ some flight := by
  unfold VnuRefreshDeps.deregister
  split
  · simp
  · assumption

/-- A waiter that waits for no flight any more settles. -/
theorem Consistent.setResult (h : Consistent s) {waiter : Nat}
    (hgone : ∀ (flight : Nat) (f : Flight), s.all[flight]? = some f → waiter ∉ f.waiters) (result : Except Thrown VnuRefreshOutcome) :
    Consistent (VnuRefreshDeps.setResult s waiter result) := by
  refine ⟨h.registered, ?_⟩
  intro flight f hf other hmem
  obtain ⟨w, hw, hrest⟩ := h.waiting flight f hf other hmem
  have hne : waiter ≠ other := by
    rintro rfl
    exact hgone flight f hf hmem
  rw [setResult_get, if_neg hne]
  exact ⟨w, hw, hrest⟩

/-- A waiter is in the set of its own flight alone. -/
theorem Consistent.unique (h : Consistent s) {waiter flight other : Nat} {w : Waiter} {f : Flight}
    (hw : s.waiters[waiter]? = some w) (hflight : w.flight = some flight) (hf : s.all[other]? = some f)
    (hmem : waiter ∈ f.waiters) : other = flight := by
  obtain ⟨w', hw', hflight', -⟩ := h.waiting other f hf waiter hmem
  rw [hw] at hw'
  obtain rfl := Option.some.inj hw'
  rw [hflight] at hflight'
  exact (Option.some.inj hflight').symm

theorem deregister_setFlight (account : StoredAccount) (flight other : Nat) (u : Flight → Flight) :
    deregister (setFlight s other u) account flight = setFlight (deregister s account flight) other u := by
  unfold deregister
  by_cases hregistered : s.registered (flightKey account) = some flight
  · rw [if_pos hregistered, if_pos (by exact hregistered)]
    rfl
  · rw [if_neg hregistered, if_neg (by exact hregistered)]

theorem deregister_all (account : StoredAccount) (flight : Nat) : (deregister s account flight).all = s.all := by
  unfold deregister
  split <;> rfl

theorem deregister_waiters (account : StoredAccount) (flight : Nat) :
    (deregister s account flight).waiters = s.waiters := by
  unfold deregister
  split <;> rfl

variable (deps) in
/-- What `releaseWaiter` leaves: the waiter is in no set any more. -/
theorem releaseWaiter_spec (h : Consistent s) {flight waiter : Nat} {w : Waiter} (hw : s.waiters[waiter]? = some w)
    (hflight : w.flight = some flight) :
    Consistent (deps.releaseWaiter s flight waiter).2 ∧
      (∀ (other : Nat) (f : Flight), (deps.releaseWaiter s flight waiter).2.all[other]? = some f → waiter ∉ f.waiters) ∧
      (deps.releaseWaiter s flight waiter).2.waiters = s.waiters := by
  unfold VnuRefreshDeps.releaseWaiter
  split
  case h_1 hnone =>
    refine ⟨h, ?_, rfl⟩
    intro other f hf hmem
    rw [h.unique hw hflight hf hmem, hnone] at hf
    cases hf
  case h_2 f hf =>
    by_cases hmem : waiter ∈ f.waiters
    case neg =>
      rw [if_neg hmem]
      refine ⟨h, ?_, rfl⟩
      intro other g hg hother
      obtain rfl := h.unique hw hflight hg hother
      rw [hf] at hg
      exact hmem (Option.some.inj hg ▸ hother)
    case pos =>
      rw [if_pos hmem]
      have hgone : ∀ (other : Nat) (g : Flight) (left : List Nat), waiter ∉ left →
          (VnuRefreshDeps.setFlight s flight ({ · with waiters := left })).all[other]? = some g → waiter ∉ g.waiters := by
        intro other g left hleft hg hother
        rw [setFlight_get] at hg
        by_cases hsame : flight = other
        · rw [if_pos hsame] at hg
          obtain ⟨f', -, rfl⟩ := Option.map_eq_some_iff.1 hg
          exact hleft hother
        · rw [if_neg hsame] at hg
          exact hsame (h.unique hw hflight hg hother).symm
      have hleft : waiter ∉ f.waiters.filter (· ≠ waiter) := by simp
      simp only
      split
      case isTrue hempty =>
        -- the flight is deregistered before it is left alone
        rw [deregister_setFlight]
        have hget : (VnuRefreshDeps.deregister s f.account flight).all[flight]? = some f := by rw [deregister_all, hf]
        have hleave := (h.deregister f.account flight).setFlight hget
          (u := ({ · with waiters := f.waiters.filter (· ≠ waiter) })) rfl (List.filter_subset_self _)
          fun hregistered => absurd hregistered deregister_registered
        refine ⟨hleave.setFlight (by rw [setFlight_get, if_pos rfl, hget]; rfl) rfl (List.Subset.refl _) ?_, ?_, ?_⟩
        · exact fun hregistered => absurd hregistered deregister_registered
        · intro other g hg hother
          rw [setFlight_get, setFlight_get, deregister_all] at hg
          by_cases hsame : flight = other
          · rw [if_pos hsame, if_pos hsame, Option.map_map] at hg
            obtain ⟨f', -, rfl⟩ := Option.map_eq_some_iff.1 hg
            exact hleft hother
          · rw [if_neg hsame, if_neg hsame] at hg
            exact hsame (h.unique hw hflight hg hother).symm
        · exact deregister_waiters f.account flight
      case isFalse hleftover =>
        refine ⟨h.setFlight hf rfl (List.filter_subset_self _) ?_, fun other g hg => hgone other g _ hleft hg, rfl⟩
        intro hregistered
        obtain ⟨g, hg, -, -, hlive⟩ := h.registered _ flight hregistered
        rw [hf] at hg
        obtain rfl := Option.some.inj hg
        exact ⟨hleftover, hlive⟩

/-- A waiter's signal aborts. -/
theorem Consistent.leave (h : Consistent s) {flight waiter : Nat} {w : Waiter} (hw : s.waiters[waiter]? = some w)
    (hflight : w.flight = some flight) (result : Except Thrown VnuRefreshOutcome) :
    Consistent (VnuRefreshDeps.setResult (deps.releaseWaiter s flight waiter).2 waiter result) := by
  obtain ⟨hleft, hgone, -⟩ := releaseWaiter_spec deps h hw hflight
  exact hleft.setResult hgone result

/-- A caller joins a flight. -/
theorem Consistent.join (h : Consistent s) (flight : Nat) (hasSignal : Bool) :
    Consistent { VnuRefreshDeps.setFlight s flight (fun f => { f with waiters := f.waiters ++ [s.waiters.length] }) with
      waiters := s.waiters ++ [{ flight := some flight, hasSignal, result := none }] } := by
  constructor
  · intro key other hother
    obtain ⟨g, hg, hkey, hwaiters, hlive⟩ := h.registered key other hother
    simp only [setFlight_get]
    by_cases hsame : flight = other
    · rw [if_pos hsame, hg]
      exact ⟨_, rfl, hkey, by simp, hlive⟩
    · rw [if_neg hsame]
      exact ⟨g, hg, hkey, hwaiters, hlive⟩
  · have hold : ∀ (other : Nat) (g : Flight), s.all[other]? = some g → ∀ waiter ∈ g.waiters, ∃ w : Waiter,
        (s.waiters ++ [{ flight := some flight, hasSignal, result := none }])[waiter]? = some w ∧
          w.flight = some other ∧ w.result = none := by
      intro other g hg waiter hmem
      obtain ⟨w, hw, hrest⟩ := h.waiting other g hg waiter hmem
      rw [List.getElem?_append_left (List.getElem?_eq_some_iff.1 hw).1]
      exact ⟨w, hw, hrest⟩
    intro other g hg waiter hmem
    simp only [setFlight_get] at hg
    by_cases hsame : flight = other
    · subst hsame
      rw [if_pos rfl] at hg
      obtain ⟨f, hf, rfl⟩ := Option.map_eq_some_iff.1 hg
      rcases List.mem_append.1 hmem with hmem | hmem
      · exact hold flight f hf waiter hmem
      · rw [List.mem_singleton.1 hmem]
        exact ⟨_, List.getElem?_concat_length, rfl, rfl⟩
    · rw [if_neg hsame] at hg
      exact hold other g hg waiter hmem

/-- A caller finds no flight, and starts one. -/
theorem Consistent.create (h : Consistent s) (account : StoredAccount) (grant : String) (hasSignal : Bool) :
    Consistent { VnuRefreshDeps.setFlight (createFlight s account grant).2 s.all.length
        (fun f => { f with waiters := f.waiters ++ [s.waiters.length] }) with
      waiters := s.waiters ++ [{ flight := some s.all.length, hasSignal, result := none }] } := by
  have hall : ∀ other, (VnuRefreshDeps.setFlight (createFlight s account grant).2 s.all.length
      (fun f => { f with waiters := f.waiters ++ [s.waiters.length] })).all[other]? =
        if other = s.all.length then
          some { account, grant, waiters := [s.waiters.length], aborted := false, phase := .fetching }
        else s.all[other]? := by
    intro other
    rw [setFlight_get]
    by_cases hsame : s.all.length = other
    · subst hsame
      simp [createFlight]
    · rw [if_neg hsame, if_neg (Ne.symm hsame)]
      simp only [createFlight]
      rcases Nat.lt_or_gt_of_ne hsame with hlt | hgt
      · rw [List.getElem?_eq_none_iff.2 (by simp; omega), List.getElem?_eq_none_iff.2 (by omega)]
      · rw [List.getElem?_append_left hgt]
  constructor
  · intro key other hother
    simp only [hall]
    by_cases hkey : key = flightKey account
    · subst hkey
      have hnew : s.all.length = other := by
        simpa [VnuRefreshDeps.setFlight, createFlight] using hother
      subst hnew
      rw [if_pos rfl]
      exact ⟨_, rfl, rfl, List.cons_ne_nil _ _, fun _ hsettled => by cases hsettled⟩
    · have hbefore : s.registered key = some other := by
        simpa [VnuRefreshDeps.setFlight, createFlight, Function.update_of_ne hkey] using hother
      obtain ⟨g, hg, hrest⟩ := h.registered key other hbefore
      rw [if_neg (Nat.ne_of_lt (List.getElem?_eq_some_iff.1 hg).1)]
      exact ⟨g, hg, hrest⟩
  · intro other g hg waiter hmem
    simp only [hall] at hg
    by_cases hnew : other = s.all.length
    · subst hnew
      rw [if_pos rfl, Option.some.injEq] at hg
      subst hg
      rw [List.mem_singleton.1 hmem]
      exact ⟨_, List.getElem?_concat_length, rfl, rfl⟩
    · rw [if_neg hnew] at hg
      obtain ⟨w, hw, hrest⟩ := h.waiting other g hg waiter hmem
      refine ⟨w, ?_, hrest⟩
      simp only
      rw [List.getElem?_append_left (List.getElem?_eq_some_iff.1 hw).1]
      exact hw

/-- The promise of a flight moves on, and does not settle. -/
theorem Consistent.setPhase (h : Consistent s) {flight : Nat} {f : Flight} (hf : s.all[flight]? = some f)
    {phase : FlightPhase} (hphase : ∀ outcome, phase ≠ .settled outcome) :
    Consistent (VnuRefreshDeps.setPhase s flight phase) := by
  refine h.setFlight hf rfl (List.Subset.refl _) ?_
  intro hregistered
  obtain ⟨g, hg, -, hwaiters, -⟩ := h.registered _ flight hregistered
  rw [hf] at hg
  obtain rfl := Option.some.inj hg
  exact ⟨hwaiters, hphase⟩

/-- Other code changes the world. -/
theorem Consistent.setWorld (h : Consistent s) (world : S) : Consistent { s with world } := ⟨h.registered, h.waiting⟩

/-- A handler changes the world, and its flight moves on. -/
theorem Consistent.setBoth (h : Consistent s) (world : S) {flight : Nat} {f : Flight} (hf : s.all[flight]? = some f)
    {phase : FlightPhase} (hphase : ∀ outcome, phase ≠ .settled outcome) {calls : List DepCall} :
    Consistent (calls, VnuRefreshDeps.setPhase { s with world } flight phase).2 :=
  (h.setWorld world).setPhase hf hphase

/-- A caller without a grant is refused. -/
theorem Consistent.refuse (h : Consistent s) (world : S) (waiter : Waiter) :
    Consistent { s with world, waiters := s.waiters ++ [waiter] } := by
  refine ⟨h.registered, ?_⟩
  intro flight f hf other hmem
  obtain ⟨w, hw, hrest⟩ := h.waiting flight f hf other hmem
  refine ⟨w, ?_, hrest⟩
  simp only
  rw [List.getElem?_append_left (List.getElem?_eq_some_iff.1 hw).1]
  exact hw

theorem Consistent.joinFlight {t : Refreshes S} {flight : Nat} {signal : Option (Option (Option String))}
    (h : Consistent { VnuRefreshDeps.setFlight t flight (fun f => { f with waiters := f.waiters ++ [t.waiters.length] }) with
      waiters := t.waiters ++ [{ flight := some flight, hasSignal := signal.isSome, result := none }] }) :
    Consistent (deps.joinFlight t flight signal).2 := by
  unfold VnuRefreshDeps.joinFlight
  split
  · exact h.leave List.getElem?_concat_length rfl _
  · exact h

theorem Consistent.runVnuRefresh (h : Consistent s) (account : StoredAccount) (signal : Option (Option (Option String))) :
    Consistent (deps.runVnuRefresh s account signal).2 := by
  unfold VnuRefreshDeps.runVnuRefresh
  split
  · simp only
    split
    · exact h.refuse _ _
    · exact h.refuse s.world _
  · split
    case h_1 flight _ => exact (h.join flight signal.isSome).joinFlight
    case h_2 => exact (h.create account _ signal.isSome).joinFlight

theorem Consistent.onFulfilled (h : Consistent s) {flight : Nat} {f : Flight} (hf : s.all[flight]? = some f) (auth : AuthResult) :
    Consistent (deps.onFulfilled s flight f auth).2 := by
  unfold VnuRefreshDeps.onFulfilled
  split
  · split
    · exact h.setPhase hf (by simp)
    · split
      · exact h.setBoth _ hf (by simp)
      · exact h.setBoth _ hf (by simp)
      · exact h.setBoth _ hf (by simp)
  · exact h.setPhase hf (by simp)

theorem Consistent.onRejected (h : Consistent s) {flight : Nat} {f : Flight} (hf : s.all[flight]? = some f) (error : Thrown) :
    Consistent (deps.onRejected s flight f error).2 := by
  unfold VnuRefreshDeps.onRejected
  split
  · split
    · exact h.setBoth _ hf (by simp)
    · exact h.setPhase hf (by simp)
  · exact h.setPhase hf (by simp)

theorem Consistent.react (h : Consistent s) (flight : Nat) : Consistent (deps.react s flight).2 := by
  unfold VnuRefreshDeps.react
  split
  case h_1 => exact h
  case h_2 f hf =>
    split
    · exact h.onFulfilled hf _
    · exact h.onRejected hf _
    · have hget : (VnuRefreshDeps.deregister s f.account flight).all[flight]? = some f := by rw [deregister_all, hf]
      refine (h.deregister f.account flight).setFlight hget rfl (List.Subset.refl _) ?_
      exact fun hregistered => absurd hregistered deregister_registered
    · exact h
    · exact h

/-- A settled flight is not registered. -/
theorem Consistent.unregistered (h : Consistent s) {flight : Nat} {f : Flight} {outcome : Except Thrown VnuRefreshOutcome}
    (hf : s.all[flight]? = some f) (hsettled : f.phase = .settled outcome) :
    s.registered (flightKey f.account) ≠ some flight := by
  intro hregistered
  obtain ⟨g, hg, -, -, hlive⟩ := h.registered _ flight hregistered
  rw [hf] at hg
  obtain rfl := Option.some.inj hg
  exact hlive outcome hsettled

theorem Consistent.settle (h : Consistent s) (waiter : Nat) : Consistent (VnuRefreshDeps.settle s waiter) := by
  unfold VnuRefreshDeps.settle
  split
  case h_2 => exact h
  case h_1 flight hasSignal hw =>
    split
    case h_2 => exact h
    case h_1 account grant waiters aborted outcome hf =>
      have hleave := h.setFlight hf (u := fun f => { f with waiters := f.waiters.filter (· ≠ waiter) }) rfl
        (List.filter_subset_self _) fun hregistered => absurd hregistered (h.unregistered hf rfl)
      refine hleave.setResult ?_ outcome
      intro other g hg hmem
      rw [setFlight_get] at hg
      by_cases hsame : flight = other
      · rw [if_pos hsame] at hg
        obtain ⟨f', -, rfl⟩ := Option.map_eq_some_iff.1 hg
        simp at hmem
      · rw [if_neg hsame] at hg
        exact hsame (h.unique hw rfl hg hmem).symm

/-- What one turn preserves. -/
theorem Consistent.step (h : Consistent s) (turn : RefreshTurn S) : Consistent (deps.step s turn).2 := by
  cases turn with
  | call account signal => exact h.runVnuRefresh account signal
  | fetched flight result =>
    simp only [VnuRefreshDeps.step, VnuRefreshDeps.fetched]
    split
    case h_1 hf =>
      split
      · exact h.setPhase hf (by simp)
      · exact h.setPhase hf (by simp)
    case h_2 => exact h
  | react flight => exact h.react flight
  | settle waiter => exact h.settle waiter
  | abort waiter reason =>
    simp only [VnuRefreshDeps.step, VnuRefreshDeps.abort]
    split
    case h_1 hw => exact h.leave hw rfl _
    case h_2 => exact h
  | other world => exact h.setWorld world

/-! ## What becomes of one flight -/

/-- How often a flight in this phase may still call `commit`. -/
def commitsLeft : FlightPhase → Nat
  | .fetching | .fulfilled _ => 1
  | .rejected _ | .handled _ | .settled _ => 0

/-- How a flight may change; `joined` tells whether a caller may join it. -/
structure Evolves (joined : Prop) (f f' : Flight) : Prop where
  account : f'.account = f.account
  waiters : joined ∨ f'.waiters ⊆ f.waiters
  settled : ∀ outcome, f.phase = .settled outcome → f'.phase = .settled outcome
  commits : commitsLeft f'.phase ≤ commitsLeft f.phase

/-- The waiters of a flight change. -/
theorem Evolves.setWaiters {joined : Prop} {f : Flight} {waiters : List Nat} (h : joined ∨ waiters ⊆ f.waiters) :
    Evolves joined f { f with waiters } :=
  ⟨rfl, h, fun _ => id, Nat.le_refl _⟩

theorem Evolves.refl (joined : Prop) (f : Flight) : Evolves joined f f := .setWaiters (.inr (List.Subset.refl _))

/-- One flight of a state and what it is in the next. -/
def Follows (joined : Prop) (flight : Nat) (s t : Refreshes S) : Prop :=
  ∀ f, s.all[flight]? = some f → ∃ f', t.all[flight]? = some f' ∧ Evolves joined f f'

theorem Follows.of_all {joined : Prop} {flight : Nat} {t : Refreshes S} (hall : t.all = s.all) : Follows joined flight s t :=
  fun f hf => ⟨f, hall ▸ hf, .refl joined f⟩

theorem Follows.trans {joined : Prop} {flight : Nat} {t u : Refreshes S} (h : Follows joined flight s t)
    (h' : Follows joined flight t u) : Follows joined flight s u := by
  intro f hf
  obtain ⟨g, hg, hfg⟩ := h f hf
  obtain ⟨k, hk, hgk⟩ := h' g hg
  refine ⟨k, hk, hgk.account.trans hfg.account, ?_, fun outcome hsettled => hgk.settled outcome (hfg.settled outcome hsettled),
    Nat.le_trans hgk.commits hfg.commits⟩
  rcases hfg.waiters, hgk.waiters with ⟨hjoined | hsub, hjoined' | hsub'⟩
  · exact .inl hjoined
  · exact .inl hjoined
  · exact .inl hjoined'
  · exact .inr (List.Subset.trans hsub' hsub)

theorem Follows.setFlight {joined : Prop} {flight changed : Nat} {u : Flight → Flight}
    (hu : changed = flight → ∀ f, s.all[flight]? = some f → Evolves joined f (u f)) :
    Follows joined flight s (VnuRefreshDeps.setFlight s changed u) := by
  intro f hf
  rw [setFlight_get]
  by_cases hsame : changed = flight
  · rw [if_pos hsame, hf]
    exact ⟨u f, rfl, hu hsame f hf⟩
  · rw [if_neg hsame]
    exact ⟨f, hf, .refl joined f⟩

variable (deps) in
theorem follows_releaseWaiter (joined : Prop) (flight released waiter : Nat) :
    Follows joined flight s (deps.releaseWaiter s released waiter).2 := by
  unfold VnuRefreshDeps.releaseWaiter
  split
  case h_1 => exact Follows.of_all rfl
  case h_2 f hf =>
    split
    case isFalse => exact Follows.of_all rfl
    case isTrue =>
      have hleft : Follows joined flight s
          (VnuRefreshDeps.setFlight s released ({ · with waiters := f.waiters.filter (· ≠ waiter) })) := by
        apply Follows.setFlight
        rintro rfl g hg
        rw [hf] at hg
        obtain rfl := Option.some.inj hg
        exact .setWaiters (.inr (List.filter_subset_self _))
      simp only
      split
      · refine hleft.trans (Follows.trans (Follows.of_all (deregister_all f.account released)) ?_)
        exact Follows.setFlight fun _ g _ => ⟨rfl, .inr (List.Subset.refl _), fun _ => id, Nat.le_refl _⟩
      · exact hleft

theorem follows_setPhase {joined : Prop} {flight changed : Nat} {phase : FlightPhase}
    (hphase : ∀ f : Flight, s.all[changed]? = some f → (∀ outcome, f.phase ≠ .settled outcome) ∧
      commitsLeft phase ≤ commitsLeft f.phase) : Follows joined flight s (VnuRefreshDeps.setPhase s changed phase) := by
  apply Follows.setFlight
  rintro rfl f hf
  obtain ⟨hopen, hcommits⟩ := hphase f hf
  exact ⟨rfl, .inr (List.Subset.refl _), fun outcome hsettled => absurd hsettled (hopen outcome), hcommits⟩

theorem follows_react (joined : Prop) (flight changed : Nat) : Follows joined flight s (deps.react s changed).2 := by
  unfold VnuRefreshDeps.react
  split
  case h_1 => exact Follows.of_all rfl
  case h_2 f hf =>
    have hopen : ∀ {t : Refreshes S} {phase : FlightPhase}, t.all = s.all → (∀ outcome, f.phase ≠ .settled outcome) →
        commitsLeft phase = 0 → Follows joined flight s (VnuRefreshDeps.setPhase t changed phase) := by
      intro t phase hall hnot hcommits
      refine (Follows.of_all hall).trans (follows_setPhase ?_)
      intro g hg
      rw [hall, hf] at hg
      obtain rfl := Option.some.inj hg
      exact ⟨hnot, hcommits ▸ Nat.zero_le _⟩
    split <;> rename_i hphase
    · have hnot : ∀ outcome, f.phase ≠ .settled outcome := by simp [hphase]
      unfold VnuRefreshDeps.onFulfilled
      split
      · split
        · exact hopen rfl hnot rfl
        · split <;> exact hopen rfl hnot rfl
      · exact hopen rfl hnot rfl
    · have hnot : ∀ outcome, f.phase ≠ .settled outcome := by simp [hphase]
      unfold VnuRefreshDeps.onRejected
      split
      · split <;> exact hopen rfl hnot rfl
      · exact hopen rfl hnot rfl
    · exact hopen (deregister_all f.account changed) (by simp [hphase]) rfl
    · exact Follows.of_all rfl
    · exact Follows.of_all rfl

theorem follows_joinFlight {joined : Prop} {flight changed : Nat} {signal : Option (Option (Option String))}
    (hjoined : changed = flight → joined) : Follows joined flight s (deps.joinFlight s changed signal).2 := by
  have hset : Follows joined flight s
      (VnuRefreshDeps.setFlight s changed fun f => { f with waiters := f.waiters ++ [s.waiters.length] }) :=
    Follows.setFlight fun hsame f _ => .setWaiters (.inl (hjoined hsame))
  have hjoin : Follows joined flight s
      { VnuRefreshDeps.setFlight s changed (fun f => { f with waiters := f.waiters ++ [s.waiters.length] }) with
        waiters := s.waiters ++ [{ flight := some changed, hasSignal := signal.isSome, result := none }] } :=
    hset.trans (Follows.of_all rfl)
  unfold VnuRefreshDeps.joinFlight
  split
  · exact (hjoin.trans (follows_releaseWaiter deps joined flight changed s.waiters.length)).trans (Follows.of_all rfl)
  · exact hjoin

theorem follows_settle (joined : Prop) (flight waiter : Nat) : Follows joined flight s (VnuRefreshDeps.settle s waiter) := by
  unfold VnuRefreshDeps.settle
  split
  · split
    · exact Follows.setFlight fun _ g _ => .setWaiters (.inr (List.filter_subset_self _))
    · exact Follows.of_all rfl
  · exact Follows.of_all rfl

variable (deps) in
theorem follows_step (h : Consistent s) {flight : Nat} {f : Flight} (hf : s.all[flight]? = some f) (turn : RefreshTurn S) :
    Follows (s.registered (flightKey f.account) = some flight) flight s (deps.step s turn).2 := by
  cases turn with
  | call account signal =>
    simp only [VnuRefreshDeps.step, VnuRefreshDeps.runVnuRefresh]
    split
    · split <;> exact Follows.of_all rfl
    · split
      case h_1 changed hregistered =>
        apply follows_joinFlight
        rintro rfl
        obtain ⟨g, hg, hkey, -⟩ := h.registered _ changed hregistered
        rw [hf] at hg
        obtain rfl := Option.some.inj hg
        rw [hkey]
        exact hregistered
      case h_2 =>
        have hlength := (List.getElem?_eq_some_iff.1 hf).1
        have hcreate : ∀ grant, Follows (s.registered (flightKey f.account) = some flight) flight s
            (createFlight s account grant).2 := by
          intro grant g hg
          exact ⟨g, by simpa [createFlight, List.getElem?_append_left hlength] using hg, .refl _ g⟩
        refine (hcreate _).trans (follows_joinFlight fun hsame => ?_)
        rw [hsame] at hlength
        exact absurd hlength (Nat.lt_irrefl _)
  | fetched changed result =>
    simp only [VnuRefreshDeps.step, VnuRefreshDeps.fetched]
    split
    case h_1 hget =>
      have hopen : ∀ {phase : FlightPhase}, commitsLeft phase ≤ 1 → Follows (s.registered (flightKey f.account) = some flight)
          flight s (VnuRefreshDeps.setPhase s changed phase) := by
        intro phase hcommits
        apply follows_setPhase
        intro g hg
        rw [hget] at hg
        obtain rfl := Option.some.inj hg
        exact ⟨by simp, hcommits⟩
      split
      · exact hopen (Nat.le_refl 1)
      · exact hopen (Nat.zero_le 1)
    case h_2 => exact Follows.of_all rfl
  | react changed => exact follows_react _ flight changed
  | settle waiter => exact follows_settle _ flight waiter
  | abort waiter reason =>
    simp only [VnuRefreshDeps.step, VnuRefreshDeps.abort]
    split
    · exact (follows_releaseWaiter deps _ flight _ waiter).trans (Follows.of_all rfl)
    · exact Follows.of_all rfl
  | other world => exact Follows.of_all rfl

end VnuRefreshDeps

end Hyeboard.WebSession
