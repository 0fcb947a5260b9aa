import Hyeboard.Lib.Watch
import Hyeboard.VnuRefresh.RedisCoordinator
/-!
# The Redis coordinators of several replicas, interleaved

Each replica runs `transition` for any number of principals at once over its
one connection: a per-key queue keeps two transitions of one principal apart,
and nothing keeps transitions of different principals apart. Every command is
one event, so a run is any interleaving of the commands of all replicas. An
EXEC whose own WATCH still stands commits what was computed from the value the
key holds; a WATCH dropped by another principal's UNWATCH or EXEC on the same
connection protects nothing.
-/

namespace Hyeboard.VnuRefresh.Redis

open Watch

inductive Outcome where
  | threw
  | unchanged (result : OperationResult)
  | write (result : OperationResult) (next : Option VnuRefreshControlState)
deriving DecidableEq

/-- What `transition` makes of the value it got: `write none` deletes the key. -/
def compute (operation : Operation) (raw : Option VnuRefreshControlState) (now : Nat) : Outcome :=
  match parseVnuRefreshControlState (rawState raw) >>= fun stored => applyOperation operation stored now with
  | .error _ => .threw
  | .ok output =>
    if output.changed then
      .write output.result (if isQuiescentVnuRefreshState output.state then none else some output.state)
    else .unchanged output.result

/-- Where a transition stands: the command named is the next it sends. -/
inductive Progress where
  | idle
  | watch (operation : Operation) (attemptsLeft : Nat)
  | get (operation : Operation) (attemptsLeft : Nat)
  | exec (operation : Operation) (attemptsLeft : Nat) (raw : Option VnuRefreshControlState) (result : OperationResult)
    (next : Option VnuRefreshControlState)
  | unwatch (result : OperationResult)
  | finish (answer : Except String OperationResult)
deriving DecidableEq

/-- A replica's connection and a principal's key: one transition at a time. -/
abbrev Lane (R K : Type) := R × K

structure System (R K : Type) where
  server : Server R K VnuRefreshControlState
  queue : Lane R K → List Operation
  progress : Lane R K → Progress

inductive Event (R K : Type) where
  | call (lane : Lane R K) (operation : Operation)
  | advance (lane : Lane R K) (now : Nat)
  | expire (key : K)
deriving DecidableEq

/-- A command sent over a replica's connection; `finish` is the UNWATCH of the
`finally` block, after which the call returns. -/
inductive Command (R K : Type) where
  | watch (lane : Lane R K)
  | get (lane : Lane R K)
  | exec (lane : Lane R K) (raw next : Option VnuRefreshControlState) (committed : Bool)
  | unwatch (lane : Lane R K)
  | finish (lane : Lane R K) (answer : Except String OperationResult)
deriving DecidableEq

variable {R K : Type}

def System.empty : System R K := { server := .empty, queue := fun _ => [], progress := fun _ => .idle }

/-- The next pass of the loop, or the throw after the last. -/
def nextAttempt (operation : Operation) : Nat → Progress
  | 0 => .finish (.error vnuRefreshUnavailable)
  | attemptsLeft + 1 => .watch operation attemptsLeft

section
variable [DecidableEq R] [DecidableEq K]

def System.setProgress (s : System R K) (lane : Lane R K) (progress : Progress) : System R K :=
  { s with progress := Function.update s.progress lane progress }

/-- The lane's transition sends its next command. -/
def advance (maxAttempts : Nat) (s : System R K) (lane : Lane R K) (now : Nat) : Option (Command R K) × System R K :=
  match s.progress lane with
  | .idle =>
    -- `serialize`: the next call on the key starts when the one before it is done
    match s.queue lane with
    | [] => (none, s)
    | operation :: rest =>
      (none, { s with queue := Function.update s.queue lane rest }.setProgress lane (nextAttempt operation maxAttempts))
  | .watch operation attemptsLeft =>
    (some (.watch lane),
      { s with server := s.server.watch lane.1 lane.2 }.setProgress lane (.get operation attemptsLeft))
  | .get operation attemptsLeft =>
    let raw := s.server.value lane.2
    (some (.get lane), s.setProgress lane
      (match compute operation raw now with
      | .threw => .finish (.error vnuRefreshUnavailable)
      | .unchanged result => .unwatch result
      | .write result next => .exec operation attemptsLeft raw result next))
  | .exec operation attemptsLeft raw result next =>
    let (committed, server) := s.server.exec lane.1 lane.2 next
    (some (.exec lane raw next committed),
      { s with server }.setProgress lane (if committed then .finish (.ok result) else nextAttempt operation attemptsLeft))
  | .unwatch result =>
    (some (.unwatch lane), { s with server := s.server.unwatch lane.1 }.setProgress lane (.finish (.ok result)))
  | .finish answer => (some (.finish lane answer), { s with server := s.server.unwatch lane.1 }.setProgress lane .idle)

def System.step (maxAttempts : Nat) (s : System R K) : Event R K → Option (Command R K) × System R K
  | .call lane operation =>
    match operation.pairs.mapM fun pair => assertLinkedPair pair.toJs with
    | .error _ => (none, s)
    | .ok _ => (none, { s with queue := Function.update s.queue lane (s.queue lane ++ [operation]) })
  | .advance lane now => advance maxAttempts s lane now
  | .expire key =>
    match s.server.value key with
    | none => (none, s)
    | some _ => (none, { s with server := s.server.put key none })

/-- One event, the command it sent if any, and the system around it. -/
abbrev Moved (R K : Type) := Step (System R K) (Event R K) (Option (Command R K))

/-- Any interleaving of the replicas' commands, from an empty server. -/
abbrev ConcurrentRun (maxAttempts : Nat) :=
  Run (System.step (R := R) (K := K) maxAttempts) (fun _ => 0) (fun _ _ _ => True) System.empty

/-! ## What a transition holds onto -/

/-- A transition about to send EXEC computed its write from a value its watch
still guards. -/
def Consistent (s : System R K) : Prop :=
  ∀ lane operation attemptsLeft raw result next, s.progress lane = .exec operation attemptsLeft raw result next →
    s.server.Guarded lane.1 lane.2 raw ∧ ∃ now, compute operation raw now = .write result next

variable {s s' : System R K} {lane : Lane R K} {progress : Progress}

/-- One lane moves on, and its command leaves what the others guard. -/
theorem Consistent.moves (h : Consistent s) (hprogress : s'.progress = Function.update s.progress lane progress)
    (hserver : ∀ other raw, other ≠ lane → s.server.Guarded other.1 other.2 raw → s'.server.Guarded other.1 other.2 raw)
    (hlane : ∀ operation attemptsLeft raw result next, progress = .exec operation attemptsLeft raw result next →
      s'.server.Guarded lane.1 lane.2 raw ∧ ∃ now, compute operation raw now = .write result next) : Consistent s' := by
  intro other operation attemptsLeft raw result next hother
  rw [hprogress] at hother
  by_cases hne : other = lane
  · subst hne
    rw [Function.update_self] at hother
    exact hlane _ _ _ _ _ hother
  · rw [Function.update_of_ne hne] at hother
    obtain ⟨hguard, hnow⟩ := h _ _ _ _ _ _ hother
    exact ⟨hserver other raw hne hguard, hnow⟩

theorem nextAttempt_ne_exec {operation op : Operation} {attemptsLeft left : Nat} {raw next : Option VnuRefreshControlState}
    {result : OperationResult} : nextAttempt operation attemptsLeft ≠ .exec op left raw result next := by
  cases attemptsLeft <;> simp [nextAttempt]

theorem Consistent.advance (h : Consistent s) (maxAttempts : Nat) (lane : Lane R K) (now : Nat) :
    Consistent (advance maxAttempts s lane now).2 := by
  unfold Redis.advance
  cases hp : s.progress lane with
  | idle =>
    cases hq : s.queue lane with
    | nil => exact h
    | cons operation rest =>
      exact h.moves rfl (fun _ _ _ hg => hg) fun _ _ _ _ _ heq => absurd heq nextAttempt_ne_exec
  | watch operation attemptsLeft =>
    refine h.moves rfl (fun other raw hne hg => hg.watch hne) ?_
    intro _ _ _ _ _ heq
    cases heq
  | get operation attemptsLeft =>
    refine h.moves rfl (fun _ _ _ hg => hg) ?_
    intro op left raw result next heq
    cases hc : compute operation (s.server.value lane.2) now with
    | threw => rw [hc] at heq; cases heq
    | unchanged result => rw [hc] at heq; cases heq
    | write result next =>
      rw [hc] at heq
      cases heq
      exact ⟨Server.guarded_of_value rfl, now, hc⟩
  | exec operation attemptsLeft raw result next =>
    refine h.moves rfl (fun other raw _ hg => hg.exec lane.1 lane.2 next) ?_
    intro op left raw' result' next' heq
    split at heq
    · cases heq
    · exact absurd heq nextAttempt_ne_exec
  | unwatch result =>
    refine h.moves rfl (fun other raw _ hg => hg.unwatch lane.1) ?_
    intro _ _ _ _ _ heq
    cases heq
  | finish answer =>
    refine h.moves rfl (fun other raw _ hg => hg.unwatch lane.1) ?_
    intro _ _ _ _ _ heq
    cases heq

theorem Consistent.step (h : Consistent s) (maxAttempts : Nat) (event : Event R K) :
    Consistent (s.step maxAttempts event).2 := by
  cases event with
  | call lane operation =>
    simp only [System.step]
    split <;> exact h
  | advance lane now => exact h.advance maxAttempts lane now
  | expire key =>
    simp only [System.step]
    split
    · exact h
    · intro lane operation attemptsLeft raw result next hp
      obtain ⟨hguard, hnow⟩ := h _ _ _ _ _ _ hp
      exact ⟨hguard.put key none, hnow⟩

/-! ## Undisturbed watches -/

def Command.isWatchOf (lane : Lane R K) : Command R K → Bool
  | .watch other => other == lane
  | _ => false

/-- EXEC and UNWATCH drop every watch of their connection. -/
def Command.Drops (replica : R) : Command R K → Prop
  | .exec other _ _ _ | .unwatch other | .finish other _ => other.1 = replica
  | .watch _ | .get _ => False

instance (replica : R) : (command : Command R K) → Decidable (command.Drops replica)
  | .exec other _ _ _ | .unwatch other | .finish other _ => inferInstanceAs (Decidable (other.1 = replica))
  | .watch _ | .get _ => inferInstanceAs (Decidable False)

/-- Since the lane's last WATCH no EXEC or UNWATCH was sent on its connection. -/
def Undisturbed (lane : Lane R K) (commands : List (Command R K)) : Prop :=
  ∀ command ∈ commands.reverse.takeWhile fun command => !command.isWatchOf lane, ¬ command.Drops lane.1

instance (lane : Lane R K) (sent : List (Command R K)) : Decidable (Undisturbed lane sent) :=
  inferInstanceAs (Decidable (∀ _ ∈ _, _))

/-- The commands of a run, in the order the server executed them. -/
def commands (trace : List (Moved R K)) : List (Command R K) :=
  trace.filterMap (·.result)

theorem undisturbed_snoc {sent : List (Command R K)} {command : Command R K}
    (h : Undisturbed lane (sent ++ [command])) (hother : command.isWatchOf lane = false) :
    Undisturbed lane sent ∧ ¬ command.Drops lane.1 := by
  unfold Undisturbed at h
  rw [List.reverse_append, List.reverse_singleton, List.singleton_append, List.takeWhile_cons, hother] at h
  exact ⟨fun other hmem => h other (List.mem_cons_of_mem _ hmem), h command List.mem_cons_self⟩

/-- Between its WATCH and its EXEC. -/
def Progress.Watching : Progress → Prop
  | .get _ _ | .exec _ _ _ _ _ => True
  | _ => False

/-- A transition past its WATCH that nothing disturbed still has its watch. -/
def Watched (s : System R K) (sent : List (Command R K)) : Prop :=
  ∀ lane, (s.progress lane).Watching → Undisturbed lane sent → s.server.watched lane.1 lane.2 = true

theorem Watched.moves {sent : List (Command R K)} {command : Command R K} (h : Watched s sent)
    (hprogress : s'.progress = Function.update s.progress lane progress)
    (hother : ∀ other, other ≠ lane → command.isWatchOf other = false)
    (hserver : ∀ other, other ≠ lane → ¬ command.Drops other.1 → s.server.watched other.1 other.2 = true →
      s'.server.watched other.1 other.2 = true)
    (hlane : progress.Watching → Undisturbed lane (sent ++ [command]) → s'.server.watched lane.1 lane.2 = true) :
    Watched s' (sent ++ [command]) := by
  intro other hwatching hundisturbed
  rw [hprogress] at hwatching
  by_cases hne : other = lane
  · subst hne
    rw [Function.update_self] at hwatching
    exact hlane hwatching hundisturbed
  · rw [Function.update_of_ne hne] at hwatching
    obtain ⟨hbefore, hkept⟩ := undisturbed_snoc hundisturbed (hother other hne)
    exact hserver other hne hkept (h other hwatching hbefore)

theorem nextAttempt_not_watching {operation : Operation} {attemptsLeft : Nat} :
    ¬ (nextAttempt operation attemptsLeft).Watching := by
  cases attemptsLeft <;> exact id

theorem Watched.advance {sent : List (Command R K)} (h : Watched s sent) (maxAttempts : Nat) (lane : Lane R K)
    (now : Nat) : Watched (advance maxAttempts s lane now).2 (sent ++ (advance maxAttempts s lane now).1.toList) := by
  unfold Redis.advance
  cases hp : s.progress lane with
  | idle =>
    cases hq : s.queue lane with
    | nil => simpa using h
    | cons operation rest =>
      simp only [Option.toList_none, List.append_nil]
      intro other hwatching hundisturbed
      by_cases hne : other = lane
      · subst hne
        simp only [System.setProgress, Function.update_self] at hwatching
        exact absurd hwatching nextAttempt_not_watching
      · simp only [System.setProgress, Function.update_of_ne hne] at hwatching
        exact h other hwatching hundisturbed
  | watch operation attemptsLeft =>
    refine h.moves rfl ?_ ?_ ?_
    · intro other hne
      exact beq_false_of_ne hne.symm
    · intro other hne _ hwatched
      exact (Server.watch_watched_of_ne hne).trans hwatched
    · intro _ _
      exact Server.watch_watched_self
  | get operation attemptsLeft =>
    refine h.moves rfl (fun _ _ => rfl) (fun _ _ _ hwatched => hwatched) ?_
    intro _ hundisturbed
    refine h lane ?_ (undisturbed_snoc hundisturbed rfl).1
    rw [hp]
    trivial
  | exec operation attemptsLeft raw result next =>
    refine h.moves rfl (fun _ _ => rfl) ?_ ?_
    · intro other _ hkept hwatched
      exact (Server.exec_watched_of_ne fun hc => hkept hc.symm).trans hwatched
    · intro hwatching _
      split at hwatching
      · exact hwatching.elim
      · exact absurd hwatching nextAttempt_not_watching
  | unwatch result =>
    refine h.moves rfl (fun _ _ => rfl) ?_ fun hwatching _ => hwatching.elim
    intro other _ hkept hwatched
    exact (Server.unwatch_watched_of_ne fun hc => hkept hc.symm).trans hwatched
  | finish answer =>
    refine h.moves rfl (fun _ _ => rfl) ?_ fun hwatching _ => hwatching.elim
    intro other _ hkept hwatched
    exact (Server.unwatch_watched_of_ne fun hc => hkept hc.symm).trans hwatched

theorem Watched.step {sent : List (Command R K)} (h : Watched s sent) (maxAttempts : Nat) (event : Event R K) :
    Watched (s.step maxAttempts event).2 (sent ++ (s.step maxAttempts event).1.toList) := by
  cases event with
  | call lane operation =>
    simp only [System.step]
    split
    all_goals
      rw [Option.toList_none, List.append_nil]
      exact h
  | advance lane now => exact h.advance maxAttempts lane now
  | expire key =>
    simp only [System.step]
    split
    all_goals
      rw [Option.toList_none, List.append_nil]
      exact h

/-! ## Commits -/

theorem ConcurrentRun.invariants {maxAttempts clock : Nat} {trace : List (Moved R K)}
    (h : ConcurrentRun maxAttempts trace s clock) : Consistent s ∧ Watched s (commands trace) := by
  refine h.invariant (fun trace s _ => Consistent s ∧ Watched s (commands trace)) ?_ ?_
  · exact ⟨fun _ _ _ _ _ _ hp => Progress.noConfusion hp, fun _ hwatching => hwatching.elim⟩
  intro trace s clock event _ ⟨hconsistent, hwatched⟩ _ _
  refine ⟨hconsistent.step maxAttempts event, ?_⟩
  have hsent : commands (trace ++ [stepOf (System.step maxAttempts) s event]) =
      commands trace ++ (s.step maxAttempts event).1.toList := by
    unfold commands
    rw [List.filterMap_append]
    cases hsent : (s.step maxAttempts event).1 <;> simp [stepOf, hsent]
  rw [hsent]
  exact hwatched.step maxAttempts event

/-- Only a transition at its EXEC sends one. -/
theorem step_exec {maxAttempts : Nat} {event : Event R K} {raw next : Option VnuRefreshControlState}
    (h : (s.step maxAttempts event).1 = some (.exec lane raw next true)) :
    (∃ operation attemptsLeft result, s.progress lane = .exec operation attemptsLeft raw result next) ∧
      (s.server.exec lane.1 lane.2 next).1 = true ∧
      (s.step maxAttempts event).2.server = (s.server.exec lane.1 lane.2 next).2 := by
  cases event with
  | call other operation =>
    simp only [System.step] at h
    split at h <;> cases h
  | expire key =>
    simp only [System.step] at h
    split at h <;> cases h
  | advance other now =>
    simp only [System.step] at h ⊢
    unfold Redis.advance at h ⊢
    cases hp : s.progress other with
    | idle =>
      rw [hp] at h
      cases hq : s.queue other with
      | nil => rw [hq] at h; cases h
      | cons operation rest => rw [hq] at h; cases h
    | exec operation attemptsLeft read result write =>
      rw [hp] at h
      simp only [Option.some.injEq, Command.exec.injEq] at h
      obtain ⟨rfl, rfl, rfl, hexec⟩ := h
      exact ⟨⟨operation, attemptsLeft, result, hp⟩, hexec, rfl⟩
    | _ => rw [hp] at h; cases h

end

/-- In any interleaving, a transition whose watch nothing on its connection
disturbed commits what it computed from the value its key held just before. -/
theorem undisturbed_commits_current [DecidableEq R] [DecidableEq K] {maxAttempts clock : Nat}
    {trace : List (Moved R K)} {s : System R K} (h : ConcurrentRun maxAttempts trace s clock)
    {earlier later : List (Moved R K)} {e : Moved R K} (htrace : trace = earlier ++ e :: later) {lane : Lane R K}
    {raw next : Option VnuRefreshControlState} (hcommit : e.result = some (.exec lane raw next true))
    (hundisturbed : Undisturbed lane (commands earlier)) :
    e.before.server.value lane.2 = raw ∧ (∃ operation now result, compute operation raw now = .write result next) ∧
      e.after.server.value lane.2 = next := by
  obtain ⟨s, event, clock, hrun, -, -, rfl⟩ := h.cut htrace
  obtain ⟨hconsistent, hwatched⟩ := ConcurrentRun.invariants hrun
  obtain ⟨⟨operation, attemptsLeft, result, hp⟩, hexec, hafter⟩ := step_exec hcommit
  obtain ⟨hguard, now, hcompute⟩ := hconsistent _ _ _ _ _ _ hp
  have hstands : s.server.watched lane.1 lane.2 = true := by
    refine hwatched lane ?_ hundisturbed
    rw [hp]
    trivial
  obtain ⟨hbefore, hnext⟩ := hguard.committed hstands hexec
  refine ⟨hbefore, ⟨operation, now, result, hcompute⟩, ?_⟩
  exact (congrArg (fun server => server.value lane.2) hafter).trans hnext

/-! ## Two replicas, two principals -/

/-- Replica `false` activates `oldPair` for principal `false`; before its EXEC
replica `true` activates `nextPair` there, so the EXEC is aborted. Replica `true`
activates a pair for principal `true`, and the first transition tries again. -/
def contested : List (Event Bool Bool) :=
  [.call (false, false) (.activatePair oldPair), .call (true, false) (.activatePair nextPair), .call (true, true) (.activatePair oldPair)] ++
    List.replicate 3 (.advance (false, false) testNow) ++ List.replicate 5 (.advance (true, false) testNow) ++
    [.advance (false, false) testNow] ++ List.replicate 5 (.advance (true, true) testNow) ++
    List.replicate 3 (.advance (false, false) testNow)

/-- Replica `false` activates `oldPair` again, but before the EXEC it checks an
access of principal `true`, whose UNWATCH drops both watches, and replica `true`
activates `nextPair` for principal `false`. -/
def disturbed : List (Event Bool Bool) :=
  [.call (false, false) (.activatePair oldPair), .call (false, true) (.checkAccess oldPair),
    .call (true, false) (.activatePair nextPair)] ++
    List.replicate 3 (.advance (false, false) testNow) ++ List.replicate 4 (.advance (false, true) testNow) ++
    List.replicate 4 (.advance (true, false) testNow) ++ [.advance (false, false) testNow]

abbrev scheduled (events : List (Event Bool Bool)) : List (Moved Bool Bool) :=
  execute (System.step 8) System.empty events

theorem scheduled_run (events : List (Event Bool Bool)) : ∃ s clock, ConcurrentRun 8 (scheduled events) s clock :=
  Run.execute events .start (by simp) fun _ _ _ _ => trivial

/-- What the first replica computes on the empty slot. -/
def firstWrite : Option VnuRefreshControlState := some ((Operation.activatePair oldPair).output none testNow).state

/-- What the second replica commits, and what the first one computes from that. -/
def secondWrite : Option VnuRefreshControlState := some ((Operation.activatePair nextPair).output none testNow).state

def retriedWrite : Option VnuRefreshControlState := some ((Operation.activatePair oldPair).output secondWrite testNow).state

theorem undisturbed_commits_current_retried :
    (scheduled contested)[11].result = some (.exec (false, false) none firstWrite false) ∧
      (scheduled contested)[19].result = some (.exec (false, false) secondWrite retriedWrite true) ∧
      (scheduled contested)[19].before.server.value false = secondWrite ∧
      (scheduled contested)[19].after.server.value false = retriedWrite := by
  obtain ⟨s, clock, h⟩ := scheduled_run contested
  have htrace : scheduled contested = (scheduled contested).take 19 ++ (scheduled contested)[19] :: (scheduled contested).drop 20 := by
    rw [← List.drop_eq_getElem_cons, List.take_append_drop]
  have hcommit : (scheduled contested)[19].result = some (.exec (false, false) secondWrite retriedWrite true) := by decide +kernel
  have hcurrent := undisturbed_commits_current h htrace hcommit (by decide +kernel)
  exact ⟨by decide +kernel, hcommit, hcurrent.1, hcurrent.2.2⟩

/-- The first replica's EXEC goes through although the second has committed in
between: the second's activation is lost. -/
theorem disturbed_commit_stale :
    ¬ ∀ trace s clock, ConcurrentRun 8 trace s clock → ∀ e ∈ trace, ∀ (lane : Lane Bool Bool) raw next,
      e.result = some (.exec lane raw next true) → e.before.server.value lane.2 = raw := by
  have hcommit : (scheduled disturbed)[14].result = some (.exec (false, false) none firstWrite true) := by decide
  have hvalue : (scheduled disturbed)[14].before.server.value false ≠ none := by decide
  intro h
  obtain ⟨s, clock, hrun⟩ := scheduled_run disturbed
  exact hvalue (h _ s clock hrun _ (List.getElem_mem _) (false, false) none firstWrite hcommit)

end Hyeboard.VnuRefresh.Redis
