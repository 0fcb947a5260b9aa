import Mathlib.Data.List.MinMax
import Hyeboard.Lib.FixedWindow
import Hyeboard.Lib.JsValue
import Hyeboard.Lib.Runs
/-!
# The limits on admin logins

`consumeAdminLoginAttempt` of the policy's Durable Object and
`memoryAdminLoginRateLimit` of `apps/worker/src/app.ts`. Both keep a window for
each bucket that was tried, and drop the windows that are over before they look.
-/

namespace Hyeboard.AdminLogin

open FixedWindow (Window)

def maxLoginWindowBuckets : Nat := 10000

/-- `/^[0-9a-f]{64}$/`. -/
def isBucketHash (s : String) : Bool := s.length = 64 && s.toList.all fun c => c.isDigit || ('a' ≤ c && c ≤ 'f')

inductive AttemptResult where
  | allowed
  | denied (retryAfterSeconds : Nat)
deriving DecidableEq

/-- `Math.max(1, Math.ceil((resetAt - now) / 1000))`, rejected. -/
def denied (resetAt now : Nat) : AttemptResult := .denied (max 1 ((resetAt - now + 999) / 1000))

/-- The windows by their buckets: rows of a table whose primary key is the bucket, or the entries of a `Map`. -/
abbrev Windows := Record Window

/-- Those that are not over. -/
def Windows.live (windows : Windows) (now : Nat) : Windows := windows.filter fun window => now < window.resetAt

/-- One attempt, and the clock it reads. -/
structure Attempt where
  bucketHash : String
  now : Nat
deriving DecidableEq

section
variable (limit windowMs : Nat)

/-- A transaction: what it throws leaves the table as it was. -/
def consumeAdminLoginAttempt (windows : Windows) (attempt : Attempt) : Except String AttemptResult × Windows :=
  let { bucketHash, now } := attempt
  if ! isBucketHash bucketHash then (.error "Admin login bucket hash is invalid", windows)
  else if ¬ PositiveSafe limit then (.error "Admin login limit is invalid", windows)
  else if ¬ PositiveSafe windowMs then (.error "Admin login window is invalid", windows)
  else
    let resetAt := now + windowMs
    if maxSafeInteger < resetAt then (.error "Admin login window is invalid", windows)
    else
      -- DELETE ... WHERE reset_at <= now
      let windows := windows.live now
      match windows.get? bucketHash with
      | some row =>
        if limit ≤ row.count then (.ok (denied row.resetAt now), windows)
        else (.ok .allowed, windows.set bucketHash { row with count := row.count + 1 })
      | none =>
        if maxLoginWindowBuckets ≤ windows.size then
          -- ORDER BY reset_at LIMIT 1
          let earliest := ((windows.entries.map fun entry => entry.2.resetAt).min?).getD now
          (.ok (denied earliest now), windows)
        else (.ok .allowed, windows.set bucketHash { count := 1, resetAt })

/-- `memoryAdminLoginRateLimit.consume`. -/
def consume (windows : Windows) (attempt : Attempt) : Except String AttemptResult × Windows :=
  let { bucketHash, now } := attempt
  let windows := windows.live now
  let window : Window :=
    match windows.get? bucketHash with
    | none => { count := 0, resetAt := now + windowMs }
    | some stored => if stored.resetAt ≤ now then { count := 0, resetAt := now + windowMs } else stored
  if limit ≤ window.count then (.ok (denied window.resetAt now), windows)
  else (.ok .allowed, windows.set bucketHash { window with count := window.count + 1 })

end

inductive Limiter where
  | durableObject
  | memory
deriving DecidableEq

def Limiter.consume (limiter : Limiter) (limit windowMs : Nat) : Windows → Attempt → Except String AttemptResult × Windows :=
  match limiter with
  | .durableObject => consumeAdminLoginAttempt limit windowMs
  | .memory => AdminLogin.consume limit windowMs

/-- An attempt as the login route makes it: the bucket is a digest, and the clock far from the end of the numbers. -/
def Attempt.Valid (windowMs : Nat) (attempt : Attempt) : Prop :=
  isBucketHash attempt.bucketHash = true ∧ attempt.now + windowMs ≤ maxSafeInteger

abbrev AttemptStep := Step Windows Attempt (Except String AttemptResult)

/-- Attempts on any buckets, in the order of the clock. -/
abbrev LimiterRun (limiter : Limiter) (limit windowMs : Nat) (trace : List AttemptStep) (windows : Windows) (clock : Nat) : Prop :=
  Run (limiter.consume limit windowMs) Attempt.now (fun _ _ attempt => attempt.Valid windowMs) .empty trace windows clock

/-! ## What one attempt does -/

/-- There is room for one more bucket. -/
def Limiter.HasRoom (limiter : Limiter) (live : Windows) : Prop := limiter = .memory ∨ live.size < maxLoginWindowBuckets

/-- An attempt that found the `live` windows. -/
inductive Consumes (limiter : Limiter) (limit windowMs : Nat) (attempt : Attempt) (live : Windows) :
    Except String AttemptResult × Windows → Prop
  | counted (window : Window) (hwindow : live.get? attempt.bucketHash = some window) (hroom : window.count < limit) :
      Consumes limiter limit windowMs attempt live
        (.ok .allowed, live.set attempt.bucketHash { window with count := window.count + 1 })
  | exhausted (window : Window) (hwindow : live.get? attempt.bucketHash = some window) (hfull : limit ≤ window.count) :
      Consumes limiter limit windowMs attempt live (.ok (denied window.resetAt attempt.now), live)
  | opened (hwindow : live.get? attempt.bucketHash = none) (hroom : limiter.HasRoom live) :
      Consumes limiter limit windowMs attempt live
        (.ok .allowed, live.set attempt.bucketHash { count := 1, resetAt := attempt.now + windowMs })
  | full (earliest : Nat) (hwindow : live.get? attempt.bucketHash = none) (hroom : ¬ limiter.HasRoom live) :
      Consumes limiter limit windowMs attempt live (.ok (denied earliest attempt.now), live)

section
variable {limiter : Limiter} {limit windowMs : Nat} {windows : Windows} {attempt : Attempt}

theorem lt_of_live {now : Nat} {bucket : String} {window : Window} (h : (windows.live now).get? bucket = some window) :
    now < window.resetAt := by
  rw [Windows.live, Record.get?_filter] at h
  simpa using (Option.filter_eq_some_iff.1 h).2

theorem consume_consumes (hlimit : PositiveSafe limit) (hwindow : PositiveSafe windowMs) (hvalid : attempt.Valid windowMs) :
    Consumes limiter limit windowMs attempt (windows.live attempt.now) (limiter.consume limit windowMs windows attempt) := by
  cases limiter with
  | durableObject =>
    have hsafe : ¬ maxSafeInteger < attempt.now + windowMs := by
      have := hvalid.2
      omega
    rw [Limiter.consume, consumeAdminLoginAttempt]
    simp only [hvalid.1, Bool.not_true, Bool.false_eq_true, if_false, hlimit, hwindow, hsafe, not_true_eq_false]
    cases hget : (windows.live attempt.now).get? attempt.bucketHash with
    | some row =>
      simp only
      split
      case isTrue hfull => exact .exhausted row hget hfull
      case isFalse hroom => exact .counted row hget (Nat.lt_of_not_le hroom)
    | none =>
      simp only
      split
      case isTrue hfull =>
        apply Consumes.full _ hget
        rintro (hmemory | hroom)
        · cases hmemory
        · omega
      case isFalse hroom => exact .opened hget (.inr (Nat.lt_of_not_le hroom))
  | memory =>
    rw [Limiter.consume, AdminLogin.consume]
    cases hget : (windows.live attempt.now).get? attempt.bucketHash with
    | some stored =>
      have hlive := lt_of_live hget
      simp only [Nat.not_le.2 hlive, if_false]
      split
      case isTrue hfull => exact .exhausted stored hget hfull
      case isFalse hroom => exact .counted stored hget (Nat.lt_of_not_le hroom)
    | none =>
      have hpos := hlimit.1
      simp only [Nat.not_le.2 hpos, if_false]
      exact .opened hget (.inl rfl)

/-! ## One bucket -/

/-- Whatever is attempted on any bucket, the window of one bucket moves as a fixed window does. -/
theorem Consumes.moves (hpos : 0 < limit) {result : Except String AttemptResult} {after : Windows}
    (h : Consumes limiter limit windowMs attempt (windows.live attempt.now) (result, after)) (bucket : String) :
    FixedWindow.Moves windowMs limit True attempt.now (windows.get? bucket)
      (decide (attempt.bucketHash = bucket) && decide (result = .ok .allowed)) (after.get? bucket) := by
  -- a window that is over is dropped
  have hlive : FixedWindow.Moves windowMs limit True attempt.now (windows.get? bucket) false
      ((windows.live attempt.now).get? bucket) := by
    rw [Windows.live, Record.get?_filter]
    cases hget : windows.get? bucket with
    | none => exact .keep none
    | some window =>
      by_cases hrunning : attempt.now < window.resetAt
      · rw [Option.filter_some_pos (by simpa using hrunning)]
        exact .keep _
      · rw [Option.filter_some_neg (by simpa using hrunning)]
        refine .drop _ ?_
        rintro v ⟨⟩
        exact .inr (Nat.le_of_not_lt hrunning)
  have hother : attempt.bucketHash ≠ bucket → ∀ window,
      ((windows.live attempt.now).set attempt.bucketHash window).get? bucket = (windows.live attempt.now).get? bucket :=
    fun hne window => Record.get?_set_of_ne _ window (Ne.symm hne)
  generalize hpair : (result, after) = pair at h
  cases h with
  | counted window hwindow hroom =>
    cases hpair
    by_cases hsame : attempt.bucketHash = bucket
    · subst hsame
      have hrunning := lt_of_live hwindow
      rw [Windows.live, Record.get?_filter] at hwindow
      have hstored := (Option.filter_eq_some_iff.1 hwindow).1
      simp only [Record.get?_set, if_true, hstored, decide_true, Bool.and_self]
      exact .count window hrunning hroom
    · simp only [hsame, decide_false, Bool.false_and]
      rw [hother hsame]
      exact hlive
  | exhausted window hwindow hfull =>
    cases hpair
    simpa [denied] using hlive
  | opened hwindow hroom =>
    cases hpair
    by_cases hsame : attempt.bucketHash = bucket
    · subst hsame
      simp only [Record.get?_set, if_true, decide_true, Bool.and_self]
      refine .first _ ?_ hpos
      intro v hv
      rw [Windows.live, Record.get?_filter, hv] at hwindow
      by_contra hnot
      rw [Option.filter_some_pos (by simp; omega)] at hwindow
      cases hwindow
    · simp only [hsame, decide_false, Bool.false_and]
      rw [hother hsame]
      exact hlive
  | full earliest hwindow hroom =>
    cases hpair
    simpa [denied] using hlive

/-- What was attempted, as ticks of the counter of one bucket. -/
def ticks (bucket : String) (trace : List AttemptStep) : List FixedWindow.Tick :=
  trace.map fun e =>
    { now := e.call.now, hit := decide (e.call.bucketHash = bucket) && decide (e.result = .ok .allowed), after := e.after.get? bucket }

/-- The attempts on a bucket that were allowed from `low` on and before `high`. -/
def allowedIn (bucket : String) (low high : Nat) (trace : List AttemptStep) : Nat :=
  trace.countP fun e => (decide (e.call.bucketHash = bucket) && decide (e.result = .ok .allowed)) && low ≤ e.call.now && e.call.now < high

theorem hits_ticks (bucket : String) (low high : Nat) (trace : List AttemptStep) :
    FixedWindow.hits low high (ticks bucket trace) = allowedIn bucket low high trace := by
  rw [FixedWindow.hits, ticks, List.countP_map]
  rfl

variable {trace : List AttemptStep} {clock : Nat}

theorem log_of_run (hlimit : PositiveSafe limit) (hwindow : PositiveSafe windowMs)
    (h : LimiterRun limiter limit windowMs trace windows clock) (bucket : String) :
    FixedWindow.Log windowMs limit True (ticks bucket trace) (windows.get? bucket) clock := by
  refine h.invariant (fun trace windows clock => FixedWindow.Log windowMs limit True (ticks bucket trace) (windows.get? bucket) clock) ?_ ?_
  · exact .start
  · intro trace windows clock attempt _ hlog hle hvalid
    have hmoves := (@consume_consumes limiter limit windowMs windows attempt hlimit hwindow hvalid).moves hlimit.1 bucket
    rw [ticks, List.map_append, List.map_singleton]
    exact .tick _ hlog hle hmoves

/-- An attempt on a bucket without a window opens one, as long as there is room. -/
theorem Consumes.of_none {result : Except String AttemptResult} {after : Windows}
    (h : Consumes limiter limit windowMs attempt windows (result, after)) (hnone : windows.get? attempt.bucketHash = none) :
    (result = .ok .allowed ∧ after = windows.set attempt.bucketHash { count := 1, resetAt := attempt.now + windowMs }) ∨
      (¬ limiter.HasRoom windows ∧ ∃ earliest, result = .ok (denied earliest attempt.now)) := by
  generalize hpair : (result, after) = pair at h
  cases h with
  | counted _ hget _ =>
    rw [hnone] at hget
    cases hget
  | exhausted _ hget _ =>
    rw [hnone] at hget
    cases hget
  | opened _ _ => exact .inl (Prod.mk.inj hpair)
  | full earliest _ hfull => exact .inr ⟨hfull, earliest, (Prod.mk.inj hpair).1⟩

/-- An attempt that starts a window. -/
def Starts (e : AttemptStep) : Prop := e.result = .ok .allowed ∧ (e.before.live e.call.now).get? e.call.bucketHash = none

theorem after_of_starts {e : AttemptStep} (h : Starts e)
    (hconsumes : Consumes limiter limit windowMs e.call (e.before.live e.call.now) (e.result, e.after)) :
    e.after.get? e.call.bucketHash = some { count := 1, resetAt := e.call.now + windowMs } := by
  rcases hconsumes.of_none h.2 with ⟨-, hafter⟩ | ⟨-, earliest, hdenied⟩
  · rw [hafter, Record.get?_set, if_pos rfl]
  · rw [h.1] at hdenied
    cases hdenied

/-- Every step of a run is one attempt. -/
theorem consumes_of_mem (hlimit : PositiveSafe limit) (hwindow : PositiveSafe windowMs)
    (h : LimiterRun limiter limit windowMs trace windows clock) {e : AttemptStep} (he : e ∈ trace) :
    Consumes limiter limit windowMs e.call (e.before.live e.call.now) (e.result, e.after) := by
  obtain ⟨pre, post, htrace⟩ := List.append_of_mem he
  obtain ⟨before, attempt, clk, -, -, hvalid, rfl⟩ := h.cut htrace
  exact consume_consumes hlimit hwindow hvalid

theorem window_allowed_le (hlimit : PositiveSafe limit) (hwindow : PositiveSafe windowMs)
    (h : LimiterRun limiter limit windowMs trace windows clock) {e : AttemptStep} (he : e ∈ trace) (hstarts : Starts e) :
    allowedIn e.call.bucketHash e.call.now (e.call.now + windowMs) trace ≤ limit := by
  have hafter := after_of_starts hstarts (consumes_of_mem hlimit hwindow h he)
  have hlog := log_of_run hlimit hwindow h e.call.bucketHash
  obtain ⟨pre, post, rfl⟩ := List.append_of_mem he
  rw [← hits_ticks]
  rw [ticks, List.map_append, List.map_cons] at hlog ⊢
  exact hlog.window_hits_le hwindow.1 hafter

/-! ## The claims of a denial -/

theorem Consumes.of_denied {retryAfterSeconds : Nat} {after : Windows}
    (h : Consumes limiter limit windowMs attempt windows (.ok (.denied retryAfterSeconds), after)) :
    after = windows ∧ ∀ window, windows.get? attempt.bucketHash = some window →
      denied window.resetAt attempt.now = .denied retryAfterSeconds := by
  generalize hpair : (Except.ok (AttemptResult.denied retryAfterSeconds), after) = pair at h
  cases h with
  | counted _ _ _ => cases hpair
  | exhausted stored hstored _ =>
    rw [Prod.mk.injEq] at hpair
    refine ⟨hpair.2, fun window hget => ?_⟩
    rw [hget, Option.some_inj] at hstored
    rw [hstored]
    exact (Except.ok.inj hpair.1).symm
  | opened _ _ => cases hpair
  | full _ hnone _ =>
    rw [Prod.mk.injEq] at hpair
    refine ⟨hpair.2, fun window hget => ?_⟩
    rw [hget] at hnone
    cases hnone

/-- Denied because its bucket has had its attempts. -/
def DeniedByBucket (e : AttemptStep) (retryAfterSeconds : Nat) : Prop :=
  e.result = .ok (.denied retryAfterSeconds) ∧ ((e.before.live e.call.now).get? e.call.bucketHash).isSome

theorem retry_covers {resetAt now retryAfterSeconds : Nat} (h : denied resetAt now = .denied retryAfterSeconds) :
    resetAt ≤ now + retryAfterSeconds * 1000 := by
  rw [denied, AttemptResult.denied.injEq] at h
  omega

/-- The window behind the denial ends before the advised time. -/
theorem DeniedByBucket.window {e : AttemptStep} {retryAfterSeconds : Nat} (h : DeniedByBucket e retryAfterSeconds)
    (hconsumes : Consumes limiter limit windowMs e.call (e.before.live e.call.now) (e.result, e.after)) :
    ∀ window, e.after.get? e.call.bucketHash = some window → window.resetAt ≤ e.call.now + retryAfterSeconds * 1000 := by
  rw [h.1] at hconsumes
  obtain ⟨hafter, hwindow⟩ := hconsumes.of_denied
  rw [hafter]
  intro window hget
  exact retry_covers (hwindow window hget)

/-- Attempts on other buckets leave a window, or drop it when it is over. -/
theorem Consumes.other {result : Except String AttemptResult} {after : Windows}
    (h : Consumes limiter limit windowMs attempt (windows.live attempt.now) (result, after)) {bucket : String}
    (hne : attempt.bucketHash ≠ bucket) : after.get? bucket = (windows.live attempt.now).get? bucket := by
  generalize hpair : (result, after) = pair at h
  cases h with
  | counted _ _ _ =>
    cases hpair
    exact Record.get?_set_of_ne _ _ (Ne.symm hne)
  | exhausted _ _ _ =>
    cases hpair
    rfl
  | opened _ _ =>
    cases hpair
    exact Record.get?_set_of_ne _ _ (Ne.symm hne)
  | full _ _ _ =>
    cases hpair
    rfl

/-- No other attempt on the bucket gives it a later window. -/
theorem DeniedByBucket.lasting (hlimit : PositiveSafe limit) (hwindow : PositiveSafe windowMs) {pre others : List AttemptStep}
    {e : AttemptStep} {retryAfterSeconds : Nat} (hdenied : DeniedByBucket e retryAfterSeconds)
    (hothers : ∀ other ∈ others, other.call.bucketHash ≠ e.call.bucketHash)
    (h : LimiterRun limiter limit windowMs (pre ++ e :: others) windows clock) :
    ∀ window, windows.get? e.call.bucketHash = some window → window.resetAt ≤ e.call.now + retryAfterSeconds * 1000 := by
  induction others using List.reverseRecOn generalizing windows clock with
  | nil =>
    have hconsumes := consumes_of_mem hlimit hwindow h (List.mem_append_right _ List.mem_cons_self)
    generalize hall : pre ++ [e] = trace at h
    cases h with
    | start => simp at hall
    | call attempt _ _ _ =>
      obtain ⟨-, hlast⟩ := List.append_inj' hall rfl
      cases List.singleton_inj.1 hlast
      exact hdenied.window hconsumes
  | append_singleton others other ih =>
    rw [← List.cons_append, ← List.append_assoc] at h
    generalize hall : pre ++ e :: others ++ [other] = trace at h
    cases h with
    | start => simp at hall
    | @call _ before _ attempt hrun _ hvalid =>
      obtain ⟨rfl, hlast⟩ := List.append_inj' hall rfl
      cases List.singleton_inj.1 hlast
      have hne := hothers _ (List.mem_append_right _ (List.mem_singleton_self _))
      have hconsumes := @consume_consumes limiter limit windowMs before attempt hlimit hwindow hvalid
      have hother : (limiter.consume limit windowMs before attempt).2.get? e.call.bucketHash =
          (before.live attempt.now).get? e.call.bucketHash := hconsumes.other hne
      intro window hget
      rw [hother, Windows.live, Record.get?_filter] at hget
      exact ih (fun other hother => hothers other (List.mem_append_left _ hother)) hrun window (Option.filter_eq_some_iff.1 hget).1

theorem retry_allowed (hlimit : PositiveSafe limit) (hwindow : PositiveSafe windowMs) {pre others : List AttemptStep}
    {e retry : AttemptStep} {retryAfterSeconds : Nat} (hdenied : DeniedByBucket e retryAfterSeconds)
    (hothers : ∀ other ∈ others, other.call.bucketHash ≠ e.call.bucketHash) (hbucket : retry.call.bucketHash = e.call.bucketHash)
    (hlate : e.call.now + retryAfterSeconds * 1000 ≤ retry.call.now) (hroom : limiter.HasRoom (retry.before.live retry.call.now))
    (h : LimiterRun limiter limit windowMs (pre ++ e :: others ++ [retry]) windows clock) : retry.result = .ok .allowed := by
  have hconsumes := consumes_of_mem hlimit hwindow h (List.mem_append_right _ (List.mem_singleton_self _))
  obtain ⟨before, attempt, clk, hrun, -, -, rfl⟩ := h.cut rfl
  have hbefore := hdenied.lasting hlimit hwindow hothers hrun
  have hnone : (before.live attempt.now).get? attempt.bucketHash = none := by
    rw [Windows.live, Record.get?_filter]
    cases hget : before.get? attempt.bucketHash with
    | none => rfl
    | some window =>
      have hbucket : attempt.bucketHash = e.call.bucketHash := hbucket
      have hlate : e.call.now + retryAfterSeconds * 1000 ≤ attempt.now := hlate
      rw [hbucket] at hget
      have hover := hbefore window hget
      exact Option.filter_some_neg (by simp; omega)
  rcases hconsumes.of_none hnone with ⟨hallowed, -⟩ | ⟨hfull, -⟩
  · exact hallowed
  · exact absurd hroom hfull

/-! ## The bound of the Durable Object -/

theorem size_live_le (windows : Windows) (now : Nat) : (windows.live now).size ≤ windows.size := List.length_filter_le _ _

theorem Consumes.size_le {result : Except String AttemptResult} {after : Windows}
    (h : Consumes .durableObject limit windowMs attempt (windows.live attempt.now) (result, after))
    (hsize : windows.size ≤ maxLoginWindowBuckets) : after.size ≤ maxLoginWindowBuckets := by
  have hlive := size_live_le windows attempt.now
  generalize hpair : (result, after) = pair at h
  cases h with
  | counted window hget _ =>
    cases hpair
    rw [Record.size_set_of_get?_some hget]
    omega
  | exhausted _ _ _ =>
    cases hpair
    omega
  | opened hnone hroom =>
    cases hpair
    rw [Record.size_set_of_get?_none hnone]
    rcases hroom with hmemory | hroom
    · cases hmemory
    · omega
  | full _ _ _ =>
    cases hpair
    omega

theorem size_le_of_run (hlimit : PositiveSafe limit) (hwindow : PositiveSafe windowMs)
    (h : LimiterRun .durableObject limit windowMs trace windows clock) : windows.size ≤ maxLoginWindowBuckets := by
  refine h.invariant (fun _ windows _ => windows.size ≤ maxLoginWindowBuckets) (Nat.zero_le _) ?_
  intro trace windows clock attempt _ hsize _ hvalid
  exact (consume_consumes hlimit hwindow hvalid).size_le hsize

/-! ## Both on the same attempts -/

/-- With room for a bucket, what an attempt does is the same for both. -/
theorem Consumes.eq {pair pair' : Except String AttemptResult × Windows} {limiter' : Limiter} {live : Windows}
    (h : Consumes limiter limit windowMs attempt live pair) (h' : Consumes limiter' limit windowMs attempt live pair')
    (hroom : live.size < maxLoginWindowBuckets) : pair = pair' := by
  have hanswer : ∀ {limiter pair}, Consumes limiter limit windowMs attempt live pair →
      pair = match live.get? attempt.bucketHash with
        | some window =>
          if limit ≤ window.count then (.ok (denied window.resetAt attempt.now), live)
          else (.ok .allowed, live.set attempt.bucketHash { window with count := window.count + 1 })
        | none => (.ok .allowed, live.set attempt.bucketHash { count := 1, resetAt := attempt.now + windowMs }) := by
    intro limiter pair h
    cases h with
    | counted window hget hunder =>
      rw [hget]
      exact (if_neg (Nat.not_le.2 hunder)).symm
    | exhausted window hget hfull =>
      rw [hget]
      exact (if_pos hfull).symm
    | opened hnone _ => rw [hnone]
    | full _ _ hfull => exact absurd (.inr hroom) hfull
  rw [hanswer h, hanswer h']

/-- The two limiters side by side. -/
def consumeBoth (limit windowMs : Nat) (windows : Windows × Windows) (attempt : Attempt) :
    (Except String AttemptResult × Except String AttemptResult) × (Windows × Windows) :=
  let durable := Limiter.durableObject.consume limit windowMs windows.1 attempt
  let memory := Limiter.memory.consume limit windowMs windows.2 attempt
  ((durable.1, memory.1), (durable.2, memory.2))

/-- Runs in which fewer than 10,000 buckets are not over at each attempt. -/
abbrev BothRun (limit windowMs : Nat)
    (trace : List (Step (Windows × Windows) Attempt (Except String AttemptResult × Except String AttemptResult)))
    (windows : Windows × Windows) (clock : Nat) : Prop :=
  Run (consumeBoth limit windowMs) Attempt.now
    (fun _ windows attempt => attempt.Valid windowMs ∧ (windows.2.live attempt.now).size < maxLoginWindowBuckets)
    (.empty, .empty) trace windows clock

theorem both_agree (hlimit : PositiveSafe limit) (hwindow : PositiveSafe windowMs)
    {trace : List (Step (Windows × Windows) Attempt (Except String AttemptResult × Except String AttemptResult))}
    {windows : Windows × Windows} (h : BothRun limit windowMs trace windows clock) :
    windows.1 = windows.2 ∧ ∀ e ∈ trace, e.result.1 = e.result.2 := by
  refine h.invariant (fun trace windows _ => windows.1 = windows.2 ∧ ∀ e ∈ trace, e.result.1 = e.result.2)
    ⟨rfl, List.forall_mem_nil _⟩ ?_
  rintro trace ⟨durable, memory⟩ clock attempt - ⟨hstates, hresults⟩ - ⟨hvalid, hroom⟩
  change durable = memory at hstates
  subst hstates
  have hdurable := @consume_consumes .durableObject limit windowMs durable attempt hlimit hwindow hvalid
  have hmemory := @consume_consumes .memory limit windowMs durable attempt hlimit hwindow hvalid
  have hsame := hdurable.eq hmemory hroom
  refine ⟨congrArg Prod.snd hsame, ?_⟩
  rw [List.forall_mem_append, List.forall_mem_singleton]
  exact ⟨hresults, congrArg Prod.fst hsame⟩

end

/-- The two limiters answer alike while fewer than 10,000 windows are not over; and on every run of either: no window
lets more than `limit` attempts through, a denial only drops windows that are over, an attempt at the advised time is
allowed, and the Durable Object stays within its bound. -/
theorem limiters_agree_and_hold (limit windowMs : Nat) (hlimit : PositiveSafe limit) (hwindow : PositiveSafe windowMs) :
    (∀ trace windows clock, BothRun limit windowMs trace windows clock → ∀ e ∈ trace, e.result.1 = e.result.2) ∧
    (∀ limiter trace windows clock, LimiterRun limiter limit windowMs trace windows clock →
      (∀ e ∈ trace, Starts e → allowedIn e.call.bucketHash e.call.now (e.call.now + windowMs) trace ≤ limit) ∧
      (∀ e ∈ trace, ∀ retryAfterSeconds, e.result = .ok (.denied retryAfterSeconds) → e.after = e.before.live e.call.now) ∧
      (∀ pre e others retry retryAfterSeconds, trace = pre ++ e :: others ++ [retry] → DeniedByBucket e retryAfterSeconds →
        (∀ other ∈ others, other.call.bucketHash ≠ e.call.bucketHash) → retry.call.bucketHash = e.call.bucketHash →
        e.call.now + retryAfterSeconds * 1000 ≤ retry.call.now → limiter.HasRoom (retry.before.live retry.call.now) →
        retry.result = .ok .allowed)) ∧
    (∀ trace windows clock, LimiterRun .durableObject limit windowMs trace windows clock → windows.size ≤ maxLoginWindowBuckets) := by
  refine ⟨?_, ?_, ?_⟩
  · intro trace windows clock h
    exact (both_agree hlimit hwindow h).2
  · intro limiter trace windows clock h
    refine ⟨fun e he hstarts => window_allowed_le hlimit hwindow h he hstarts, ?_, ?_⟩
    · intro e he retryAfterSeconds hdenied
      have hconsumes := consumes_of_mem hlimit hwindow h he
      rw [hdenied] at hconsumes
      exact hconsumes.of_denied.1
    · rintro pre e others retry retryAfterSeconds rfl hdenied hothers hbucket hlate hroom
      exact retry_allowed hlimit hwindow hdenied hothers hbucket hlate hroom h
  · intro trace windows clock h
    exact size_le_of_run hlimit hwindow h

/-- With a limit of one: two attempts on one bucket, one on another, and the first one's retry at the advised time. -/
def sampleAttempts : List Attempt :=
  let bucket := String.ofList (List.replicate 64 'a')
  [⟨bucket, 5⟩, ⟨bucket, 7⟩, ⟨String.ofList (List.replicate 64 'b'), 8⟩, ⟨bucket, 900007⟩]

theorem limiters_agree_and_hold_sample :
    let both := execute (consumeBoth 1 900000) (.empty, .empty) sampleAttempts
    let durable := execute (Limiter.durableObject.consume 1 900000) .empty sampleAttempts
    (∀ e ∈ both, e.result.1 = e.result.2) ∧
      both.map (·.result.1) = [.ok .allowed, .ok (.denied 900), .ok .allowed, .ok .allowed] ∧
      (∀ retry, durable[3]? = some retry → retry.result = .ok .allowed) ∧
      (stateAfter (Limiter.durableObject.consume 1 900000) .empty sampleAttempts).size ≤ maxLoginWindowBuckets := by
  have hattempts : (sampleAttempts.all fun attempt => isBucketHash attempt.bucketHash && attempt.now + 900000 ≤ maxSafeInteger) = true := by
    decide +kernel
  have hvalid : ∀ attempt ∈ sampleAttempts, attempt.Valid 900000 := by
    intro attempt hattempt
    simpa [Attempt.Valid] using List.all_eq_true.1 hattempts attempt hattempt
  obtain ⟨hagree, hhold, hsize⟩ := limiters_agree_and_hold 1 900000 (by decide) (by decide)
  have hboth : BothRun 1 900000 [] (.empty, .empty) 0 := .start
  have hrooms : ((execute (consumeBoth 1 900000) (.empty, .empty) sampleAttempts).all fun e =>
      (e.before.2.live e.call.now).size < maxLoginWindowBuckets) = true := by
    decide +kernel
  obtain ⟨_, hbothRun⟩ := hboth.follow sampleAttempts (by decide) fun e he _ =>
    ⟨hvalid e.call (Run.call_mem_of_execute he), by simpa using List.all_eq_true.1 hrooms e he⟩
  have hstart : LimiterRun .durableObject 1 900000 [] .empty 0 := .start
  obtain ⟨_, hrun⟩ := hstart.follow sampleAttempts (by decide) fun e he _ => hvalid e.call (Run.call_mem_of_execute he)
  refine ⟨hagree _ _ _ hbothRun, by decide +kernel, fun retry hretry => ?_, hsize _ _ _ hrun⟩
  cases hretry
  refine (hhold .durableObject _ _ _ hrun).2.2 [_] _ [_] _ 900 rfl ⟨by decide +kernel, by decide +kernel⟩ ?_ rfl (by decide) ?_
  · rw [List.forall_mem_singleton]
    decide +kernel
  · exact .inr (by decide +kernel)

end Hyeboard.AdminLogin
