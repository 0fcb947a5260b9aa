import Mathlib.Algebra.GroupWithZero.Nat
import Mathlib.Data.List.Induction
import Mathlib.Data.List.Count
/-!
# Fixed-window rate limits

A counter with a window of fixed length: a hit is counted while the window
runs and the count is under the limit, and a window may be dropped or started
anew only when it has ended or is empty. `Log` is any sequence of such steps.
However the windows fall, an interval of `k` window lengths holds at most
`(k + 1) * limit` hits (`Log.hits_le`), one fewer when every window starts with
a hit (`Log.anchored_hits_le`).
-/

namespace Hyeboard.FixedWindow

structure Window where
  count : Nat
  resetAt : Nat
deriving DecidableEq, Repr

/-- One step of the counter: when, whether a hit was counted, and the window
after it. -/
structure Tick where
  now : Nat
  hit : Bool
  after : Option Window
deriving DecidableEq, Repr

/-- The window may be given up at `now`. -/
def Spent (now : Nat) (w : Option Window) : Prop := ∀ v, w = some v → v.count = 0 ∨ v.resetAt ≤ now

/-- The steps of a counter. It is `anchored` when only a hit starts a window. -/
inductive Moves (length limit : Nat) (anchored : Prop) (now : Nat) : Option Window → Bool → Option Window → Prop
  | keep (w : Option Window) : Moves length limit anchored now w false w
  | drop (w : Option Window) (h : Spent now w) : Moves length limit anchored now w false none
  | reopen (w : Option Window) (h : Spent now w) (ha : ¬ anchored) :
      Moves length limit anchored now w false (some { count := 0, resetAt := now + length })
  | first (w : Option Window) (h : Spent now w) (hlimit : 0 < limit) :
      Moves length limit anchored now w true (some { count := 1, resetAt := now + length })
  | count (v : Window) (hlive : now < v.resetAt) (hroom : v.count < limit) :
      Moves length limit anchored now (some v) true (some { v with count := v.count + 1 })

/-- The steps of a counter from the start, in the order of their times: the
window and the time they end with. -/
inductive Log (length limit : Nat) (anchored : Prop) : List Tick → Option Window → Nat → Prop
  | start : Log length limit anchored [] none 0
  | tick {log : List Tick} {w : Option Window} {clock : Nat} (t : Tick) : Log length limit anchored log w clock →
      clock ≤ t.now → Moves length limit anchored t.now w t.hit t.after →
      Log length limit anchored (log ++ [t]) t.after t.now

/-- The hits of a log from `low` on and before `high`. -/
def hits (low high : Nat) (log : List Tick) : Nat := log.countP fun t => t.hit && low ≤ t.now && t.now < high

section
variable {length limit : Nat} {anchored : Prop} {log : List Tick} {w : Option Window} {clock low high k : Nat} {t : Tick}

theorem hits_append (low high : Nat) (log : List Tick) (t : Tick) :
    hits low high (log ++ [t]) = hits low high log + if t.hit && low ≤ t.now && t.now < high then 1 else 0 := by
  simp only [hits, List.countP_append, List.countP_singleton]

/-- How many windows, one after another, fit between `low` and the one that
starts at `start`, the first maybe begun before `low`. -/
def earlier (length low start : Nat) : Nat := (start + length - 1 - low) / length

theorem earlier_mono (length low : Nat) {start start' : Nat} (h : start ≤ start') :
    earlier length low start ≤ earlier length low start' :=
  Nat.div_le_div_right (by omega)

theorem earlier_succ {start start' : Nat} (hpos : 0 < length) (h : start + length ≤ start') (hlow : low < start + length) :
    earlier length low start + 1 ≤ earlier length low start' := by
  unfold earlier
  rw [← Nat.add_div_right _ hpos]
  exact Nat.div_le_div_right (by omega)

theorem earlier_eq_zero {start : Nat} (hpos : 0 < length) (h : start ≤ low) : earlier length low start = 0 :=
  Nat.div_eq_of_lt (by omega)

theorem earlier_le {start : Nat} (hpos : 0 < length) (h : start < low + k * length) : earlier length low start ≤ k := by
  unfold earlier
  rw [← Nat.lt_succ_iff, Nat.div_lt_iff_lt_mul hpos, Nat.succ_mul]
  omega

/-! ## The account of a log -/

/-- `total` hits are accounted for: at most `limit` in each earlier window that
reaches past `low`, and the current window's own. Anchored windows either all
begin at or after `low`, or the oldest begins before it with a hit that is not
counted. -/
structure Accounted (length limit : Nat) (anchored : Prop) (low total : Nat) (w : Option Window) (start count : Nat) :
    Prop where
  window : ∀ v, w = some v → v.count = count ∧ v.resetAt = start + length
  none : w = none → count = 0
  count_le : count ≤ limit
  total_le : total ≤ count + limit * earlier length low start
  total_eq : start + length ≤ low → total = 0
  started : anchored → ∀ v, w = some v → 0 < v.count
  anchored_le : anchored → total = 0 ∨ (low ≤ start ∧ total ≤ count + limit * ((start - low) / length)) ∨
    total + 1 ≤ count + limit * earlier length low start

section Spent
variable {total start count now : Nat}

/-- A window given up at `now` was empty or has ended. -/
theorem Accounted.over (h : Accounted length limit anchored low total w start count) (hs : Spent now w) :
    count = 0 ∨ start + length ≤ now := by
  cases hw : w with
  | none => exact .inl (h.none hw)
  | some v =>
    obtain ⟨hc, hr⟩ := h.window v hw
    rcases hs v hw with hv | hv <;> omega

/-- Once the window is given up, all hits are in earlier windows. -/
theorem Accounted.spent_le (hpos : 0 < length) (h : Accounted length limit anchored low total w start count)
    (hle : start ≤ now) (hs : Spent now w) : total ≤ limit * earlier length low now := by
  have htotal := h.total_le
  rcases h.over hs with hzero | hend
  · have := Nat.mul_le_mul_left limit (earlier_mono length low hle)
    omega
  · by_cases hlow : low < start + length
    · have hsucc := Nat.mul_le_mul_left limit (earlier_succ hpos hend hlow)
      rw [Nat.mul_succ] at hsucc
      have := h.count_le
      omega
    · have := h.total_eq (by omega)
      omega

theorem Accounted.spent_anchored (hpos : 0 < length) (h : Accounted length limit anchored low total w start count)
    (hle : start ≤ now) (hs : Spent now w) (ha : anchored) :
    total = 0 ∨ (low ≤ now ∧ total ≤ limit * ((now - low) / length)) ∨ total + 1 ≤ limit * earlier length low now := by
  have hcount := h.count_le
  rcases h.anchored_le ha with hzero | ⟨hlow, htotal⟩ | htotal
  · exact .inl hzero
  · -- Case: all windows begin at or after `low`
    refine .inr (.inl ⟨by omega, ?_⟩)
    rcases h.over hs with hzero | hend
    · have hmono : (start - low) / length ≤ (now - low) / length := Nat.div_le_div_right (by omega)
      have := Nat.mul_le_mul_left limit hmono
      omega
    · have hsucc : (start - low) / length + 1 ≤ (now - low) / length := by
        rw [← Nat.add_div_right _ hpos]
        exact Nat.div_le_div_right (by omega)
      have := Nat.mul_le_mul_left limit hsucc
      rw [Nat.mul_succ] at this
      omega
  · -- Case: the oldest window begins before `low`
    rcases h.over hs with hzero | hend
    · have := Nat.mul_le_mul_left limit (earlier_mono length low hle)
      exact .inr (.inr (by omega))
    · by_cases hlow : low < start + length
      · have hsucc := Nat.mul_le_mul_left limit (earlier_succ hpos hend hlow)
        rw [Nat.mul_succ] at hsucc
        exact .inr (.inr (by omega))
      · exact .inl (h.total_eq (by omega))

end Spent

/-- A step keeps the account; a counted hit (`gain = 1`) is at or after `low`. -/
theorem Moves.accounted {now total start count gain : Nat} {hit : Bool} {w' : Option Window} (hpos : 0 < length)
    (h : Moves length limit anchored now w hit w') (hacc : Accounted length limit anchored low total w start count)
    (hle : start ≤ now) (hgain : gain ≤ 1) (hcounted : 0 < gain → hit = true ∧ low ≤ now) :
    ∃ start' count', start' ≤ now ∧ Accounted length limit anchored low (total + gain) w' start' count' := by
  have hzero : hit = false → gain = 0 := by
    intro hhit
    by_contra hne
    rw [(hcounted (Nat.pos_of_ne_zero hne)).1] at hhit
    cases hhit
  cases h with
  | keep w =>
    rw [hzero rfl]
    exact ⟨start, count, hle, hacc⟩
  | drop w hs =>
    rw [hzero rfl]
    have htotal := hacc.spent_le hpos hle hs
    refine ⟨now, 0, Nat.le_refl _, nofun, fun _ => rfl, Nat.zero_le _, by omega, fun hlow => ?_, fun _ => nofun, ?_⟩
    · exact hacc.total_eq (by omega)
    · simpa using hacc.spent_anchored hpos hle hs
  | reopen w hs ha =>
    rw [hzero rfl]
    have htotal := hacc.spent_le hpos hle hs
    refine ⟨now, 0, Nat.le_refl _, ?_, fun _ => rfl, Nat.zero_le _, by omega, fun hlow => ?_, fun h => absurd h ha,
      fun h => absurd h ha⟩
    · rintro v ⟨⟩
      exact ⟨rfl, rfl⟩
    · exact hacc.total_eq (by omega)
  | first w hs hlimit =>
    have htotal := hacc.spent_le hpos hle hs
    refine ⟨now, 1, Nat.le_refl _, ?_, nofun, hlimit, by omega, fun hlow => ?_, ?_, fun ha => ?_⟩
    · rintro v ⟨⟩
      exact ⟨rfl, rfl⟩
    · have := hacc.total_eq (by omega)
      omega
    · rintro - v ⟨⟩
      exact Nat.one_pos
    · by_cases hnone : gain = 0
      · rcases hacc.spent_anchored hpos hle hs ha with h | ⟨hlow, h⟩ | h
        · exact .inl (by omega)
        · exact .inr (.inl ⟨hlow, by omega⟩)
        · exact .inr (.inr (by omega))
      · have hlow := (hcounted (Nat.pos_of_ne_zero hnone)).2
        rcases hacc.spent_anchored hpos hle hs ha with h | ⟨-, h⟩ | h
        · exact .inr (.inl ⟨hlow, by omega⟩)
        · exact .inr (.inl ⟨hlow, by omega⟩)
        · exact .inr (.inr (by omega))
  | count v hlive hroom =>
    obtain ⟨hc, hr⟩ := hacc.window v rfl
    have htotal := hacc.total_le
    refine ⟨start, count + 1, hle, ?_, nofun, by omega, by omega, fun hlow => ?_, ?_, fun ha => ?_⟩
    · rintro v' ⟨⟩
      exact ⟨by rw [hc], hr⟩
    · have := hacc.total_eq hlow
      omega
    · rintro - v' ⟨⟩
      exact Nat.succ_pos _
    · have hstarted := hacc.started ha v rfl
      rcases hacc.anchored_le ha with h | ⟨hlow, h⟩ | h
      · exact .inr (.inr (by omega))
      · exact .inr (.inl ⟨hlow, by omega⟩)
      · exact .inr (.inr (by omega))

/-- The hit counted at a tick, if it falls in the interval. -/
theorem hits_tick (low high : Nat) (log : List Tick) (t : Tick) :
    ∃ gain, hits low high (log ++ [t]) = hits low high log + gain ∧ gain ≤ 1 ∧
      (0 < gain → t.hit = true ∧ low ≤ t.now ∧ t.now < high) := by
  rw [hits_append]
  by_cases h : t.hit = true ∧ low ≤ t.now ∧ t.now < high
  · exact ⟨1, by simp [h], Nat.le_refl _, fun _ => h⟩
  · refine ⟨0, ?_, Nat.zero_le _, nofun⟩
    rw [if_neg]
    simpa [and_assoc] using h

theorem Log.accounted (hpos : 0 < length) (low high : Nat) (h : Log length limit anchored log w clock) :
    ∃ start count, start ≤ clock ∧ Accounted length limit anchored low (hits low high log) w start count := by
  induction h with
  | start =>
    exact ⟨0, 0, Nat.le_refl _, nofun, fun _ => rfl, Nat.zero_le _, Nat.zero_le _, fun _ => rfl, fun _ => nofun,
      fun _ => .inl rfl⟩
  | tick t _ hle hm ih =>
    obtain ⟨start, count, hstart, hacc⟩ := ih
    obtain ⟨gain, hgain, hone, hcounted⟩ := hits_tick low high _ t
    rw [hgain]
    exact hm.accounted hpos hacc (Nat.le_trans hstart hle) hone fun h => ⟨(hcounted h).1, (hcounted h).2.1⟩

/-! ## Sliding intervals -/

/-- What holds of the account at each hit of the interval bounds its hits. -/
theorem Log.hits_le_of (hpos : 0 < length) (h : Log length limit anchored log w clock) (low high bound : Nat)
    (hbound : ∀ {total : Nat} {w : Option Window} {start count : Nat},
      Accounted length limit anchored low total w start count → start < high → total ≤ bound) :
    hits low high log ≤ bound := by
  induction h with
  | start => exact Nat.zero_le _
  | @tick log w clock t hlog hle hm ih =>
    obtain ⟨gain, hgain, -, hcounted⟩ := hits_tick low high log t
    by_cases hzero : gain = 0
    · rwa [hgain, hzero]
    -- the last hit of the interval is in a window that starts before its end
    obtain ⟨-, -, hlt⟩ := hcounted (Nat.pos_of_ne_zero hzero)
    obtain ⟨start, count, hstart, hacc⟩ := (Log.tick t hlog hle hm).accounted hpos low high
    exact hbound hacc (Nat.lt_of_le_of_lt hstart hlt)

/-- An interval of `k` window lengths holds at most `(k + 1) * limit` hits. -/
theorem Log.hits_le (hpos : 0 < length) (h : Log length limit anchored log w clock) (low k : Nat) :
    hits low (low + k * length) log ≤ (k + 1) * limit := by
  refine h.hits_le_of hpos low _ _ fun hacc hstart => ?_
  have hmul := Nat.mul_le_mul_left limit (earlier_le hpos hstart)
  have htotal := hacc.total_le
  have hcount := hacc.count_le
  rw [Nat.succ_mul, Nat.mul_comm k limit]
  omega

/-- With anchored windows it holds one fewer. -/
theorem Log.anchored_hits_le (hpos : 0 < length) (hlimit : 0 < limit) (h : Log length limit True log w clock)
    (low k : Nat) : hits low (low + k * length) log ≤ (k + 1) * limit - 1 := by
  refine h.hits_le_of hpos low _ _ fun {total w start count} hacc hstart => ?_
  have hcount := hacc.count_le
  rw [Nat.succ_mul, Nat.mul_comm k limit]
  rcases hacc.anchored_le trivial with hzero | ⟨hlow, htotal⟩ | htotal
  · omega
  · have hfull : (start - low) / length + 1 ≤ k := by
      rw [Nat.succ_le_iff, Nat.div_lt_iff_lt_mul hpos]
      omega
    have hmul := Nat.mul_le_mul_left limit hfull
    rw [Nat.mul_succ] at hmul
    omega
  · have hmul := Nat.mul_le_mul_left limit (earlier_le hpos hstart)
    omega

/-! ## One window -/

theorem Log.last {l : List Tick} (h : Log length limit anchored (l ++ [t]) w clock) :
    w = t.after ∧ ∃ w₀ clock₀, Log length limit anchored l w₀ clock₀ ∧
      Moves length limit anchored t.now w₀ t.hit t.after := by
  generalize hl : l ++ [t] = log at h
  cases h with
  | start => simp at hl
  | tick t' hlog hle hm =>
    obtain ⟨rfl, hlast⟩ := List.append_inj' hl rfl
    cases List.singleton_inj.1 hlast
    exact ⟨rfl, _, _, hlog, hm⟩

theorem Log.of_append {l l' : List Tick} (h : Log length limit anchored (l ++ l') w clock) :
    ∃ w₀ clock₀, Log length limit anchored l w₀ clock₀ := by
  induction l' using List.reverseRecOn generalizing w clock with
  | nil => exact ⟨w, clock, by rwa [List.append_nil] at h⟩
  | append_singleton l' t ih =>
    rw [← List.append_assoc] at h
    obtain ⟨-, w₀, clock₀, hlog, -⟩ := h.last
    exact ih hlog

/-- While one window is kept, its count includes every hit. -/
theorem Log.count_hits (hpos : 0 < length) {earlier block : List Tick} {resetAt : Nat} (hne : block ≠ [])
    (hsame : ∀ t ∈ block, ∃ v, t.after = some v ∧ v.resetAt = resetAt)
    (h : Log length limit anchored (earlier ++ block) w clock) :
    ∃ v, w = some v ∧ v.resetAt = resetAt ∧ block.countP (·.hit) ≤ v.count := by
  induction block using List.reverseRecOn generalizing w clock with
  | nil => exact absurd rfl hne
  | append_singleton block t ih =>
    rw [← List.append_assoc] at h
    obtain ⟨rfl, w₀, clock₀, hlog, hm⟩ := h.last
    obtain ⟨v, hv, hreset⟩ := hsame t (by simp)
    refine ⟨v, hv, hreset, ?_⟩
    rw [List.countP_append, List.countP_singleton]
    have hbefore : block.countP (·.hit) = 0 ∨ ∃ v₀, w₀ = some v₀ ∧ v₀.resetAt = resetAt ∧
        block.countP (·.hit) ≤ v₀.count := by
      by_cases hnil : block = []
      · exact .inl (by simp [hnil])
      · exact .inr (ih hnil (fun t ht => hsame t (by simp [ht])) hlog)
    -- a window given up with this end was empty
    have hempty : Spent t.now w₀ → v.resetAt = t.now + length → block.countP (·.hit) = 0 := by
      intro hs hend
      rcases hbefore with hzero | ⟨v₀, hv₀, hr, hcount⟩
      · exact hzero
      · rcases hs v₀ hv₀ with h | h <;> omega
    rw [hv] at hm
    generalize t.hit = hit at hm ⊢
    cases hm with
    | keep _ =>
      rcases hbefore with hzero | ⟨v₀, hv₀, -, hcount⟩
      · simp [hzero]
      · cases hv₀
        simpa using hcount
    | reopen _ hs _ => simp [hempty hs rfl]
    | first _ hs _ => simp [hempty hs rfl]
    | count v₀ _ _ =>
      rcases hbefore with hzero | ⟨_, hv₀, -, hcount⟩
      · simp [hzero]
      · cases hv₀
        simpa using hcount

/-- A stretch of steps that keeps one window has at most `limit` hits. -/
theorem Log.block_hits_le (hpos : 0 < length) {earlier block later : List Tick} (resetAt : Nat)
    (hsame : ∀ t ∈ block, ∃ v, t.after = some v ∧ v.resetAt = resetAt)
    (h : Log length limit anchored (earlier ++ block ++ later) w clock) : block.countP (·.hit) ≤ limit := by
  by_cases hne : block = []
  · simp [hne]
  obtain ⟨w₀, clock₀, hlog⟩ := h.of_append
  obtain ⟨v, rfl, -, hcount⟩ := hlog.count_hits hpos hne hsame
  obtain ⟨start, count, -, hacc⟩ := hlog.accounted hpos 0 0
  have hlimit := hacc.count_le
  rw [← (hacc.window v rfl).1] at hlimit
  exact Nat.le_trans hcount hlimit

/-- A counter whose window has hits keeps it until it ends. -/
theorem Moves.keeps_window {now : Nat} {hit : Bool} {v : Window} {w' : Option Window}
    (h : Moves length limit anchored now (some v) hit w') (hcount : 0 < v.count) (hlive : now < v.resetAt) :
    ∃ v', w' = some v' ∧ v'.resetAt = v.resetAt ∧ v.count ≤ v'.count := by
  have hspent : ¬ Spent now (some v) := by
    intro hs
    rcases hs v rfl with h | h <;> omega
  cases h with
  | keep _ => exact ⟨v, rfl, rfl, Nat.le_refl _⟩
  | drop _ hs => exact absurd hs hspent
  | reopen _ hs _ => exact absurd hs hspent
  | first _ hs _ => exact absurd hs hspent
  | count _ _ _ => exact ⟨_, rfl, rfl, Nat.le_succ _⟩

/-- From the start of a window until its end there are at most `limit` hits. -/
theorem Log.window_hits_le (hpos : 0 < length) {before later : List Tick} (hafter : t.after = some { count := 1, resetAt := t.now + length })
    (h : Log length limit anchored (before ++ t :: later) w clock) :
    hits t.now (t.now + length) (before ++ t :: later) ≤ limit := by
  -- the window is still there, or its time is over
  have hkept : hits t.now (t.now + length) (before ++ t :: later) ≤ limit ∧
      ((∃ v, w = some v ∧ v.resetAt = t.now + length ∧ 0 < v.count) ∨ t.now + length ≤ clock) := by
    -- what the account says while the window is there
    have hwindow : ∀ {log w clock}, Log length limit anchored log w clock → ∀ v, w = some v → v.resetAt = t.now + length →
        hits t.now (t.now + length) log ≤ limit := by
      intro log w clock hlog v hv hreset
      obtain ⟨start, count, -, hacc⟩ := hlog.accounted hpos t.now (t.now + length)
      have hstart : start = t.now := by
        have := (hacc.window v hv).2
        omega
      have htotal := hacc.total_le
      have hzero : earlier length t.now start = 0 := earlier_eq_zero hpos (Nat.le_of_eq hstart)
      rw [hzero, Nat.mul_zero, Nat.add_zero] at htotal
      exact Nat.le_trans htotal hacc.count_le
    induction later using List.reverseRecOn generalizing w clock with
    | nil =>
      obtain ⟨rfl, -⟩ := h.last
      exact ⟨hwindow h _ hafter rfl, .inl ⟨_, hafter, rfl, Nat.one_pos⟩⟩
    | append_singleton later t' ih =>
      rw [← List.cons_append, ← List.append_assoc] at h ⊢
      generalize hall : before ++ t :: later ++ [t'] = log at h ⊢
      cases h with
      | start => simp at hall
      | tick t'' hlog hle hm =>
        obtain ⟨rfl, hlast⟩ := List.append_inj' hall rfl
        cases List.singleton_inj.1 hlast
        obtain ⟨hcount, hw⟩ := ih hlog
        by_cases hover : t.now + length ≤ t'.now
        · refine ⟨?_, .inr hover⟩
          rw [hits_append, if_neg (by simp; omega)]
          exact hcount
        · rcases hw with ⟨v, rfl, hreset, hstarted⟩ | hclock
          · obtain ⟨v', hv', hreset', hmore⟩ := hm.keeps_window hstarted (by omega)
            have hnext := hwindow (Log.tick t' hlog hle hm) v' hv' (hreset'.trans hreset)
            exact ⟨hnext, .inl ⟨v', hv', hreset'.trans hreset, Nat.lt_of_lt_of_le hstarted hmore⟩⟩
          · omega
  exact hkept.1

end

/-! ## Charges of several units -/

/-- A charge that was let through: its units, and the end of the window it was
made in. -/
structure Charge where
  resetAt : Nat
  units : Nat

/-- The units charged in the window that ends at `resetAt`. -/
def charged (resetAt : Nat) (log : List Charge) : Nat :=
  ((log.filter fun charge => charge.resetAt = resetAt).map (·.units)).sum

theorem charged_append (resetAt : Nat) (log log' : List Charge) :
    charged resetAt (log ++ log') = charged resetAt log + charged resetAt log' := by
  simp [charged]

theorem charged_singleton (resetAt : Nat) (charge : Charge) :
    charged resetAt [charge] = if charge.resetAt = resetAt then charge.units else 0 := by
  unfold charged
  by_cases h : charge.resetAt = resetAt <;> simp [h]

/-- The counter of the current window is what was charged in it, no window was
charged beyond the limit, and none that ends later was charged at all. -/
structure Balanced (limit : Nat) (log : List Charge) (w : Option Window) : Prop where
  le : ∀ resetAt, charged resetAt log ≤ limit
  current : ∀ v, w = some v → charged v.resetAt log = v.count
  later : ∀ resetAt, (∀ v, w = some v → v.resetAt < resetAt) → charged resetAt log = 0

theorem balanced_start (limit : Nat) : Balanced limit [] none :=
  ⟨fun _ => Nat.zero_le _, nofun, fun _ _ => rfl⟩

/-- A charge to the window in force: the running one, or one that starts now
because none runs. -/
theorem Balanced.charge {limit units length : Nat} {log : List Charge} {w : Option Window} {v : Window}
    (h : Balanced limit log w) (now : Nat) (hpos : 0 < length)
    (hv : w = some v ∧ now < v.resetAt ∨
      (∀ u, w = some u → u.resetAt ≤ now) ∧ v = { count := 0, resetAt := now + length })
    (hroom : v.count + units ≤ limit) :
    Balanced limit (log ++ [{ resetAt := v.resetAt, units }]) (some { v with count := v.count + units }) := by
  have hcount : charged v.resetAt log = v.count := by
    rcases hv with ⟨hw, -⟩ | ⟨hover, rfl⟩
    · exact h.current v hw
    · apply h.later
      intro u hu
      have := hover u hu
      dsimp only
      omega
  have hlast : ∀ u, w = some u → u.resetAt ≤ v.resetAt := by
    intro u hu
    rcases hv with ⟨hw, -⟩ | ⟨hover, rfl⟩
    · rw [hw] at hu
      cases hu
      exact Nat.le_refl _
    · have := hover u hu
      dsimp only
      omega
  constructor
  · intro resetAt
    rw [charged_append, charged_singleton]
    dsimp only
    split
    · rename_i heq
      rw [← heq, hcount]
      exact hroom
    · exact h.le resetAt
  · intro u hu
    cases hu
    rw [charged_append, charged_singleton, hcount, if_pos rfl]
  · intro resetAt hlater
    have hlt := hlater _ rfl
    dsimp only at hlt
    rw [charged_append, charged_singleton, if_neg (by dsimp only; omega), h.later]
    intro u hu
    have := hlast u hu
    omega

end Hyeboard.FixedWindow
