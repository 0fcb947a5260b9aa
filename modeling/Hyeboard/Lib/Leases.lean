import Hyeboard.Lib.ExpiringKeys
import Hyeboard.Lib.Runs
/-!
# Leases

One key that one holder at a time has. It is taken only while nobody has it, and only who
has it renews it and gives it up. Every holder has a token, and a time to live that each
grant starts anew. Whether a lease is in force is read off the calls that were made; the
key tells no more and no less.
-/

namespace Hyeboard.ExpiringKeys.Key

/-- What a key holds later it holds now. -/
theorem get_of_le {α : Type*} {key : Key α} {value : α} {now t : Nat} (hle : now ≤ t) (h : key.get t = some value) :
    key.get now = some value := by
  obtain ⟨entry, hlive, rfl⟩ := Option.map_eq_some_iff.1 h
  obtain ⟨rfl, halive⟩ := live_eq_some.1 hlive
  exact get_of_live (live_eq_some.2 ⟨rfl, Entry.alive_of_le hle halive⟩)

end Hyeboard.ExpiringKeys.Key

namespace Hyeboard.Leases

open ExpiringKeys

universe u

inductive Operation (τ : Type u) where
  /-- SET with NX and PX. -/
  | acquire (token : τ)
  /-- PEXPIRE, if the key holds the token. -/
  | renew (token : τ)
  /-- DEL, if the key holds the token. -/
  | release (token : τ)
deriving DecidableEq

def Operation.token {τ : Type u} : Operation τ → τ
  | .acquire token | .renew token | .release token => token

structure Call (τ : Type u) where
  now : Nat
  operation : Operation τ

section
variable {τ : Type u} (ttl : τ → Nat)

def step [DecidableEq τ] (key : Key τ) (call : Call τ) : Bool × Key τ :=
  match call.operation with
  | .acquire token =>
    match key.get call.now with
    | some _ => (false, key)
    | none => (true, Key.setPx token call.now (ttl token))
  | .renew token => if key.get call.now = some token then (true, key.pexpire call.now (ttl token)) else (false, key)
  | .release token => if key.get call.now = some token then (true, none) else (false, key)

/-- What a step did, whatever the key was. -/
abbrev LeaseStep (τ : Type u) := Step (Key τ) (Call τ) Bool

/-- The step started the token's time anew. -/
def Grants (e : LeaseStep τ) (token : τ) : Prop :=
  e.result = true ∧ (e.call.operation = .acquire token ∨ e.call.operation = .renew token)

/-- Some grant of the token is not over, and the lease was not given up since. -/
def InForce (trace : List (LeaseStep τ)) (token : τ) (now : Nat) : Prop :=
  ∃ pre e post, trace = pre ++ e :: post ∧ Grants e token ∧ now < e.call.now + ttl token ∧
    ∀ d ∈ post, d.call.operation ≠ .release token

abbrev LeaseRun [DecidableEq τ] := Run (step ttl) Call.now (fun _ _ _ => True) none

variable {ttl} {trace : List (LeaseStep τ)} {key : Key τ} {clock now t : Nat} {token other : τ}

theorem not_inForce_nil : ¬ InForce ttl [] token now := by
  rintro ⟨pre, e, post, heq, -⟩
  cases pre <;> cases heq

theorem inForce_snoc {e : LeaseStep τ} : InForce ttl (trace ++ [e]) token now ↔
    (Grants e token ∧ now < e.call.now + ttl token) ∨ (InForce ttl trace token now ∧ e.call.operation ≠ .release token) := by
  constructor
  · rintro ⟨pre, g, post, heq, hgrants, hnow, hpost⟩
    rcases List.eq_nil_or_concat' post with rfl | ⟨post, last, rfl⟩
    · obtain ⟨rfl, hlast⟩ := List.append_inj' heq rfl
      obtain rfl := List.singleton_inj.1 hlast
      exact .inl ⟨hgrants, hnow⟩
    · rw [← List.cons_append, ← List.append_assoc] at heq
      obtain ⟨rfl, hlast⟩ := List.append_inj' heq rfl
      obtain rfl := List.singleton_inj.1 hlast
      refine .inr ⟨⟨pre, g, post, rfl, hgrants, hnow, fun d hd => hpost d (List.mem_append_left _ hd)⟩, hpost e ?_⟩
      exact List.mem_append_right _ (List.mem_singleton_self _)
  · rintro (⟨hgrants, hnow⟩ | ⟨⟨pre, g, post, rfl, hgrants, hnow, hpost⟩, hrelease⟩)
    · exact ⟨trace, e, [], rfl, hgrants, hnow, fun d hd => by cases hd⟩
    · refine ⟨pre, g, post ++ [e], by simp, hgrants, hnow, fun d hd => ?_⟩
      rcases List.mem_append.1 hd with hd | hd
      · exact hpost d hd
      · rw [List.mem_singleton.1 hd]
        exact hrelease

/-- A lease in force was asked for. -/
theorem InForce.mem (h : InForce ttl trace token now) : ∃ e ∈ trace, e.call.operation.token = token := by
  obtain ⟨pre, e, post, rfl, ⟨-, hoperation⟩, -⟩ := h
  refine ⟨e, by simp, ?_⟩
  rcases hoperation with hoperation | hoperation <;> rw [hoperation] <;> rfl

/-- A lease in force later is in force now. -/
theorem InForce.of_le (hle : now ≤ t) (h : InForce ttl trace token t) : InForce ttl trace token now := by
  obtain ⟨pre, e, post, heq, hgrants, ht, hpost⟩ := h
  exact ⟨pre, e, post, heq, hgrants, Nat.lt_of_le_of_lt hle ht, hpost⟩

variable [DecidableEq τ]

/-- It ends no later than its time to live after the last call. -/
theorem InForce.lt (h : LeaseRun ttl trace key clock) (hforce : InForce ttl trace token now) : now < clock + ttl token := by
  obtain ⟨pre, e, post, rfl, -, hnow, -⟩ := hforce
  have hle := h.time_le e (by simp)
  exact Nat.lt_of_lt_of_le hnow (Nat.add_le_add_right hle _)

/-- The step lemma: a call keeps what the key holds in step with what is in force. -/
theorem get_step (h : LeaseRun ttl trace key clock) {call : Call τ} (hclock : clock ≤ call.now)
    (hkey : ∀ now, clock ≤ now → ∀ token, key.get now = some token ↔ InForce ttl trace token now) (hle : call.now ≤ now) :
    (step ttl key call).2.get now = some token ↔ InForce ttl (trace ++ [stepOf (step ttl) key call]) token now := by
  have hnow := hkey now (Nat.le_trans hclock hle)
  have hcall := hkey call.now hclock
  obtain ⟨t, operation⟩ := call
  -- Nobody else has the key before `now`.
  have hholder : ∀ holder, InForce ttl trace holder now → key.get t = some holder := by
    intro holder hforce
    exact Key.get_of_le hle ((hnow holder).2 hforce)
  rw [inForce_snoc]
  cases operation with
  | acquire taker =>
    cases hget : key.get t with
    | some holder =>
      have hstep : step ttl key ⟨t, .acquire taker⟩ = (false, key) := by simp [step, hget]
      simp [stepOf, Grants, hstep, hnow]
    | none =>
      have hstep : step ttl key ⟨t, .acquire taker⟩ = (true, Key.setPx taker t (ttl taker)) := by simp [step, hget]
      have hfree : ¬ InForce ttl trace token now := by
        intro hforce
        rw [hholder _ hforce] at hget
        cases hget
      simp only [stepOf, Grants, hstep, Key.get_setPx, hfree, false_and, or_false, true_and]
      grind
  | renew taker =>
    by_cases hget : key.get t = some taker
    · have hstep : step ttl key ⟨t, .renew taker⟩ = (true, key.pexpire t (ttl taker)) := by simp [step, hget]
      obtain ⟨entry, hlive, rfl⟩ := Option.map_eq_some_iff.1 hget
      have hexpire : Key.pexpire key t (ttl entry.value) = Key.setPx entry.value t (ttl entry.value) := by
        rw [Key.pexpire, hlive]
        rfl
      have hothers : InForce ttl trace token now → token = entry.value ∧ now < t + ttl token := by
        intro hforce
        have hsame := hholder _ hforce
        rw [hget] at hsame
        exact ⟨(Option.some.inj hsame).symm, Nat.lt_of_lt_of_le (InForce.lt h hforce) (Nat.add_le_add_right hclock _)⟩
      simp only [stepOf, Grants, hstep, hexpire, Key.get_setPx]
      grind
    · have hstep : step ttl key ⟨t, .renew taker⟩ = (false, key) := by simp [step, hget]
      simp [stepOf, Grants, hstep, hnow]
  | release taker =>
    by_cases hget : key.get t = some taker
    · have hstep : step ttl key ⟨t, .release taker⟩ = (true, none) := by simp [step, hget]
      have hothers : InForce ttl trace token now → token = taker := by
        intro hforce
        have hsame := hholder _ hforce
        rw [hget] at hsame
        exact (Option.some.inj hsame).symm
      simp only [stepOf, Grants, hstep]
      constructor
      · intro hnone
        cases hnone
      · grind
    · have hstep : step ttl key ⟨t, .release taker⟩ = (false, key) := by simp [step, hget]
      have hreleased : InForce ttl trace token now → token ≠ taker := by
        rintro hforce rfl
        exact hget (hholder _ hforce)
      simp only [stepOf, Grants, hstep, hnow]
      grind

/-- The key holds a token exactly while the token's lease is in force. -/
theorem get_eq_some_iff (h : LeaseRun ttl trace key clock) (hle : clock ≤ now) :
    key.get now = some token ↔ InForce ttl trace token now := by
  have hall : ∀ now, clock ≤ now → ∀ token, key.get now = some token ↔ InForce ttl trace token now := by
    clear hle
    induction h with
    | start =>
      intro now _ token
      simp [Key.get, Key.live, not_inForce_nil]
    | call c hr hle _ ih =>
      intro now hnow token
      exact get_step hr hle ih hnow
  exact hall now hle token

/-- No two leases are in force at one time. -/
theorem inForce_unique (h : LeaseRun ttl trace key clock) (hle : clock ≤ now) (hforce : InForce ttl trace token now)
    (hother : InForce ttl trace other now) : token = other := by
  have hget := (get_eq_some_iff h hle).2 hforce
  rw [(get_eq_some_iff h hle).2 hother] at hget
  exact (Option.some.inj hget).symm

variable (token) in
/-- The key is taken exactly while no lease is in force. -/
theorem acquire_iff (h : LeaseRun ttl trace key clock) (hle : clock ≤ now) :
    (step ttl key ⟨now, .acquire token⟩).1 = true ↔ ∀ holder, ¬ InForce ttl trace holder now := by
  have hget : ∀ holder, key.get now = some holder ↔ InForce ttl trace holder now := fun _ => get_eq_some_iff h hle
  cases hkey : key.get now with
  | none =>
    simp only [step, hkey, true_iff]
    intro holder hforce
    rw [(hget holder).2 hforce] at hkey
    cases hkey
  | some holder =>
    simp only [step, hkey, Bool.false_eq_true, false_iff, not_forall, not_not]
    exact ⟨holder, (hget holder).1 hkey⟩

/-- A lease is renewed exactly while it is in force. -/
theorem renew_iff (h : LeaseRun ttl trace key clock) (hle : clock ≤ now) :
    (step ttl key ⟨now, .renew token⟩).1 = true ↔ InForce ttl trace token now := by
  rw [← get_eq_some_iff h hle]
  simp only [step]
  split <;> simp_all

/-- What is in force later was in force before the calls between, unless it was taken anew. -/
theorem InForce.before {more : List (LeaseStep τ)} (h : LeaseRun ttl trace key clock) (hforce : InForce ttl trace token now)
    {pre : List (LeaseStep τ)} (heq : trace = pre ++ more) (hmore : ∀ e ∈ more, e.call.operation ≠ .acquire token) :
    ∀ t, (∀ e ∈ pre, e.call.now ≤ t) → (∀ e ∈ more, t ≤ e.call.now) → t ≤ now → InForce ttl pre token t := by
  induction h generalizing more now with
  | start =>
    obtain ⟨rfl, rfl⟩ := List.append_eq_nil_iff.1 heq.symm
    exact absurd hforce not_inForce_nil
  | @call trace key clock c hr hle _ ih =>
    intro t hpre hlater ht
    rcases List.eq_nil_or_concat' more with rfl | ⟨more, last, rfl⟩
    · rw [List.append_nil] at heq
      exact heq ▸ hforce.of_le ht
    · rw [← List.append_assoc] at heq
      obtain ⟨rfl, hlast⟩ := List.append_inj' heq rfl
      obtain rfl := List.singleton_inj.1 hlast
      rw [List.forall_mem_append, List.forall_mem_singleton] at hmore hlater
      rcases inForce_snoc.1 hforce with ⟨⟨hresult, hgrant⟩, -⟩ | ⟨hforce, -⟩
      · rcases hgrant with hacquire | hrenew
        · exact absurd hacquire hmore.2
        · have hrenewed : InForce ttl (pre ++ more) token c.now := by
            obtain ⟨t, operation⟩ := c
            obtain rfl : operation = .renew token := hrenew
            exact (renew_iff hr hle).1 hresult
          exact ih hrenewed rfl hmore.1 t hpre hlater.1 hlater.2
      · exact ih hforce rfl hmore.1 t hpre hlater.1 ht

end

/-! ## Stores of many leases

A machine that runs lease commands on the keys of a server. What one key is asked is a run
of its own.
-/

section
universe v w x
variable {τ : Type u} [DecidableEq τ] {ttl : τ → Nat}
variable {S : Type v} {C : Type w} {R : Type x} {κ : Type*} [DecidableEq κ]
variable {machine : S → C → R × S} {time : C → Nat} {ok : List (Step S C R) → S → C → Prop} {init : S}
variable {keys : S → κ → Key τ} {served : S → C → Option (κ × Operation τ)}

/-- What a call asks of a key. -/
def asked (served : S → C → Option (κ × Operation τ)) (key : κ) (s : S) (c : C) : Option (Operation τ) :=
  (served s c).bind fun command => if command.1 = key then some command.2 else none

variable (ttl time keys served) in
/-- The commands that a key was sent. -/
def history (key : κ) (trace : List (Step S C R)) : List (LeaseStep τ) :=
  trace.filterMap fun e =>
    (asked served key e.before e.call).map fun operation => stepOf (step ttl) (keys e.before key) ⟨time e.call, operation⟩

variable (ttl time keys served machine) in
/-- The machine does to its keys what the commands say, and nothing else. -/
def Serves : Prop :=
  ∀ s c key, keys (machine s c).2 key =
    match asked served key s c with
    | some operation => (step ttl (keys s key) ⟨time c, operation⟩).2
    | none => keys s key

variable {trace : List (Step S C R)} {s : S} {clock now : Nat} {key : κ} {token other : τ}

theorem history_snoc (e : Step S C R) : history ttl time keys served key (trace ++ [e]) =
    history ttl time keys served key trace ++ ((asked served key e.before e.call).map fun operation =>
      stepOf (step ttl) (keys e.before key) ⟨time e.call, operation⟩).toList := by
  simp only [history, List.filterMap_append, List.filterMap_cons, List.filterMap_nil]
  cases asked served key e.before e.call <;> rfl

theorem history_append (more : List (Step S C R)) : history ttl time keys served key (trace ++ more) =
    history ttl time keys served key trace ++ history ttl time keys served key more := List.filterMap_append

/-- Every command in the history of a key was sent by some call, at its time. -/
theorem mem_history {e : LeaseStep τ} (h : e ∈ history ttl time keys served key trace) :
    ∃ d ∈ trace, asked served key d.before d.call = some e.call.operation ∧ e.call.now = time d.call := by
  obtain ⟨d, hd, he⟩ := List.mem_filterMap.1 h
  obtain ⟨operation, hasked, rfl⟩ := Option.map_eq_some_iff.1 he
  exact ⟨d, hd, hasked, rfl⟩

theorem history_run (hserves : Serves ttl machine time keys served) (hinit : ∀ key, keys init key = none)
    (h : Run machine time ok init trace s clock) (key : κ) :
    ∃ clk ≤ clock, LeaseRun ttl (history ttl time keys served key trace) (keys s key) clk := by
  induction h with
  | start => exact ⟨0, Nat.le_refl 0, by rw [hinit]; exact .start⟩
  | @call trace s clock c hr hle _ ih =>
    obtain ⟨clk, hclk, hrun⟩ := ih
    have hkeys := hserves s c key
    rw [history_snoc]
    change ∃ clk ≤ time c, LeaseRun ttl (_ ++ ((asked served key s c).map _).toList) _ clk
    cases hasked : asked served key s c with
    | none =>
      rw [hasked] at hkeys
      refine ⟨clk, Nat.le_trans hclk hle, ?_⟩
      rw [hkeys]
      simpa using hrun
    | some operation =>
      rw [hasked] at hkeys
      refine ⟨time c, Nat.le_refl _, ?_⟩
      rw [hkeys]
      exact hrun.call ⟨time c, operation⟩ (Nat.le_trans hclk hle) trivial

/-- What every call keeps holds at each later step, and at the end. -/
theorem kept_after {P : S → Prop} (hkeep : ∀ s c, P s → P (machine s c).2) (h : Run machine time ok init trace s clock) :
    ∀ {pre post : List (Step S C R)} {e : Step S C R}, trace = pre ++ e :: post → P e.before →
      (∀ d ∈ e :: post, P d.before) ∧ P s := by
  induction h with
  | start =>
    intro pre post e heq
    cases pre <;> cases heq
  | @call trace s clock c _ _ _ ih =>
    intro pre post e heq he
    rcases List.eq_nil_or_concat' post with rfl | ⟨post, last, rfl⟩
    · obtain ⟨-, hlast⟩ := List.append_inj' heq rfl
      obtain rfl := List.singleton_inj.1 hlast
      exact ⟨fun d hd => List.mem_singleton.1 hd ▸ he, hkeep s c he⟩
    · rw [← List.cons_append, ← List.append_assoc] at heq
      obtain ⟨rfl, hlast⟩ := List.append_inj' heq rfl
      obtain rfl := List.singleton_inj.1 hlast
      obtain ⟨hall, hs⟩ := ih rfl he
      refine ⟨fun d hd => ?_, hkeep s c hs⟩
      rw [← List.cons_append, List.mem_append, List.mem_singleton] at hd
      rcases hd with hd | rfl
      · exact hall d hd
      · exact hs

/-- No two leases on a key are in force at one time. -/
theorem held_unique (hserves : Serves ttl machine time keys served) (hinit : ∀ key, keys init key = none)
    (h : Run machine time ok init trace s clock) (hle : clock ≤ now)
    (hforce : InForce ttl (history ttl time keys served key trace) token now)
    (hother : InForce ttl (history ttl time keys served key trace) other now) : token = other := by
  obtain ⟨clk, hclk, hrun⟩ := history_run hserves hinit h key
  exact inForce_unique hrun (Nat.le_trans hclk hle) hforce hother

/-- A lease that is not in force is never in force again, unless it is taken anew. -/
theorem lost_forever (hserves : Serves ttl machine time keys served) (hinit : ∀ key, keys init key = none)
    (h : Run machine time ok init trace s clock) {pre post : List (Step S C R)} {e : Step S C R}
    (heq : trace = pre ++ e :: post) (hlost : ¬ InForce ttl (history ttl time keys served key pre) token (time e.call))
    (hnone : ∀ d ∈ e :: post, asked served key d.before d.call ≠ some (.acquire token)) (hle : clock ≤ now) :
    ¬ InForce ttl (history ttl time keys served key trace) token now := by
  intro hforce
  obtain ⟨clk, -, hrun⟩ := history_run hserves hinit h key
  have hsorted : trace.Pairwise fun d d' => time d.call ≤ time d'.call :=
    h.pairwise (fun d _ clock => time d.call ≤ clock) (fun _ _ _ c _ _ _ => Nat.le_refl (time c))
      (fun _ _ _ _ c _ hle _ hd => Nat.le_trans hd hle) (fun _ _ _ _ _ _ hle _ hd => Nat.le_trans hd hle)
  have hclock : time e.call ≤ now := Nat.le_trans (h.time_le e (by simp [heq])) hle
  rw [heq, List.pairwise_append, List.pairwise_cons] at hsorted
  obtain ⟨-, ⟨hlater, -⟩, hearlier⟩ := hsorted
  refine hlost (InForce.before hrun hforce (by rw [heq, history_append]) ?_ _ ?_ ?_ hclock)
  · intro d hd hacquire
    obtain ⟨call, hcall, hasked, -⟩ := mem_history hd
    exact hnone call hcall (hacquire ▸ hasked)
  · intro d hd
    obtain ⟨call, hcall, -, htime⟩ := mem_history hd
    rw [htime]
    exact hearlier call hcall e List.mem_cons_self
  · intro d hd
    obtain ⟨call, hcall, -, htime⟩ := mem_history hd
    rw [htime]
    rcases List.mem_cons.1 hcall with rfl | hcall
    · exact Nat.le_refl _
    · exact hlater call hcall

end

end Hyeboard.Leases
