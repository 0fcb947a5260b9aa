import Mathlib.Data.List.Induction
import Mathlib.Data.List.Nodup
/-!
# Runs of a clocked machine

A machine takes one call at a time; each call carries the clock reading it was
made at, and readings never go back. A `Run` is any finite sequence of such
calls from a start state, kept as the list of its steps. Whatever order
concurrent clients get their calls served in is a `Run`, so a theorem about
every `Run` holds for every interleaving.
-/

namespace Hyeboard

universe u v w

/-- One call, what it was answered, and the states around it. -/
structure Step (S : Type u) (C : Type v) (R : Type w) where
  before : S
  call : C
  result : R
  after : S

section
variable {S : Type u} {C : Type v} {R : Type w}

/-- The step a machine takes on a call. -/
def stepOf (step : S → C → R × S) (s : S) (c : C) : Step S C R :=
  { before := s, call := c, result := (step s c).1, after := (step s c).2 }

/-- The runs of `step` from `init` whose calls satisfy `ok`: their steps, the
state they end in, and the last clock reading. -/
inductive Run (step : S → C → R × S) (time : C → Nat) (ok : List (Step S C R) → S → C → Prop) (init : S) :
    List (Step S C R) → S → Nat → Prop
  | start : Run step time ok init [] init 0
  | call {trace s clock} (c : C) : Run step time ok init trace s clock → clock ≤ time c → ok trace s c →
      Run step time ok init (trace ++ [stepOf step s c]) (step s c).2 (time c)

variable {step : S → C → R × S} {time : C → Nat} {ok : List (Step S C R) → S → C → Prop} {init : S}
variable {trace : List (Step S C R)} {s : S} {clock : Nat}

/-- The steps of a list of calls made one after another. -/
def execute (step : S → C → R × S) (s : S) : List C → List (Step S C R)
  | [] => []
  | c :: rest => stepOf step s c :: execute step (step s c).2 rest

/-- The state they end in. -/
def stateAfter (step : S → C → R × S) (s : S) (cs : List C) : S := cs.foldl (fun s c => (step s c).2) s

theorem stateAfter_append (step : S → C → R × S) (s : S) (pre post : List C) :
    stateAfter step s (pre ++ post) = stateAfter step (stateAfter step s pre) post := List.foldl_append

namespace Run

/-- Calls made in the order of their clock readings extend a run. -/
theorem follow (cs : List C) : ∀ {pre : List (Step S C R)} {s : S} {clock : Nat}, Run step time ok init pre s clock →
    (clock :: cs.map time).Pairwise (· ≤ ·) → (∀ e ∈ Hyeboard.execute step s cs, ∀ pre, ok pre e.before e.call) →
    ∃ clock', Run step time ok init (pre ++ Hyeboard.execute step s cs) (stateAfter step s cs) clock' := by
  induction cs with
  | nil => exact fun h _ _ => ⟨_, by rwa [Hyeboard.execute, List.append_nil]⟩
  | cons c rest ih =>
    intro pre s clock h hsorted hok
    rw [List.map_cons, List.pairwise_cons, List.forall_mem_cons] at hsorted
    rw [Hyeboard.execute, List.forall_mem_cons] at hok
    have hnext := ih (h.call c hsorted.1.1 (hok.1 _)) hsorted.2 hok.2
    rwa [List.append_assoc] at hnext

theorem eq_stepOf_of_mem_execute {cs : List C} : ∀ {s : S} {e : Step S C R}, e ∈ Hyeboard.execute step s cs →
    e = stepOf step e.before e.call := by
  induction cs with
  | nil =>
    intro s e h
    cases h
  | cons c rest ih =>
    intro s e h
    rcases List.mem_cons.1 h with rfl | h
    · rfl
    · exact ih h

theorem executeSteps (cs : List C) {pre : List (Step S C R)} {s : S} {clock : Nat} (h : Run step time ok init pre s clock)
    (hsorted : (clock :: cs.map time).Pairwise (· ≤ ·))
    (hok : ∀ e ∈ Hyeboard.execute step s cs, ∀ pre, ok pre e.before e.call) :
    ∃ s' clock', Run step time ok init (pre ++ Hyeboard.execute step s cs) s' clock' :=
  ⟨_, follow cs h hsorted hok⟩

theorem call_mem_of_execute {cs : List C} : ∀ {s : S} {e : Step S C R}, e ∈ Hyeboard.execute step s cs → e.call ∈ cs := by
  induction cs with
  | nil =>
    intro s e h
    cases h
  | cons c rest ih =>
    intro s e h
    rcases List.mem_cons.1 h with rfl | h
    · exact List.mem_cons_self
    · exact List.mem_cons_of_mem _ (ih h)

theorem execute (cs : List C) {pre : List (Step S C R)} {s : S} {clock : Nat} (h : Run step time ok init pre s clock)
    (hsorted : (clock :: cs.map time).Pairwise (· ≤ ·)) (hok : ∀ c ∈ cs, ∀ pre t, ok pre t c) :
    ∃ s' clock', Run step time ok init (pre ++ Hyeboard.execute step s cs) s' clock' :=
  executeSteps cs h hsorted fun e he pre => hok e.call (call_mem_of_execute he) pre e.before

/-- What the start satisfies and every call keeps holds after every run. -/
theorem invariant (I : List (Step S C R) → S → Nat → Prop) (h0 : I [] init 0)
    (hstep : ∀ trace s clock c, Run step time ok init trace s clock → I trace s clock → clock ≤ time c → ok trace s c →
      I (trace ++ [stepOf step s c]) (step s c).2 (time c))
    (h : Run step time ok init trace s clock) : I trace s clock := by
  induction h with
  | start => exact h0
  | call c hr hle hok ih => exact hstep _ _ _ c hr ih hle hok

/-- The clock shows when the last call was made. -/
theorem clock_eq (h : Run step time ok init trace s clock) : clock = trace.getLast?.elim 0 fun e => time e.call := by
  cases h with
  | start => rfl
  | call c _ _ _ => simp [stepOf]

/-- What comes before a step of a run is a run, and ends where the step starts. -/
theorem cut (h : Run step time ok init trace s clock) : ∀ {pre post : List (Step S C R)} {e : Step S C R},
    trace = pre ++ e :: post → ∃ t c clk, Run step time ok init pre t clk ∧ clk ≤ time c ∧ ok pre t c ∧
      e = stepOf step t c := by
  induction h with
  | start =>
    intro pre post e he
    cases pre <;> cases he
  | @call trace s clock c hr hle hok ih =>
    intro pre post e he
    rcases List.eq_nil_or_concat' post with rfl | ⟨post', last, rfl⟩
    · obtain ⟨rfl, hlast⟩ := List.append_inj' he rfl
      exact ⟨s, c, clock, hr, hle, hok, (List.singleton_inj.1 hlast).symm⟩
    · rw [← List.cons_append, ← List.append_assoc] at he
      exact ih (List.append_inj' he rfl).1

/-- What a step starts and every later call keeps holds at the end. -/
theorem lasting (Arises : List (Step S C R) → Step S C R → Prop) (Q : S → Nat → Prop)
    (harise : ∀ pre t clk c, Run step time ok init pre t clk → clk ≤ time c → ok pre t c →
      Arises pre (stepOf step t c) → Q (step t c).2 (time c))
    (hkeep : ∀ pre t clk c, Run step time ok init pre t clk → clk ≤ time c → ok pre t c → Q t clk →
      Q (step t c).2 (time c))
    (h : Run step time ok init trace s clock) : ∀ {pre post : List (Step S C R)} {e : Step S C R},
    trace = pre ++ e :: post → Arises pre e → Q s clock := by
  induction h with
  | start =>
    intro pre post e he
    cases pre <;> cases he
  | @call trace s clock c hr hle hok ih =>
    intro pre post e he ha
    rcases List.eq_nil_or_concat' post with rfl | ⟨post', last, rfl⟩
    · obtain ⟨rfl, hlast⟩ := List.append_inj' he rfl
      exact harise _ s clock c hr hle hok (List.singleton_inj.1 hlast ▸ ha)
    · rw [← List.cons_append, ← List.append_assoc] at he
      exact hkeep _ _ _ c hr hle hok (ih (List.append_inj' he rfl).1 ha)

/-- No step is later than the clock. -/
theorem time_le (h : Run step time ok init trace s clock) : ∀ st ∈ trace, time st.call ≤ clock := by
  induction h with
  | start => simp
  | @call trace s clock c hr hle hok ih =>
    intro st hst
    rcases List.mem_append.1 hst with hst | hst
    · exact Nat.le_trans (ih st hst) hle
    · rw [List.mem_singleton] at hst
      subst hst
      exact Nat.le_refl _

/-- What a step leaves behind for good: if every step leaves `Q` of itself
behind, every later call keeps it, and it implies `P` of each later step, then
`P` relates every step to every later one. -/
theorem pairwise {P : Step S C R → Step S C R → Prop} (Q : Step S C R → S → Nat → Prop)
    (hleave : ∀ trace s clock c, Run step time ok init trace s clock → clock ≤ time c → ok trace s c →
      Q (stepOf step s c) (step s c).2 (time c))
    (hkeep : ∀ e trace s clock c, Run step time ok init trace s clock → clock ≤ time c → ok trace s c →
      Q e s clock → Q e (step s c).2 (time c))
    (hsafe : ∀ e trace s clock c, Run step time ok init trace s clock → clock ≤ time c → ok trace s c →
      Q e s clock → P e (stepOf step s c))
    (h : Run step time ok init trace s clock) : trace.Pairwise P := by
  have hall : (∀ e ∈ trace, Q e s clock) ∧ trace.Pairwise P := by
    induction h with
    | start => simp
    | @call trace s clock c hr hle hok ih =>
      obtain ⟨hQ, hP⟩ := ih
      refine ⟨fun e he => ?_, ?_⟩
      · rcases List.mem_append.1 he with he | he
        · exact hkeep e _ _ _ c hr hle hok (hQ e he)
        · rw [List.mem_singleton] at he
          exact he ▸ hleave _ _ _ c hr hle hok
      · rw [List.pairwise_append]
        refine ⟨hP, List.pairwise_singleton _ _, fun e he e' he' => ?_⟩
        rw [List.mem_singleton] at he'
        exact he' ▸ hsafe e _ _ _ c hr hle hok (hQ e he)
  exact hall.2

/-- A run under a weaker condition on its calls. -/
theorem mono {ok' : List (Step S C R) → S → C → Prop} (hok : ∀ trace s c, ok trace s c → ok' trace s c)
    (h : Run step time ok init trace s clock) : Run step time ok' init trace s clock := by
  induction h with
  | start => exact .start
  | call c _ hle h ih => exact .call c ih hle (hok _ _ _ h)

end Run

/-! ## How often a call changes the state -/

/-- A measure that every change uses up bounds the number of changes. -/
theorem changes_add_le [DecidableEq S] (left : S → Nat) (hstep : ∀ s c, (step s c).2 = s ∨ left (step s c).2 < left s)
    (cs : List C) : ∀ s, ((execute step s cs).filter fun e => e.after ≠ e.before).length +
      left (stateAfter step s cs) ≤ left s := by
  induction cs with
  | nil =>
    intro s
    exact Nat.le_of_eq (Nat.zero_add _)
  | cons c rest ih =>
    intro s
    have hrest := ih (step s c).2
    change _ + left (stateAfter step (step s c).2 rest) ≤ _
    rw [execute, List.filter_cons]
    rcases hstep s c with hsame | hless
    · rw [if_neg (by simp [stepOf, hsame])]
      rwa [hsame] at hrest ⊢
    · have hchanged : (stepOf step s c).after ≠ (stepOf step s c).before := by
        intro hsame
        rw [show (step s c).2 = s from hsame] at hless
        exact Nat.lt_irrefl _ hless
      rw [if_pos (decide_eq_true hchanged), List.length_cons]
      omega

/-! ## What is handed out and taken back -/

section Outstanding
variable {α : Type*} {gives : Step S C R → List α} {takes : Step S C R → α → Bool}

/-- What the steps of a trace gave and no later step took back. -/
def outstanding (gives : Step S C R → List α) (takes : Step S C R → α → Bool) (trace : List (Step S C R)) : List α :=
  trace.foldl (fun held e => held.filter (fun x => !takes e x) ++ gives e) []

theorem outstanding_snoc (trace : List (Step S C R)) (e : Step S C R) :
    outstanding gives takes (trace ++ [e]) =
      (outstanding gives takes trace).filter (fun x => !takes e x) ++ gives e := by
  rw [outstanding, List.foldl_append]
  rfl

theorem mem_outstanding_snoc {trace : List (Step S C R)} {e : Step S C R} {x : α} :
    x ∈ outstanding gives takes (trace ++ [e]) ↔
      x ∈ outstanding gives takes trace ∧ takes e x = false ∨ x ∈ gives e := by
  simp [outstanding_snoc]

/-- Whatever is outstanding was given by some step. -/
theorem given_of_outstanding {trace : List (Step S C R)} {x : α} (h : x ∈ outstanding gives takes trace) :
    ∃ e ∈ trace, x ∈ gives e := by
  induction trace using List.reverseRecOn with
  | nil => cases h
  | append_singleton trace e ih =>
    rcases mem_outstanding_snoc.1 h with ⟨h, -⟩ | h
    · obtain ⟨e', he', hx⟩ := ih h
      exact ⟨e', List.mem_append_left _ he', hx⟩
    · exact ⟨e, by simp, h⟩

/-- What holds of a thing when it is given and until it is taken back holds of
everything outstanding. -/
theorem Run.holds_outstanding (P : α → S → Nat → Prop)
    (hgive : ∀ pre t clk c, Run step time ok init pre t clk → clk ≤ time c → ok pre t c →
      ∀ x ∈ gives (stepOf step t c), P x (step t c).2 (time c))
    (hkeep : ∀ pre t clk c x, Run step time ok init pre t clk → clk ≤ time c → ok pre t c →
      x ∈ outstanding gives takes pre → takes (stepOf step t c) x = false → P x t clk → P x (step t c).2 (time c))
    (h : Run step time ok init trace s clock) : ∀ x ∈ outstanding gives takes trace, P x s clock := by
  induction h with
  | start =>
    intro x hx
    cases hx
  | @call trace s clock c hr hle hok ih =>
    intro x hx
    rcases mem_outstanding_snoc.1 hx with ⟨hx, htake⟩ | hx
    · exact hkeep _ _ _ c x hr hle hok hx htake (ih x hx)
    · exact hgive _ _ _ c hr hle hok x hx

/-- Nothing is outstanding twice if no step gives what is outstanding. -/
theorem Run.nodup_outstanding
    (hfresh : ∀ pre t clk c, Run step time ok init pre t clk → ok pre t c →
      (gives (stepOf step t c)).Nodup ∧ ∀ x ∈ gives (stepOf step t c), x ∉ outstanding gives takes pre)
    (h : Run step time ok init trace s clock) : (outstanding gives takes trace).Nodup := by
  induction h with
  | start => exact List.nodup_nil
  | @call trace s clock c hr hle hok ih =>
    obtain ⟨hnodup, hnew⟩ := hfresh _ _ _ c hr hok
    rw [outstanding_snoc]
    refine (ih.filter _).append hnodup ?_
    intro x hx hgiven
    exact hnew x hgiven (List.mem_filter.1 hx).1

end Outstanding

end

end Hyeboard
