import Mathlib.Logic.Function.Basic
import Hyeboard.Lib.Runs
/-!
# Transactions under a lock

Sessions share a store. A transaction first takes the lock of the part of the
store it is about, then reads, decides what to write, and commits later; what it
writes goes to the store as it is by then. If it reads and writes only what its
lock guards, every interleaving of sessions is answered as the same transactions
run one after another in the order of their commits (`serializable`).
-/

namespace Hyeboard

universe u

/-- A kind of transaction: what it reads and decides, what its commit writes, and
which part of the store each lock guards. -/
structure Transactions (Store Request Reading Plan Outcome Answer Lock : Type u) where
  lock : Request → Lock
  plan : Store → Request → Reading → Plan
  commit : Store → Request → Plan → Outcome → Answer × Store
  /-- The two stores agree on what the lock guards. -/
  Agree : Lock → Store → Store → Prop
  plan_of_agree : ∀ {store store' request reading}, Agree (lock request) store store' →
    plan store request reading = plan store' request reading
  commit_agree : ∀ {l store request} (decided : Plan) (outcome : Outcome), l ≠ lock request →
    Agree l (commit store request decided outcome).2 store

namespace Transactions

variable {Store Request Reading Plan Outcome Answer Lock : Type u}
variable (kind : Transactions Store Request Reading Plan Outcome Answer Lock)

/-- A transaction that nothing comes between. -/
def atomic (store : Store) (call : Request × Reading × Outcome) : Answer × Store :=
  kind.commit store call.1 (kind.plan store call.1 call.2.1) call.2.2

/-- Where a session is in its transaction. -/
inductive Phase (Request Reading Plan : Type u) where
  | idle
  | waiting (request : Request)
  | locked (request : Request)
  | planned (request : Request) (reading : Reading) (decided : Plan)

structure System (Store Request Reading Plan Lock : Type u) where
  store : Store
  holder : Lock → Option Nat
  phase : Nat → Phase Request Reading Plan

/-- What happens to the session `id`. It may be dropped at any time: the lock
goes with its connection, and nothing is written. -/
inductive Event (Request Reading Outcome : Type u) where
  | start (id : Nat) (request : Request)
  | acquire (id : Nat)
  | read (id : Nat) (reading : Reading)
  | commit (id : Nat) (outcome : Outcome)
  | drop (id : Nat)

def System.start (store : Store) : System Store Request Reading Plan Lock :=
  { store, holder := fun _ => none, phase := fun _ => .idle }

variable {kind}

/-- The session goes on to `phase`. -/
def System.enter (s : System Store Request Reading Plan Lock) (id : Nat) (phase : Phase Request Reading Plan) :
    System Store Request Reading Plan Lock :=
  { s with phase := Function.update s.phase id phase }

@[simp] theorem System.enter_phase (s : System Store Request Reading Plan Lock) (id id' : Nat)
    (phase : Phase Request Reading Plan) : (s.enter id phase).phase id' = if id' = id then phase else s.phase id' :=
  Function.update_apply _ _ _ _

variable [DecidableEq Lock]

/-- The session lets go of the lock. -/
def System.release (s : System Store Request Reading Plan Lock) (l : Lock) (id : Nat) :
    System Store Request Reading Plan Lock :=
  { s with holder := Function.update s.holder l none, phase := Function.update s.phase id .idle }

variable (kind) in
/-- An event out of turn changes nothing. A commit answers its transaction. -/
def step (s : System Store Request Reading Plan Lock) :
    Event Request Reading Outcome → Option ((Request × Reading × Outcome) × Answer) × System Store Request Reading Plan Lock
  | .start id request =>
    match s.phase id with
    | .idle => (none, s.enter id (.waiting request))
    | _ => (none, s)
  | .acquire id =>
    match s.phase id with
    | .waiting request =>
      match s.holder (kind.lock request) with
      | none =>
        (none, { s.enter id (.locked request) with holder := Function.update s.holder (kind.lock request) (some id) })
      | some _ => (none, s)
    | _ => (none, s)
  | .read id reading =>
    match s.phase id with
    | .locked request => (none, s.enter id (.planned request reading (kind.plan s.store request reading)))
    | _ => (none, s)
  | .commit id outcome =>
    match s.phase id with
    | .planned request reading decided =>
      let committed := kind.commit s.store request decided outcome
      (some ((request, reading, outcome), committed.1), { s.release (kind.lock request) id with store := committed.2 })
    | _ => (none, s)
  | .drop id =>
    match s.phase id with
    | .idle => (none, s)
    | .waiting _ => (none, s.enter id .idle)
    | .locked request => (none, s.release (kind.lock request) id)
    | .planned request _ _ => (none, s.release (kind.lock request) id)

@[simp] theorem System.release_phase (s : System Store Request Reading Plan Lock) (l : Lock) (id id' : Nat) :
    (s.release l id).phase id' = if id' = id then .idle else s.phase id' := Function.update_apply _ _ _ _

@[simp] theorem System.release_holder (s : System Store Request Reading Plan Lock) (l l' : Lock) (id : Nat) :
    (s.release l id).holder l' = if l' = l then none else s.holder l' := Function.update_apply _ _ _ _

/-! ## What an event does -/

variable (kind) in
/-- What an event answers, and the system it leaves. -/
inductive Effect (s : System Store Request Reading Plan Lock) : Event Request Reading Outcome →
    Option ((Request × Reading × Outcome) × Answer) → System Store Request Reading Plan Lock → Prop
  | outOfTurn (event : Event Request Reading Outcome) : Effect s event none s
  | starts (id : Nat) (request : Request) : Effect s (.start id request) none (s.enter id (.waiting request))
  | acquires (id : Nat) (request : Request) (hphase : s.phase id = .waiting request)
      (hfree : s.holder (kind.lock request) = none) :
      Effect s (.acquire id) none
        { s.enter id (.locked request) with holder := Function.update s.holder (kind.lock request) (some id) }
  | reads (id : Nat) (request : Request) (reading : Reading) (hphase : s.phase id = .locked request) :
      Effect s (.read id reading) none (s.enter id (.planned request reading (kind.plan s.store request reading)))
  | commits (id : Nat) (request : Request) (reading : Reading) (decided : Plan) (outcome : Outcome)
      (hphase : s.phase id = .planned request reading decided) :
      Effect s (.commit id outcome) (some ((request, reading, outcome), (kind.commit s.store request decided outcome).1))
        { s.release (kind.lock request) id with store := (kind.commit s.store request decided outcome).2 }
  | leaves (id : Nat) : Effect s (.drop id) none (s.enter id .idle)
  | drops (id : Nat) (request : Request)
      (hphase : s.phase id = .locked request ∨ ∃ reading decided, s.phase id = .planned request reading decided) :
      Effect s (.drop id) none (s.release (kind.lock request) id)

theorem step_effect (s : System Store Request Reading Plan Lock) (event : Event Request Reading Outcome) :
    Effect kind s event (step kind s event).1 (step kind s event).2 := by
  cases event with
  | start id request =>
    simp only [step]
    split
    · exact .starts id request
    · exact .outOfTurn _
  | acquire id =>
    simp only [step]
    split
    · rename_i request hphase
      split
      · rename_i hfree
        exact .acquires id request hphase hfree
      · exact .outOfTurn _
    · exact .outOfTurn _
  | read id reading =>
    simp only [step]
    split
    · rename_i request hphase
      exact .reads id request reading hphase
    · exact .outOfTurn _
  | commit id outcome =>
    simp only [step]
    split
    · rename_i request reading decided hphase
      exact .commits id request reading decided outcome hphase
    · exact .outOfTurn _
  | drop id =>
    simp only [step]
    split
    · exact .outOfTurn _
    · exact .leaves id
    · rename_i request hphase
      exact .drops id request (.inl hphase)
    · rename_i request reading decided hphase
      exact .drops id request (.inr ⟨reading, decided, hphase⟩)

/-! ## What a lock protects -/

variable (kind) in
/-- A session that has taken its lock holds it, and one that has read would
decide the same now. -/
structure Protected (s : System Store Request Reading Plan Lock) : Prop where
  locked : ∀ {id request}, s.phase id = .locked request → s.holder (kind.lock request) = some id
  planned : ∀ {id request reading decided}, s.phase id = .planned request reading decided →
    s.holder (kind.lock request) = some id ∧ kind.plan s.store request reading = decided

section
variable {s s' : System Store Request Reading Plan Lock} {id : Nat} {request : Request}
variable {event : Event Request Reading Outcome} {result : Option ((Request × Reading × Outcome) × Answer)}

omit [DecidableEq Lock] in
theorem protected_start (store : Store) : Protected kind (System.start store) := ⟨nofun, nofun⟩

omit [DecidableEq Lock] in
/-- A session that only changes its own phase. -/
theorem Protected.enter (h : Protected kind s) {phase : Phase Request Reading Plan}
    (hlocked : ∀ request, phase = .locked request → s.holder (kind.lock request) = some id)
    (hplanned : ∀ request reading decided, phase = .planned request reading decided →
      s.holder (kind.lock request) = some id ∧ kind.plan s.store request reading = decided) :
    Protected kind (s.enter id phase) := by
  constructor
  · intro id' request' hphase
    rw [System.enter_phase] at hphase
    split at hphase
    case isTrue hid => exact hid ▸ hlocked request' hphase
    case isFalse => exact h.locked hphase
  · intro id' request' reading' decided' hphase
    rw [System.enter_phase] at hphase
    split at hphase
    case isTrue hid => exact hid ▸ hplanned request' reading' decided' hphase
    case isFalse => exact h.planned hphase

/-- A session takes a lock nobody holds. -/
theorem Protected.acquire (h : Protected kind s) (hfree : s.holder (kind.lock request) = none) :
    Protected kind
      { s.enter id (.locked request) with holder := Function.update s.holder (kind.lock request) (some id) } := by
  -- a lock held by another session is another lock
  have hother : ∀ {id' l}, s.holder l = some id' → Function.update s.holder (kind.lock request) (some id) l = some id' := by
    rintro id' l hheld
    rw [Function.update_of_ne, hheld]
    rintro rfl
    rw [hfree] at hheld
    cases hheld
  constructor
  · intro id' request' hphase
    rw [System.enter_phase] at hphase
    split at hphase
    case isTrue hid =>
      cases hphase
      exact hid ▸ Function.update_self _ _ _
    case isFalse => exact hother (h.locked hphase)
  · intro id' request' reading' decided' hphase
    rw [System.enter_phase] at hphase
    split at hphase
    case isTrue => cases hphase
    case isFalse => exact ⟨hother (h.planned hphase).1, (h.planned hphase).2⟩

/-- The holder of a lock lets go of it, with the store changed at most where
the lock guards it. -/
theorem Protected.release (h : Protected kind s) (hholder : s.holder (kind.lock request) = some id) {store : Store}
    (hstore : ∀ l, l ≠ kind.lock request → kind.Agree l store s.store) :
    Protected kind { s.release (kind.lock request) id with store } := by
  have hother : ∀ {id' l}, id' ≠ id → s.holder l = some id' → l ≠ kind.lock request := by
    rintro id' l hid hheld rfl
    rw [hholder, Option.some.injEq] at hheld
    exact hid hheld.symm
  constructor
  · intro id' request' hphase
    rw [System.release_phase] at hphase
    split at hphase
    case isTrue => cases hphase
    case isFalse hid =>
      have hheld := h.locked hphase
      exact (System.release_holder s _ _ id).trans ((if_neg (hother hid hheld)).trans hheld)
  · intro id' request' reading' decided' hphase
    rw [System.release_phase] at hphase
    split at hphase
    case isTrue => cases hphase
    case isFalse hid =>
      obtain ⟨hheld, hplan⟩ := h.planned hphase
      have hne := hother hid hheld
      refine ⟨(System.release_holder s _ _ id).trans ((if_neg hne).trans hheld), ?_⟩
      exact (kind.plan_of_agree (hstore _ hne)).trans hplan

theorem Effect.protected (hagree : ∀ (l : Lock) (store : Store), kind.Agree l store store) (heffect : Effect kind s event result s')
    (h : Protected kind s) : Protected kind s' := by
  cases heffect with
  | outOfTurn => exact h
  | starts id request => exact h.enter nofun nofun
  | acquires id request hphase hfree => exact h.acquire hfree
  | reads id request reading hphase =>
    apply h.enter
    · rintro _ ⟨⟩
    · rintro _ _ _ ⟨⟩
      exact ⟨h.locked hphase, rfl⟩
  | commits id request reading decided outcome hphase =>
    exact h.release (h.planned hphase).1 fun l hl => kind.commit_agree decided outcome hl
  | leaves id => exact h.enter nofun nofun
  | drops id request hphase =>
    have hholder : s.holder (kind.lock request) = some id := by
      rcases hphase with hphase | ⟨reading, decided, hphase⟩
      · exact h.locked hphase
      · exact (h.planned hphase).1
    exact h.release hholder fun l _ => hagree l _

/-- An event that answers nothing leaves the store as it is; one that answers is
a whole transaction, run on the store as it is. -/
theorem Effect.atomic (heffect : Effect kind s event result s') (h : Protected kind s) :
    (result = none ∧ s'.store = s.store) ∨
      ∃ call, result = some (call, (kind.atomic s.store call).1) ∧ s'.store = (kind.atomic s.store call).2 := by
  cases heffect with
  | commits id request reading decided outcome hphase =>
    refine .inr ⟨(request, reading, outcome), ?_⟩
    unfold Transactions.atomic
    rw [(h.planned hphase).2]
    exact ⟨rfl, rfl⟩
  | _ => exact .inl ⟨rfl, rfl⟩

/-! ## What sessions ask for -/

variable {P : Request → Prop} {Q : Reading → Prop}

/-- The requests satisfy `P`, and what is read along with the store `Q`. -/
def Event.Satisfies (P : Request → Prop) (Q : Reading → Prop) : Event Request Reading Outcome → Prop
  | .start _ request => P request
  | .read _ reading => Q reading
  | _ => True

def Phase.Satisfies (P : Request → Prop) (Q : Reading → Prop) : Phase Request Reading Plan → Prop
  | .idle => True
  | .waiting request | .locked request => P request
  | .planned request reading _ => P request ∧ Q reading

omit [DecidableEq Lock] in
theorem enter_satisfies (h : ∀ id, (s.phase id).Satisfies P Q) {phase : Phase Request Reading Plan}
    (hphase : phase.Satisfies P Q) : ∀ id', ((s.enter id phase).phase id').Satisfies P Q := by
  intro id'
  rw [System.enter_phase]
  split
  · exact hphase
  · exact h id'

theorem release_satisfies (h : ∀ id, (s.phase id).Satisfies P Q) (l : Lock) :
    ∀ id', ((s.release l id).phase id').Satisfies P Q := by
  intro id'
  rw [System.release_phase]
  split
  · trivial
  · exact h id'

theorem Effect.satisfies (heffect : Effect kind s event result s') (hevent : event.Satisfies P Q)
    (h : ∀ id, (s.phase id).Satisfies P Q) :
    (∀ id, (s'.phase id).Satisfies P Q) ∧ ∀ answered ∈ result, P answered.1.1 ∧ Q answered.1.2.1 := by
  cases heffect with
  | outOfTurn => exact ⟨h, nofun⟩
  | starts id request => exact ⟨enter_satisfies h hevent, nofun⟩
  | acquires id request hphase _ =>
    have hrequest : (s.phase id).Satisfies P Q := h id
    rw [hphase] at hrequest
    exact ⟨enter_satisfies h hrequest, nofun⟩
  | reads id request reading hphase =>
    have hrequest : (s.phase id).Satisfies P Q := h id
    rw [hphase] at hrequest
    exact ⟨enter_satisfies h ⟨hrequest, hevent⟩, nofun⟩
  | commits id request reading decided outcome hphase =>
    have hrequest : (s.phase id).Satisfies P Q := h id
    rw [hphase] at hrequest
    refine ⟨release_satisfies h (kind.lock request), ?_⟩
    rintro _ ⟨⟩
    exact hrequest
  | leaves id => exact ⟨enter_satisfies h trivial, nofun⟩
  | drops id request _ => exact ⟨release_satisfies h _, nofun⟩

end

/-! ## Runs -/

variable (kind) in
/-- The runs of sessions over a store that ask for what satisfies `P` and `Q`. -/
abbrev SessionRun (P : Request → Prop) (Q : Reading → Prop) (store : Store) :=
  Run (step kind) (fun _ => 0) (fun _ _ event => event.Satisfies P Q) (System.start store)

/-- The transactions a run committed, in that order, with their answers. -/
def committed (trace : List (Step (System Store Request Reading Plan Lock) (Event Request Reading Outcome)
    (Option ((Request × Reading × Outcome) × Answer)))) : List ((Request × Reading × Outcome) × Answer) :=
  trace.filterMap (·.result)

theorem execute_snoc {S C R : Type u} (step : S → C → R × S) (s : S) (cs : List C) (c : C) :
    execute step s (cs ++ [c]) = execute step s cs ++ [stepOf step (stateAfter step s cs) c] := by
  induction cs generalizing s with
  | nil => rfl
  | cons first rest ih => exact congrArg (stepOf step s first :: ·) (ih _)

theorem calls_execute {S C R : Type u} (step : S → C → R × S) (s : S) (cs : List C) :
    (execute step s cs).map (·.call) = cs := by
  induction cs generalizing s with
  | nil => rfl
  | cons first rest ih => exact congrArg (first :: ·) (ih _)

section
variable {P : Request → Prop} {Q : Reading → Prop} {store : Store} {s : System Store Request Reading Plan Lock}
variable {clock : Nat} {trace : List (Step (System Store Request Reading Plan Lock) (Event Request Reading Outcome)
  (Option ((Request × Reading × Outcome) × Answer)))}

theorem committed_snoc (trace : List _) (event : Event Request Reading Outcome) :
    committed (trace ++ [stepOf (step kind) s event]) = committed trace ++ ((step kind s event).1).toList := by
  unfold committed
  rw [List.filterMap_append]
  cases h : (step kind s event).1 <;> simp [stepOf, h]

theorem committed_satisfies (h : SessionRun kind P Q store trace s clock) :
    ∀ answered ∈ committed trace, P answered.1.1 ∧ Q answered.1.2.1 := by
  have hrun : (∀ id, (s.phase id).Satisfies P Q) ∧ ∀ answered ∈ committed trace, P answered.1.1 ∧ Q answered.1.2.1 := by
    refine h.invariant (fun trace s _ => (∀ id, (s.phase id).Satisfies P Q) ∧
      ∀ answered ∈ committed trace, P answered.1.1 ∧ Q answered.1.2.1) ⟨fun _ => trivial, nofun⟩ ?_
    intro trace s clock event _ ⟨hphases, hcommitted⟩ _ hevent
    obtain ⟨hnext, hanswered⟩ := (step_effect s event).satisfies hevent hphases
    refine ⟨hnext, ?_⟩
    intro answered hmem
    rw [committed_snoc] at hmem
    rcases List.mem_append.1 hmem with hmem | hmem
    · exact hcommitted answered hmem
    · exact hanswered answered (Option.mem_toList.1 hmem)
  exact hrun.2

/-- Every interleaving: the answers and the store are those of the committed
transactions run one after another. -/
theorem serializable (hagree : ∀ (l : Lock) (store : Store), kind.Agree l store store)
    (h : SessionRun kind P Q store trace s clock) :
    (committed trace).map Prod.snd = (execute kind.atomic store ((committed trace).map Prod.fst)).map (·.result) ∧
      s.store = stateAfter kind.atomic store ((committed trace).map Prod.fst) := by
  have hrun : Protected kind s ∧
      (committed trace).map Prod.snd = (execute kind.atomic store ((committed trace).map Prod.fst)).map (·.result) ∧
        s.store = stateAfter kind.atomic store ((committed trace).map Prod.fst) := by
    refine h.invariant (fun trace s _ => Protected kind s ∧
      (committed trace).map Prod.snd = (execute kind.atomic store ((committed trace).map Prod.fst)).map (·.result) ∧
        s.store = stateAfter kind.atomic store ((committed trace).map Prod.fst)) ⟨protected_start store, rfl, rfl⟩ ?_
    intro trace s clock event _ ⟨hprotected, hanswers, hstore⟩ _ _
    have heffect : Effect kind s event _ _ := step_effect s event
    refine ⟨heffect.protected hagree hprotected, ?_⟩
    rw [committed_snoc]
    rcases heffect.atomic hprotected with ⟨hnone, hsame⟩ | ⟨call, hsome, hnext⟩
    · rw [hnone, Option.toList_none, List.append_nil]
      exact ⟨hanswers, hsame.trans hstore⟩
    · rw [hstore] at hsome hnext
      rw [hsome, Option.toList_some, List.map_append, List.map_append, hanswers]
      constructor
      · rw [List.map_singleton, List.map_singleton, execute_snoc, List.map_append]
        rfl
      · rw [stateAfter_append]
        exact hnext
  exact hrun.2

end

end Transactions

end Hyeboard
