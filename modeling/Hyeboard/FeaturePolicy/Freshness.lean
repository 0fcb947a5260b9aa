import Hyeboard.FeaturePolicy.Runtime
import Hyeboard.Lib.Runs
/-!
# How fresh a replica's policy is

One `FeaturePolicyRuntime` with any number of calls under way over a store whose
revision only grows. The store serves a call at one moment, its answer reaches
the runtime at a later one or is lost, and notifications come as they like.
-/

namespace Hyeboard.FeaturePolicy

/-- A call of the runtime; `answer` is what the store has sent back, if it has. -/
inductive InFlight where
  | current (answer : Option (Except PolicyError FeaturePolicySnapshot))
  | currentAuthoritative (answer : Option (Except PolicyError FeaturePolicySnapshot))
  | publish (parsed : PublishFeaturePolicyInput) (answer : Option (Except PolicyError FeaturePolicyAuditEntry))
  /-- `publish` awaits its notification. -/
  | notifying (entry : FeaturePolicyAuditEntry)
  | settled

/-- `store` is the store's current snapshot. -/
structure Replica where
  store : FeaturePolicySnapshot
  runtime : Runtime
  calls : List InFlight

def Replica.init : Replica := { store := { emptyPolicy with revision := 0 }, runtime := .init, calls := [] }

inductive Event where
  | startCurrent
  | startAuthoritative
  | startPublish (input : PublishFeaturePolicyInput)
  /-- Another replica publishes. -/
  | write (snapshot : FeaturePolicySnapshot)
  /-- The store serves a read. -/
  | read (call : Nat)
  /-- The store serves a publication. -/
  | accept (call : Nat) (entry : FeaturePolicyAuditEntry)
  /-- A call of the store throws, or its answer is lost. -/
  | fail (call : Nat) (error : PolicyError)
  /-- The answer reaches the runtime. -/
  | deliver (call : Nat)
  | notified (call : Nat)
  /-- A notification arrives. -/
  | notify (revision : Nat)

inductive Outcome where
  | started (call : Nat)
  | snapshot (call : Nat) (result : FeaturePolicySnapshot)
  | entry (call : Nat) (result : FeaturePolicyAuditEntry)
  | threw (call : Nat) (error : PolicyError)
  | quiet
deriving DecidableEq

/-- The revision a call returned. -/
def Outcome.revision? : Outcome → Option Nat
  | .snapshot _ result => some result.revision
  | .entry _ result => some result.revision
  | _ => none

namespace Replica
variable (replica : Replica)

def start (call : InFlight) : Outcome × Replica :=
  (.started replica.calls.length, { replica with calls := replica.calls ++ [call] })

/-- What the store, or what fails it, makes of a call. -/
def answer (call : Nat) (f : InFlight → InFlight) : Replica :=
  { replica with calls := replica.calls.modify call f }

def settle (call : Nat) (runtime : Runtime) : Replica := { replica with runtime, calls := replica.calls.set call .settled }

def returned (call : Nat) : Except PolicyError FeaturePolicySnapshot → Outcome
  | .error error => .threw call error
  | .ok result => .snapshot call result

end Replica

def InFlight.read (snapshot : FeaturePolicySnapshot) : InFlight → InFlight
  | .current none => .current (some (.ok snapshot))
  | .currentAuthoritative none => .currentAuthoritative (some (.ok snapshot))
  | call => call

def InFlight.accept (entry : FeaturePolicyAuditEntry) : InFlight → InFlight
  | .publish parsed none => .publish parsed (some (.ok entry))
  | call => call

def InFlight.fail (error : PolicyError) : InFlight → InFlight
  | .current _ => .current (some (.error error))
  | .currentAuthoritative _ => .currentAuthoritative (some (.error error))
  | .publish parsed _ => .publish parsed (some (.error error))
  | call => call

/-- Whether the call waits for the store to publish. -/
def InFlight.publishes : InFlight → Bool
  | .publish _ none => true
  | _ => false

def advance (replica : Replica) : Event → Outcome × Replica
  | .startCurrent => replica.start (.current none)
  | .startAuthoritative => replica.start (.currentAuthoritative none)
  | .startPublish input =>
    match preparePublication input with
    | .error error => (.threw replica.calls.length error, { replica with calls := replica.calls ++ [.settled] })
    | .ok parsed => replica.start (.publish parsed none)
  | .write snapshot => (.quiet, { replica with store := snapshot })
  | .read call => (.quiet, replica.answer call (.read replica.store))
  | .accept call entry =>
    if replica.calls[call]?.any (·.publishes) then
      (.quiet, { replica.answer call (.accept entry) with store := entry.snapshot })
    else (.quiet, replica)
  | .fail call error => (.quiet, replica.answer call (.fail error))
  | .deliver call =>
    match replica.calls[call]? with
    | some (.current (some answer)) =>
      let (result, runtime) := replica.runtime.current answer
      (Replica.returned call result, replica.settle call runtime)
    | some (.currentAuthoritative (some answer)) =>
      let (result, runtime) := replica.runtime.currentAuthoritative answer
      (Replica.returned call result, replica.settle call runtime)
    | some (.publish _ (some answer)) =>
      match replica.runtime.publish answer with
      | (.error error, runtime) => (.threw call error, replica.settle call runtime)
      | (.ok entry, runtime) => (.quiet, { replica with runtime, calls := replica.calls.set call (.notifying entry) })
    | _ => (.quiet, replica)
  | .notified call =>
    match replica.calls[call]? with
    | some (.notifying entry) => (.entry call entry, replica.settle call replica.runtime)
    | _ => (.quiet, replica)
  | .notify revision => (.quiet, { replica with runtime := replica.runtime.invalidate revision })

abbrev ReplicaStep := Step Replica Event Outcome

/-- The store's revision only grows. -/
def StoreGrows (replica : Replica) : Event → Prop
  | .write snapshot => replica.store.revision < snapshot.revision
  | .accept _ entry => entry.snapshot.revision = entry.revision ∧ replica.store.revision < entry.revision
  | _ => True

/-- The revision of the store's answer to a call. -/
def InFlight.answered? : InFlight → Option Nat
  | .current (some (.ok snapshot)) => some snapshot.revision
  | .currentAuthoritative (some (.ok snapshot)) => some snapshot.revision
  | .publish _ (some (.ok entry)) => some entry.revision
  | _ => none

/-- An answer that reaches the runtime is not older than what it would replace. -/
def InOrder (replica : Replica) : Event → Prop
  | .deliver call => ∀ revision ∈ replica.calls[call]?.bind InFlight.answered?,
      replica.runtime.highestNotifiedRevision ≤ revision → ∀ cached ∈ replica.runtime.cached, cached.revision ≤ revision
  | _ => True

instance (replica : Replica) (event : Event) : Decidable (StoreGrows replica event) := by
  cases event <;> unfold StoreGrows <;> infer_instance

instance (replica : Replica) (event : Event) : Decidable (InOrder replica event) := by
  cases event <;> unfold InOrder <;> infer_instance

/-- Runs over a store whose revision only grows, with a condition on every event. -/
abbrev ReplicaRun (ok : Replica → Event → Prop) (trace : List ReplicaStep) (replica : Replica) (clock : Nat) : Prop :=
  Run advance (fun _ => 0) (fun _ replica event => StoreGrows replica event ∧ ok replica event) Replica.init trace replica clock

/-- A `current` that starts after a call returned a revision does not return an
older one. -/
def NeverBackward (trace : List ReplicaStep) : Prop :=
  ∀ first second third, [first, second, third].Sublist trace → ∀ revision call result,
    first.result.revision? = some revision → second.call = .startCurrent → second.result = .started call →
    third.result = .snapshot call result → revision ≤ result.revision

/-! ## The runtime -/

namespace Runtime

/-- No later `current` of the runtime is below this. -/
def floor (runtime : Runtime) : Nat :=
  match runtime.cached with
  | some cached => cached.revision
  | none => runtime.highestNotifiedRevision

/-- The cached snapshot is not behind a notification. -/
def Ahead (runtime : Runtime) : Prop :=
  ∀ cached, runtime.cached = some cached → runtime.highestNotifiedRevision ≤ cached.revision

section
variable {runtime : Runtime} {snapshot : FeaturePolicySnapshot} {revision : Nat}

theorem highest_le_floor (h : runtime.Ahead) : runtime.highestNotifiedRevision ≤ runtime.floor := by
  unfold floor
  cases hcached : runtime.cached with
  | none => exact Nat.le_refl _
  | some cached => exact h cached hcached

/-- A notification drops the cached snapshot only for a newer revision. -/
theorem invalidate_spec (h : runtime.Ahead) (revision : Nat) :
    (runtime.invalidate revision).Ahead ∧ runtime.floor ≤ (runtime.invalidate revision).floor ∧
      ∀ cached, (runtime.invalidate revision).cached = some cached → runtime.cached = some cached := by
  unfold invalidate
  split
  · exact ⟨h, Nat.le_refl _, fun _ => id⟩
  · cases hcached : runtime.cached with
    | none =>
      refine ⟨?_, ?_, fun _ => id⟩
      · intro cached hsome
        cases hsome
      · simp only [floor, hcached]
        exact Nat.le_max_left _ _
    | some cached =>
      have hahead := h cached hcached
      by_cases hnewer : cached.revision < revision
      · have hdrop : ((some cached).any (·.revision < revision)) = true := decide_eq_true hnewer
        rw [hdrop, if_pos rfl]
        refine ⟨?_, ?_, ?_⟩
        · intro other hsome
          cases hsome
        · simp only [floor, hcached]
          omega
        · intro other hsome
          cases hsome
      · have hkeep : ((some cached).any (·.revision < revision)) = false := decide_eq_false hnewer
        rw [hkeep, if_neg Bool.false_ne_true]
        refine ⟨?_, ?_, fun _ => id⟩
        · intro other hsome
          cases hsome
          change max _ _ ≤ cached.revision
          omega
        · simp only [floor, hcached]
          exact Nat.le_refl _

/-- A snapshot that is not older than the cached one is never lost. -/
theorem cache_spec (h : runtime.Ahead) (hrevision : snapshot.revision = revision)
    (horder : runtime.highestNotifiedRevision ≤ revision → ∀ cached, runtime.cached = some cached → cached.revision ≤ revision) :
    (runtime.cache revision snapshot).Ahead ∧ runtime.floor ≤ (runtime.cache revision snapshot).floor ∧
      revision ≤ (runtime.cache revision snapshot).floor ∧
      ∀ cached, (runtime.cache revision snapshot).cached = some cached → runtime.cached = some cached ∨ cached = snapshot := by
  have hhighest := highest_le_floor h
  unfold cache
  split
  · rename_i hle
    have hfloor : runtime.floor ≤ revision := by
      unfold floor
      cases hcached : runtime.cached with
      | none => exact hle
      | some cached => exact horder hle cached hcached
    refine ⟨?_, ?_, ?_, ?_⟩
    · intro cached hsome
      cases hsome
      exact hrevision ▸ hle
    · change runtime.floor ≤ snapshot.revision
      omega
    · exact Nat.le_of_eq hrevision.symm
    · intro cached hsome
      cases hsome
      exact .inr rfl
  · refine ⟨h, Nat.le_refl _, ?_, fun _ => .inl⟩
    omega

/-- What both reads do with an answer: cache the snapshot and return it, or
leave the runtime as it is and return at most the cached one. -/
def Reads (runtime : Runtime) (answer : Except PolicyError FeaturePolicySnapshot)
    (outcome : Except PolicyError FeaturePolicySnapshot × Runtime) : Prop :=
  (∃ snapshot, answer = .ok snapshot ∧ outcome = (.ok snapshot, runtime.cache snapshot.revision snapshot)) ∨
    ∃ result, outcome = (result, runtime) ∧ ∀ snapshot, result = .ok snapshot → runtime.cached = some snapshot

theorem receiveCurrent_cases (runtime : Runtime) (answer : Except PolicyError FeaturePolicySnapshot) :
    (∃ snapshot, answer = .ok snapshot ∧
        runtime.receiveCurrent answer = (.ok snapshot, runtime.cache snapshot.revision snapshot)) ∨
      ∃ error, runtime.receiveCurrent answer = (.error error, runtime) := by
  unfold receiveCurrent
  cases answer with
  | error error => exact .inr ⟨error, rfl⟩
  | ok snapshot =>
    cases hvalid : validateSnapshot snapshot with
    | error error =>
      right
      exact ⟨error, by simp only [bind, Except.bind, hvalid]⟩
    | ok result =>
      have hsame := validateSnapshot_eq_ok hvalid
      subst hsame
      left
      exact ⟨result, rfl, by simp only [bind, Except.bind, hvalid]⟩

theorem current_reads (runtime : Runtime) (answer : Except PolicyError FeaturePolicySnapshot) :
    Reads runtime answer (runtime.current answer) := by
  unfold current
  rcases receiveCurrent_cases runtime answer with ⟨snapshot, hanswer, hreceive⟩ | ⟨error, hreceive⟩
  · rw [hreceive]
    exact .inl ⟨snapshot, hanswer, rfl⟩
  · rw [hreceive]
    right
    cases hcached : runtime.cached with
    | none =>
      refine ⟨.error featurePolicyUnavailable, by simp only [hcached], ?_⟩
      intro snapshot hok
      cases hok
    | some cached =>
      refine ⟨.ok cached, by simp only [hcached], ?_⟩
      intro snapshot hok
      cases hok
      rfl

theorem currentAuthoritative_reads (runtime : Runtime) (answer : Except PolicyError FeaturePolicySnapshot) :
    Reads runtime answer (runtime.currentAuthoritative answer) := by
  unfold currentAuthoritative
  rcases receiveCurrent_cases runtime answer with ⟨snapshot, hanswer, hreceive⟩ | ⟨error, hreceive⟩
  · rw [hreceive]
    exact .inl ⟨snapshot, hanswer, rfl⟩
  · rw [hreceive]
    right
    refine ⟨.error featurePolicyUnavailable, rfl, ?_⟩
    intro snapshot hok
    cases hok

theorem publish_cases (runtime : Runtime) (answer : Except PolicyError FeaturePolicyAuditEntry) :
    (∃ error, runtime.publish answer = (.error error, runtime)) ∨
      ∃ stored entry, answer = .ok stored ∧ entry.revision = stored.revision ∧ entry.snapshot = stored.snapshot ∧
        runtime.publish answer = (.ok entry, runtime.cache entry.revision entry.snapshot) := by
  unfold publish receiveEntry
  cases answer with
  | error error => exact .inl ⟨rethrown error, rfl⟩
  | ok stored =>
    cases hparsed : parseAuditEntry stored with
    | error error =>
      left
      exact ⟨rethrown error, by simp only [bind, Except.bind, hparsed, Except.mapError]⟩
    | ok entry =>
      right
      refine ⟨stored, entry, rfl, ?_, ?_, by simp only [bind, Except.bind, hparsed, Except.mapError]⟩
      all_goals
        simp only [parseAuditEntry, parseSnapshot, bind_eq_ok, require_eq_ok, pure_eq_ok] at hparsed
        obtain ⟨_, -, _, -, reason, -, _, ⟨_, -, rfl⟩, rfl⟩ := hparsed
        rfl

end

end Runtime

/-! ## Traces -/

section
variable {trace : List ReplicaStep} {e : ReplicaStep} {call revision : Nat}

/-- A call of the trace returned the revision. -/
def Returned (trace : List ReplicaStep) (revision : Nat) : Prop := ∃ e ∈ trace, e.result.revision? = some revision

/-- ... before the `current` of this number started. -/
def ReturnedBefore (trace : List ReplicaStep) (call revision : Nat) : Prop :=
  ∃ first second, [first, second].Sublist trace ∧ first.result.revision? = some revision ∧
    second.call = .startCurrent ∧ second.result = .started call

theorem sublist_snoc {α : Type} {l m : List α} {x e : α} (h : (l ++ [x]).Sublist (m ++ [e])) :
    (l ++ [x]).Sublist m ∨ l.Sublist m ∧ x = e := by
  obtain ⟨front, back, heq, hfront, hback⟩ := List.sublist_append_iff.1 h
  rcases List.sublist_singleton.1 hback with rfl | rfl
  · left
    rwa [heq, List.append_nil]
  · right
    obtain ⟨rfl, hlast⟩ := List.append_inj' heq rfl
    exact ⟨hfront, List.singleton_inj.1 hlast⟩

theorem returned_snoc (h : Returned (trace ++ [e]) revision) :
    Returned trace revision ∨ e.result.revision? = some revision := by
  obtain ⟨e', hmem, hrevision⟩ := h
  rcases List.mem_append.1 hmem with hmem | hmem
  · exact .inl ⟨e', hmem, hrevision⟩
  · rw [List.mem_singleton] at hmem
    exact .inr (hmem ▸ hrevision)

theorem returnedBefore_snoc (h : ReturnedBefore (trace ++ [e]) call revision) :
    ReturnedBefore trace call revision ∨ Returned trace revision ∧ e.call = .startCurrent ∧ e.result = .started call := by
  obtain ⟨first, second, hsub, hfirst, hstart, hstarted⟩ := h
  rcases @sublist_snoc _ [first] _ _ _ hsub with hold | ⟨hfront, rfl⟩
  · exact .inl ⟨first, second, hold, hfirst, hstart, hstarted⟩
  · exact .inr ⟨⟨first, List.singleton_sublist.1 hfront, hfirst⟩, hstart, hstarted⟩

theorem neverBackward_snoc (h : NeverBackward trace)
    (hlast : ∀ revision call result, e.result = .snapshot call result → ReturnedBefore trace call revision →
      revision ≤ result.revision) : NeverBackward (trace ++ [e]) := by
  intro first second third hsub revision call result hfirst hstart hstarted hthird
  rcases @sublist_snoc _ [first, second] _ _ _ hsub with hold | ⟨hfront, rfl⟩
  · exact h first second third hold revision call result hfirst hstart hstarted hthird
  · exact hlast revision call result hthird ⟨first, second, hfront, hfirst, hstart, hstarted⟩

end

/-! ## The invariant -/

/-- What a call may hold: an answer the store once had, an entry it has. -/
def InFlight.Ok (floor store : Nat) : InFlight → Prop
  | .current (some (.ok snapshot)) => snapshot.revision ≤ store
  | .currentAuthoritative (some (.ok snapshot)) => snapshot.revision ≤ store
  | .publish _ (some (.ok entry)) => entry.snapshot.revision = entry.revision ∧ entry.revision ≤ store
  | .notifying entry => entry.revision ≤ floor ∧ entry.revision ≤ store
  | _ => True

theorem InFlight.Ok.mono {floor floor' store store' : Nat} {call : InFlight} (h : call.Ok floor store) (hfloor : floor ≤ floor')
    (hstore : store ≤ store') : call.Ok floor' store' := by
  unfold InFlight.Ok at h ⊢
  split at h
  · exact Nat.le_trans h hstore
  · exact Nat.le_trans h hstore
  · exact ⟨h.1, Nat.le_trans h.2 hstore⟩
  · exact ⟨Nat.le_trans h.1 hfloor, Nat.le_trans h.2 hstore⟩
  · trivial

structure Replica.Ok (replica : Replica) : Prop where
  ahead : replica.runtime.Ahead
  cached : ∀ cached, replica.runtime.cached = some cached → cached.revision ≤ replica.store.revision
  calls : ∀ (i : Nat) (call : InFlight), replica.calls[i]? = some call → call.Ok replica.runtime.floor replica.store.revision

/-- What a run has returned is below the runtime's floor, and below what any
`current` that started later was answered. -/
structure Fresh (trace : List ReplicaStep) (replica : Replica) : Prop where
  ok : replica.Ok
  returned : ∀ revision, Returned trace revision → revision ≤ replica.runtime.floor ∧ revision ≤ replica.store.revision
  started : ∀ call revision, ReturnedBefore trace call revision → call < replica.calls.length
  served : ∀ call revision, ReturnedBefore trace call revision → ∀ flight answered, replica.calls[call]? = some flight →
    flight.answered? = some answered → revision ≤ answered
  neverBackward : NeverBackward trace

section
variable {trace : List ReplicaStep} {replica : Replica} {e : ReplicaStep}

/-- What an event has to keep. -/
theorem Fresh.snoc (h : Fresh trace replica) {next : Replica} (hok : next.Ok)
    (hfloor : replica.runtime.floor ≤ next.runtime.floor) (hstore : replica.store.revision ≤ next.store.revision)
    (hlength : replica.calls.length ≤ next.calls.length)
    (hserved : ∀ (call : Nat) (flight : InFlight) (answered : Nat), call < replica.calls.length →
      next.calls[call]? = some flight →
      flight.answered? = some answered → replica.calls[call]? = some flight ∨ replica.store.revision ≤ answered)
    (hreturns : ∀ revision, e.result.revision? = some revision →
      revision ≤ next.runtime.floor ∧ revision ≤ next.store.revision)
    (hstarts : ∀ call, e.result = .started call → call < next.calls.length ∧
      ∀ flight, next.calls[call]? = some flight → flight.answered? = none)
    (hsnapshot : ∀ call result, e.result = .snapshot call result →
      result.revision = replica.runtime.floor ∨ replica.store.revision ≤ result.revision ∨
        ∃ flight, replica.calls[call]? = some flight ∧ flight.answered? = some result.revision) :
    Fresh (trace ++ [e]) next := by
  have hreturned : ∀ call revision, ReturnedBefore trace call revision → Returned trace revision := by
    rintro call revision ⟨first, second, hsub, hfirst, -⟩
    exact ⟨first, hsub.subset List.mem_cons_self, hfirst⟩
  constructor
  · exact hok
  · intro revision hmem
    rcases returned_snoc hmem with hmem | hlast
    · obtain ⟨hle, hle'⟩ := h.returned revision hmem
      exact ⟨Nat.le_trans hle hfloor, Nat.le_trans hle' hstore⟩
    · exact hreturns revision hlast
  · intro call revision hbefore
    rcases returnedBefore_snoc hbefore with hbefore | ⟨-, -, hstarted⟩
    · exact Nat.lt_of_lt_of_le (h.started call revision hbefore) hlength
    · exact (hstarts call hstarted).1
  · intro call revision hbefore flight answered hget hanswered
    rcases returnedBefore_snoc hbefore with hbefore | ⟨-, -, hstarted⟩
    · rcases hserved call flight answered (h.started call revision hbefore) hget hanswered with hold | hle
      · exact h.served call revision hbefore flight answered hold hanswered
      · exact Nat.le_trans (h.returned revision (hreturned call revision hbefore)).2 hle
    · rw [(hstarts call hstarted).2 flight hget] at hanswered
      cases hanswered
  · apply neverBackward_snoc h.neverBackward
    intro revision call result hresult hbefore
    obtain ⟨hle, hle'⟩ := h.returned revision (hreturned call revision hbefore)
    rcases hsnapshot call result hresult with heq | hge | ⟨flight, hget, hanswered⟩
    · omega
    · omega
    · exact h.served call revision hbefore flight _ hget hanswered

/-- An event nobody hears of. -/
theorem Fresh.quiet (h : Fresh trace replica) {next : Replica} (hquiet : e.result = .quiet) (hok : next.Ok)
    (hfloor : replica.runtime.floor ≤ next.runtime.floor) (hstore : replica.store.revision ≤ next.store.revision)
    (hlength : replica.calls.length ≤ next.calls.length)
    (hserved : ∀ (call : Nat) (flight : InFlight) (answered : Nat), call < replica.calls.length →
      next.calls[call]? = some flight →
      flight.answered? = some answered → replica.calls[call]? = some flight ∨ replica.store.revision ≤ answered) :
    Fresh (trace ++ [e]) next := by
  apply h.snoc hok hfloor hstore hlength hserved
  · intro revision hrevision
    rw [hquiet] at hrevision
    cases hrevision
  · intro call hstarted
    rw [hquiet] at hstarted
    cases hstarted
  · intro call result hsnapshot
    rw [hquiet] at hsnapshot
    cases hsnapshot

theorem Fresh.idle (h : Fresh trace replica) (hquiet : e.result = .quiet) : Fresh (trace ++ [e]) replica :=
  h.quiet hquiet h.ok (Nat.le_refl _) (Nat.le_refl _) (Nat.le_refl _) fun _ _ _ _ hget _ => .inl hget

theorem Fresh.start (h : Fresh trace replica) (flight : InFlight) (hok : flight.Ok replica.runtime.floor replica.store.revision)
    (hnone : flight.answered? = none) (hafter : e.after = { replica with calls := replica.calls ++ [flight] })
    (hresult : e.result = .started replica.calls.length ∨ ∃ error, e.result = .threw replica.calls.length error) :
    Fresh (trace ++ [e]) e.after := by
  have hget : ∀ (i : Nat) call, (replica.calls ++ [flight])[i]? = some call →
      replica.calls[i]? = some call ∨ i = replica.calls.length ∧ call = flight := by
    intro i call hcall
    rcases Nat.lt_or_ge i replica.calls.length with hlt | hge
    · rw [List.getElem?_append_left hlt] at hcall
      exact .inl hcall
    · rw [List.getElem?_append_right hge, List.getElem?_singleton] at hcall
      split at hcall
      · cases hcall
        exact .inr ⟨by omega, rfl⟩
      · cases hcall
  rw [hafter]
  apply h.snoc
  · refine ⟨h.ok.ahead, h.ok.cached, ?_⟩
    intro i call hcall
    rcases hget i call hcall with hold | ⟨-, rfl⟩
    · exact h.ok.calls i call hold
    · exact hok
  · exact Nat.le_refl _
  · exact Nat.le_refl _
  · simp
  · intro call other answered hlt hcall _
    rcases hget call other hcall with hold | ⟨rfl, -⟩
    · exact .inl hold
    · exact absurd hlt (Nat.lt_irrefl _)
  · intro revision hrevision
    rcases hresult with hresult | ⟨error, hresult⟩
    all_goals
      rw [hresult] at hrevision
      cases hrevision
  · intro call hstarted
    rcases hresult with hresult | ⟨error, hresult⟩
    · rw [hresult] at hstarted
      cases hstarted
      refine ⟨by simp, ?_⟩
      intro other hcall
      rcases hget _ other hcall with hold | ⟨-, rfl⟩
      · exact absurd (List.getElem?_eq_some_iff.1 hold).1 (Nat.lt_irrefl _)
      · exact hnone
    · rw [hresult] at hstarted
      cases hstarted
  · intro call result hsnapshot
    rcases hresult with hresult | ⟨error, hresult⟩
    all_goals
      rw [hresult] at hsnapshot
      cases hsnapshot

/-- The store, or what fails it, changes one call. -/
theorem Fresh.answer (h : Fresh trace replica) {call : Nat} {f : InFlight → InFlight} {store : FeaturePolicySnapshot}
    (hstore : replica.store.revision ≤ store.revision)
    (hf : ∀ flight : InFlight, flight.Ok replica.runtime.floor replica.store.revision →
      (f flight).Ok replica.runtime.floor store.revision)
    (hanswered : ∀ (flight : InFlight) answered, (f flight).answered? = some answered →
      f flight = flight ∨ replica.store.revision ≤ answered)
    (hafter : e.after = { replica.answer call f with store }) (hquiet : e.result = .quiet) :
    Fresh (trace ++ [e]) e.after := by
  have hget : ∀ (i : Nat) other, (replica.calls.modify call f)[i]? = some other →
      replica.calls[i]? = some other ∨ ∃ flight, replica.calls[i]? = some flight ∧ other = f flight := by
    intro i other hother
    rw [List.getElem?_modify] at hother
    split at hother
    · obtain ⟨flight, hflight, rfl⟩ := Option.map_eq_some_iff.1 hother
      exact .inr ⟨flight, hflight, rfl⟩
    · obtain ⟨flight, hflight, rfl⟩ := Option.map_eq_some_iff.1 hother
      exact .inl hflight
  rw [hafter]
  apply h.quiet hquiet
  · refine ⟨h.ok.ahead, fun cached hcached => Nat.le_trans (h.ok.cached cached hcached) hstore, ?_⟩
    intro i other hother
    rcases hget i other hother with hold | ⟨flight, hflight, rfl⟩
    · exact (h.ok.calls i other hold).mono (Nat.le_refl _) hstore
    · exact hf flight (h.ok.calls i flight hflight)
  · exact Nat.le_refl _
  · exact hstore
  · exact Nat.le_of_eq (List.length_modify _ _ _).symm
  · intro i other answered _ hother hsome
    rcases hget i other hother with hold | ⟨flight, hflight, rfl⟩
    · exact .inl hold
    · rcases hanswered flight answered hsome with heq | hle
      · rw [heq]
        exact .inl hflight
      · exact .inr hle

/-- A call is over, or goes on without the store. -/
theorem Fresh.settle (h : Fresh trace replica) {call : Nat} (flight : InFlight) {runtime : Runtime} (hnone : flight.answered? = none)
    (hok : flight.Ok runtime.floor replica.store.revision) (hahead : runtime.Ahead)
    (hfloor : replica.runtime.floor ≤ runtime.floor)
    (hcached : ∀ cached, runtime.cached = some cached → cached.revision ≤ replica.store.revision)
    (hafter : e.after = { replica with runtime, calls := replica.calls.set call flight })
    (hreturns : ∀ revision, e.result.revision? = some revision →
      revision ≤ runtime.floor ∧ revision ≤ replica.store.revision)
    (hstarts : ∀ other, e.result ≠ .started other)
    (hsnapshot : ∀ other result, e.result = .snapshot other result → result.revision = replica.runtime.floor ∨
      ∃ flight, replica.calls[other]? = some flight ∧ flight.answered? = some result.revision) :
    Fresh (trace ++ [e]) e.after := by
  have hget : ∀ (i : Nat) other, (replica.calls.set call flight)[i]? = some other →
      replica.calls[i]? = some other ∨ other = flight := by
    intro i other hother
    rw [List.getElem?_set] at hother
    split at hother
    · split at hother
      · exact .inr (Option.some_inj.1 hother).symm
      · cases hother
    · exact .inl hother
  rw [hafter]
  apply h.snoc
  · refine ⟨hahead, hcached, ?_⟩
    intro i other hother
    rcases hget i other hother with hold | rfl
    · exact (h.ok.calls i other hold).mono hfloor (Nat.le_refl _)
    · exact hok
  · exact hfloor
  · exact Nat.le_refl _
  · exact Nat.le_of_eq List.length_set.symm
  · intro i other answered _ hother hsome
    rcases hget i other hother with hold | rfl
    · exact .inl hold
    · rw [hnone] at hsome
      cases hsome
  · exact hreturns
  · intro other hstarted
    exact absurd hstarted (hstarts other)
  · intro other result hresult
    rcases hsnapshot other result hresult with hfloor | hflight
    · exact .inl hfloor
    · exact .inr (.inr hflight)

theorem Runtime.floor_cached {runtime : Runtime} {cached : FeaturePolicySnapshot} (h : runtime.cached = some cached) :
    runtime.floor = cached.revision := by
  rw [Runtime.floor, h]

/-- A read's answer reaches the runtime. -/
theorem Fresh.deliverRead (h : Fresh trace replica) {call : Nat} {flight : InFlight}
    {answer : Except PolicyError FeaturePolicySnapshot} {outcome : Except PolicyError FeaturePolicySnapshot × Runtime}
    (hget : replica.calls[call]? = some flight)
    (hflight : ∀ snapshot, answer = .ok snapshot → flight.answered? = some snapshot.revision ∧
      snapshot.revision ≤ replica.store.revision)
    (hreads : Runtime.Reads replica.runtime answer outcome) (horder : InOrder replica (.deliver call))
    (hresult : e.result = Replica.returned call outcome.1) (hafter : e.after = replica.settle call outcome.2) :
    Fresh (trace ++ [e]) e.after := by
  rcases hreads with ⟨snapshot, hanswer, rfl⟩ | ⟨result, rfl, hcached⟩
  · obtain ⟨hanswered, hstore⟩ := hflight snapshot hanswer
    have hbind : replica.calls[call]?.bind InFlight.answered? = some snapshot.revision := by rw [hget]; exact hanswered
    obtain ⟨hahead, hfloor, hreached, hcases⟩ := Runtime.cache_spec h.ok.ahead rfl (horder snapshot.revision hbind)
    apply h.settle .settled rfl trivial hahead hfloor _ hafter
    · intro revision hrevision
      rw [hresult] at hrevision
      cases hrevision
      exact ⟨hreached, hstore⟩
    · intro other hstarted
      rw [hresult] at hstarted
      cases hstarted
    · intro other result hsnapshot
      rw [hresult] at hsnapshot
      simp only [Replica.returned, Outcome.snapshot.injEq] at hsnapshot
      obtain ⟨rfl, rfl⟩ := hsnapshot
      exact .inr ⟨flight, hget, hanswered⟩
    · intro cached hsome
      rcases hcases cached hsome with hold | rfl
      · exact h.ok.cached cached hold
      · exact hstore
  · have hreturned : ∀ snapshot, e.result = .snapshot call snapshot → replica.runtime.cached = some snapshot := by
      intro snapshot hsnapshot
      rw [hresult] at hsnapshot
      cases result with
      | error error => cases hsnapshot
      | ok cached =>
        simp only [Replica.returned, Outcome.snapshot.injEq, true_and] at hsnapshot
        subst hsnapshot
        exact hcached cached rfl
    apply h.settle .settled rfl trivial h.ok.ahead (Nat.le_refl _) h.ok.cached hafter
    · intro revision hrevision
      cases result with
      | error error =>
        rw [hresult] at hrevision
        cases hrevision
      | ok cached =>
        have hsome := hreturned cached hresult
        rw [hresult] at hrevision
        cases hrevision
        exact ⟨Nat.le_of_eq (Runtime.floor_cached hsome).symm, h.ok.cached cached hsome⟩
    · intro other hstarted
      rw [hresult] at hstarted
      cases result <;> cases hstarted
    · intro other snapshot hsnapshot
      have hother : other = call := by
        rw [hresult] at hsnapshot
        cases result with
        | error error => cases hsnapshot
        | ok cached =>
          simp only [Replica.returned, Outcome.snapshot.injEq] at hsnapshot
          exact hsnapshot.1.symm
      subst hother
      exact .inl (Runtime.floor_cached (hreturned snapshot hsnapshot)).symm

/-- The answer to a publication reaches the runtime. -/
theorem Fresh.deliverPublish (h : Fresh trace replica) {call : Nat} {parsed : PublishFeaturePolicyInput}
    {answer : Except PolicyError FeaturePolicyAuditEntry} (hget : replica.calls[call]? = some (.publish parsed (some answer)))
    (horder : InOrder replica (.deliver call)) (he : e = stepOf advance replica (.deliver call)) :
    Fresh (trace ++ [e]) e.after := by
  rcases Runtime.publish_cases replica.runtime answer with
    ⟨error, hpublish⟩ | ⟨stored, entry, rfl, hrevision, hsnapshot, hpublish⟩
  · have hadvance : advance replica (.deliver call) = (.threw call error, replica.settle call replica.runtime) := by
      simp only [advance, hget, hpublish]
    rw [he, stepOf, hadvance]
    apply h.settle .settled rfl trivial h.ok.ahead (Nat.le_refl _) h.ok.cached rfl
    · intro _ hnone
      cases hnone
    · intro _ hstarted
      cases hstarted
    · intro _ _ hresult
      cases hresult
  · have hadvance : advance replica (.deliver call) = (.quiet,
        { replica with
          runtime := replica.runtime.cache entry.revision entry.snapshot
          calls := replica.calls.set call (.notifying entry) }) := by
      simp only [advance, hget, hpublish]
    obtain ⟨hsame, hstore⟩ : stored.snapshot.revision = stored.revision ∧ stored.revision ≤ replica.store.revision :=
      h.ok.calls call _ hget
    have hbind : replica.calls[call]?.bind InFlight.answered? = some entry.revision := by rw [hget, hrevision]; rfl
    have hentry : entry.snapshot.revision = entry.revision := by rw [hsnapshot, hsame, hrevision]
    obtain ⟨hahead, hfloor, hreached, hcases⟩ := Runtime.cache_spec h.ok.ahead hentry (horder entry.revision hbind)
    rw [he, stepOf, hadvance]
    apply h.settle (.notifying entry) rfl ⟨hreached, by omega⟩ hahead hfloor _ rfl
    · intro _ hnone
      cases hnone
    · intro _ hstarted
      cases hstarted
    · intro _ _ hresult
      cases hresult
    · intro cached hsome
      rcases hcases cached hsome with hold | rfl
      · exact h.ok.cached cached hold
      · omega

theorem advance_fresh (h : Fresh trace replica) {event : Event} (hgrows : StoreGrows replica event)
    (horder : InOrder replica event) : Fresh (trace ++ [stepOf advance replica event]) (advance replica event).2 := by
  cases event with
  | startCurrent => exact h.start (e := stepOf advance replica .startCurrent) (.current none) trivial rfl rfl (.inl rfl)
  | startAuthoritative =>
    exact h.start (e := stepOf advance replica .startAuthoritative) (.currentAuthoritative none) trivial rfl rfl (.inl rfl)
  | startPublish input =>
    cases hprepared : preparePublication input with
    | error error =>
      have hadvance : advance replica (.startPublish input) =
          (.threw replica.calls.length error, { replica with calls := replica.calls ++ [.settled] }) := by
        simp only [advance, hprepared]
      apply h.start (e := stepOf advance replica (.startPublish input)) .settled trivial rfl
      · rw [stepOf, hadvance]
      · rw [stepOf, hadvance]
        exact .inr ⟨error, rfl⟩
    | ok parsed =>
      have hadvance : advance replica (.startPublish input) = replica.start (.publish parsed none) := by
        simp only [advance, hprepared]
      apply h.start (e := stepOf advance replica (.startPublish input)) (.publish parsed none) trivial rfl
      · rw [stepOf, hadvance]
        rfl
      · rw [stepOf, hadvance]
        exact .inl rfl
  | write snapshot =>
    have hle : replica.store.revision ≤ snapshot.revision := Nat.le_of_lt hgrows
    apply h.quiet rfl
    · refine ⟨h.ok.ahead, fun cached hcached => Nat.le_trans (h.ok.cached cached hcached) hle, ?_⟩
      intro i call hget
      exact (h.ok.calls i call hget).mono (Nat.le_refl _) hle
    · exact Nat.le_refl _
    · exact hle
    · exact Nat.le_refl _
    · intro call flight answered _ hget _
      exact .inl hget
  | read call =>
    apply h.answer (e := stepOf advance replica (.read call)) (f := .read replica.store) (Nat.le_refl _) _ _ rfl rfl
    · intro flight hok
      unfold InFlight.read
      split
      · exact Nat.le_refl _
      · exact Nat.le_refl _
      · exact hok
    · intro flight answered hanswered
      unfold InFlight.read at hanswered ⊢
      split at hanswered
      · cases hanswered
        exact .inr (Nat.le_refl _)
      · cases hanswered
        exact .inr (Nat.le_refl _)
      · exact .inl rfl
  | accept call entry =>
    obtain ⟨hsame, hlt⟩ : entry.snapshot.revision = entry.revision ∧ replica.store.revision < entry.revision := hgrows
    by_cases hpublishes : replica.calls[call]?.any (·.publishes) = true
    · have hadvance : advance replica (.accept call entry) =
          (.quiet, { replica.answer call (.accept entry) with store := entry.snapshot }) := by
        simp only [advance, hpublishes, if_true]
      have hle : replica.store.revision ≤ entry.snapshot.revision := by omega
      apply h.answer (e := stepOf advance replica (.accept call entry)) (f := .accept entry) hle
      · intro flight hok
        unfold InFlight.accept
        split
        · exact ⟨hsame, Nat.le_of_eq hsame.symm⟩
        · exact hok.mono (Nat.le_refl _) hle
      · intro flight answered hanswered
        unfold InFlight.accept at hanswered ⊢
        split at hanswered
        · cases hanswered
          exact .inr (Nat.le_of_lt hlt)
        · exact .inl rfl
      · rw [stepOf, hadvance]
      · rw [stepOf, hadvance]
    · have hadvance : advance replica (.accept call entry) = (.quiet, replica) := by
        simp only [advance, hpublishes]
        rfl
      rw [stepOf, hadvance]
      exact h.idle rfl
  | fail call error =>
    apply h.answer (e := stepOf advance replica (.fail call error)) (f := .fail error) (Nat.le_refl _) _ _ rfl rfl
    · intro flight hok
      unfold InFlight.fail
      split
      · trivial
      · trivial
      · trivial
      · exact hok
    · intro flight answered hanswered
      unfold InFlight.fail at hanswered ⊢
      split at hanswered
      · cases hanswered
      · cases hanswered
      · cases hanswered
      · exact .inl rfl
  | deliver call =>
    -- without an answer nothing happens
    have hidle : advance replica (.deliver call) = (.quiet, replica) →
        Fresh (trace ++ [stepOf advance replica (.deliver call)]) (advance replica (.deliver call)).2 := by
      intro hadvance
      rw [stepOf, hadvance]
      exact h.idle rfl
    cases hget : replica.calls[call]? with
    | none => exact hidle (by simp only [advance, hget])
    | some flight =>
      have hok := h.ok.calls call flight hget
      cases flight with
      | current answer =>
        cases answer with
        | none => exact hidle (by simp only [advance, hget])
        | some answer =>
          have hadvance : advance replica (.deliver call) = (Replica.returned call (replica.runtime.current answer).1,
              replica.settle call (replica.runtime.current answer).2) := by
            simp only [advance, hget]
          apply h.deliverRead (e := stepOf advance replica (.deliver call)) hget _ (Runtime.current_reads _ answer) horder
          · rw [stepOf, hadvance]
          · rw [stepOf, hadvance]
          · rintro snapshot rfl
            exact ⟨rfl, hok⟩
      | currentAuthoritative answer =>
        cases answer with
        | none => exact hidle (by simp only [advance, hget])
        | some answer =>
          have hadvance : advance replica (.deliver call) =
              (Replica.returned call (replica.runtime.currentAuthoritative answer).1,
                replica.settle call (replica.runtime.currentAuthoritative answer).2) := by
            simp only [advance, hget]
          apply h.deliverRead (e := stepOf advance replica (.deliver call)) hget _
            (Runtime.currentAuthoritative_reads _ answer) horder
          · rw [stepOf, hadvance]
          · rw [stepOf, hadvance]
          · rintro snapshot rfl
            exact ⟨rfl, hok⟩
      | publish parsed answer =>
        cases answer with
        | none => exact hidle (by simp only [advance, hget])
        | some answer => exact h.deliverPublish hget horder rfl
      | notifying entry => exact hidle (by simp only [advance, hget])
      | settled => exact hidle (by simp only [advance, hget])
  | notified call =>
    by_cases hget : ∃ entry, replica.calls[call]? = some (.notifying entry)
    · obtain ⟨entry, hget⟩ := hget
      obtain ⟨hfloor, hstore⟩ : entry.revision ≤ replica.runtime.floor ∧ entry.revision ≤ replica.store.revision :=
        h.ok.calls call _ hget
      have hadvance : advance replica (.notified call) = (.entry call entry, replica.settle call replica.runtime) := by
        simp only [advance, hget]
      rw [stepOf, hadvance]
      apply h.settle .settled rfl trivial h.ok.ahead (Nat.le_refl _) h.ok.cached rfl
      · intro revision hrevision
        cases hrevision
        exact ⟨hfloor, hstore⟩
      · intro _ hstarted
        cases hstarted
      · intro _ _ hresult
        cases hresult
    · have hadvance : advance replica (.notified call) = (.quiet, replica) := by
        simp only [advance]
        split
        · rename_i entry hentry
          exact absurd ⟨entry, hentry⟩ hget
        · rfl
      rw [stepOf, hadvance]
      exact h.idle rfl
  | notify revision =>
    obtain ⟨hahead, hfloor, hcached⟩ := Runtime.invalidate_spec h.ok.ahead revision
    apply h.quiet rfl
    · refine ⟨hahead, fun cached hsome => h.ok.cached cached (hcached cached hsome), ?_⟩
      intro i call hget
      exact (h.ok.calls i call hget).mono hfloor (Nat.le_refl _)
    · exact hfloor
    · exact Nat.le_refl _
    · exact Nat.le_refl _
    · intro call flight answered _ hget _
      exact .inl hget

end

/-! ## Every run -/

section
variable {trace : List ReplicaStep} {replica : Replica} {clock : Nat}

theorem ReplicaRun.fresh (h : ReplicaRun InOrder trace replica clock) : Fresh trace replica := by
  refine h.invariant (fun trace replica _ => Fresh trace replica) ?_ ?_
  · refine ⟨⟨?_, ?_, ?_⟩, ?_, ?_, ?_, ?_⟩
    · intro cached hsome
      cases hsome
    · intro cached hsome
      cases hsome
    · intro i call hget
      cases hget
    · rintro revision ⟨e, hmem, -⟩
      cases hmem
    · rintro call revision ⟨first, second, hsub, -⟩
      cases hsub
    · rintro call revision ⟨first, second, hsub, -⟩
      cases hsub
    · intro first second third hsub
      cases hsub
  · rintro trace replica - event - hfresh - ⟨hgrows, horder⟩
    exact advance_fresh hfresh hgrows horder

/-- While answers that would be cached arrive in the order of their revisions,
the policy a replica serves never goes backward. -/
theorem policy_never_backward_in_order (h : ReplicaRun InOrder trace replica clock) : NeverBackward trace :=
  h.fresh.neverBackward

end

/-! ## A late answer -/

def revisionOne : FeaturePolicySnapshot := { emptyPolicy with revision := 1 }

/-- Two reads with a publication between them, answered in order; then the
store fails. -/
def orderedEvents : List Event :=
  [.startCurrent, .read 0, .write revisionOne, .startCurrent, .read 1, .deliver 0, .deliver 1, .startCurrent,
    .fail 2 storageError, .deliver 2]

/-- The first read's answer comes last. -/
def lateEvents : List Event :=
  [.startCurrent, .read 0, .write revisionOne, .startCurrent, .read 1, .deliver 1, .deliver 0, .startCurrent,
    .fail 2 storageError, .deliver 2]

theorem policy_never_backward_in_order_sample : NeverBackward (execute advance Replica.init orderedEvents) := by
  have hrun : ∃ replica clock, ReplicaRun InOrder ([] ++ execute advance Replica.init orderedEvents) replica clock := by
    apply Run.executeSteps orderedEvents .start (by decide)
    have hok : ∀ e ∈ execute advance Replica.init orderedEvents, StoreGrows e.before e.call ∧ InOrder e.before e.call := by
      decide +kernel
    exact fun e he _ => hok e he
  obtain ⟨replica, clock, hrun⟩ := hrun
  exact policy_never_backward_in_order hrun

/-- The answer of revision 0 replaces the snapshot of revision 1, which a call
had returned, and is what is served when the store fails. -/
theorem policy_goes_backward : ¬ ∀ trace replica clock, ReplicaRun (fun _ _ => True) trace replica clock → NeverBackward trace := by
  intro hall
  have hrun : ∃ replica clock,
      ReplicaRun (fun _ _ => True) ([] ++ execute advance Replica.init lateEvents) replica clock := by
    apply Run.executeSteps lateEvents .start (by decide)
    have hok : ∀ e ∈ execute advance Replica.init lateEvents, StoreGrows e.before e.call ∧ True := by
      decide +kernel
    exact fun e he _ => hok e he
  obtain ⟨replica, clock, hrun⟩ := hrun
  have hsub : List.Sublist [_, _, _] (execute advance Replica.init lateEvents) :=
    .cons _ <| .cons _ <| .cons _ <| .cons _ <| .cons _ <| .cons_cons _ <| .cons _ <| .cons_cons _ <| .cons _ <|
      .cons_cons _ .slnil
  have hle := hall _ _ _ hrun _ _ _ hsub 1 2 { emptyPolicy with revision := 0 } (by decide +kernel) rfl
    (by decide +kernel) (by decide +kernel)
  cases hle

end Hyeboard.FeaturePolicy
