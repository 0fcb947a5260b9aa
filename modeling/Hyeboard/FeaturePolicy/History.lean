import Hyeboard.FeaturePolicy.Log
import Hyeboard.FeaturePolicy.Runtime
import Hyeboard.Lib.Runs
/-!
# One history for all publishers

Any number of clients publish and roll back over one store, each through a
runtime of its own. The store runs one transaction at a time; between a
rollback's read of its target and its publication any others may come. Whatever
their order, the history only grows, one revision on top of the other.
-/

namespace Hyeboard.FeaturePolicy

/-! ## Clients -/

inductive Request where
  | publish (input : PublishFeaturePolicyInput)
  | rollback (input : RollbackFeaturePolicyInput)
  /-- The rollback at this place of `pending` goes on to publish. -/
  | finish (index : Nat)
deriving DecidableEq

structure Call where
  request : Request
  now : Nat
  fault : Option Fault
deriving DecidableEq

inductive Answer where
  | published (entry : FeaturePolicyAuditEntry)
  | refused (error : PolicyError)
  | prepared (rollback : PreparedRollback)
  | idle
deriving DecidableEq

structure Clients (store : PolicyStore) where
  storage : store.State
  pending : List PreparedRollback

section
variable {store : PolicyStore}

def Clients.init (store : PolicyStore) : Clients store := { storage := store.init, pending := [] }

def answerEntry (answer : Except PolicyError FeaturePolicyAuditEntry) : Answer :=
  match receiveEntry answer with
  | .error error => .refused error
  | .ok entry => .published entry

/-- `FeaturePolicyRuntime.publish`. -/
def publishThrough (store : PolicyStore) (storage : store.State) (input : PublishFeaturePolicyInput) (now : Nat)
    (fault : Option Fault) : Answer × store.State :=
  match preparePublication input with
  | .error error => (.refused error, storage)
  | .ok parsed => (store.publish storage parsed now fault).map answerEntry id

/-- The first half of `FeaturePolicyRuntime.rollback`. -/
def readTarget (store : PolicyStore) (storage : store.State) (input : RollbackFeaturePolicyInput) (fault : Option Fault) :
    Except PolicyError PreparedRollback := do
  let parsed ← parseRollback input
  prepareRollback parsed (do
    unlessFault fault .read
    store.revision storage parsed.targetRevision)

def serve (clients : Clients store) (call : Call) : Answer × Clients store :=
  match call.request with
  | .publish input =>
    let (answer, storage) := publishThrough store clients.storage input call.now call.fault
    (answer, { clients with storage })
  | .rollback input =>
    match readTarget store clients.storage input call.fault with
    | .error error => (.refused error, clients)
    | .ok rollback => (.prepared rollback, { clients with pending := clients.pending ++ [rollback] })
  | .finish index =>
    match clients.pending[index]? with
    | none => (.idle, clients)
    | some rollback =>
      let (answer, storage) := publishThrough store clients.storage rollback.publication call.now call.fault
      (answer, { storage, pending := clients.pending.eraseIdx index })

abbrev ClientStep (store : PolicyStore) := Step (Clients store) Call Answer

/-- Clocks may go any way. -/
abbrev ClientRun (store : PolicyStore) (trace : List (ClientStep store)) (clients : Clients store) (clock : Nat) : Prop :=
  Run serve (fun _ => 0) (fun _ _ _ => True) (Clients.init store) trace clients clock

/-- The publication a call makes, if it comes to one. -/
def publicationOf (clients : Clients store) : Request → Option PublishFeaturePolicyInput
  | .publish input => some input
  | .rollback _ => none
  | .finish index => clients.pending[index]?.map (·.publication)

/-! ## What one call does to the log -/

/-- How a call served on one log ends on the next. -/
structure Serves (e : ClientStep store) (log next : PolicyLog) : Prop where
  /-- Only a publication writes. -/
  unchanged : (∀ entry, e.result ≠ .published entry) → e.after.storage = e.before.storage ∧ next = log
  /-- A publication makes the next entry, on the revision it was based on. -/
  appended : ∀ entry, e.result = .published entry →
    next.entries = log.entries ++ [{ entry with snapshot := store.order.column entry.snapshot }] ∧
      entry.baseRevision = log.current.revision ∧
      ∃ publication, publicationOf e.before e.call.request = some publication ∧
        entry.baseRevision = publication.baseRevision ∧ entry.snapshot.toFeaturePolicyContent = publication.policy
  /-- One that is not based on the current revision is a conflict. -/
  conflict : ∀ publication parsed, publicationOf e.before e.call.request = some publication →
    preparePublication publication = .ok parsed → e.call.fault = none →
    publication.baseRevision ≠ log.current.revision → e.result = .refused (policyConflict log.current.revision)
  /-- One that is goes through. -/
  succeeds : ∀ publication parsed, publicationOf e.before e.call.request = some publication →
    preparePublication publication = .ok parsed → e.call.fault = none →
    publication.baseRevision = log.current.revision → log.current.revision < maxSafeInteger →
    ∃ entry, e.result = .published entry
  /-- A rollback request waits with its own revisions and what its target holds. -/
  prepared : ∀ input rollback, e.call.request = .rollback input → e.result = .prepared rollback →
    e.after.pending = e.before.pending ++ [rollback] ∧ rollback.targetRevision = input.targetRevision ∧
      rollback.publication.baseRevision = input.baseRevision ∧ ∃ target, log.entry input.targetRevision = some target ∧
        rollback.publication.policy = target.snapshot.toFeaturePolicyContent
  /-- A rollback stores what its target holds. -/
  rolledBack : ∀ index rollback entry, e.call.request = .finish index → e.before.pending[index]? = some rollback →
    e.result = .published entry → ∃ target, log.entry rollback.targetRevision = some target ∧
      entry.snapshot.toFeaturePolicyContent = target.snapshot.toFeaturePolicyContent ∧
      (store.order.column entry.snapshot).toFeaturePolicyContent = target.snapshot.toFeaturePolicyContent

variable {rep : store.State → PolicyLog → Prop} {storage : store.State} {log : PolicyLog} {clients : Clients store}

/-- `publish` of a runtime over a store that represents a log. -/
theorem publishThrough_cases (hrefines : Refines store rep) (hrep : rep storage log) (input : PublishFeaturePolicyInput)
    (now : Nat) (fault : Option Fault) :
    (∃ error, publishThrough store storage input now fault = (.refused error, storage) ∧
      ∀ parsed, preparePublication input = .ok parsed → fault = none →
        input.baseRevision ≠ log.current.revision ∧ error = policyConflict log.current.revision ∨
          input.baseRevision = log.current.revision ∧ maxSafeInteger ≤ log.current.revision) ∨
      ∃ entry next, ∃ hstored : Follows { entry with snapshot := store.order.column entry.snapshot } log.entries.length,
        publishThrough store storage input now fault = (.published entry, next) ∧ rep next (log.append _ hstored) ∧
          entry.baseRevision = log.current.revision ∧ entry.baseRevision = input.baseRevision ∧
          entry.snapshot.toFeaturePolicyContent = input.policy := by
  unfold publishThrough
  cases hprepared : preparePublication input with
  | error error =>
    left
    refine ⟨error, rfl, ?_⟩
    intro parsed h
    cases h
  | ok parsed =>
    obtain ⟨hok, hbaseInput, hpolicyInput⟩ := parsePublication_eq_ok (preparePublication_eq_ok hprepared)
    have hagain := hok.parse
    have hpublishes := hrefines.publish storage log parsed now fault hrep
    change (∃ error, (store.publish storage parsed now fault).map answerEntry id = _ ∧ _) ∨
      ∃ entry next hstored, (store.publish storage parsed now fault).map answerEntry id = _ ∧ _
    generalize store.publish storage parsed now fault = outcome at hpublishes ⊢
    cases hpublishes with
    | appended again entry next hparsed hbase hentry hrevision hparses hstored hnext =>
      right
      rw [hagain] at hparsed
      cases hparsed
      have hentryBase : entry.baseRevision = log.entries.length := hstored.base
      have hlength := log.current_revision
      refine ⟨entry, next, hstored, ?_, hnext, ?_, ?_, ?_⟩
      · simp only [Prod.map, answerEntry, receiveEntry, bind, Except.bind, hparses, Except.mapError, id_eq]
      · omega
      · omega
      · rw [hentry, hpolicyInput]
    | rejected error hparsed =>
      rw [hagain] at hparsed
      cases hparsed
    | conflict again hparsed hbase =>
      rw [hagain] at hparsed
      cases hparsed
      left
      refine ⟨policyConflict log.current.revision, rfl, ?_⟩
      intro _ _ _
      left
      exact ⟨hbaseInput ▸ hbase, rfl⟩
    | exhausted again error hparsed hbase hfull =>
      rw [hagain] at hparsed
      cases hparsed
      left
      refine ⟨rethrown error, rfl, ?_⟩
      intro _ _ _
      right
      exact ⟨hbaseInput ▸ hbase, hfull⟩
    | failed error hfault =>
      left
      refine ⟨rethrown error, rfl, ?_⟩
      intro _ _ hnone
      exact absurd hnone hfault

/-- The state reads as the log, the policies in it are as the column keeps
them, and rollbacks on their way carry what their target holds. -/
structure LogInv (rep : store.State → PolicyLog → Prop) (clients : Clients store) (log : PolicyLog) : Prop where
  rep : rep clients.storage log
  arranged : ∀ entry ∈ log.entries,
    store.order.arrange entry.snapshot.toFeaturePolicyContent = entry.snapshot.toFeaturePolicyContent
  pending : ∀ rollback ∈ clients.pending, ∃ target, log.entry rollback.targetRevision = some target ∧
    rollback.publication.policy = target.snapshot.toFeaturePolicyContent

theorem readTarget_revisions {input : RollbackFeaturePolicyInput} {fault : Option Fault} {rollback : PreparedRollback}
    (h : readTarget store storage input fault = .ok rollback) :
    rollback.targetRevision = input.targetRevision ∧ rollback.publication.baseRevision = input.baseRevision := by
  simp only [readTarget, bind_eq_ok] at h
  obtain ⟨parsed, hparsed, hprepared⟩ := h
  obtain ⟨htarget, hbase, -⟩ := prepareRollback_eq_ok hprepared
  obtain ⟨htargetParsed, hbaseParsed⟩ := parseRollback_revisions hparsed
  exact ⟨htarget.trans htargetParsed, hbase.trans hbaseParsed⟩

theorem readTarget_target (hrefines : Refines store rep) (hrep : rep storage log) {input : RollbackFeaturePolicyInput}
    {fault : Option Fault} {rollback : PreparedRollback} (h : readTarget store storage input fault = .ok rollback) :
    ∃ target, log.entry rollback.targetRevision = some target ∧
      rollback.publication.policy = target.snapshot.toFeaturePolicyContent := by
  simp only [readTarget, bind_eq_ok] at h
  obtain ⟨parsed, -, hprepared⟩ := h
  obtain ⟨htarget, -, target, hread, hpolicy⟩ := prepareRollback_eq_ok hprepared
  simp only [bind_eq_ok] at hread
  obtain ⟨_, -, hread⟩ := hread
  rw [(hrefines.represents _ _ hrep).revision, ← htarget] at hread
  exact ⟨target, Except.ok.inj hread, hpolicy⟩

/-- Appending keeps what rollbacks on their way carry. -/
theorem LogInv.append (hinv : LogInv rep clients log) {entry : FeaturePolicyAuditEntry} {after : Clients store}
    (hstored : Follows { entry with snapshot := store.order.column entry.snapshot } log.entries.length)
    (hrep : rep after.storage (log.append _ hstored)) (hpending : ∀ rollback ∈ after.pending, rollback ∈ clients.pending) :
    LogInv rep after (log.append _ hstored) := by
  refine ⟨hrep, ?_, ?_⟩
  · intro other hother
    rw [PolicyLog.append_entries, List.mem_append, List.mem_singleton] at hother
    rcases hother with hother | rfl
    · exact hinv.arranged other hother
    · exact store.order.fixed _
  · intro rollback hmem
    obtain ⟨target, hget, hpolicy⟩ := hinv.pending rollback (hpending rollback hmem)
    exact ⟨target, PolicyLog.entry_append hstored hget, hpolicy⟩

/-- A call that comes to a publication. -/
theorem serves_publication (hrefines : Refines store rep) {e : ClientStep store} (hinv : LogInv rep e.before log)
    {input : PublishFeaturePolicyInput} (hpublication : publicationOf e.before e.call.request = some input)
    (hresult : publishThrough store e.before.storage input e.call.now e.call.fault = (e.result, e.after.storage))
    (hpending : ∀ rollback ∈ e.after.pending, rollback ∈ e.before.pending) :
    ∃ next, LogInv rep e.after next ∧ Serves e log next := by
  rcases publishThrough_cases hrefines hinv.rep input e.call.now e.call.fault with
    ⟨error, hrefused, hwhy⟩ | ⟨entry, storage, hstored, hpublished, hrep, hcurrent, hbase, hpolicy⟩
  · rw [hresult, Prod.mk.injEq] at hrefused
    obtain ⟨hanswer, hstorage⟩ := hrefused
    refine ⟨log, ⟨hstorage ▸ hinv.rep, hinv.arranged, ?_⟩, ?_⟩
    · intro rollback hmem
      exact hinv.pending rollback (hpending rollback hmem)
    constructor
    · intro _
      exact ⟨hstorage, rfl⟩
    · intro entry hpublished
      rw [hanswer] at hpublished
      cases hpublished
    · intro publication parsed hsame hprepared hfault hne
      rw [hpublication, Option.some_inj] at hsame
      subst hsame
      rcases hwhy parsed hprepared hfault with ⟨-, rfl⟩ | ⟨heq, -⟩
      · exact hanswer
      · exact absurd heq hne
    · intro publication parsed hsame hprepared hfault heq hleft
      rw [hpublication, Option.some_inj] at hsame
      subst hsame
      rcases hwhy parsed hprepared hfault with ⟨hne, -⟩ | ⟨-, hfull⟩
      · exact absurd heq hne
      · omega
    · intro asked rollback hrequest
      rw [hrequest] at hpublication
      cases hpublication
    · intro index rollback entry _ _ hpublished
      rw [hanswer] at hpublished
      cases hpublished
  · rw [hresult, Prod.mk.injEq] at hpublished
    obtain ⟨hanswer, hstorage⟩ := hpublished
    refine ⟨log.append _ hstored, hinv.append hstored (hstorage ▸ hrep) hpending, ?_⟩
    constructor
    · intro hno
      exact absurd hanswer (hno entry)
    · intro other hother
      rw [hanswer] at hother
      cases hother
      exact ⟨rfl, hcurrent, input, hpublication, hbase, hpolicy⟩
    · intro publication _ hsame _ _ hne
      rw [hpublication, Option.some_inj] at hsame
      subst hsame
      exact absurd (hbase.symm.trans hcurrent) hne
    · intro _ _ _ _ _ _ _
      exact ⟨entry, hanswer⟩
    · intro asked rollback hrequest
      rw [hrequest] at hpublication
      cases hpublication
    · intro index rollback other hrequest hget hother
      rw [hanswer] at hother
      cases hother
      rw [hrequest, publicationOf, hget, Option.map_some, Option.some_inj] at hpublication
      subst hpublication
      obtain ⟨target, htarget, hcarried⟩ := hinv.pending rollback (List.mem_of_getElem? hget)
      have hsame := hpolicy.trans hcarried
      refine ⟨target, htarget, hsame, ?_⟩
      -- the target was kept by the same column
      have harranged := hinv.arranged target (List.mem_of_getElem? (PolicyLog.mem_of_entry htarget).1)
      change store.order.arrange entry.snapshot.toFeaturePolicyContent = _
      rw [hsame, harranged]

/-- A call that does not write. -/
theorem serves_idle {e : ClientStep store} (hinv : LogInv rep e.after log) (hstorage : e.after.storage = e.before.storage)
    (hpublication : publicationOf e.before e.call.request = none) (hno : ∀ entry, e.result ≠ .published entry)
    (hprepared : ∀ input rollback, e.call.request = .rollback input → e.result = .prepared rollback →
      readTarget store e.before.storage input e.call.fault = .ok rollback ∧ e.after.pending = e.before.pending ++ [rollback]) :
    ∃ next, LogInv rep e.after next ∧ Serves e log next := by
  refine ⟨log, hinv, ⟨fun _ => ⟨hstorage, rfl⟩, ?_, ?_, ?_, ?_, ?_⟩⟩
  · intro entry hpublished
    exact absurd hpublished (hno entry)
  · intro publication _ hsome
    rw [hpublication] at hsome
    cases hsome
  · intro publication _ hsome
    rw [hpublication] at hsome
    cases hsome
  · intro input rollback hrequest hresult
    obtain ⟨hread, hpending⟩ := hprepared input rollback hrequest hresult
    obtain ⟨htarget, hbase⟩ := readTarget_revisions hread
    -- the rollback is among those on their way
    have hcarried := hinv.pending rollback (by rw [hpending]; exact List.mem_append_right _ (List.mem_singleton_self _))
    rw [htarget] at hcarried
    exact ⟨hpending, htarget, hbase, hcarried⟩
  · intro _ _ entry _ _ hpublished
    exact absurd hpublished (hno entry)

theorem serve_serves (hrefines : Refines store rep) (hinv : LogInv rep clients log) (call : Call) :
    ∃ next, LogInv rep (serve clients call).2 next ∧ Serves (stepOf serve clients call) log next := by
  obtain ⟨request, now, fault⟩ := call
  cases request with
  | publish input =>
    exact serves_publication (e := stepOf serve clients { request := .publish input, now, fault }) hrefines hinv rfl rfl
      fun _ hmem => hmem
  | rollback input =>
    cases hread : readTarget store clients.storage input fault with
    | error error =>
      have hserve : serve clients { request := .rollback input, now, fault } = (.refused error, clients) := by
        simp only [serve, hread]
      apply serves_idle (e := stepOf serve clients { request := .rollback input, now, fault })
      · rw [stepOf, hserve]
        exact hinv
      · rw [stepOf, hserve]
      · rfl
      · rw [stepOf, hserve]
        intro _ h
        cases h
      · rw [stepOf, hserve]
        intro _ _ _ h
        cases h
    | ok rollback =>
      have hserve : serve clients { request := .rollback input, now, fault } =
          (.prepared rollback, { clients with pending := clients.pending ++ [rollback] }) := by
        simp only [serve, hread]
      apply serves_idle (e := stepOf serve clients { request := .rollback input, now, fault })
      · rw [stepOf, hserve]
        refine ⟨hinv.rep, hinv.arranged, ?_⟩
        intro other hother
        rcases List.mem_append.1 hother with hother | hother
        · exact hinv.pending other hother
        · rw [List.mem_singleton] at hother
          subst hother
          exact readTarget_target hrefines hinv.rep hread
      · rw [stepOf, hserve]
      · rfl
      · rw [stepOf, hserve]
        intro _ h
        cases h
      · rw [stepOf, hserve]
        intro _ _ hrequest hresult
        cases hrequest
        cases hresult
        exact ⟨hread, rfl⟩
  | finish index =>
    cases hget : clients.pending[index]? with
    | none =>
      have hserve : serve clients { request := .finish index, now, fault } = (.idle, clients) := by
        simp only [serve, hget]
      apply serves_idle (e := stepOf serve clients { request := .finish index, now, fault })
      · rw [stepOf, hserve]
        exact hinv
      · rw [stepOf, hserve]
      · simp only [stepOf, publicationOf, hget, Option.map_none]
      · rw [stepOf, hserve]
        intro _ h
        cases h
      · intro _ _ hrequest
        cases hrequest
    | some rollback =>
      apply serves_publication (e := stepOf serve clients { request := .finish index, now, fault }) hrefines hinv
      · simp only [stepOf, publicationOf, hget, Option.map_some]
        rfl
      · simp only [stepOf, serve, hget]
      · intro other hother
        simp only [stepOf, serve, hget] at hother
        exact List.mem_of_mem_eraseIdx hother

end

/-! ## Every run -/

theorem refines_of_mem {order : KeyOrder} {store : PolicyStore} (h : store ∈ policyStores order) :
    ∃ rep, Refines store rep := by
  simp only [policyStores, List.mem_cons, List.not_mem_nil, or_false] at h
  rcases h with rfl | rfl | rfl | rfl
  · exact ⟨_, memory_refines⟩
  · exact ⟨_, database_refines durableObject_sound⟩
  · exact ⟨_, database_refines (postgres_sound order)⟩
  · exact ⟨_, database_refines sqlite_sound⟩

section
variable {store : PolicyStore} {rep : store.State → PolicyLog → Prop} {trace : List (ClientStep store)}
  {clients : Clients store} {clock : Nat} {order : KeyOrder}

/-- What a log has come to after a trace: every call was served on some
beginning of it, and every publication is below its end. -/
structure Recorded (trace : List (ClientStep store)) (log : PolicyLog) : Prop where
  served : ∀ e ∈ trace, ∃ before after : PolicyLog, Represents store e.before.storage before ∧
    Represents store e.after.storage after ∧ before.entries <+: after.entries ∧ after.entries <+: log.entries ∧
    Serves e before after
  below : ∀ e ∈ trace, ∀ entry, e.result = .published entry → entry.baseRevision < log.entries.length
  once : trace.Pairwise fun e e' => ∀ entry entry', e.result = .published entry → e'.result = .published entry' →
    entry.baseRevision ≠ entry'.baseRevision

theorem Recorded.snoc {log next : PolicyLog} (h : Recorded trace log) {e : ClientStep store} (hserves : Serves e log next)
    (hbefore : Represents store e.before.storage log) (hafter : Represents store e.after.storage next) :
    Recorded (trace ++ [e]) next := by
  have hgrows : log.entries <+: next.entries ∧
      ∀ entry, e.result = .published entry →
        entry.baseRevision = log.entries.length ∧ log.entries.length < next.entries.length := by
    by_cases hpublished : ∃ entry, e.result = .published entry
    · obtain ⟨entry, hentry⟩ := hpublished
      obtain ⟨hnext, hbase, -⟩ := hserves.appended entry hentry
      rw [hnext]
      refine ⟨List.prefix_append _ _, ?_⟩
      intro other hother
      rw [hentry] at hother
      cases hother
      refine ⟨hbase.trans log.current_revision, ?_⟩
      rw [List.length_append, List.length_singleton]
      exact Nat.lt_succ_self _
    · have hno : ∀ entry, e.result ≠ .published entry := by
        intro entry hentry
        exact hpublished ⟨entry, hentry⟩
      obtain ⟨-, rfl⟩ := hserves.unchanged hno
      refine ⟨List.prefix_refl _, ?_⟩
      intro entry hentry
      exact absurd hentry (hno entry)
  obtain ⟨hbegins, hbase⟩ := hgrows
  constructor
  · intro e' he'
    rw [List.mem_append, List.mem_singleton] at he'
    rcases he' with he' | rfl
    · obtain ⟨before, after, hrepBefore, hrepAfter, hstep, hend, hserved⟩ := h.served e' he'
      exact ⟨before, after, hrepBefore, hrepAfter, hstep, hend.trans hbegins, hserved⟩
    · exact ⟨log, next, hbefore, hafter, hbegins, List.prefix_refl _, hserves⟩
  · intro e' he' entry hentry
    rw [List.mem_append, List.mem_singleton] at he'
    rcases he' with he' | rfl
    · exact Nat.lt_of_lt_of_le (h.below e' he' entry hentry) hbegins.length_le
    · have := hbase entry hentry
      omega
  · rw [List.pairwise_append]
    refine ⟨h.once, List.pairwise_singleton _ _, ?_⟩
    intro e' he' last hlast entry entry' hentry hentry'
    rw [List.mem_singleton] at hlast
    subst hlast
    have hbelow := h.below e' he' entry hentry
    have hnow := (hbase entry' hentry').1
    omega

/-- The trace has a rollback request that this one comes from. -/
def AskedFor (trace : List (ClientStep store)) (rollback : PreparedRollback) : Prop :=
  ∃ asked ∈ trace, ∃ input, asked.call.request = .rollback input ∧ asked.result = .prepared rollback ∧
    rollback.targetRevision = input.targetRevision ∧ rollback.publication.baseRevision = input.baseRevision

/-- What waits was asked for. -/
theorem askedFor_of_pending (h : ClientRun store trace clients clock) : ∀ rollback ∈ clients.pending, AskedFor trace rollback := by
  refine h.invariant (fun trace clients _ => ∀ rollback ∈ clients.pending, AskedFor trace rollback) ?_ ?_
  · intro rollback hmem
    cases hmem
  · rintro trace clients - ⟨request, now, fault⟩ - hasked - -
    have hold : ∀ e, ∀ rollback ∈ clients.pending, AskedFor (trace ++ [e]) rollback := by
      intro e rollback hmem
      obtain ⟨asked, hasked, hrest⟩ := hasked rollback hmem
      exact ⟨asked, List.mem_append_left _ hasked, hrest⟩
    intro rollback hmem
    cases request with
    | publish input => exact hold _ rollback hmem
    | rollback input =>
      cases hread : readTarget store clients.storage input fault with
      | error error =>
        simp only [serve, hread] at hmem
        exact hold _ rollback hmem
      | ok prepared =>
        simp only [serve, hread, List.mem_append, List.mem_singleton] at hmem
        rcases hmem with hmem | rfl
        · exact hold _ rollback hmem
        · refine ⟨_, List.mem_append_right _ (List.mem_singleton_self _), input, rfl, ?_, readTarget_revisions hread⟩
          simp only [stepOf, serve, hread]
    | finish index =>
      cases hget : clients.pending[index]? with
      | none =>
        simp only [serve, hget] at hmem
        exact hold _ rollback hmem
      | some other =>
        simp only [serve, hget] at hmem
        exact hold _ rollback (List.mem_of_mem_eraseIdx hmem)

/-- A longer log says the same of a revision. -/
theorem PolicyLog.entry_of_prefix {log longer : PolicyLog} (h : log.entries <+: longer.entries) {revision : Nat}
    {entry : FeaturePolicyAuditEntry} (hget : log.entry revision = some entry) : longer.entry revision = some entry := by
  unfold PolicyLog.entry at hget ⊢
  split at hget
  case isTrue => cases hget
  case isFalse hne =>
    obtain ⟨rest, hrest⟩ := h
    rw [if_neg hne, ← hrest, List.getElem?_append_left (List.getElem?_eq_some_iff.1 hget).1]
    exact hget

/-- Over each of the stores, after every run of every number of clients: the
store reads as one log, every call was served on a beginning of that log, no
two publications were based on one revision, and what a rollback has published
was asked for earlier, on that base, with the policy of the revision asked for. -/
theorem policy_history_linear (hstore : store ∈ policyStores order) (h : ClientRun store trace clients clock) :
    ∃ log, Represents store clients.storage log ∧
      (∀ e ∈ trace, ∃ before after : PolicyLog, Represents store e.before.storage before ∧
        Represents store e.after.storage after ∧ before.entries <+: after.entries ∧ after.entries <+: log.entries ∧
        Serves e before after) ∧
      (trace.Pairwise fun e e' => ∀ entry entry', e.result = .published entry → e'.result = .published entry' →
        entry.baseRevision ≠ entry'.baseRevision) ∧
      (∀ pre e post, trace = pre ++ e :: post → ∀ index rollback entry, e.call.request = .finish index →
        e.before.pending[index]? = some rollback → e.result = .published entry →
        ∃ asked ∈ pre, ∃ input target, asked.call.request = .rollback input ∧ asked.result = .prepared rollback ∧
          entry.baseRevision = input.baseRevision ∧ log.entry input.targetRevision = some target ∧
          entry.snapshot.toFeaturePolicyContent = target.snapshot.toFeaturePolicyContent ∧
          (store.order.column entry.snapshot).toFeaturePolicyContent = target.snapshot.toFeaturePolicyContent) := by
  obtain ⟨rep, hrefines⟩ := refines_of_mem hstore
  have hinv : ∃ log, LogInv rep clients log ∧ Recorded trace log := by
    refine h.invariant (fun trace clients _ => ∃ log, LogInv rep clients log ∧ Recorded trace log) ?_ ?_
    · refine ⟨.empty, ⟨hrefines.init, ?_, ?_⟩, ?_, ?_, List.Pairwise.nil⟩
      all_goals
        intro _ hmem
        cases hmem
    · rintro trace clients - call - ⟨log, hinv, hrecorded⟩ - -
      obtain ⟨next, hnext, hserves⟩ := serve_serves hrefines hinv call
      exact ⟨next, hnext, hrecorded.snoc hserves (hrefines.represents _ _ hinv.rep) (hrefines.represents _ _ hnext.rep)⟩
  obtain ⟨log, hlog, hrecorded⟩ := hinv
  refine ⟨log, hrefines.represents _ _ hlog.rep, hrecorded.served, hrecorded.once, ?_⟩
  rintro pre e post rfl index rollback entry hrequest hget hpublished
  obtain ⟨before, after, -, -, hstep, hend, hserves⟩ := hrecorded.served e (by simp)
  obtain ⟨target, htarget, hsame, hcolumn⟩ := hserves.rolledBack index rollback entry hrequest hget hpublished
  obtain ⟨-, -, publication, hpublication, hbase, -⟩ := hserves.appended entry hpublished
  rw [hrequest, publicationOf, hget, Option.map_some, Option.some_inj] at hpublication
  subst hpublication
  obtain ⟨waiting, call, clk, hrun, -, -, rfl⟩ := h.cut rfl
  obtain ⟨asked, hasked, input, hrollback, hprepared, hrevision, hinput⟩ :=
    askedFor_of_pending hrun rollback (List.mem_of_getElem? hget)
  rw [hrevision] at htarget
  exact ⟨asked, hasked, input, target, hrollback, hprepared, hbase.trans hinput,
    PolicyLog.entry_of_prefix (hstep.trans hend) htarget, hsame, hcolumn⟩

end

/-! ## A rollback to nowhere -/

def samplePublication : PublishFeaturePolicyInput :=
  { baseRevision := 0, policy := emptyPolicy, reason := "r"
    actor := { method := .password, subject := "a", label := none } }

def sampleCall : Call := { request := .publish samplePublication, now := 0, fault := none }

/-- A rollback to a revision that is not there. -/
def missingCall : Call :=
  { request := .rollback { baseRevision := 0, targetRevision := 7, reason := "r", actor := samplePublication.actor }
    now := 0, fault := none }

theorem sample_run : ∃ clients clock,
    ClientRun memoryStore (execute serve (Clients.init memoryStore) [sampleCall, missingCall]) clients clock :=
  Run.execute [sampleCall, missingCall] .start (by decide) fun _ _ _ _ => trivial

/-- With an entry for one university. -/
def otherPublication : PublishFeaturePolicyInput :=
  { samplePublication with
    baseRevision := 1, policy := { emptyPolicy with universities := .ofList [("uet", { capabilities := .empty, limits := .empty })] } }

/-- A policy is replaced and rolled back to, and before the rollback publishes another publication comes too late. -/
def rollbackCalls : List Call :=
  [sampleCall,
    { request := .publish otherPublication, now := 1, fault := none },
    { request := .rollback { baseRevision := 2, targetRevision := 1, reason := "r", actor := samplePublication.actor }
      now := 2, fault := none },
    { request := .publish { samplePublication with baseRevision := 1 }, now := 3, fault := none },
    { request := .finish 0, now := 4, fault := none }]

def rollbackTrace : List (ClientStep memoryStore) := execute serve (Clients.init memoryStore) rollbackCalls

theorem policy_history_linear_sample :
    rollbackTrace.map (·.result) =
      [.published (publishedEntry samplePublication 0 0), .published (publishedEntry otherPublication 1 1),
        .prepared { targetRevision := 1, publication := { samplePublication with baseRevision := 2 } },
        .refused (policyConflict 2), .published (publishedEntry { samplePublication with baseRevision := 2 } 2 4)] ∧
    ∃ clients clock log, ClientRun memoryStore rollbackTrace clients clock ∧ Represents memoryStore clients.storage log ∧
      ∃ target, log.entry 1 = some target ∧
        (publishedEntry { samplePublication with baseRevision := 2 } 2 4).snapshot.toFeaturePolicyContent =
          target.snapshot.toFeaturePolicyContent := by
  have hrun : ∃ clients clock, ClientRun memoryStore rollbackTrace clients clock :=
    Run.execute rollbackCalls .start (by decide) fun _ _ _ _ => trivial
  obtain ⟨clients, clock, hrun⟩ := hrun
  have hmem : memoryStore ∈ policyStores .asWritten := List.mem_cons_self
  obtain ⟨log, hlog, -, -, hrollbacks⟩ := policy_history_linear hmem hrun
  refine ⟨by decide +kernel, clients, clock, log, hrun, hlog, ?_⟩
  obtain ⟨asked, hasked, input, target, hrequest, -, -, htarget, hsame, -⟩ :=
    hrollbacks (rollbackTrace.take 4) _ [] rfl 0 { targetRevision := 1, publication := { samplePublication with baseRevision := 2 } }
      (publishedEntry { samplePublication with baseRevision := 2 } 2 4) rfl (by decide +kernel) (by decide +kernel)
  refine ⟨target, ?_, hsame⟩
  have hinput : input.targetRevision = 1 := by
    have hall : ∀ step ∈ rollbackTrace.take 4, ∀ input, step.call.request = .rollback input → input.targetRevision = 1 := by
      intro step hstep input hrollback
      simp only [rollbackTrace, rollbackCalls, execute, List.take_succ_cons, List.take_zero, List.mem_cons, List.not_mem_nil,
        or_false] at hstep
      rcases hstep with rfl | rfl | rfl | rfl <;> cases hrollback
      rfl
    exact hall asked hasked input hrequest
  rw [← hinput]
  exact htarget

/-- The revision a request is based on. -/
def requestBase {store : PolicyStore} (clients : Clients store) : Request → Option Nat
  | .publish input => some input.baseRevision
  | .rollback input => some input.baseRevision
  | .finish index => clients.pending[index]?.map (·.publication.baseRevision)

theorem not_every_loser_conflicts : ¬ ∀ (order : KeyOrder) (store : PolicyStore) (trace : List (ClientStep store))
    (clients : Clients store) (clock : Nat), store ∈ policyStores order → ClientRun store trace clients clock →
    trace.Pairwise fun e e' => ∀ entry error, e.result = .published entry →
      requestBase e'.before e'.call.request = some entry.baseRevision → e'.result = .refused error →
      ∃ revision, error = policyConflict revision := by
  intro hall
  obtain ⟨clients, clock, hrun⟩ := sample_run
  have hpairs := hall .asWritten memoryStore _ clients clock List.mem_cons_self hrun
  have hpublished : (serve (Clients.init memoryStore) sampleCall).1 = .published (publishedEntry samplePublication 0 0) := by
    decide +kernel
  have hmissing : (serve (serve (Clients.init memoryStore) sampleCall).2 missingCall).1 = .refused revisionNotFound := by
    decide +kernel
  obtain ⟨revision, hconflict⟩ := (List.pairwise_cons.1 hpairs).1 _ List.mem_cons_self _ _ hpublished rfl hmissing
  have hcode := congrArg (fun | .hyeboard _ _ status _ => status | .error _ => 0) hconflict
  cases hcode

end Hyeboard.FeaturePolicy
