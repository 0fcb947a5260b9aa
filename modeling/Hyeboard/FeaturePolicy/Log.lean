import Hyeboard.FeaturePolicy.Stores
/-!
# Policies as a log

What a policy store is for: a log of revisions 1, 2, ..., each made on top of
the one before, which only grows. `Represents` says that a store's state reads
as a log; `Publishes` what a publication may do to it, and each of the four
stores does only that.
-/

namespace Hyeboard.FeaturePolicy

/-- The entry a log of `n` entries may be extended with. -/
structure Follows (entry : FeaturePolicyAuditEntry) (n : Nat) : Prop where
  revision : entry.revision = n + 1
  base : entry.baseRevision = n
  snapshot : entry.snapshot.revision = n + 1
  parsed : parseAuditEntry entry = .ok entry

/-- A linear history, oldest entry first. -/
structure PolicyLog where
  entries : List FeaturePolicyAuditEntry
  linear : ∀ n entry, entries[n]? = some entry → Follows entry n

namespace PolicyLog

def empty : PolicyLog := { entries := [], linear := by simp }

/-- The newest snapshot, or the empty policy at revision 0. -/
def current (log : PolicyLog) : FeaturePolicySnapshot :=
  (log.entries.getLast?.map (·.snapshot)).getD { emptyPolicy with revision := 0 }

/-- The entry of a revision. -/
def entry (log : PolicyLog) (revision : Nat) : Option FeaturePolicyAuditEntry :=
  if revision = 0 then none else log.entries[revision - 1]?

def append (log : PolicyLog) (entry : FeaturePolicyAuditEntry) (h : Follows entry log.entries.length) : PolicyLog :=
  { entries := log.entries ++ [entry]
    linear := by
      intro n e hget
      rw [List.getElem?_append] at hget
      split at hget
      · exact log.linear n e hget
      · rename_i hge
        have hn : n - log.entries.length = 0 := by
          by_contra hne
          rw [List.getElem?_singleton, if_neg hne] at hget
          cases hget
        rw [hn, List.getElem?_singleton, if_pos rfl] at hget
        cases hget
        have heq : n = log.entries.length := by omega
        rw [heq]
        exact h }

section
variable {log : PolicyLog} {entry e : FeaturePolicyAuditEntry} {revision : Nat}

theorem current_revision (log : PolicyLog) : log.current.revision = log.entries.length := by
  unfold current
  cases hlast : log.entries.getLast? with
  | none =>
    rw [List.getLast?_eq_none_iff] at hlast
    rw [hlast]
    rfl
  | some entry =>
    have hne : log.entries ≠ [] := by
      rintro hnil
      rw [hnil] at hlast
      cases hlast
    have hget : log.entries[log.entries.length - 1]? = some entry := by
      rw [← hlast, List.getLast?_eq_getElem?]
    have hpos := List.length_pos_iff.2 hne
    have hsnapshot := (log.linear _ entry hget).snapshot
    rw [Option.map_some, Option.getD_some, hsnapshot]
    omega

@[simp] theorem append_entries (h : Follows entry log.entries.length) :
    (log.append entry h).entries = log.entries ++ [entry] := rfl

@[simp] theorem append_current (h : Follows entry log.entries.length) : (log.append entry h).current = entry.snapshot := by
  simp [current]

/-- What a log says about a revision, every longer one says too. -/
theorem entry_append (h : Follows entry log.entries.length) (hget : log.entry revision = some e) :
    (log.append entry h).entry revision = some e := by
  unfold PolicyLog.entry at hget ⊢
  split at hget
  · cases hget
  · rename_i hne
    rw [if_neg hne]
    rw [append_entries, List.getElem?_append_left (List.getElem?_eq_some_iff.1 hget).1]
    exact hget

end

end PolicyLog

/-! ## Stores -/

structure PolicyStore where
  State : Type
  init : State
  order : KeyOrder
  current : State → Except PolicyError FeaturePolicySnapshot
  revision : State → Nat → Except PolicyError (Option FeaturePolicyAuditEntry)
  /-- All that is kept of earlier publications, oldest first. -/
  history : State → List FeaturePolicyAuditEntry
  publish : State → PublishFeaturePolicyInput → Nat → Option Fault → Except PolicyError FeaturePolicyAuditEntry × State

def memoryStore : PolicyStore :=
  { State := MemoryStore
    init := .init
    order := .asWritten
    current := MemoryStore.current
    revision := MemoryStore.revision
    history := fun store => store.entries.reverse
    publish := fun store input now _ => store.publish input now }

def databaseStore (dialect : Dialect) : PolicyStore :=
  { State := PolicyTables
    init := .init
    order := dialect.order
    current := PolicyTables.readCurrent dialect
    revision := PolicyTables.revision dialect
    history := PolicyTables.history
    publish := PolicyTables.publish dialect }

/-- The four stores; `order` is that of PostgreSQL's `jsonb`. -/
def policyStores (order : KeyOrder) : List PolicyStore :=
  [memoryStore, databaseStore durableObjectDialect, databaseStore (postgresDialect order), databaseStore sqliteDialect]

/-- The state reads as the log. -/
structure Represents (store : PolicyStore) (state : store.State) (log : PolicyLog) : Prop where
  current : store.current state = .ok log.current
  revision : ∀ revision, store.revision state revision = .ok (log.entry revision)
  history : store.history state = log.entries

/-- What a store does with a publication. -/
inductive Publishes (store : PolicyStore) (rep : store.State → PolicyLog → Prop) (state : store.State) (log : PolicyLog)
    (input : PublishFeaturePolicyInput) (fault : Option Fault) :
    Except PolicyError FeaturePolicyAuditEntry × store.State → Prop
  | appended (parsed : PublishFeaturePolicyInput) (entry : FeaturePolicyAuditEntry) (next : store.State)
      (hparsed : parsePublication input = .ok parsed) (hbase : parsed.baseRevision = log.current.revision)
      (hentry : entry.snapshot.toFeaturePolicyContent = parsed.policy) (hrevision : entry.revision = log.current.revision + 1)
      (hparses : parseAuditEntry entry = .ok entry)
      (hstored : Follows { entry with snapshot := store.order.column entry.snapshot } log.entries.length)
      (hnext : rep next (log.append _ hstored)) :
      Publishes store rep state log input fault (.ok entry, next)
  | rejected (error : PolicyError) (h : parsePublication input = .error error) :
      Publishes store rep state log input fault (.error error, state)
  | conflict (parsed : PublishFeaturePolicyInput) (hparsed : parsePublication input = .ok parsed)
      (hbase : parsed.baseRevision ≠ log.current.revision) :
      Publishes store rep state log input fault (.error (policyConflict log.current.revision), state)
  | exhausted (parsed : PublishFeaturePolicyInput) (error : PolicyError) (hparsed : parsePublication input = .ok parsed)
      (hbase : parsed.baseRevision = log.current.revision) (hfull : maxSafeInteger ≤ log.current.revision) :
      Publishes store rep state log input fault (.error error, state)
  | failed (error : PolicyError) (hfault : fault ≠ none) : Publishes store rep state log input fault (.error error, state)

/-- A store that starts as the empty log, reads as its log, and publishes on
top of it. -/
structure Refines (store : PolicyStore) (rep : store.State → PolicyLog → Prop) : Prop where
  init : rep store.init .empty
  represents : ∀ state log, rep state log → Represents store state log
  publish : ∀ state log input now fault, rep state log →
    Publishes store rep state log input fault (store.publish state input now fault)

/-! ## The entry of a publication -/

section
variable {input parsed : PublishFeaturePolicyInput} {entry : FeaturePolicyAuditEntry} {now : Nat}

/-- What a parsed publication is known to pass. -/
structure Parsed (parsed : PublishFeaturePolicyInput) : Prop where
  base : revisionOk parsed.baseRevision = true
  policy : parsed.policy.ok = true
  reason : parseReason parsed.reason = .ok parsed.reason
  actor : parsed.actor.ok = true

theorem parsePublication_eq_ok :
    parsePublication input = .ok parsed → Parsed parsed ∧ parsed.baseRevision = input.baseRevision ∧
      parsed.policy = input.policy := by
  simp only [parsePublication, bind_eq_ok, require_eq_ok, pure_eq_ok]
  rintro ⟨_, hbase, _, hpolicy, reason, hreason, _, hactor, rfl⟩
  exact ⟨⟨hbase, hpolicy, parseReason_parsed hreason, hactor⟩, rfl, rfl⟩

/-- A parsed publication parses as itself. -/
theorem Parsed.parse (h : Parsed parsed) : parsePublication parsed = .ok parsed := by
  simp only [parsePublication, bind_eq_ok, require_eq_ok, pure_eq_ok]
  exact ⟨(), h.base, (), h.policy, _, h.reason, (), h.actor, rfl⟩

/-- The entry a parsed publication makes at revision `n + 1`. -/
def publishedEntry (parsed : PublishFeaturePolicyInput) (n now : Nat) : FeaturePolicyAuditEntry :=
  { revision := n + 1, baseRevision := parsed.baseRevision, actor := parsed.actor, reason := parsed.reason
    publishedAt := now, snapshot := { parsed.policy with revision := n + 1 } }

theorem Parsed.entry_parses (h : Parsed parsed) {n : Nat} (hn : n < maxSafeInteger) (order : KeyOrder) (now : Nat) :
    parseAuditEntry { publishedEntry parsed n now with
        snapshot := order.column (publishedEntry parsed n now).snapshot } =
      .ok { publishedEntry parsed n now with snapshot := order.column (publishedEntry parsed n now).snapshot } := by
  have hrevision : revisionOk (n + 1) = true := decide_eq_true hn
  have hsnapshot : (order.column (publishedEntry parsed n now).snapshot).ok = true := by
    rw [FeaturePolicySnapshot.ok, Bool.and_eq_true]
    exact ⟨order.ok _ h.policy, hrevision⟩
  simp only [parseAuditEntry, parseSnapshot, bind_eq_ok, require_eq_ok, pure_eq_ok]
  refine ⟨(), ?_, (), h.actor, _, h.reason, _, ⟨(), hsnapshot, rfl⟩, rfl⟩
  simp only [publishedEntry, hrevision, h.base, Bool.and_true, Bool.true_and]
  exact decide_eq_true (Nat.succ_pos n)

/-- The three ways to build an entry: a conflict, no revisions left, or the
entry. -/
theorem nextEntry_cases {checkRevision : Nat → Except PolicyError Unit} (h : Parsed parsed)
    (hcheck : ∀ revision, revisionOk revision = true → checkRevision revision = .ok ())
    (current : FeaturePolicySnapshot) (now : Nat) :
    (parsed.baseRevision ≠ current.revision ∧
        nextEntry checkRevision current parsed now = .error (policyConflict current.revision)) ∨
      (parsed.baseRevision = current.revision ∧ maxSafeInteger ≤ current.revision ∧
        ∃ error, nextEntry checkRevision current parsed now = .error error) ∨
      (parsed.baseRevision = current.revision ∧ current.revision < maxSafeInteger ∧
        nextEntry checkRevision current parsed now = .ok (publishedEntry parsed current.revision now)) := by
  by_cases hbase : parsed.baseRevision = current.revision
  · by_cases hleft : current.revision < maxSafeInteger
    · refine .inr (.inr ⟨hbase, hleft, ?_⟩)
      have hparses := h.entry_parses hleft .asWritten now
      simp only [nextEntry, bind_eq_ok, require_eq_ok, beq_iff_eq]
      exact ⟨(), hbase, (), hcheck _ (decide_eq_true hleft), hparses⟩
    · refine .inr (.inl ⟨hbase, Nat.le_of_not_lt hleft, ?_⟩)
      cases hnext : nextEntry checkRevision current parsed now with
      | error error => exact ⟨error, rfl⟩
      | ok entry =>
        simp only [nextEntry, parseAuditEntry, bind_eq_ok, require_eq_ok, Bool.and_eq_true] at hnext
        obtain ⟨_, -, _, -, _, hrevision, -⟩ := hnext
        have hrevision : current.revision + 1 ≤ maxSafeInteger := of_decide_eq_true hrevision.1.1
        omega
  · refine .inl ⟨hbase, ?_⟩
    have hne : (parsed.baseRevision == current.revision) = false := beq_eq_false_iff_ne.2 hbase
    simp only [nextEntry, require, hne]
    rfl

theorem follows_published (h : Parsed parsed) {log : PolicyLog} (hbase : parsed.baseRevision = log.current.revision)
    (hleft : log.current.revision < maxSafeInteger) (order : KeyOrder) (now : Nat) :
    Follows { publishedEntry parsed log.current.revision now with
      snapshot := order.column (publishedEntry parsed log.current.revision now).snapshot } log.entries.length := by
  have hlength := log.current_revision
  refine ⟨?_, ?_, ?_, h.entry_parses hleft order now⟩
  · rw [← hlength]
    rfl
  · rw [← hlength]
    exact hbase
  · rw [← hlength]
    rfl

end

/-! ## Looking up a revision -/

section
variable {log : PolicyLog} {entry : FeaturePolicyAuditEntry} {n revision : Nat}

theorem Follows.revisionOk (h : Follows entry n) : revisionOk entry.revision = true := by
  have hparsed := h.parsed
  simp only [parseAuditEntry, bind_eq_ok, require_eq_ok, Bool.and_eq_true] at hparsed
  obtain ⟨_, hrevision, -⟩ := hparsed
  exact hrevision.1.1

/-- Whatever order the entries of a log are kept in, a revision is found at its
place in the log. -/
theorem find?_revision {entries : List FeaturePolicyAuditEntry} (hmem : ∀ e, e ∈ entries ↔ e ∈ log.entries) :
    entries.find? (·.revision == revision) = log.entry revision := by
  unfold PolicyLog.entry
  cases hfind : entries.find? (·.revision == revision) with
  | none =>
    split
    · rfl
    · rename_i hne
      cases hget : log.entries[revision - 1]? with
      | none => rfl
      | some entry =>
        have hrevision := (log.linear _ entry hget).revision
        have hno := List.find?_eq_none.1 hfind entry ((hmem entry).2 (List.mem_of_getElem? hget))
        rw [beq_iff_eq] at hno
        omega
  | some entry =>
    have hrevision : entry.revision = revision := by simpa using List.find?_some hfind
    obtain ⟨n, hn⟩ := List.mem_iff_getElem?.1 ((hmem entry).1 (List.mem_of_find?_eq_some hfind))
    have hfollows := (log.linear n entry hn).revision
    have heq : revision - 1 = n := by omega
    rw [if_neg (by omega), heq, hn]

theorem PolicyLog.mem_of_entry (h : log.entry revision = some entry) :
    log.entries[revision - 1]? = some entry ∧ entry.revision = revision ∧ 0 < revision := by
  unfold PolicyLog.entry at h
  split at h
  · cases h
  · have hfollows := (log.linear _ entry h).revision
    exact ⟨h, by omega, by omega⟩

/-- What `revision` of a store answers: nothing outside the range, else the
entry its lookup finds, parsed. -/
theorem lookup_eq {entries : List FeaturePolicyAuditEntry} (hmem : ∀ e, e ∈ entries ↔ e ∈ log.entries)
    {parse : FeaturePolicyAuditEntry → Except PolicyError FeaturePolicyAuditEntry}
    (hparse : ∀ n e, Follows e n → parse e = .ok e) (revision : Nat) :
    (if !FeaturePolicy.revisionOk revision || revision == 0 then .ok none
      else
        match entries.find? (·.revision == revision) with
        | none => .ok none
        | some entry => some <$> parse entry : Except PolicyError (Option FeaturePolicyAuditEntry)) =
      .ok (log.entry revision) := by
  rw [find?_revision hmem]
  cases hentry : log.entry revision with
  | none =>
    split <;> rfl
  | some entry =>
    obtain ⟨hget, hrevision, hpos⟩ := PolicyLog.mem_of_entry hentry
    have hfollows := log.linear _ entry hget
    have hsafe := hfollows.revisionOk
    rw [hrevision] at hsafe
    rw [if_neg (by simp [hsafe]; omega)]
    dsimp only
    rw [hparse _ entry hfollows]
    rfl

end

/-! ## The store in memory -/

/-- The newest snapshot, and the entries from the newest on. -/
def MemoryStore.rep (store : MemoryStore) (log : PolicyLog) : Prop :=
  store.snapshot = log.current ∧ store.entries = log.entries.reverse

theorem current_ok (log : PolicyLog) : log.current.ok = true := by
  unfold PolicyLog.current
  cases hlast : log.entries.getLast? with
  | none => rfl
  | some entry =>
    obtain ⟨n, hn⟩ := List.mem_iff_getElem?.1 (List.mem_of_getLast? hlast)
    have hparsed := (log.linear n entry hn).parsed
    simp only [parseAuditEntry, parseSnapshot, bind_eq_ok, require_eq_ok, pure_eq_ok] at hparsed
    obtain ⟨_, -, _, -, _, -, _, ⟨_, hok, -⟩, -⟩ := hparsed
    exact hok

theorem memory_refines : Refines memoryStore MemoryStore.rep := by
  constructor
  · exact ⟨rfl, rfl⟩
  · rintro store log ⟨hsnapshot, hentries⟩
    constructor
    · change parseSnapshot store.snapshot = _
      rw [hsnapshot]
      simp only [parseSnapshot, bind_eq_ok, require_eq_ok, pure_eq_ok]
      exact ⟨(), current_ok log, trivial⟩
    · apply lookup_eq
      · intro e
        rw [hentries, List.mem_reverse]
      · exact fun _ _ hfollows => hfollows.parsed
    · change store.entries.reverse = _
      rw [hentries, List.reverse_reverse]
  · rintro store log input now fault ⟨hsnapshot, hentries⟩
    change Publishes memoryStore MemoryStore.rep store log input fault (store.publish input now)
    unfold MemoryStore.publish
    cases hparsed : parsePublication input with
    | error error => exact .rejected error hparsed
    | ok parsed =>
      obtain ⟨hok, -⟩ := parsePublication_eq_ok hparsed
      simp only [bind, Except.bind]
      rw [hsnapshot]
      rcases nextEntry_cases hok (fun _ _ => rfl) log.current now with ⟨hbase, hnext⟩ | ⟨hbase, hfull, error, hnext⟩ | ⟨hbase, hleft, hnext⟩
      · rw [hnext]
        exact .conflict parsed hparsed hbase
      · rw [hnext]
        exact .exhausted parsed error hparsed hbase hfull
      · rw [hnext]
        refine .appended parsed _ _ hparsed hbase rfl rfl (hok.entry_parses hleft .asWritten now) (follows_published hok hbase hleft _ now) ⟨?_, ?_⟩
        · rw [PolicyLog.append_current]
          rfl
        · rw [hentries, PolicyLog.append_entries, List.reverse_append, List.reverse_singleton]
          rfl

/-! ## The databases -/

/-- What a dialect lets through: every revision in range, and every row that
follows. -/
structure Dialect.Sound (dialect : Dialect) : Prop where
  checkRevision : ∀ revision, revisionOk revision = true → dialect.checkRevision revision = .ok ()
  currentOk : ∀ row, revisionOk row.revision = true → dialect.currentOk row = true
  historyOk : ∀ row n, Follows row n → dialect.historyOk row = true

/-- The current row is the newest entry's, and the table holds the entries. -/
def PolicyTables.rep (tables : PolicyTables) (log : PolicyLog) : Prop :=
  tables.current = some { revision := log.current.revision, snapshot := log.current } ∧ tables.history = log.entries

section
variable {dialect : Dialect} {tables : PolicyTables} {log : PolicyLog}

theorem readCurrent_eq (h : tables.rep log) : tables.readCurrent dialect = .ok log.current := by
  have hok := current_ok log
  have hrevision : revisionOk log.current.revision = true := by
    rw [FeaturePolicySnapshot.ok, Bool.and_eq_true] at hok
    exact hok.2
  unfold PolicyTables.readCurrent
  rw [h.1]
  simp only [parseSnapshot, bind_eq_ok, require_eq_ok, pure_eq_ok, hrevision, Bool.true_and, beq_iff_eq]
  exact ⟨_, ⟨(), hok, rfl⟩, (), rfl, rfl⟩

theorem parseEntry_eq {n : Nat} {row : HistoryRow} (h : Follows row n) : PolicyTables.parseEntry dialect row = .ok row := by
  simp only [PolicyTables.parseEntry, bind_eq_ok, require_eq_ok, pure_eq_ok, Bool.and_eq_true, beq_iff_eq]
  refine ⟨_, h.parsed, (), ⟨?_, ?_⟩, rfl⟩
  · rw [h.snapshot, h.revision]
  · rw [h.base, h.revision, Nat.add_sub_cancel]

/-- Both writes of a publication that is let through. -/
theorem writes_eq (hsound : dialect.Sound) (h : tables.rep log) {entry : FeaturePolicyAuditEntry}
    (hbase : entry.baseRevision = log.current.revision) (hrevision : entry.revision = log.current.revision + 1)
    (hsnapshot : entry.snapshot.revision = entry.revision)
    (hfollows : Follows { entry with snapshot := dialect.order.column entry.snapshot } log.entries.length) :
    ∃ inserted next, tables.insertHistory dialect entry = .ok inserted ∧ inserted.updateCurrent dialect entry = .ok next ∧
      next.rep (log.append _ hfollows) := by
  refine ⟨{ tables with history := tables.history ++ [{ entry with snapshot := dialect.order.column entry.snapshot }] },
    { current := some { revision := entry.revision, snapshot := dialect.order.column entry.snapshot }
      history := tables.history ++ [{ entry with snapshot := dialect.order.column entry.snapshot }] }, ?_, ?_, ?_⟩
  · simp only [PolicyTables.insertHistory, bind_eq_ok, require_eq_ok, pure_eq_ok, Bool.and_eq_true, List.all_eq_true,
      bne_iff_ne]
    refine ⟨(), ⟨hsound.historyOk _ _ hfollows, ?_⟩, trivial⟩
    -- the revisions in the table are all below
    intro row hrow
    rw [h.2] at hrow
    obtain ⟨n, hn⟩ := List.mem_iff_getElem?.1 hrow
    have hbelow := (List.getElem?_eq_some_iff.1 hn).1
    have hrow := (log.linear n row hn).revision
    have hlength := log.current_revision
    omega
  · simp only [PolicyTables.updateCurrent, bind_eq_ok, require_eq_ok, pure_eq_ok]
    refine ⟨(), hsound.currentOk _ hfollows.revisionOk, ?_⟩
    rw [h.1, Option.map_some, if_pos hbase.symm]
  · constructor
    · rw [PolicyLog.append_current]
      have hcolumn : (dialect.order.column entry.snapshot).revision = entry.revision := hsnapshot
      rw [hcolumn]
    · rw [PolicyLog.append_entries, h.2]

/-- A fault is an error of the database wherever it strikes. -/
theorem unlessFault_cases (fault : Option Fault) (here : Fault) :
    unlessFault fault here = .ok () ∨ (fault ≠ none ∧ unlessFault fault here = .error storageError) := by
  unfold unlessFault require
  by_cases hfault : fault = some here
  · subst hfault
    exact .inr ⟨Option.some_ne_none _, by simp⟩
  · left
    rw [if_pos (by simpa using hfault)]

end

theorem database_refines {dialect : Dialect} (hsound : dialect.Sound) : Refines (databaseStore dialect) PolicyTables.rep := by
  constructor
  · exact ⟨rfl, rfl⟩
  · intro tables log h
    constructor
    · exact readCurrent_eq h
    · apply lookup_eq
      · intro e
        rw [h.2]
      · exact fun _ _ hfollows => parseEntry_eq hfollows
    · exact h.2
  · intro tables log input now fault h
    change Publishes (databaseStore dialect) PolicyTables.rep tables log input fault (tables.publish dialect input now fault)
    unfold PolicyTables.publish
    cases hparsed : parsePublication input with
    | error error => exact .rejected error hparsed
    | ok parsed =>
      obtain ⟨hok, -⟩ := parsePublication_eq_ok hparsed
      dsimp only
      unfold PolicyTables.publishBody
      rcases unlessFault_cases fault .read with hread | ⟨hfault, hread⟩
      swap
      · rw [hread]
        exact .failed _ hfault
      rw [hread, readCurrent_eq h]
      rcases nextEntry_cases hok hsound.checkRevision log.current now with
        ⟨hbase, hnext⟩ | ⟨hbase, hfull, error, hnext⟩ | ⟨hbase, hleft, hnext⟩
      · simp only [bind, Except.bind, hnext]
        exact .conflict parsed hparsed hbase
      · simp only [bind, Except.bind, hnext]
        exact .exhausted parsed error hparsed hbase hfull
      have hstored := follows_published hok hbase hleft dialect.order now
      obtain ⟨inserted, next, hinsert, hupdate, hrep⟩ := writes_eq hsound h hbase rfl rfl hstored
      rcases unlessFault_cases fault .insert with hinsertFault | ⟨hfault, hinsertFault⟩
      swap
      · simp only [bind, Except.bind, hnext, hinsertFault]
        exact .failed _ hfault
      rcases unlessFault_cases fault .update with hupdateFault | ⟨hfault, hupdateFault⟩
      swap
      · simp only [bind, Except.bind, hnext, hinsertFault, hinsert, hupdateFault]
        exact .failed _ hfault
      rcases unlessFault_cases fault .commit with hcommit | ⟨hfault, hcommit⟩
      swap
      · simp only [bind, Except.bind, hnext, hinsertFault, hinsert, hupdateFault, hupdate, hcommit]
        exact .failed _ hfault
      simp only [bind, Except.bind, hnext, hinsertFault, hinsert, hupdateFault, hupdate, hcommit]
      exact @Publishes.appended (databaseStore dialect) PolicyTables.rep tables log input fault parsed _ next hparsed hbase rfl
        rfl (hok.entry_parses hleft .asWritten now) hstored hrep

/-! ## The dialects -/

theorem durableObject_sound : durableObjectDialect.Sound := ⟨fun _ _ => rfl, fun _ _ => rfl, fun _ _ _ => rfl⟩

theorem sqlite_sound : sqliteDialect.Sound := ⟨fun _ _ => rfl, fun _ _ => rfl, fun _ _ _ => rfl⟩

/-- A trimmed reason has no space at either end. -/
theorem btrimmed_of_trimmed {reason : String} (h : reason = jsTrim reason) : btrimmed reason = true := by
  obtain ⟨hhead, hlast⟩ := trimList_ends reason.toList
  have hlist : trimList reason.toList = reason.toList := by
    conv_rhs => rw [h]
    rw [jsTrim, String.toList_ofList]
  rw [hlist] at hhead hlast
  simp only [btrimmed, Bool.and_eq_true, bne_iff_ne]
  constructor
  · intro hspace
    cases hhead _ hspace
  · intro hspace
    cases hlast _ hspace

theorem postgres_sound (order : KeyOrder) : (postgresDialect order).Sound := by
  refine ⟨?_, fun _ h => h, ?_⟩
  · intro revision hrevision
    exact require_eq_ok.2 hrevision
  · intro row n hfollows
    have hparsed := hfollows.parsed
    simp only [parseAuditEntry, bind_eq_ok, require_eq_ok, pure_eq_ok] at hparsed
    obtain ⟨_, -, _, -, reason, hreason, _, -, heq⟩ := hparsed
    have hsame : reason = row.reason := congrArg FeaturePolicyAuditEntry.reason heq
    subst hsame
    obtain ⟨htrimmed, hmin, hmax⟩ := parseReason_eq_ok.1 hreason
    have hlength := length_le_jsLength row.reason
    have hpos := length_pos_of_jsLength hmin
    have hrevision := hfollows.revision
    have hbase := hfollows.base
    simp only [postgresDialect, Bool.and_eq_true, decide_eq_true_eq, beq_iff_eq]
    refine ⟨⟨⟨⟨?_, hfollows.revisionOk⟩, ?_⟩, hpos, ?_⟩, btrimmed_of_trimmed htrimmed⟩
    · omega
    · omega
    · omega

end Hyeboard.FeaturePolicy
