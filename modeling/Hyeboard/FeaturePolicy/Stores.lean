import Hyeboard.FeaturePolicy.Schema
/-!
# The four policy stores

`apps/worker/src/policy/feature-policy-store.ts` (in memory),
`feature-policy-durable-object.ts`, `node/postgres/feature-policy-store.ts` and
`node/sqlite/feature-policy-store.ts`. The three databases keep a row for the
current policy and a table of revisions, and publish in one transaction, which
a throw rolls back; they differ in a few checks and in how a JSON column keeps
the order of keys.
-/

namespace Hyeboard.FeaturePolicy

/-- Where a call to the database may fail. -/
inductive Fault where
  | read
  | insert
  | update
  | commit
deriving DecidableEq, Repr

def storageError : PolicyError := .error "database error"

def unlessFault (fault : Option Fault) (here : Fault) : Except PolicyError Unit :=
  require storageError (fault != some here)

def policyConflict (currentRevision : Nat) : PolicyError :=
  .hyeboard "ADMIN_POLICY_CONFLICT" "Feature policy changed before publication." 409
    [("currentRevision", .number currentRevision)]

/-- The entry a parsed publication makes on top of `current`, which every store
builds alike. -/
def nextEntry (checkRevision : Nat → Except PolicyError Unit) (current : FeaturePolicySnapshot)
    (parsed : PublishFeaturePolicyInput) (now : Nat) : Except PolicyError FeaturePolicyAuditEntry := do
  require (policyConflict current.revision) (parsed.baseRevision == current.revision)
  let revision := current.revision + 1
  checkRevision revision
  parseAuditEntry
    { revision, baseRevision := parsed.baseRevision, actor := parsed.actor, reason := parsed.reason, publishedAt := now
      snapshot := { parsed.policy with revision } }

/-! ## `MemoryFeaturePolicyStore` -/

/-- The entries, newest first. -/
structure MemoryStore where
  snapshot : FeaturePolicySnapshot
  entries : List FeaturePolicyAuditEntry
deriving DecidableEq

namespace MemoryStore

def init : MemoryStore := { snapshot := { emptyPolicy with revision := 0 }, entries := [] }

/-- `serialized` runs the whole action before the next one. -/
def publish (store : MemoryStore) (input : PublishFeaturePolicyInput) (now : Nat) :
    Except PolicyError FeaturePolicyAuditEntry × MemoryStore :=
  match (do
    let parsed ← parsePublication input
    nextEntry (fun _ => .ok ()) store.snapshot parsed now) with
  | .error error => (.error error, store)
  | .ok entry => (.ok entry, { snapshot := entry.snapshot, entries := entry :: store.entries })

def current (store : MemoryStore) : Except PolicyError FeaturePolicySnapshot := parseSnapshot store.snapshot

def revision (store : MemoryStore) (revision : Nat) : Except PolicyError (Option FeaturePolicyAuditEntry) :=
  if !revisionOk revision || revision == 0 then .ok none
  else
    match store.entries.find? (·.revision == revision) with
    | none => .ok none
    | some entry => some <$> parseAuditEntry entry

end MemoryStore

/-! ## The databases -/

/-- The order in which a JSON column keeps the keys of objects: a text column
as they were written, PostgreSQL's `jsonb` in an order of its own. -/
structure KeyOrder where
  arrange : FeaturePolicyContent → FeaturePolicyContent
  fixed : ∀ policy, arrange (arrange policy) = arrange policy
  ok : ∀ policy, policy.ok = true → (arrange policy).ok = true

def KeyOrder.asWritten : KeyOrder := { arrange := id, fixed := fun _ => rfl, ok := fun _ => id }

/-- The snapshot a column gives back. -/
def KeyOrder.column (order : KeyOrder) (snapshot : FeaturePolicySnapshot) : FeaturePolicySnapshot :=
  { order.arrange snapshot.toFeaturePolicyContent with revision := snapshot.revision }

structure CurrentRow where
  revision : Nat
  snapshot : FeaturePolicySnapshot
deriving DecidableEq

/-- The columns of a history row are the fields of its entry. -/
abbrev HistoryRow := FeaturePolicyAuditEntry

/-- `feature_policy_current` and `feature_policy_history`, in order of insertion. -/
structure PolicyTables where
  current : Option CurrentRow
  history : List HistoryRow
deriving DecidableEq

/-- Both tables as they are created, with the row the store or the migration
inserts. -/
def PolicyTables.init : PolicyTables :=
  { current := some { revision := 0, snapshot := { emptyPolicy with revision := 0 } }, history := [] }

/-- What the databases do not have in common. -/
structure Dialect where
  name : String
  order : KeyOrder
  checkRevision : Nat → Except PolicyError Unit
  /-- The CHECK constraints. -/
  currentOk : CurrentRow → Bool
  historyOk : HistoryRow → Bool

namespace PolicyTables
variable (dialect : Dialect) (tables : PolicyTables)

/-- `readCurrent`, `current`, `parseCurrent`. -/
def readCurrent : Except PolicyError FeaturePolicySnapshot :=
  match tables.current with
  | none => .error (.error ("Missing " ++ dialect.name ++ " feature policy current row"))
  | some row => do
    let snapshot ← parseSnapshot row.snapshot
    require (.error ("Invalid " ++ dialect.name ++ " feature policy current row"))
      (revisionOk row.revision && snapshot.revision == row.revision)
    return snapshot

/-- INSERT INTO feature_policy_history: `revision` is the primary key. -/
def insertHistory (entry : FeaturePolicyAuditEntry) : Except PolicyError PolicyTables := do
  let row : HistoryRow := { entry with snapshot := dialect.order.column entry.snapshot }
  require storageError (dialect.historyOk row && tables.history.all (·.revision != row.revision))
  return { tables with history := tables.history ++ [row] }

/-- UPDATE feature_policy_current ... WHERE revision = base. -/
def updateCurrent (entry : FeaturePolicyAuditEntry) : Except PolicyError PolicyTables := do
  let row : CurrentRow := { revision := entry.revision, snapshot := dialect.order.column entry.snapshot }
  require storageError (dialect.currentOk row)
  return { tables with
    current := tables.current.map fun old => if old.revision = entry.baseRevision then row else old }

/-- The body of the transaction. -/
def publishBody (parsed : PublishFeaturePolicyInput) (now : Nat) (fault : Option Fault) :
    Except PolicyError (FeaturePolicyAuditEntry × PolicyTables) := do
  unlessFault fault .read
  let current ← tables.readCurrent dialect
  let entry ← nextEntry dialect.checkRevision current parsed now
  unlessFault fault .insert
  let tables ← tables.insertHistory dialect entry
  unlessFault fault .update
  let tables ← tables.updateCurrent dialect entry
  unlessFault fault .commit
  return (entry, tables)

def publish (input : PublishFeaturePolicyInput) (now : Nat) (fault : Option Fault) :
    Except PolicyError FeaturePolicyAuditEntry × PolicyTables :=
  match parsePublication input with
  | .error error => (.error error, tables)
  | .ok parsed =>
    match tables.publishBody dialect parsed now fault with
    | .error error => (.error error, tables)
    | .ok (entry, next) => (.ok entry, next)

/-- `parseEntry`. -/
def parseEntry (row : HistoryRow) : Except PolicyError FeaturePolicyAuditEntry := do
  let entry ← parseAuditEntry row
  require (.error ("Invalid " ++ dialect.name ++ " feature policy history row"))
    (entry.snapshot.revision == entry.revision && entry.baseRevision == entry.revision - 1)
  return entry

def revision (revision : Nat) : Except PolicyError (Option FeaturePolicyAuditEntry) :=
  if !revisionOk revision || revision == 0 then .ok none
  else
    match tables.history.find? (·.revision == revision) with
    | none => .ok none
    | some row => some <$> parseEntry dialect row

end PolicyTables

/-- `FeaturePolicyDurableObject`. -/
def durableObjectDialect : Dialect :=
  { name := "Durable Object", order := .asWritten, checkRevision := fun _ => .ok (), currentOk := fun _ => true
    historyOk := fun _ => true }

/-- `SqliteFeaturePolicyStore`. -/
def sqliteDialect : Dialect :=
  { name := "SQLite", order := .asWritten, checkRevision := fun _ => .ok (), currentOk := fun _ => true
    historyOk := fun _ => true }

/-- `reason = btrim(reason)`: no space at either end. -/
def btrimmed (reason : String) : Bool := reason.toList.head? != some ' ' && reason.toList.getLast? != some ' '

/-- `PostgresFeaturePolicyStore`, over the tables of `003_feature_policy.sql`. -/
def postgresDialect (order : KeyOrder) : Dialect :=
  { name := "PostgreSQL"
    order
    checkRevision := fun revision =>
      require (.error "PostgreSQL feature policy revision exceeds the supported range") (revisionOk revision)
    currentOk := fun row => revisionOk row.revision
    historyOk := fun row =>
      1 ≤ row.revision && revisionOk row.revision && row.baseRevision == row.revision - 1 &&
        (1 ≤ row.reason.length && row.reason.length ≤ 500) && btrimmed row.reason }

end Hyeboard.FeaturePolicy
