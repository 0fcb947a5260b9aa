import Hyeboard.VnuRefresh.Reordered
import Std.Data.String.ToNat
/-!
# A principal's record as PostgreSQL rows

`apps/worker/src/node/postgres/vnu-refresh-coordinator.ts` and the tables of
`apps/worker/migrations/001_postgres_ha.sql` and `002_postgres_ha_state_constraints.sql`:
one row for the principal and one for each tombstone. `saveState` writes the
rows of every state a transition leaves, and `loadState` reads them back in
whatever order they come.
-/

namespace Hyeboard.VnuRefresh.Postgres

open JsValue

/-- A number as the driver gives it: a `bigint` as its digits, an `integer` as
a number. -/
inductive Cell where
  | digits (text : String)
  | number (value : Nat)
deriving DecidableEq

/-- `Number(value)`, `none` for `NaN`. -/
def Cell.toNumber : Cell → Option Nat
  | .digits text => text.toNat?
  | .number value => some value

/-- A row of `hyeboard_vnu_refresh_principals`. -/
structure PrincipalRow (N : Type) where
  activeAccessTokenId : Option String
  activeAccessExpiresAtMs : Option N
  activeGrantId : Option String
  activeGrantExpiresAtMs : Option N
  leaseExpiresAtMs : Option N
  refreshAttemptCount : N
  refreshWindowResetAtMs : N
  activationCount : Option N
  activationWindowResetAtMs : Option N
deriving DecidableEq

inductive TombstoneKind where
  | access | grant
deriving DecidableEq

/-- A row of `hyeboard_vnu_refresh_tombstones`. -/
structure TombstoneRow (N : Type) where
  tombstoneKind : TombstoneKind
  tombstoneId : String
  expiresAtMs : N
  linkedAccessTokenId : Option String := none
  linkedAccessExpiresAtMs : Option N := none
  linkedGrantExpiresAtMs : Option N := none
  successorAccessTokenId : Option String := none
  successorAccessExpiresAtMs : Option N := none
  successorGrantId : Option String := none
  successorGrantExpiresAtMs : Option N := none
deriving DecidableEq

def bigint (value : Nat) : Cell := .digits (toString value)

def PrincipalRow.fetched (row : PrincipalRow Nat) : PrincipalRow Cell :=
  { activeAccessTokenId := row.activeAccessTokenId
    activeAccessExpiresAtMs := row.activeAccessExpiresAtMs.map bigint
    activeGrantId := row.activeGrantId
    activeGrantExpiresAtMs := row.activeGrantExpiresAtMs.map bigint
    leaseExpiresAtMs := row.leaseExpiresAtMs.map bigint
    refreshAttemptCount := .number row.refreshAttemptCount
    refreshWindowResetAtMs := bigint row.refreshWindowResetAtMs
    activationCount := row.activationCount.map .number
    activationWindowResetAtMs := row.activationWindowResetAtMs.map bigint }

def TombstoneRow.fetched (row : TombstoneRow Nat) : TombstoneRow Cell :=
  { tombstoneKind := row.tombstoneKind
    tombstoneId := row.tombstoneId
    expiresAtMs := bigint row.expiresAtMs
    linkedAccessTokenId := row.linkedAccessTokenId
    linkedAccessExpiresAtMs := row.linkedAccessExpiresAtMs.map bigint
    linkedGrantExpiresAtMs := row.linkedGrantExpiresAtMs.map bigint
    successorAccessTokenId := row.successorAccessTokenId
    successorAccessExpiresAtMs := row.successorAccessExpiresAtMs.map bigint
    successorGrantId := row.successorGrantId
    successorGrantExpiresAtMs := row.successorGrantExpiresAtMs.map bigint }

/-! ## Constraints -/

/-- `/^[0-9a-f]{64}$/` -/
def isPrincipalKey (key : String) : Bool :=
  key.length == 64 && key.toList.all fun c => c.isDigit || ('a' ≤ c && c ≤ 'f')

/-- What a `bigint` column takes, if it is to be positive. -/
def positiveBigint (value : Nat) : Bool := 0 < value && value ≤ 0x7fffffffffffffff

/-- All four columns of a pair, well-formed, or none. -/
def pairShape (accessTokenId : Option String) (accessExpiresAtMs : Option Nat) (grantId : Option String)
    (grantExpiresAtMs : Option Nat) : Bool :=
  match accessTokenId, accessExpiresAtMs, grantId, grantExpiresAtMs with
  | none, none, none, none => true
  | some accessTokenId, some accessExpiresAtMs, some grantId, some grantExpiresAtMs =>
    isIdentifier accessTokenId && positiveBigint accessExpiresAtMs && isIdentifier grantId && positiveBigint grantExpiresAtMs
  | _, _, _, _ => false

/-- The constraints of a principal's row. -/
def PrincipalRow.accepted (key : String) (row : PrincipalRow Nat) : Bool :=
  isPrincipalKey key &&
    pairShape row.activeAccessTokenId row.activeAccessExpiresAtMs row.activeGrantId row.activeGrantExpiresAtMs &&
    row.leaseExpiresAtMs.all (fun expiresAt => positiveBigint expiresAt && row.activeAccessTokenId.isSome) &&
    row.refreshAttemptCount ≤ 5 && positiveBigint row.refreshWindowResetAtMs &&
    match row.activationCount, row.activationWindowResetAtMs with
    | none, none => true
    | some count, some resetAt => 1 ≤ count && count ≤ 5 && positiveBigint resetAt
    | _, _ => false

/-- The constraints of a tombstone's row. -/
def TombstoneRow.accepted (row : TombstoneRow Nat) : Bool :=
  isIdentifier row.tombstoneId && positiveBigint row.expiresAtMs &&
    match row.tombstoneKind with
    | .access =>
      row.linkedAccessTokenId.isNone && row.linkedAccessExpiresAtMs.isNone && row.linkedGrantExpiresAtMs.isNone &&
        row.successorAccessTokenId.isNone && row.successorAccessExpiresAtMs.isNone && row.successorGrantId.isNone &&
        row.successorGrantExpiresAtMs.isNone
    | .grant =>
      row.linkedAccessTokenId.any isIdentifier && row.linkedAccessExpiresAtMs.any positiveBigint &&
        row.linkedGrantExpiresAtMs.any positiveBigint &&
        pairShape row.successorAccessTokenId row.successorAccessExpiresAtMs row.successorGrantId row.successorGrantExpiresAtMs

/-! ## The tables -/

structure Database where
  principals : Record (PrincipalRow Nat)
  tombstones : List (String × TombstoneRow Nat)

namespace Database

def empty : Database := { principals := .empty, tombstones := [] }

def tombstonesOf (db : Database) (key : String) : List (TombstoneRow Nat) :=
  (db.tombstones.filter fun e => e.1 = key).map Prod.snd

def constraintViolated : String := "new row violates check constraint"

/-- `INSERT … ON CONFLICT (principal_key) DO UPDATE` -/
def putPrincipal (db : Database) (key : String) (row : PrincipalRow Nat) : Except String Database := do
  require constraintViolated (row.accepted key)
  return { db with principals := db.principals.set key row }

/-- `DELETE FROM hyeboard_vnu_refresh_tombstones WHERE principal_key = $1` -/
def deleteTombstones (db : Database) (key : String) : Database :=
  { db with tombstones := db.tombstones.filter fun e => e.1 ≠ key }

/-- A tombstone needs its principal's row, and its primary key free. -/
def insertTombstone (db : Database) (key : String) (row : TombstoneRow Nat) : Except String Database := do
  require constraintViolated row.accepted
  require "violates foreign key constraint" (db.principals.get? key).isSome
  require "duplicate key value violates unique constraint"
    ((db.tombstonesOf key).all fun e => e.tombstoneKind ≠ row.tombstoneKind ∨ e.tombstoneId ≠ row.tombstoneId)
  return { db with tombstones := db.tombstones ++ [(key, row)] }

/-- `DELETE FROM hyeboard_vnu_refresh_principals WHERE principal_key = $1`, which
cascades. -/
def deletePrincipal (db : Database) (key : String) : Database :=
  { principals := db.principals.delete key, tombstones := (db.deleteTombstones key).tombstones }

end Database

/-! ## Writing -/

def principalRow (state : VnuRefreshControlState) : PrincipalRow Nat :=
  { activeAccessTokenId := state.active.map (·.accessTokenId)
    activeAccessExpiresAtMs := state.active.map (·.accessExpiresAt)
    activeGrantId := state.active.map (·.grantId)
    activeGrantExpiresAtMs := state.active.map (·.grantExpiresAt)
    leaseExpiresAtMs := state.lease.map (·.expiresAt)
    refreshAttemptCount := state.window.count
    refreshWindowResetAtMs := state.window.resetAt
    activationCount := state.activationWindow.map (·.count)
    activationWindowResetAtMs := state.activationWindow.map (·.resetAt) }

def accessRow (accessTokenId : String) (expiresAt : Nat) : TombstoneRow Nat :=
  { tombstoneKind := .access, tombstoneId := accessTokenId, expiresAtMs := expiresAt }

def grantRow (grantId : String) (tombstone : LinkedGrantTombstone) : TombstoneRow Nat :=
  { tombstoneKind := .grant
    tombstoneId := grantId
    expiresAtMs := tombstone.grantExpiresAt
    linkedAccessTokenId := some tombstone.accessTokenId
    linkedAccessExpiresAtMs := some tombstone.accessExpiresAt
    linkedGrantExpiresAtMs := some tombstone.grantExpiresAt
    successorAccessTokenId := tombstone.refreshSuccessor.map (·.accessTokenId)
    successorAccessExpiresAtMs := tombstone.refreshSuccessor.map (·.accessExpiresAt)
    successorGrantId := tombstone.refreshSuccessor.map (·.grantId)
    successorGrantExpiresAtMs := tombstone.refreshSuccessor.map (·.grantExpiresAt) }

def saveState (db : Database) (key : String) (state : VnuRefreshControlState) : Except String Database := do
  let db ← db.putPrincipal key (principalRow state)
  let db := db.deleteTombstones key
  let db ← state.revokedAccess.entries.foldlM (fun db e => db.insertTombstone key (accessRow e.1 e.2)) db
  state.revokedGrants.entries.foldlM
    (fun db e =>
      match e.2 with
      | .legacy _ => .error "Legacy numeric grant tombstones cannot be persisted"
      | .linked tombstone => db.insertTombstone key (grantRow e.1 tombstone))
    db

/-! ## Reading -/

def epoch (value : Option Cell) (name : String) : Except String Nat :=
  match value.bind Cell.toNumber with
  | some result => if 0 < result ∧ result ≤ maxSafeInteger then .ok result else .error s!"Invalid PostgreSQL {name}"
  | none => .error s!"Invalid PostgreSQL {name}"

def count (value : Cell) (name : String) : Except String Nat :=
  match value.toNumber with
  | some result => if result ≤ maxSafeInteger then .ok result else .error s!"Invalid PostgreSQL {name}"
  | none => .error s!"Invalid PostgreSQL {name}"

def pairFromPrincipal (row : PrincipalRow Cell) : Except String (Option LinkedPair) :=
  match row.activeAccessTokenId, row.activeAccessExpiresAtMs, row.activeGrantId, row.activeGrantExpiresAtMs with
  | none, none, none, none => .ok none
  | some accessTokenId, some accessExpiresAtMs, some grantId, some grantExpiresAtMs => do
    let accessExpiresAt ← epoch (some accessExpiresAtMs) "access expiry"
    let grantExpiresAt ← epoch (some grantExpiresAtMs) "grant expiry"
    return some { accessTokenId, accessExpiresAt, grantId, grantExpiresAt }
  | _, _, _, _ => .error "Invalid PostgreSQL VNU authority row"

/-- The two objects the loop over the tombstones fills. -/
structure Tombstones where
  revokedAccess : Record Nat
  revokedGrants : Record RevokedGrantTombstone
deriving DecidableEq

/-- All of the successor's columns are `NULL`, or none is. -/
def TombstoneRow.successorWhole (row : TombstoneRow Cell) : Bool :=
  let nulls := [row.successorAccessTokenId.isNone, row.successorAccessExpiresAtMs.isNone, row.successorGrantId.isNone,
    row.successorGrantExpiresAtMs.isNone]
  nulls.all id || !nulls.any id

def successorFromTombstone (row : TombstoneRow Cell) : Except String (Option LinkedPair) :=
  match row.successorAccessTokenId, row.successorGrantId with
  | some accessTokenId, some grantId => do
    let accessExpiresAt ← epoch row.successorAccessExpiresAtMs "successor access expiry"
    let grantExpiresAt ← epoch row.successorGrantExpiresAtMs "successor grant expiry"
    return some { accessTokenId, accessExpiresAt, grantId, grantExpiresAt }
  | _, _ => .ok none

def readTombstone (read : Tombstones) (row : TombstoneRow Cell) : Except String Tombstones :=
  match row.tombstoneKind with
  | .access => do
    let expiresAt ← epoch (some row.expiresAtMs) "access tombstone expiry"
    return { read with revokedAccess := read.revokedAccess.set row.tombstoneId expiresAt }
  | .grant =>
    match row.linkedAccessTokenId, row.linkedAccessExpiresAtMs, row.linkedGrantExpiresAtMs with
    | some accessTokenId, some linkedAccessExpiresAtMs, some linkedGrantExpiresAtMs => do
      require "Invalid PostgreSQL VNU successor tombstone" row.successorWhole
      let accessExpiresAt ← epoch (some linkedAccessExpiresAtMs) "linked access expiry"
      let grantExpiresAt ← epoch (some linkedGrantExpiresAtMs) "linked grant expiry"
      let refreshSuccessor ← successorFromTombstone row
      let tombstone := .linked { accessTokenId, accessExpiresAt, grantExpiresAt, refreshSuccessor }
      return { read with revokedGrants := read.revokedGrants.set row.tombstoneId tombstone }
    | _, _, _ => .error "Invalid PostgreSQL VNU grant tombstone"

def activationFromPrincipal (row : PrincipalRow Cell) : Except String (Option RefreshWindow) :=
  match row.activationCount, row.activationWindowResetAtMs with
  | some activationCount, some activationWindowResetAtMs => do
    let count ← count activationCount "activation count"
    let resetAt ← epoch (some activationWindowResetAtMs) "activation window expiry"
    return some { count, resetAt }
  | _, _ => .ok none

/-- The record of a principal, from its row and those of its tombstones. -/
def recordFromRows (row : PrincipalRow Cell) (tombstones : List (TombstoneRow Cell)) :
    Except String (Option VnuRefreshControlState) := do
  let active ← pairFromPrincipal row
  let read ← tombstones.foldlM readTombstone { revokedAccess := .empty, revokedGrants := .empty }
  let lease ← row.leaseExpiresAtMs.mapM fun expiresAtMs => epoch (some expiresAtMs) "lease expiry"
  let attempts ← count row.refreshAttemptCount "refresh attempt count"
  let resetAt ← epoch (some row.refreshWindowResetAtMs) "refresh window expiry"
  let activationWindow ← activationFromPrincipal row
  let leaseToJs expiresAt : JsValue :=
    .object [("pair", (active.map LinkedPair.toJs).getD .undefined), ("expiresAt", .ofNat expiresAt)]
  parseVnuRefreshControlState (.object (optionalField "active" LinkedPair.toJs active ++
    optionalField "lease" leaseToJs lease ++
    [("revokedAccess", .object (read.revokedAccess.entries.map fun e => (e.1, .ofNat e.2))),
      ("revokedGrants", .object (read.revokedGrants.entries.map fun e => (e.1, e.2.toJs))),
      ("window", RefreshWindow.toJs { count := attempts, resetAt })] ++
    optionalField "activationWindow" RefreshWindow.toJs activationWindow))

/-- The order the rows of one `SELECT` come in, which is any. -/
structure Scan where
  rows : List (TombstoneRow Cell) → List (TombstoneRow Cell)
  perm : ∀ table, (rows table).Perm table

def loadState (db : Database) (key : String) (scan : Scan) : Except String (Option VnuRefreshControlState) :=
  match db.principals.get? key with
  | none => .ok none
  | some row => recordFromRows row.fetched (scan.rows ((db.tombstonesOf key).map TombstoneRow.fetched))

/-! ## Records the tables can hold -/

/-- A valid record, except that its active pair may be among its tombstones,
with every tombstone of a grant in the present form. -/
structure Storable (state : VnuRefreshControlState) : Prop where
  active : ∀ pair, state.active = some pair → pair.Valid
  lease_expiry : ∀ lease, state.lease = some lease → PositiveSafe lease.expiresAt
  lease_active : ∀ lease, state.lease = some lease → state.active = some lease.pair
  lease_le : ∀ lease, state.lease = some lease → lease.expiresAt ≤ lease.pair.grantExpiresAt
  access : ∀ e ∈ state.revokedAccess.entries, isIdentifier e.1 = true ∧ PositiveSafe e.2
  grants : ∀ e ∈ state.revokedGrants.entries, isIdentifier e.1 = true ∧ e.2.Valid e.1
  linked : ∀ e ∈ state.revokedGrants.entries, ∃ tombstone, e.2 = .linked tombstone
  window : state.window.Valid 0 vnuRefreshAttemptLimit
  activation : ∀ window, state.activationWindow = some window → window.Valid 1 vnuManualActivationLimit

/-- One tombstone of a record. -/
inductive Tombstone where
  | access (accessTokenId : String) (expiresAt : Nat)
  | grant (grantId : String) (tombstone : LinkedGrantTombstone)
deriving DecidableEq

namespace Tombstone

def row : Tombstone → TombstoneRow Nat
  | .access accessTokenId expiresAt => accessRow accessTokenId expiresAt
  | .grant grantId tombstone => grantRow grantId tombstone

def Valid : Tombstone → Prop
  | .access accessTokenId expiresAt => isIdentifier accessTokenId = true ∧ PositiveSafe expiresAt
  | .grant grantId tombstone => isIdentifier grantId = true ∧ (RevokedGrantTombstone.linked tombstone).Valid grantId

def accessEntry : Tombstone → Option (String × Nat)
  | .access accessTokenId expiresAt => some (accessTokenId, expiresAt)
  | .grant _ _ => none

def grantEntry : Tombstone → Option (String × RevokedGrantTombstone)
  | .access _ _ => none
  | .grant grantId tombstone => some (grantId, .linked tombstone)

/-- What the loop of `loadState` does with it. -/
def record (read : Tombstones) : Tombstone → Tombstones
  | .access accessTokenId expiresAt => { read with revokedAccess := read.revokedAccess.set accessTokenId expiresAt }
  | .grant grantId tombstone => { read with revokedGrants := read.revokedGrants.set grantId (.linked tombstone) }

/-- The tombstones of a record, in the order `saveState` writes them. -/
def all (state : VnuRefreshControlState) : List Tombstone :=
  state.revokedAccess.entries.map (fun e => .access e.1 e.2) ++
    state.revokedGrants.entries.filterMap fun e =>
      match e.2 with
      | .legacy _ => none
      | .linked tombstone => some (.grant e.1 tombstone)

end Tombstone

section
variable {state : VnuRefreshControlState} {key : String} {n : Nat}

theorem Storable.grantEntries (h : Storable state) : ∃ grants : List (String × LinkedGrantTombstone),
    state.revokedGrants.entries = grants.map fun e => (e.1, .linked e.2) := by
  have hlinked := h.linked
  generalize state.revokedGrants.entries = entries at hlinked
  induction entries with
  | nil => exact ⟨[], rfl⟩
  | cons e rest ih =>
    obtain ⟨grants, rfl⟩ := ih fun e he => hlinked e (List.mem_cons_of_mem _ he)
    obtain ⟨tombstone, htombstone⟩ := hlinked e List.mem_cons_self
    refine ⟨(e.1, tombstone) :: grants, ?_⟩
    rw [List.map_cons, ← htombstone]

theorem Storable.all_eq (h : Storable state) : ∃ grants : List (String × LinkedGrantTombstone),
    state.revokedGrants.entries = grants.map (fun e => (e.1, .linked e.2)) ∧
      Tombstone.all state =
        state.revokedAccess.entries.map (fun e => .access e.1 e.2) ++ grants.map fun e => .grant e.1 e.2 := by
  obtain ⟨grants, hgrants⟩ := h.grantEntries
  refine ⟨grants, hgrants, ?_⟩
  unfold Tombstone.all
  rw [hgrants, List.filterMap_map]
  exact congrArg _ (congrFun List.filterMap_eq_map grants)

theorem Storable.tombstone_valid (h : Storable state) : ∀ tombstone ∈ Tombstone.all state, tombstone.Valid := by
  obtain ⟨grants, hgrants, hall⟩ := h.all_eq
  intro tombstone hmem
  rw [hall, List.mem_append, List.mem_map, List.mem_map] at hmem
  rcases hmem with ⟨e, he, rfl⟩ | ⟨e, he, rfl⟩
  · exact h.access e he
  · exact h.grants (e.1, .linked e.2) (hgrants ▸ List.mem_map.2 ⟨e, he, rfl⟩)

/-- No tombstone is written under a primary key in use. -/
theorem Storable.tombstone_keys (h : Storable state) : ((Tombstone.all state).map Tombstone.row).Pairwise fun row row' =>
    row.tombstoneKind ≠ row'.tombstoneKind ∨ row.tombstoneId ≠ row'.tombstoneId := by
  obtain ⟨grants, hgrants, hall⟩ := h.all_eq
  have haccess := state.revokedAccess.nodup
  have hgrant := state.revokedGrants.nodup
  rw [hgrants, List.map_map] at hgrant
  rw [hall, List.map_append, List.map_map, List.map_map, List.pairwise_append]
  refine ⟨?_, ?_, ?_⟩
  · rw [List.pairwise_map]
    exact (List.pairwise_map.1 haccess).imp fun hne => .inr hne
  · rw [List.pairwise_map]
    exact (List.pairwise_map.1 hgrant).imp fun hne => .inr hne
  · intro row hrow row' hrow'
    obtain ⟨e, -, rfl⟩ := List.mem_map.1 hrow
    obtain ⟨e', -, rfl⟩ := List.mem_map.1 hrow'
    exact .inl nofun

/-! ## What the constraints accept -/

theorem positiveBigint_of_safe (h : PositiveSafe n) : positiveBigint n = true := by
  obtain ⟨hpos, hle⟩ := h
  unfold maxSafeInteger at hle
  unfold positiveBigint
  rw [Bool.and_eq_true, decide_eq_true_eq, decide_eq_true_eq]
  exact ⟨hpos, by omega⟩

theorem pairShape_of_valid {pair : Option LinkedPair} (h : ∀ p, pair = some p → p.Valid) :
    pairShape (pair.map (·.accessTokenId)) (pair.map (·.accessExpiresAt)) (pair.map (·.grantId))
      (pair.map (·.grantExpiresAt)) = true := by
  cases pair with
  | none => rfl
  | some pair =>
    obtain ⟨haccess, hgrant, haccessExpiry, hgrantExpiry⟩ := h pair rfl
    simp [pairShape, haccess, hgrant, positiveBigint_of_safe haccessExpiry, positiveBigint_of_safe hgrantExpiry]

theorem principalRow_accepted (h : Storable state) (hkey : isPrincipalKey key = true) :
    (principalRow state).accepted key = true := by
  have hactive := pairShape_of_valid h.active
  have hcount : state.window.count ≤ 5 := h.window.le_limit
  have hreset := positiveBigint_of_safe h.window.reset
  have hlease : (principalRow state).leaseExpiresAtMs.all
      (fun expiresAt => positiveBigint expiresAt && (principalRow state).activeAccessTokenId.isSome) = true := by
    unfold principalRow
    cases hlease : state.lease with
    | none => rfl
    | some lease =>
      rw [h.lease_active lease hlease]
      simp [positiveBigint_of_safe (h.lease_expiry lease hlease)]
  unfold PrincipalRow.accepted
  rw [hlease]
  unfold principalRow
  dsimp only
  rw [hkey, hactive, hreset]
  cases hactivation : state.activationWindow with
  | none => simp [hcount]
  | some window =>
    obtain ⟨hlow, hlimit, hreset⟩ := h.activation window hactivation
    have hlimit : window.count ≤ 5 := hlimit
    simp [hcount, hlow, hlimit, positiveBigint_of_safe hreset]

theorem Tombstone.Valid.accepted {tombstone : Tombstone} (h : tombstone.Valid) : tombstone.row.accepted = true := by
  cases tombstone with
  | access accessTokenId expiresAt =>
    obtain ⟨hid, hexpiry⟩ := h
    simp [Tombstone.row, accessRow, TombstoneRow.accepted, hid, positiveBigint_of_safe hexpiry]
  | grant grantId tombstone =>
    obtain ⟨hid, haccess, haccessExpiry, hgrantExpiry, hsuccessor, -⟩ := h
    simp [Tombstone.row, grantRow, TombstoneRow.accepted, hid, haccess, positiveBigint_of_safe haccessExpiry,
      positiveBigint_of_safe hgrantExpiry, pairShape_of_valid hsuccessor]

/-! ## What is written -/

/-- A loop of inserts under keys that are free. -/
theorem insertTombstones (db : Database) {rows : List (TombstoneRow Nat)} (hprincipal : (db.principals.get? key).isSome = true)
    (haccepted : ∀ row ∈ rows, row.accepted = true)
    (hkeys : (db.tombstonesOf key ++ rows).Pairwise fun row row' =>
      row.tombstoneKind ≠ row'.tombstoneKind ∨ row.tombstoneId ≠ row'.tombstoneId) :
    rows.foldlM (fun db row => db.insertTombstone key row) db =
      .ok { db with tombstones := db.tombstones ++ rows.map (key, ·) } := by
  induction rows generalizing db with
  | nil => simp [pure, Except.pure]
  | cons row rest ih =>
    rw [List.forall_mem_cons] at haccepted
    have hfree : ((db.tombstonesOf key).all fun e => e.tombstoneKind ≠ row.tombstoneKind ∨ e.tombstoneId ≠ row.tombstoneId) =
        true := by
      rw [List.all_eq_true]
      intro e he
      rw [decide_eq_true_eq]
      exact (List.pairwise_append.1 hkeys).2.2 e he row List.mem_cons_self
    have hinsert : db.insertTombstone key row = .ok { db with tombstones := db.tombstones ++ [(key, row)] } := by
      simp only [Database.insertTombstone, haccepted.1, hprincipal, hfree]
      rfl
    have hrows : (Database.mk db.principals (db.tombstones ++ [(key, row)])).tombstonesOf key = db.tombstonesOf key ++ [row] := by
      simp [Database.tombstonesOf]
    rw [List.foldlM_cons, hinsert]
    have hrest := ih ⟨db.principals, db.tombstones ++ [(key, row)]⟩ hprincipal haccepted.2 (by rw [hrows, List.append_assoc]; exact hkeys)
    refine hrest.trans ?_
    simp

theorem tombstonesOf_delete (db : Database) (key other : String) :
    (db.deleteTombstones key).tombstonesOf other = if other = key then [] else db.tombstonesOf other := by
  unfold Database.tombstonesOf Database.deleteTombstones
  simp only [List.filter_filter]
  split
  case isTrue heq =>
    subst heq
    simp
  case isFalse hne =>
    congr 1
    apply List.filter_congr
    rintro ⟨owner, row⟩ -
    by_cases howner : owner = other
    · simp [howner, hne]
    · simp [howner]

/-- The rows of a storable record are all accepted, in place of those that were there. -/
theorem saveState_ok (db : Database) (h : Storable state) (hkey : isPrincipalKey key = true) :
    saveState db key state = .ok
      { principals := db.principals.set key (principalRow state)
        tombstones := (db.deleteTombstones key).tombstones ++ (Tombstone.all state).map fun tombstone => (key, tombstone.row) } := by
  obtain ⟨grants, hgrants, hall⟩ := h.all_eq
  -- the two loops are one, over all the tombstones
  have hloops : ∀ db : Database, (do
      let db ← state.revokedAccess.entries.foldlM (fun db e => db.insertTombstone key (accessRow e.1 e.2)) db
      state.revokedGrants.entries.foldlM
        (fun db e =>
          match e.2 with
          | .legacy _ => .error "Legacy numeric grant tombstones cannot be persisted"
          | .linked tombstone => db.insertTombstone key (grantRow e.1 tombstone))
        db : Except String Database) =
      ((Tombstone.all state).map Tombstone.row).foldlM (fun db row => db.insertTombstone key row) db := by
    intro db
    rw [hall, hgrants, List.map_append, List.foldlM_append, List.map_map, List.map_map]
    simp only [List.foldlM_map]
    rfl
  have hput : db.putPrincipal key (principalRow state) = .ok { db with principals := db.principals.set key (principalRow state) } := by
    simp only [Database.putPrincipal, principalRow_accepted h hkey]
    rfl
  unfold saveState
  rw [hput]
  show (do
    let db ← state.revokedAccess.entries.foldlM _ _
    state.revokedGrants.entries.foldlM _ db : Except String Database) = _
  rw [hloops, insertTombstones]
  · simp [Database.deleteTombstones, Function.comp_def]
  · simp [Database.deleteTombstones]
  · intro row hrow
    obtain ⟨tombstone, hmem, rfl⟩ := List.mem_map.1 hrow
    exact (h.tombstone_valid tombstone hmem).accepted
  · rw [tombstonesOf_delete, if_pos rfl, List.nil_append]
    exact h.tombstone_keys

/-! ## What is read back -/

theorem epoch_bigint (h : PositiveSafe n) (name : String) : epoch (some (bigint n)) name = .ok n := by
  have hnumber : (bigint n).toNumber = some n := Nat.toNat?_repr n
  unfold epoch
  rw [Option.bind_some, hnumber]
  exact if_pos h

theorem count_number (h : n ≤ maxSafeInteger) (name : String) : count (.number n) name = .ok n := if_pos h

theorem pairFromPrincipal_row (h : Storable state) : pairFromPrincipal (principalRow state).fetched = .ok state.active := by
  unfold pairFromPrincipal principalRow PrincipalRow.fetched
  cases hactive : state.active with
  | none => rfl
  | some pair =>
    have hpair := h.active pair hactive
    simp only [Option.map_some, epoch_bigint hpair.access_expiry, epoch_bigint hpair.grant_expiry]
    rfl

theorem activationFromPrincipal_row (h : Storable state) :
    activationFromPrincipal (principalRow state).fetched = .ok state.activationWindow := by
  unfold activationFromPrincipal principalRow PrincipalRow.fetched
  cases hactivation : state.activationWindow with
  | none => rfl
  | some window =>
    obtain ⟨-, hlimit, hreset⟩ := h.activation window hactivation
    simp only [Option.map_some, epoch_bigint hreset, count_number (Nat.le_trans hlimit activationLimit_le)]
    rfl

theorem lease_row (h : Storable state) :
    ((principalRow state).fetched.leaseExpiresAtMs.mapM fun expiresAtMs => epoch (some expiresAtMs) "lease expiry") =
      .ok (state.lease.map (·.expiresAt)) := by
  unfold principalRow PrincipalRow.fetched
  cases hlease : state.lease with
  | none => rfl
  | some lease =>
    simp only [Option.map_some, Option.mapM_some, epoch_bigint (h.lease_expiry lease hlease)]
    rfl

theorem successorFromTombstone_row (grantId : String) (tombstone : LinkedGrantTombstone)
    (h : ∀ successor, tombstone.refreshSuccessor = some successor → successor.Valid) :
    successorFromTombstone (grantRow grantId tombstone).fetched = .ok tombstone.refreshSuccessor := by
  unfold successorFromTombstone grantRow TombstoneRow.fetched
  cases hsuccessor : tombstone.refreshSuccessor with
  | none => rfl
  | some successor =>
    have hpair := h successor hsuccessor
    simp only [Option.map_some, epoch_bigint hpair.access_expiry, epoch_bigint hpair.grant_expiry]
    rfl

theorem successorWhole_row (grantId : String) (tombstone : LinkedGrantTombstone) :
    (grantRow grantId tombstone).fetched.successorWhole = true := by
  unfold TombstoneRow.successorWhole grantRow TombstoneRow.fetched
  cases tombstone.refreshSuccessor <;> rfl

theorem readTombstone_row {tombstone : Tombstone} (h : tombstone.Valid) (read : Tombstones) :
    readTombstone read tombstone.row.fetched = .ok (tombstone.record read) := by
  cases tombstone with
  | access accessTokenId expiresAt =>
    show (epoch (some (bigint expiresAt)) _ >>= _) = _
    rw [epoch_bigint h.2]
    rfl
  | grant grantId tombstone =>
    obtain ⟨-, -, haccess, hgrant, hsuccessor, -⟩ := h
    show (require _ (grantRow grantId tombstone).fetched.successorWhole >>= fun _ =>
      epoch (some (bigint tombstone.accessExpiresAt)) _ >>= fun _ => epoch (some (bigint tombstone.grantExpiresAt)) _ >>= fun _ =>
        successorFromTombstone (grantRow grantId tombstone).fetched >>= _) = _
    rw [successorWhole_row, epoch_bigint haccess, epoch_bigint hgrant, successorFromTombstone_row grantId tombstone hsuccessor]
    rfl

theorem readTombstones_rows {tombstones : List Tombstone} (h : ∀ tombstone ∈ tombstones, tombstone.Valid) (read : Tombstones) :
    (tombstones.map fun tombstone => tombstone.row.fetched).foldlM readTombstone read =
      .ok (tombstones.foldl Tombstone.record read) := by
  induction tombstones generalizing read with
  | nil => rfl
  | cons tombstone rest ih =>
    rw [List.forall_mem_cons] at h
    rw [List.map_cons, List.foldlM_cons, readTombstone_row h.1]
    exact ih h.2 _

/-- Each kind of tombstone fills its own object. -/
theorem foldl_record (tombstones : List Tombstone) (read : Tombstones) : tombstones.foldl Tombstone.record read =
    { revokedAccess := (tombstones.filterMap Tombstone.accessEntry).foldl (fun r e => r.set e.1 e.2) read.revokedAccess
      revokedGrants := (tombstones.filterMap Tombstone.grantEntry).foldl (fun r e => r.set e.1 e.2) read.revokedGrants } := by
  induction tombstones generalizing read with
  | nil => rfl
  | cons tombstone rest ih =>
    rw [List.foldl_cons, ih]
    cases tombstone <;> rfl

theorem ofList_equiv {α : Type} {r : Record α} {entries : List (String × α)} (h : entries.Perm r.entries) :
    (Record.ofList entries).Equiv r := by
  have hnodup : (entries.map Prod.fst).Nodup := (h.map Prod.fst).nodup_iff.2 r.nodup
  have hentries : (Record.ofList entries).entries = entries :=
    Record.entries_foldl_set entries .empty (by simpa [Record.empty] using hnodup)
  rw [Record.equiv_iff_perm, hentries]
  exact h

theorem Storable.accessEntries (h : Storable state) :
    (Tombstone.all state).filterMap Tombstone.accessEntry = state.revokedAccess.entries := by
  obtain ⟨grants, -, hall⟩ := h.all_eq
  rw [hall, List.filterMap_append, List.filterMap_map, List.filterMap_map]
  have hnone : ∀ grants : List (String × LinkedGrantTombstone),
      grants.filterMap (Tombstone.accessEntry ∘ fun e => .grant e.1 e.2) = [] := by
    intro grants
    rw [List.filterMap_eq_nil_iff]
    intro e he
    rfl
  rw [hnone, List.append_nil]
  exact List.filterMap_some

theorem Storable.grantEntries_all (h : Storable state) :
    (Tombstone.all state).filterMap Tombstone.grantEntry = state.revokedGrants.entries := by
  obtain ⟨grants, hgrants, hall⟩ := h.all_eq
  rw [hall, hgrants, List.filterMap_append, List.filterMap_map, List.filterMap_map]
  have hnone : state.revokedAccess.entries.filterMap (Tombstone.grantEntry ∘ fun e => .access e.1 e.2) = [] := by
    rw [List.filterMap_eq_nil_iff]
    intro e he
    rfl
  rw [hnone, List.nil_append]
  exact congrFun List.filterMap_eq_map grants

/-- A reordering of encoded rows is the encoding of a reordering. -/
theorem perm_of_map {α β : Type} (f : α → β) {rows : List β} {l : List α} (h : rows.Perm (l.map f)) :
    ∃ l' : List α, rows = l'.map f ∧ l'.Perm l := by
  have hrows : List.Forall₂ (fun row a => row = f a) (l.map f) l := by
    rw [List.forall₂_map_left_iff, List.forall₂_same]
    exact fun _ _ => rfl
  obtain ⟨l', hl', hperm⟩ := List.perm_comp_forall₂ h hrows
  refine ⟨l', ?_, hperm⟩
  clear h hrows hperm
  induction hl' with
  | nil => rfl
  | cons heq _ ih => rw [List.map_cons, heq, ih]

/-- Whatever the order, the record comes back, if it is valid. -/
theorem recordFromRows_eq_ok (h : Storable state) {rows : List (TombstoneRow Cell)}
    (hrows : rows.Perm ((Tombstone.all state).map fun tombstone => tombstone.row.fetched)) :
    ∃ read, Reordered read state ∧
      recordFromRows (principalRow state).fetched rows = parseVnuRefreshControlState read.toJs := by
  obtain ⟨tombstones, rfl, hperm⟩ := perm_of_map _ hrows
  have hvalid : ∀ tombstone ∈ tombstones, tombstone.Valid := fun tombstone hmem =>
    h.tombstone_valid tombstone (hperm.mem_iff.1 hmem)
  have haccess := ofList_equiv (h.accessEntries ▸ hperm.filterMap Tombstone.accessEntry)
  have hgrants := ofList_equiv (h.grantEntries_all ▸ hperm.filterMap Tombstone.grantEntry)
  refine ⟨{ state with
      revokedAccess := .ofList (tombstones.filterMap Tombstone.accessEntry)
      revokedGrants := .ofList (tombstones.filterMap Tombstone.grantEntry) }, ⟨rfl, rfl, haccess, hgrants, rfl, rfl⟩, ?_⟩
  have hattempts : count (principalRow state).fetched.refreshAttemptCount "refresh attempt count" = .ok state.window.count :=
    count_number (Nat.le_trans h.window.le_limit attemptLimit_le) _
  have hreset : epoch (some (principalRow state).fetched.refreshWindowResetAtMs) "refresh window expiry" =
      .ok state.window.resetAt := epoch_bigint h.window.reset _
  unfold recordFromRows
  rw [pairFromPrincipal_row h, readTombstones_rows hvalid, foldl_record, lease_row h, hattempts, hreset,
    activationFromPrincipal_row h]
  dsimp only [bind, Except.bind]
  apply congrArg
  unfold VnuRefreshControlState.toJs
  -- the lease is for the active pair, whose columns it shares
  cases hlease : state.lease with
  | none => rfl
  | some lease =>
    rw [h.lease_active lease hlease]
    rfl

end

end Hyeboard.VnuRefresh.Postgres
