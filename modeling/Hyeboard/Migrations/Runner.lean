import Mathlib.Data.List.Nodup
import Mathlib.Data.List.Sort
import Mathlib.Logic.Function.Basic
import Hyeboard.Lib.JsString
import Hyeboard.Lib.JsValue
import Hyeboard.Lib.Runs
/-!
# PostgreSQL migrations

`apps/worker/src/node/postgres/migrations.ts`: every replica that starts applies
the migrations of its own directory to the one database, under one advisory
lock. Replicas of different releases start in any order, their connections drop
at any point, and an answer to `COMMIT` may be lost.
-/

namespace Hyeboard.Migrations

structure MigrationFile where
  version : Nat
  name : String
  sql : String
  checksum : String
deriving DecidableEq

/-- A row of `hyeboard_schema_migrations`. -/
@[ext]
structure AppliedMigration where
  version : Nat
  name : String
  checksum : String
deriving DecidableEq

def MigrationFile.applied (migration : MigrationFile) : AppliedMigration :=
  { version := migration.version, name := migration.name, checksum := migration.checksum }

/-! ## The directory -/

def isStemChar (c : Char) : Bool := c.isAlphanum || c == '_' || c == '-'

/-- The version in a name that matches `/^(\d+)_([a-z0-9_-]+)\.sql$/i`. -/
def migrationVersion (name : String) : Option Nat :=
  let digits := name.toList.takeWhile Char.isDigit
  match name.toList.dropWhile Char.isDigit with
  | '_' :: rest =>
    let stem := rest.take (rest.length - 4)
    let extension := rest.drop (rest.length - 4)
    if digits ≠ [] ∧ stem ≠ [] ∧ stem.all isStemChar ∧ extension.map Char.toLower = ['.', 's', 'q', 'l'] then
      some (digits.foldl (fun n c => 10 * n + (c.toNat - '0'.toNat)) 0)
    else none
  | _ => none

/-- A directory: the names in it, each with its text. -/
abbrev Directory := List (String × String)

section
-- `sha256` in hex, and `left.localeCompare(right) <= 0`
variable (digest : String → String) (localeLe : String → String → Bool)

def sortedNames (directory : Directory) : Directory :=
  (directory.filter fun e => (migrationVersion e.1).isSome).insertionSort fun left right =>
    (migrationVersion left.1).getD 0 < (migrationVersion right.1).getD 0 ∨
      migrationVersion left.1 = migrationVersion right.1 ∧ localeLe left.1 right.1

def loadMigrationFile (e : String × String) : Except String MigrationFile := do
  let version := (migrationVersion e.1).getD 0
  require s!"Invalid migration version: {e.1}" (1 ≤ version && version ≤ maxSafeInteger)
  require s!"Empty migration: {e.1}" (jsTrim e.2 != "")
  return { version, name := e.1, sql := e.2, checksum := digest e.2 }

/-- The loop over a set of versions. -/
def assertDistinct (versions : List Nat) : List MigrationFile → Except String Unit
  | [] => .ok ()
  | migration :: rest => do
    require s!"Duplicate migration version: {migration.version}" (migration.version ∉ versions)
    assertDistinct (versions ++ [migration.version]) rest

def loadMigrationFiles (directory : Directory) : Except String (List MigrationFile) := do
  let migrations ← (sortedNames localeLe directory).mapM (loadMigrationFile digest)
  assertDistinct [] migrations
  return migrations

end

/-! ## One call -/

/-- The database: what the migrations change, and the rows of their table, none
before the first call creates it. -/
structure Database (Schema : Type) where
  schema : Schema
  migrations : List AppliedMigration

/-- A call of `runPostgresMigrations`. -/
inductive Phase (Schema : Type) where
  | idle
  /-- It waits for the lock. -/
  | waiting (migrations : List MigrationFile)
  | locked (migrations : List MigrationFile)
  /-- In the loop, with `todo` to go and the rows it has read. -/
  | migrating (migrations todo : List MigrationFile) (applied : List AppliedMigration)
  /-- `COMMIT` is next: the SQL of `migration` has run, to `pending`, and its row is in. -/
  | inTransaction (migrations : List MigrationFile) (migration : MigrationFile) (todo : List MigrationFile)
      (applied : List AppliedMigration) (pending : Schema)
  | returned (migrations : List MigrationFile)
  | threw (error : String)

/-- The first row, by version, that no file is there for. -/
def missingLocally (migrations : List MigrationFile) (rows : List AppliedMigration) : Option AppliedMigration :=
  (rows.insertionSort fun left right => left.version ≤ right.version).find? fun row =>
    ! migrations.any fun migration => migration.version == row.version

structure System (Schema : Type) where
  db : Database Schema
  holder : Option Nat
  phase : Nat → Phase Schema

inductive Action where
  | start (id : Nat) (directory : Directory)
  | acquire (id : Nat)
  | read (id : Nat)
  /-- The next turn of the loop, or its end. -/
  | next (id : Nat)
  /-- `COMMIT` is done; whether the call learns it. -/
  | commit (id : Nat) (answered : Bool)
  /-- A statement fails or the connection is lost, and with it the lock and what
  is not committed. -/
  | drop (id : Nat)

namespace System
variable {Schema : Type}

def start (schema : Schema) : System Schema :=
  { db := { schema, migrations := [] }, holder := none, phase := fun _ => .idle }

def enter (s : System Schema) (id : Nat) (phase : Phase Schema) : System Schema :=
  { s with phase := Function.update s.phase id phase }

/-- The call ends, and lets go of the lock if it has it. -/
def leave (s : System Schema) (id : Nat) (phase : Phase Schema) : System Schema :=
  { s with
    holder := if s.holder = some id then none else s.holder
    phase := Function.update s.phase id phase }

end System

def connectionLost : String := "PostgreSQL migration connection is not reusable"

section
variable {Schema : Type} (digest : String → String) (localeLe : String → String → Bool)
  (execute : String → Schema → Except String Schema)

/-- One turn of the loop, or the return behind it. -/
def advance (s : System Schema) (id : Nat) (migrations todo : List MigrationFile) (applied : List AppliedMigration) :
    System Schema :=
  match todo with
  | [] => s.leave id (.returned migrations)
  | migration :: todo =>
    match applied.find? fun row => row.version == migration.version with
    | some previous =>
      if previous.name ≠ migration.name ∨ previous.checksum ≠ migration.checksum then
        s.leave id (.threw s!"Migration checksum mismatch: {migration.name}")
      else s.enter id (.migrating migrations todo applied)
    | none =>
      match execute migration.sql s.db.schema with
      | .error error => s.leave id (.threw error)
      | .ok pending =>
        -- the version is the table's primary key
        if migration.version ∈ s.db.migrations.map (·.version) then s.leave id (.threw "duplicate key value")
        else s.enter id (.inTransaction migrations migration todo applied pending)

/-- An action out of turn changes nothing. A commit shows the migration it
committed. -/
def step (s : System Schema) : Action → Option MigrationFile × System Schema
  | .start id directory =>
    match s.phase id with
    | .idle =>
      match loadMigrationFiles digest localeLe directory with
      | .ok migrations => (none, s.enter id (.waiting migrations))
      | .error error => (none, s.enter id (.threw error))
    | _ => (none, s)
  | .acquire id =>
    match s.phase id, s.holder with
    | .waiting migrations, none => (none, { s.enter id (.locked migrations) with holder := some id })
    | _, _ => (none, s)
  | .read id =>
    match s.phase id with
    | .locked migrations =>
      match missingLocally migrations s.db.migrations with
      | some row => (none, s.leave id (.threw s!"Applied migration is missing locally: {row.version}"))
      | none => (none, s.enter id (.migrating migrations migrations s.db.migrations))
    | _ => (none, s)
  | .next id =>
    match s.phase id with
    | .migrating migrations todo applied => (none, advance execute s id migrations todo applied)
    | _ => (none, s)
  | .commit id answered =>
    match s.phase id with
    | .inTransaction migrations migration todo applied pending =>
      let committed : Database Schema := { schema := pending, migrations := s.db.migrations ++ [migration.applied] }
      let s := { s with db := committed }
      (some migration,
        if answered then s.enter id (.migrating migrations todo applied) else s.leave id (.threw connectionLost))
    | _ => (none, s)
  | .drop id =>
    match s.phase id with
    | .waiting _ | .locked _ | .migrating _ _ _ | .inTransaction _ _ _ _ _ => (none, s.leave id (.threw connectionLost))
    | _ => (none, s)

/-- The runs of any number of calls over one database. -/
abbrev MigrationRun (schema : Schema) := Run (step digest localeLe execute) (fun _ => 0) (fun _ _ _ => True) (System.start schema)

abbrev MigrationStep (Schema : Type) := Step (System Schema) Action (Option MigrationFile)

/-- What has been committed, in order. -/
def committed (trace : List (MigrationStep Schema)) : List MigrationFile := trace.filterMap (·.result)

end

/-! ## What a loaded directory holds -/

/-- One file for each version, and the checksum of its text. -/
structure Loaded (digest : String → String) (migrations : List MigrationFile) : Prop where
  distinct : (migrations.map (·.version)).Nodup
  checksums : ∀ migration ∈ migrations, migration.checksum = digest migration.sql

theorem assertDistinct_eq_ok {versions : List Nat} {migrations : List MigrationFile} {u : Unit}
    (h : assertDistinct versions migrations = .ok u) :
    (migrations.map (·.version)).Nodup ∧ ∀ migration ∈ migrations, migration.version ∉ versions := by
  induction migrations generalizing versions with
  | nil => simp
  | cons migration rest ih =>
    simp only [assertDistinct, bind_eq_ok, require_eq_ok, decide_eq_true_eq] at h
    obtain ⟨_, hnew, h⟩ := h
    obtain ⟨hnodup, hfresh⟩ := ih h
    simp only [List.mem_append, List.mem_singleton, not_or] at hfresh
    rw [List.map_cons, List.nodup_cons, List.forall_mem_cons]
    refine ⟨⟨fun hmem => ?_, hnodup⟩, hnew, fun m hm => (hfresh m hm).1⟩
    obtain ⟨m, hm, hversion⟩ := List.mem_map.1 hmem
    exact (hfresh m hm).2 hversion

theorem loadMigrationFiles_loaded {digest : String → String} {localeLe : String → String → Bool} {directory : Directory}
    {migrations : List MigrationFile} (h : loadMigrationFiles digest localeLe directory = .ok migrations) :
    Loaded digest migrations := by
  simp only [loadMigrationFiles, bind_eq_ok, pure_eq_ok] at h
  obtain ⟨loaded, hloaded, u, hdistinct, rfl⟩ := h
  refine ⟨(assertDistinct_eq_ok hdistinct).1, ?_⟩
  rw [mapM_eq_ok] at hloaded
  clear hdistinct
  generalize sortedNames localeLe directory = names at hloaded
  induction hloaded with
  | nil => simp
  | cons he _ ih =>
    simp only [loadMigrationFile, bind_eq_ok, pure_eq_ok] at he
    obtain ⟨_, -, _, -, rfl⟩ := he
    exact List.forall_mem_cons.2 ⟨rfl, ih⟩

theorem missingLocally_eq_none {migrations : List MigrationFile} {rows : List AppliedMigration}
    (h : missingLocally migrations rows = none) {row : AppliedMigration} (hrow : row ∈ rows) :
    ∃ migration ∈ migrations, migration.version = row.version := by
  have hfound := List.find?_eq_none.1 h row ((List.mem_insertionSort _).2 hrow)
  simpa using hfound

/-! ## The invariant -/

/-- A call in its loop: what is behind it is applied, and no row is unknown to
it. -/
def Halfway (rows : List AppliedMigration) (migrations todo : List MigrationFile) : Prop :=
  (∃ behind, migrations = behind ++ todo ∧ ∀ migration ∈ behind, migration.applied ∈ rows) ∧
    ∀ row ∈ rows, ∃ migration ∈ migrations, migration.version = row.version

/-- When `count` migrations had been committed, the rows were those of
`migrations`. -/
def Complete (log : List MigrationFile) (migrations : List MigrationFile) : Prop :=
  ∃ count ≤ log.length, (migrations.map MigrationFile.applied).Perm ((log.take count).map MigrationFile.applied)

section
variable {Schema : Type} (digest : String → String) (execute : String → Schema → Except String Schema)

/-- What holds of a call, which has the lock or not. -/
def Phase.Ok (log : List MigrationFile) (db : Database Schema) (holds : Prop) : Phase Schema → Prop
  | .idle => ¬ holds
  | .waiting migrations => ¬ holds ∧ Loaded digest migrations
  | .locked migrations => holds ∧ Loaded digest migrations
  | .migrating migrations todo applied =>
    holds ∧ Loaded digest migrations ∧ Halfway db.migrations migrations todo ∧ applied ⊆ db.migrations
  | .inTransaction migrations migration todo applied pending =>
    holds ∧ Loaded digest migrations ∧ Halfway db.migrations migrations (migration :: todo) ∧ applied ⊆ db.migrations ∧
      migration.version ∉ db.migrations.map (·.version) ∧ execute migration.sql db.schema = .ok pending
  | .returned migrations => ¬ holds ∧ Complete log migrations
  | .threw _ => ¬ holds

/-- The table holds what was committed, in order, once each; the schema is what
it made of the first one. -/
structure Sound (schema : Schema) (log : List MigrationFile) (s : System Schema) : Prop where
  rows : s.db.migrations = log.map MigrationFile.applied
  distinct : (log.map (·.version)).Nodup
  checksums : ∀ migration ∈ log, migration.checksum = digest migration.sql
  replayed : log.foldlM (fun schema migration => execute migration.sql schema) schema = .ok s.db.schema
  phases : ∀ id, (s.phase id).Ok digest execute log s.db (s.holder = some id)

variable {digest execute}
variable {schema : Schema} {log : List MigrationFile} {s : System Schema} {id : Nat} {phase : Phase Schema}
  {migrations todo : List MigrationFile} {applied : List AppliedMigration} {db : Database Schema}

/-- What the call was in before it leaves does not matter. -/
theorem System.enter_leave (s : System Schema) (id : Nat) (phase next : Phase Schema) :
    (s.enter id phase).leave id next = s.leave id next := by
  simp only [System.enter, System.leave, Function.update_idem]
  rfl

theorem Phase.ok_threw {holds : Prop} (error : String) (hfree : ¬ holds) :
    Phase.Ok digest execute log db holds (.threw error) := hfree

theorem Phase.ok_waiting {holds : Prop} (hfree : ¬ holds) (hloaded : Loaded digest migrations) :
    Phase.Ok digest execute log db holds (.waiting migrations) := ⟨hfree, hloaded⟩

theorem Phase.ok_migrating {holds : Prop} (hholds : holds) (hloaded : Loaded digest migrations)
    (hhalfway : Halfway db.migrations migrations todo) (happlied : applied ⊆ db.migrations) :
    Phase.Ok digest execute log db holds (.migrating migrations todo applied) := ⟨hholds, hloaded, hhalfway, happlied⟩

theorem sound_start (schema : Schema) : Sound digest execute schema [] (System.start schema) where
  rows := rfl
  distinct := List.nodup_nil
  checksums := by simp
  replayed := rfl
  phases := fun _ => by simp [System.start, Phase.Ok]

theorem Sound.enter (h : Sound digest execute schema log s) (hphase : phase.Ok digest execute log s.db (s.holder = some id)) :
    Sound digest execute schema log (s.enter id phase) where
  rows := h.rows
  distinct := h.distinct
  checksums := h.checksums
  replayed := h.replayed
  phases := fun id' => by
    simp only [System.enter, Function.update_apply]
    split
    · rename_i heq
      rw [heq]
      exact hphase
    · exact h.phases id'

theorem Sound.leave (h : Sound digest execute schema log s) (id : Nat) (hphase : phase.Ok digest execute log s.db False) :
    Sound digest execute schema log (s.leave id phase) where
  rows := h.rows
  distinct := h.distinct
  checksums := h.checksums
  replayed := h.replayed
  phases := fun id' => by
    simp only [System.leave, Function.update_apply]
    by_cases heq : id' = id
    · have hfree : ¬ (if s.holder = some id then none else s.holder) = some id := by
        split <;> simp_all
      rw [if_pos heq, heq, eq_false hfree]
      exact hphase
    · have hother : ((if s.holder = some id then none else s.holder) = some id') ↔ s.holder = some id' := by
        split
        · rename_i hheld
          rw [hheld]
          simp [Ne.symm heq]
        · rfl
      rw [if_neg heq, propext hother]
      exact h.phases id'

theorem Sound.acquire (h : Sound digest execute schema log s) (hfree : s.holder = none) (hloaded : Loaded digest migrations) :
    Sound digest execute schema log { s.enter id (.locked migrations) with holder := some id } where
  rows := h.rows
  distinct := h.distinct
  checksums := h.checksums
  replayed := h.replayed
  phases := fun id' => by
    simp only [System.enter, Function.update_apply]
    split
    · rename_i heq
      exact ⟨congrArg some heq.symm, hloaded⟩
    · rename_i hne
      have hother := h.phases id'
      have hnobody : (some id = some id') ↔ s.holder = some id' := by
        rw [hfree]
        simp [Ne.symm hne]
      rwa [propext hnobody]

/-- The rows of a call that is through with its loop are those of its files. -/
theorem Halfway.perm (h : Halfway (log.map MigrationFile.applied) migrations []) (hloaded : Loaded digest migrations)
    (hdistinct : (log.map (·.version)).Nodup) : (migrations.map MigrationFile.applied).Perm (log.map MigrationFile.applied) := by
  obtain ⟨⟨behind, rfl, hbehind⟩, hknown⟩ := h
  rw [List.append_nil] at hloaded hknown ⊢
  have hversions : ∀ l : List MigrationFile, (l.map MigrationFile.applied).map (·.version) = l.map (·.version) := by
    intro l
    rw [List.map_map]
    rfl
  have hrows : ((log.map MigrationFile.applied).map (·.version)).Nodup := by
    rwa [hversions]
  have hfiles : ((behind.map MigrationFile.applied).map (·.version)).Nodup := by
    rw [hversions]
    exact hloaded.distinct
  rw [List.perm_ext_iff_of_nodup (List.Nodup.of_map _ hfiles) (List.Nodup.of_map _ hrows)]
  intro row
  constructor
  · intro hrow
    obtain ⟨migration, hm, rfl⟩ := List.mem_map.1 hrow
    exact hbehind migration hm
  · intro hrow
    obtain ⟨migration, hm, hversion⟩ := hknown row hrow
    have hsame := List.inj_on_of_nodup_map hrows (hbehind migration hm) hrow hversion
    exact List.mem_map.2 ⟨migration, hm, hsame⟩

theorem Halfway.complete (h : Halfway (log.map MigrationFile.applied) migrations []) (hloaded : Loaded digest migrations)
    (hdistinct : (log.map (·.version)).Nodup) : Complete log migrations :=
  ⟨log.length, Nat.le_refl _, by rw [List.take_length]; exact h.perm hloaded hdistinct⟩

theorem Sound.advance (h : Sound digest execute schema log s) (hholds : s.holder = some id)
    (hloaded : Loaded digest migrations) (hhalfway : Halfway s.db.migrations migrations todo)
    (happlied : applied ⊆ s.db.migrations) :
    Sound digest execute schema log (advance execute s id migrations todo applied) := by
  unfold Migrations.advance
  split
  · -- Case: returned
    refine h.leave id ⟨not_false, ?_⟩
    rw [h.rows] at hhalfway
    exact hhalfway.complete hloaded h.distinct
  rename_i migration todo
  split
  · rename_i previous hfound
    split
    · exact h.leave id not_false
    · -- Case: applied before
      rename_i hsame
      rw [not_or, not_not, not_not] at hsame
      have hversion : previous.version = migration.version := by simpa using List.find?_some hfound
      have hrow : migration.applied ∈ s.db.migrations := by
        have hprevious := happlied (List.mem_of_find?_eq_some hfound)
        rwa [show previous = migration.applied from AppliedMigration.ext hversion hsame.1 hsame.2] at hprevious
      obtain ⟨⟨behind, hsplit, hbehind⟩, hknown⟩ := hhalfway
      refine h.enter ⟨hholds, hloaded, ⟨⟨behind ++ [migration], ?_, ?_⟩, hknown⟩, happlied⟩
      · rw [hsplit, List.append_assoc, List.singleton_append]
      · intro m hm
        rcases List.mem_append.1 hm with hm | hm
        · exact hbehind m hm
        · rw [List.mem_singleton.1 hm]
          exact hrow
  · split
    · exact h.leave id not_false
    · rename_i pending hpending
      split
      · exact h.leave id not_false
      · rename_i hfresh
        exact h.enter ⟨hholds, hloaded, hhalfway, happlied, hfresh, hpending⟩

theorem Complete.append (h : Complete log migrations) (migration : MigrationFile) : Complete (log ++ [migration]) migrations := by
  obtain ⟨count, hle, hperm⟩ := h
  refine ⟨count, by simp; omega, ?_⟩
  rwa [List.take_append_of_le_length hle]

theorem Halfway.committed {rows : List AppliedMigration} {migration : MigrationFile}
    (h : Halfway rows migrations (migration :: todo)) : Halfway (rows ++ [migration.applied]) migrations todo := by
  obtain ⟨⟨behind, rfl, hbehind⟩, hknown⟩ := h
  refine ⟨⟨behind ++ [migration], by simp, fun m hm => ?_⟩, fun row hrow => ?_⟩
  · rcases List.mem_append.1 hm with hm | hm
    · exact List.mem_append_left _ (hbehind m hm)
    · rw [List.mem_singleton.1 hm]
      exact List.mem_append_right _ (List.mem_singleton_self _)
  · rcases List.mem_append.1 hrow with hrow | hrow
    · exact hknown row hrow
    · exact ⟨migration, by simp, by rw [List.mem_singleton.1 hrow]; rfl⟩

/-- The commit of the call that has the lock; no other call has read the rows. -/
theorem Sound.commit (h : Sound digest execute schema log s) {migration : MigrationFile} {pending : Schema}
    (hphase : s.phase id = .inTransaction migrations migration todo applied pending) :
    let db : Database Schema := { schema := pending, migrations := s.db.migrations ++ [migration.applied] }
    Sound digest execute schema (log ++ [migration]) (({ s with db }).enter id (.migrating migrations todo applied)) := by
  have hok := h.phases id
  rw [hphase] at hok
  obtain ⟨hholds, hloaded, hhalfway, happlied, hfresh, hexecute⟩ := hok
  refine ⟨?_, ?_, ?_, ?_, fun id' => ?_⟩
  · simp [System.enter, h.rows]
  · rw [h.rows, List.map_map] at hfresh
    rw [List.map_append, List.map_singleton, List.nodup_append]
    refine ⟨h.distinct, List.nodup_singleton _, fun version hversion version' hversion' heq => ?_⟩
    rw [List.mem_singleton.1 hversion'] at heq
    rw [heq] at hversion
    exact hfresh hversion
  · intro m hm
    rcases List.mem_append.1 hm with hm | hm
    · exact h.checksums m hm
    · rw [List.mem_singleton.1 hm]
      obtain ⟨⟨behind, hsplit, -⟩, -⟩ := hhalfway
      exact hloaded.checksums migration (by simp [hsplit])
  · rw [List.foldlM_append, h.replayed]
    simp [System.enter, hexecute, bind, Except.bind, pure, Except.pure]
  · simp only [System.enter, Function.update_apply]
    split
    · rename_i heq
      rw [heq]
      exact ⟨hholds, hloaded, hhalfway.committed, List.subset_append_of_subset_left _ happlied⟩
    · rename_i hne
      have hother := h.phases id'
      have hfree : ¬ s.holder = some id' := by
        rw [hholds]
        simp [Ne.symm hne]
      revert hother
      cases s.phase id' with
      | idle => exact fun hother => hother
      | waiting _ => exact fun hother => hother
      | threw _ => exact fun hother => hother
      | returned _ => exact fun hother => ⟨hother.1, hother.2.append migration⟩
      | locked _ => exact fun hother => absurd hother.1 hfree
      | migrating _ _ _ => exact fun hother => absurd hother.1 hfree
      | inTransaction _ _ _ _ _ => exact fun hother => absurd hother.1 hfree

variable {localeLe : String → String → Bool}

/-- An action that commits nothing. -/
theorem Sound.quiet (h : Sound digest execute schema log s) :
    Sound digest execute schema (log ++ (none : Option MigrationFile).toList) s := by
  rwa [Option.toList_none, List.append_nil]

theorem Sound.step (h : Sound digest execute schema log s) (action : Action) :
    Sound digest execute schema (log ++ (step digest localeLe execute s action).1.toList)
      (step digest localeLe execute s action).2 := by
  have hok := h.phases
  cases action with
  | start id directory =>
    simp only [Migrations.step]
    split
    · rename_i hphase
      specialize hok id
      rw [hphase] at hok
      split
      · rename_i migrations hmigrations
        exact (h.enter (Phase.ok_waiting hok (loadMigrationFiles_loaded hmigrations))).quiet
      · exact (h.enter (Phase.ok_threw _ hok)).quiet
    · exact h.quiet
  | acquire id =>
    simp only [Migrations.step]
    split
    · rename_i migrations hphase hfree
      specialize hok id
      rw [hphase] at hok
      exact (h.acquire hfree hok.2).quiet
    · exact h.quiet
  | read id =>
    simp only [Migrations.step]
    split
    · rename_i migrations hphase
      specialize hok id
      rw [hphase] at hok
      split
      · exact (h.leave id (Phase.ok_threw _ not_false)).quiet
      · rename_i hnone
        have hhalfway : Halfway s.db.migrations migrations migrations :=
          ⟨⟨[], rfl, by simp⟩, fun row hrow => missingLocally_eq_none hnone hrow⟩
        exact (h.enter (Phase.ok_migrating hok.1 hok.2 hhalfway (List.Subset.refl _))).quiet
    · exact h.quiet
  | next id =>
    simp only [Migrations.step]
    split
    · rename_i migrations todo applied hphase
      specialize hok id
      rw [hphase] at hok
      exact (h.advance hok.1 hok.2.1 hok.2.2.1 hok.2.2.2).quiet
    · exact h.quiet
  | commit id answered =>
    simp only [Migrations.step]
    split
    · rename_i migrations migration todo applied pending hphase
      have hcommitted := h.commit hphase
      cases answered with
      | true => exact hcommitted
      | false =>
        have hleft := hcommitted.leave id (Phase.ok_threw connectionLost not_false)
        rwa [System.enter_leave] at hleft
    · exact h.quiet
  | drop id =>
    have hdropped := (h.leave id (Phase.ok_threw connectionLost not_false)).quiet
    simp only [Migrations.step]
    split
    · exact hdropped
    · exact hdropped
    · exact hdropped
    · exact hdropped
    · exact h.quiet

/-! ## The moment of a return -/

theorem System.not_returned_enter {id' : Nat} (hphase : phase ≠ .returned migrations) (hbefore : s.phase id ≠ .returned migrations) :
    (s.enter id' phase).phase id ≠ .returned migrations := by
  simp only [System.enter, Function.update_apply]
  split
  · exact hphase
  · exact hbefore

theorem System.not_returned_leave {id' : Nat} (hphase : phase ≠ .returned migrations) (hbefore : s.phase id ≠ .returned migrations) :
    (s.leave id' phase).phase id ≠ .returned migrations := by
  simp only [System.leave, Function.update_apply]
  split
  · exact hphase
  · exact hbefore

/-- A turn of the loop returns at its end only, and then the rows are those of the files. -/
theorem Sound.advance_returns (h : Sound digest execute schema log s) {id' : Nat} {own : List MigrationFile}
    (hloaded : Loaded digest own) (hhalfway : Halfway s.db.migrations own todo)
    (hafter : (Migrations.advance execute s id' own todo applied).phase id = .returned migrations)
    (hbefore : s.phase id ≠ .returned migrations) :
    (migrations.map MigrationFile.applied).Perm (Migrations.advance execute s id' own todo applied).db.migrations := by
  unfold Migrations.advance at hafter ⊢
  split at hafter
  · simp only [System.leave, Function.update_apply] at hafter ⊢
    split at hafter
    · cases hafter
      rw [h.rows] at hhalfway ⊢
      exact hhalfway.perm hloaded h.distinct
    · exact absurd hafter hbefore
  · split at hafter
    · split at hafter
      · exact absurd hafter (System.not_returned_leave (by simp) hbefore)
      · exact absurd hafter (System.not_returned_enter (by simp) hbefore)
    · split at hafter
      · exact absurd hafter (System.not_returned_leave (by simp) hbefore)
      · split at hafter
        · exact absurd hafter (System.not_returned_leave (by simp) hbefore)
        · exact absurd hafter (System.not_returned_enter (by simp) hbefore)

/-- At the step at which a call returns, the rows are those of its directory. -/
theorem Sound.returns (h : Sound digest execute schema log s) (action : Action)
    (hafter : (Migrations.step digest localeLe execute s action).2.phase id = .returned migrations)
    (hbefore : s.phase id ≠ .returned migrations) :
    (migrations.map MigrationFile.applied).Perm (Migrations.step digest localeLe execute s action).2.db.migrations := by
  cases action with
  | start id' directory =>
    simp only [Migrations.step] at hafter
    split at hafter
    · split at hafter
      · exact absurd hafter (System.not_returned_enter (by simp) hbefore)
      · exact absurd hafter (System.not_returned_enter (by simp) hbefore)
    · exact absurd hafter hbefore
  | acquire id' =>
    simp only [Migrations.step] at hafter
    split at hafter
    · exact absurd hafter (System.not_returned_enter (by simp) hbefore)
    · exact absurd hafter hbefore
  | read id' =>
    simp only [Migrations.step] at hafter
    split at hafter
    · split at hafter
      · exact absurd hafter (System.not_returned_leave (by simp) hbefore)
      · exact absurd hafter (System.not_returned_enter (by simp) hbefore)
    · exact absurd hafter hbefore
  | next id' =>
    have hok := h.phases id'
    simp only [Migrations.step] at hafter ⊢
    split at hafter
    · rename_i own todo applied hphase
      rw [hphase] at hok
      exact h.advance_returns hok.2.1 hok.2.2.1 hafter hbefore
    · exact absurd hafter hbefore
  | commit id' answered =>
    simp only [Migrations.step] at hafter
    split at hafter
    · cases answered with
      | true => exact absurd hafter (System.not_returned_enter (by simp) hbefore)
      | false => exact absurd hafter (System.not_returned_leave (by simp) hbefore)
    · exact absurd hafter hbefore
  | drop id' =>
    have hdropped : (s.leave id' (.threw connectionLost)).phase id ≠ .returned migrations :=
      System.not_returned_leave (by simp) hbefore
    simp only [Migrations.step] at hafter
    split at hafter
    · exact absurd hafter hdropped
    · exact absurd hafter hdropped
    · exact absurd hafter hdropped
    · exact absurd hafter hdropped
    · exact absurd hafter hbefore

/-! ## Every run -/

variable {trace : List (MigrationStep Schema)} {clock : Nat}

theorem MigrationRun.sound (h : MigrationRun digest localeLe execute schema trace s clock) :
    Sound digest execute schema (committed trace) s := by
  refine h.invariant (fun trace s _ => Sound digest execute schema (committed trace) s) (sound_start schema) ?_
  intro trace s _ action _ ih _ _
  have hlog : committed (trace ++ [stepOf (step digest localeLe execute) s action]) =
      committed trace ++ (step digest localeLe execute s action).1.toList := by
    rw [committed, List.filterMap_append]
    cases hresult : (step digest localeLe execute s action).1 <;> simp [stepOf, hresult, committed]
  rw [hlog]
  exact ih.step action

/-- However the calls interleave and whatever fails: the table holds one row for
each migration committed, none twice, and the schema is what the committed SQL
made of it; at the step at which a call returns, the rows are those of its own
directory, so the directories of any two calls that returned hold one another. -/
theorem migrations_committed_once (h : MigrationRun digest localeLe execute schema trace s clock) :
    s.db.migrations = (committed trace).map MigrationFile.applied ∧
      ((committed trace).map (·.version)).Nodup ∧
      (∀ migration ∈ committed trace, migration.checksum = digest migration.sql) ∧
      (committed trace).foldlM (fun schema migration => execute migration.sql schema) schema = .ok s.db.schema ∧
      (∀ e ∈ trace, ∀ id migrations, e.before.phase id ≠ .returned migrations → e.after.phase id = .returned migrations →
        (migrations.map MigrationFile.applied).Perm e.after.db.migrations) ∧
      (∀ id migrations, s.phase id = .returned migrations → Complete (committed trace) migrations) ∧
      ∀ id id' migrations migrations', s.phase id = .returned migrations → s.phase id' = .returned migrations' →
        migrations.map MigrationFile.applied ⊆ migrations'.map MigrationFile.applied ∨
          migrations'.map MigrationFile.applied ⊆ migrations.map MigrationFile.applied := by
  have hsound := MigrationRun.sound h
  have hcomplete : ∀ id migrations, s.phase id = .returned migrations → Complete (committed trace) migrations := by
    intro id migrations hphase
    have hok := hsound.phases id
    rw [hphase] at hok
    exact hok.2
  refine ⟨hsound.rows, hsound.distinct, hsound.checksums, hsound.replayed, ?_, hcomplete, ?_⟩
  · intro e he id migrations hbefore hafter
    obtain ⟨pre, post, htrace⟩ := List.append_of_mem he
    obtain ⟨t, action, _, hrun, -, -, rfl⟩ := h.cut htrace
    exact (MigrationRun.sound hrun).returns action hafter hbefore
  intro id id' migrations migrations' hreturned hreturned'
  obtain ⟨count, -, hperm⟩ := hcomplete id migrations hreturned
  obtain ⟨count', -, hperm'⟩ := hcomplete id' migrations' hreturned'
  have hgrows : ∀ {n m : Nat}, n ≤ m →
      ((committed trace).take n).map MigrationFile.applied ⊆ ((committed trace).take m).map MigrationFile.applied :=
    fun hle => ((List.take_prefix_take_left hle).map _).subset
  rcases Nat.le_total count count' with hle | hle
  · exact .inl (List.Subset.trans hperm.subset (List.Subset.trans (hgrows hle) hperm'.symm.subset))
  · exact .inr (List.Subset.trans hperm'.subset (List.Subset.trans (hgrows hle) hperm.symm.subset))

end

/-- Two releases: the older starts first, and the newer adds a version. -/
def rollout : List Action :=
  let older := [("001_tables.sql", "create")]
  let newer := [("002_rows.sql", "insert"), ("001_tables.sql", "create"), ("README.md", "")]
  [.start 0 older, .start 1 newer, .acquire 0, .acquire 1, .read 0, .next 0, .commit 0 true, .next 0, .acquire 1, .read 1,
    .next 1, .next 1, .commit 1 true, .next 1]

/-- Its runs, with every text its own checksum and a schema that lists what was
executed. -/
abbrev rolloutStep : System (List String) → Action → Option MigrationFile × System (List String) :=
  step id (fun _ _ => true) fun sql schema => .ok (schema ++ [sql])

theorem migrations_committed_once_rollout :
    let steps := execute rolloutStep (System.start []) rollout
    let tables : MigrationFile := ⟨1, "001_tables.sql", "create", "create"⟩
    let rows : MigrationFile := ⟨2, "002_rows.sql", "insert", "insert"⟩
    (stateAfter rolloutStep (System.start []) rollout).db.schema = ["create", "insert"] ∧
      Complete (committed steps) [tables] ∧
      -- the call of the older release returns at the eighth step, and that of the newer one at the last
      (∀ e, steps[7]? = some e → e.call = .next 0 ∧ [tables.applied].Perm e.after.db.migrations) ∧
      (∀ e, steps[13]? = some e → e.call = .next 1 ∧ [tables.applied, rows.applied].Perm e.after.db.migrations) := by
  have hstart : MigrationRun id (fun _ _ => true) (fun sql schema => .ok (schema ++ [sql])) ([] : List String) [] (System.start []) 0 :=
    .start
  obtain ⟨clock, hrun⟩ := hstart.follow rollout (by decide) fun _ _ _ => trivial
  have honce := migrations_committed_once hrun
  refine ⟨by decide, honce.2.2.2.2.2.1 0 _ rfl, fun e he => ?_, fun e he => ?_⟩
  · have hreturns := honce.2.2.2.2.1 e (List.mem_of_getElem? he) 0 [⟨1, "001_tables.sql", "create", "create"⟩]
    cases he
    exact ⟨rfl, hreturns (fun hbefore => by cases hbefore) rfl⟩
  · have hreturns := honce.2.2.2.2.1 e (List.mem_of_getElem? he) 1
      [⟨1, "001_tables.sql", "create", "create"⟩, ⟨2, "002_rows.sql", "insert", "insert"⟩]
    cases he
    exact ⟨rfl, hreturns (fun hbefore => by cases hbefore) rfl⟩

end Hyeboard.Migrations
