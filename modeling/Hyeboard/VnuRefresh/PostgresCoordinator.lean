import Hyeboard.VnuRefresh.PostgresRows
import Hyeboard.VnuRefresh.RedisCoordinator
import Hyeboard.VnuRefresh.Validity
/-!
# The PostgreSQL coordinator

`apps/worker/src/node/postgres/vnu-refresh-coordinator.ts` keeps the records of
all principals in two tables. A call is one transaction, which takes the
principal's lock first, so the calls of a principal follow one another. Next to
one durable object for each principal, called as the transactions commit, it
gives the same answers, whatever was committed before and in whatever order the
rows come back.
-/

namespace Hyeboard.VnuRefresh.Postgres

open JsValue Redis

/-- How a transaction ends. -/
inductive Commit where
  | done
  /-- It committed, but the answer to `COMMIT` did not arrive. -/
  | lost
  /-- The connection, a statement or `COMMIT` failed, and nothing was committed. -/
  | failed
deriving DecidableEq

structure CoordinatorCall where
  principalKey : String
  operation : Operation
  now : Nat
  scan : Scan
  commit : Commit

/-- What the transition reads and computes. -/
def compute (db : Database) (call : CoordinatorCall) : Except String (TransitionOutput OperationResult) := do
  let stored ← loadState db call.principalKey call.scan
  applyOperation call.operation stored call.now

/-- What it writes. -/
def writeOutput (db : Database) (key : String) (output : TransitionOutput OperationResult) : Except String Database :=
  if output.changed then
    if isQuiescentVnuRefreshState output.state then .ok (db.deletePrincipal key)
    else saveState db key output.state
  else .ok db

/-- The end of a transaction: the writes, and `COMMIT`. Whatever was thrown, a
rollback follows and the caller gets one error. -/
def finish (db : Database) (key : String) (computed : Except String (TransitionOutput OperationResult)) (commit : Commit) :
    Except String OperationResult × Database :=
  match computed with
  | .error _ => (.error vnuRefreshUnavailable, db)
  | .ok output =>
    match writeOutput db key output with
    | .error _ => (.error vnuRefreshUnavailable, db)
    | .ok next =>
      match commit with
      | .done => (.ok output.result, next)
      | .lost => (.error vnuRefreshUnavailable, next)
      | .failed => (.error vnuRefreshUnavailable, db)

def transition (db : Database) (call : CoordinatorCall) : Except String OperationResult × Database :=
  if !isPrincipalKey call.principalKey then (.error vnuRefreshUnavailable, db)
  else finish db call.principalKey (compute db call) call.commit

/-- A method of the coordinator: the arguments are checked first. -/
def coordinate (db : Database) (call : CoordinatorCall) : Except String OperationResult × Database :=
  match call.operation.pairs.mapM fun pair => assertLinkedPair pair.toJs with
  | .error error => (.error error, db)
  | .ok _ => transition db call

/-! ## Next to the durable objects -/

structure Both where
  database : Database
  objects : String → Storage

def Both.empty : Both := { database := .empty, objects := fun _ => .empty }

/-- One call made to both. A transaction that commits nothing is not made to
the object. -/
def serveBoth (both : Both) (call : CoordinatorCall) : (Except String OperationResult × Except String OperationResult) × Both :=
  let postgres := coordinate both.database call
  let durable := coordinateDurably (both.objects call.principalKey) ⟨call.operation, call.now⟩
  ((postgres.1, durable.1),
    { database := postgres.2
      objects :=
        if call.commit = .failed then both.objects else Function.update both.objects call.principalKey durable.2 })

/-- The last instant `Date.now()` may read. -/
def maxTimeValue : Nat := 8640000000000000

/-- The calls a coordinator gets: one of its methods with well-formed arguments. -/
structure CoordinatorCall.Made (call : CoordinatorCall) : Prop where
  method : call.operation ≠ .alarm
  arguments : call.operation.ArgumentsValid
  principal : isPrincipalKey call.principalKey = true
  clock : call.now ≤ maxTimeValue

/-- The runs of both. The replicas' clocks need not agree. -/
abbrev BothRun := Run serveBoth (fun _ => 0) (fun _ _ call => call.Made) Both.empty

/-! ## Transitions leave storable records -/

section
variable {state next : VnuRefreshControlState} {stored : Option VnuRefreshControlState} {operation : Operation}
variable {result : OperationResult} {now : Nat} {pair : LinkedPair}

def Linked (state : VnuRefreshControlState) : Prop := ∀ e ∈ state.revokedGrants.entries, ∃ tombstone, e.2 = .linked tombstone

/-- What a slot holds can be stored in the tables. -/
def SlotStorable (slot : Option VnuRefreshControlState) : Prop := ∀ state, slot = some state → Storable state

theorem Storable.of_valid (h : state.Valid) (hlinked : Linked state) : Storable state :=
  { active := h.active, lease_expiry := h.lease_expiry, lease_active := h.lease_active, lease_le := h.lease_le, access := h.access
    grants := h.grants, linked := hlinked, window := h.window, activation := h.activation }

theorem Storable.reordered (h : Reordered state next) (hstate : Storable state) : Storable next := by
  have haccess := (Record.equiv_iff_perm.1 h.revokedAccess).symm
  have hgrants := (Record.equiv_iff_perm.1 h.revokedGrants).symm
  obtain ⟨hactive, hlease, -, -, hwindow, hactivation⟩ := h
  constructor
  · exact hactive ▸ hstate.active
  · exact hlease ▸ hstate.lease_expiry
  · exact hlease ▸ hactive ▸ hstate.lease_active
  · exact hlease ▸ hstate.lease_le
  · exact fun e he => hstate.access e (haccess.mem_iff.1 he)
  · exact fun e he => hstate.grants e (hgrants.mem_iff.1 he)
  · exact fun e he => hstate.linked e (hgrants.mem_iff.1 he)
  · exact hwindow ▸ hstate.window
  · exact hactivation ▸ hstate.activation

theorem clean_linked (h : SlotStorable stored) : Linked (cleanVnuRefreshState stored now) := by
  intro e he
  obtain ⟨⟨state, hstate, he⟩, -⟩ := clean_grant_entries he
  exact (h state hstate).linked e he

theorem revokeExact_linked (h : Linked state) (pair : LinkedPair) (tombstone : LinkedGrantTombstone) :
    Linked (revokeExact state pair tombstone) := by
  intro e he
  rcases Record.mem_entries_set he with rfl | he
  · exact ⟨tombstone, rfl⟩
  · exact h e he

theorem principalRevoked_linked {proof : LinkedPair} (h : Linked state) : Linked (principalRevoked state proof pair) := by
  apply revokeExact_linked
  intro e he
  rcases Record.mem_entries_set he with rfl | he
  · exact ⟨linkedGrantTombstone proof, rfl⟩
  · exact h e he

/-- The states a call other than `activatePair` stores. -/
theorem stores_linked (h : Stores stored now operation result next) (hlinked : Linked (cleanVnuRefreshState stored now))
    (hop : ∀ pair, operation ≠ .activatePair pair) : Linked next := by
  cases h with
  | activate pair _ _ => exact absurd rfl (hop pair)
  | begin pair _ _ _ _ _ => exact hlinked
  | complete old next _ _ _ => exact revokeExact_linked hlinked old _
  | release pair _ _ _ => exact hlinked
  | abort pair _ _ _ => exact revokeExact_linked hlinked pair _
  | revoke pair _ _ _ => exact revokeExact_linked hlinked pair _
  | revokePrincipal proof current _ _ _ => exact principalRevoked_linked hlinked

/-- A pair may be activated over its own tombstones: the rows take it, but
`loadState` will refuse it. -/
theorem Storable.activate {window : Option RefreshWindow} (h : Storable state) (hpair : pair.Valid)
    (hwindow : ∀ w, window = some w → w.Valid 1 vnuManualActivationLimit) :
    Storable { state with active := some pair, lease := none, activationWindow := window } := by
  refine { h with active := ?_, lease_expiry := nofun, lease_active := nofun, lease_le := nofun, activation := hwindow }
  rintro _ ⟨⟩
  exact hpair

theorem stores_storable (h : Stores stored now operation result next) (hvalid : SlotValid stored) (hstored : SlotStorable stored)
    (hargs : operation.ArgumentsValid) (hrot : operation.RotationOk stored)
    (hnow : now + vnuRefreshWindowMs ≤ maxSafeInteger) : Storable next := by
  have hreset := (clean_window_reset_iff hvalid).2 fun _ => hnow
  have hclean := clean_valid hvalid hreset
  have hlinked : Linked (cleanVnuRefreshState stored now) := clean_linked hstored
  by_cases hop : ∃ pair, operation = .activatePair pair
  · obtain ⟨pair, rfl⟩ := hop
    cases h with
    | activate _ hslow hroom =>
      have hpair : pair.Valid := hargs pair (by simp [Operation.pairs])
      have hcount := countActivation_valid hroom ((countActivation_reset_iff hvalid).2 fun _ => hnow)
      have hwindow : ∀ w, some (countActivation (cleanVnuRefreshState stored now) now) = some w →
          w.Valid 1 vnuManualActivationLimit := by
        rintro _ ⟨⟩
        exact hcount
      rcases activated_cases (cleanVnuRefreshState stored now) pair now with ⟨active, hactive, -, heq⟩ | ⟨-, heq⟩
      · rw [heq]
        have hrevoked := revokeExact_valid hclean hactive (linkedGrantTombstone_valid (hclean.active active hactive) _)
        exact (Storable.of_valid hrevoked (revokeExact_linked hlinked _ _)).activate hpair hwindow
      · rw [heq]
        exact (Storable.of_valid hclean hlinked).activate hpair hwindow
  · have hop : ∀ pair, operation ≠ .activatePair pair := fun pair h => hop ⟨pair, h⟩
    exact .of_valid ((h.valid_iff hvalid hargs hrot hop).2 hreset) (stores_linked h hlinked hop)

/-- What a transition has changed can be stored. -/
theorem output_storable (hvalid : SlotValid stored) (hstored : SlotStorable stored) (hargs : operation.ArgumentsValid)
    (hrot : operation.RotationOk stored) (hnow : now + vnuRefreshWindowMs ≤ maxSafeInteger)
    (hchanged : (operation.output stored now).changed = true) : Storable (operation.output stored now).state := by
  rcases output_cases operation stored now with ⟨result, hr⟩ | ⟨result, next, hs⟩ | hc
  · rw [hr.output_eq] at hchanged
    cases hchanged
  · rw [hs.output_eq hrot]
    exact stores_storable hs hvalid hstored hargs hrot hnow
  · obtain ⟨result, -, ho⟩ := hc.output_eq stored now
    rw [ho]
    exact .of_valid (clean_valid hvalid ((clean_window_reset_iff hvalid).2 fun _ => hnow)) (clean_linked hstored)

end

/-! ## The rows of a principal -/

/-- The principal's rows are those of the record its durable object holds. -/
inductive Holds (db : Database) (key : String) : Option VnuRefreshControlState → Prop
  | absent (hrow : db.principals.get? key = none) (htombstones : db.tombstonesOf key = []) : Holds db key none
  | present {written state : VnuRefreshControlState} (hsame : Reordered written state) (hstorable : Storable written)
      (hrow : db.principals.get? key = some (principalRow written))
      (htombstones : db.tombstonesOf key = (Tombstone.all written).map Tombstone.row) : Holds db key (some state)

/-- The principal has the same rows in both. -/
structure SameRows (db db' : Database) (key : String) : Prop where
  principal : db.principals.get? key = db'.principals.get? key
  tombstones : db.tombstonesOf key = db'.tombstonesOf key

section
variable {db db' : Database} {key : String} {slot : Option VnuRefreshControlState} {state : VnuRefreshControlState}

theorem SameRows.refl (db : Database) (key : String) : SameRows db db key := ⟨rfl, rfl⟩

theorem SameRows.holds (h : SameRows db db' key) (hheld : Holds db' key slot) : Holds db key slot := by
  obtain ⟨hprincipal, htombstones⟩ := h
  cases hheld with
  | absent hrow hnone => exact .absent (hprincipal.trans hrow) (htombstones.trans hnone)
  | present hsame hstorable hrow hrows => exact .present hsame hstorable (hprincipal.trans hrow) (htombstones.trans hrows)

theorem SameRows.loadState (h : SameRows db db' key) (scan : Scan) : loadState db key scan = loadState db' key scan := by
  unfold Postgres.loadState
  rw [h.principal, h.tombstones]

/-- `loadState` reads the object's record back, up to order, or refuses what the
object refuses. -/
theorem Holds.load (h : Holds db key slot) (scan : Scan) : ∃ read, SlotReordered read slot ∧ SlotStorable read ∧
    loadState db key scan = parseVnuRefreshControlState (rawState read) := by
  unfold Postgres.loadState
  cases h with
  | absent hrow htombstones =>
    rw [hrow]
    exact ⟨none, .none, nofun, rfl⟩
  | @present written state hsame hstorable hrow htombstones =>
    rw [hrow, htombstones, List.map_map]
    obtain ⟨read, hread, hload⟩ := recordFromRows_eq_ok hstorable (scan.perm _)
    refine ⟨some read, .some (hread.trans hsame), ?_, hload⟩
    rintro _ ⟨⟩
    exact hstorable.reordered hread.symm

theorem saveState_rows (db : Database) (h : Storable state) (hkey : isPrincipalKey key = true) :
    ∃ next, saveState db key state = .ok next ∧ Holds next key (some state) ∧ ∀ other, other ≠ key → SameRows next db other := by
  have hrows : ∀ (principals : Record (PrincipalRow Nat)) (other : String),
      (Database.mk principals ((db.deleteTombstones key).tombstones ++
        (Tombstone.all state).map fun tombstone => (key, tombstone.row))).tombstonesOf other =
      (if other = key then [] else db.tombstonesOf other) ++
        if key = other then (Tombstone.all state).map Tombstone.row else [] := by
    intro principals other
    rw [← tombstonesOf_delete]
    unfold Database.tombstonesOf
    rw [List.filter_append, List.map_append, List.filter_map, List.map_map]
    congr 1
    by_cases h : key = other <;> simp [h, Function.comp_def]
  refine ⟨_, saveState_ok db h hkey, .present (.refl _) h (Record.get?_set_self _ _ _) ?_, ?_⟩
  · rw [hrows, if_pos rfl, if_pos rfl, List.nil_append]
  · intro other hne
    refine ⟨Record.get?_set_of_ne _ _ hne, ?_⟩
    rw [hrows, if_neg hne, if_neg (Ne.symm hne), List.append_nil]

/-- Saved rows load as the record they were written for, in any order, unless
the record is one `parseVnuRefreshControlState` refuses; no other principal sees
a difference. -/
theorem saveState_loadState (db : Database) (h : Storable state) (hkey : isPrincipalKey key = true) :
    ∃ next, saveState db key state = .ok next ∧
      (∀ scan result, loadState next key scan = .ok result → ∃ read, result = some read ∧ Reordered read state) ∧
      (∀ scan, (∃ result, loadState next key scan = .ok result) ↔ state.Valid) ∧
      ∀ other, other ≠ key → ∀ scan, loadState next other scan = loadState db other scan := by
  obtain ⟨next, hsave, hheld, hothers⟩ := saveState_rows db h hkey
  refine ⟨next, hsave, ?_, ?_, fun other hne scan => (hothers other hne).loadState scan⟩
  · intro scan result hload
    obtain ⟨read, hsame, -, hread⟩ := hheld.load scan
    rw [hread, parse_rawState] at hload
    obtain ⟨rfl, -⟩ := hload
    cases hsame with
    | some hsame => exact ⟨_, rfl, hsame⟩
  · intro scan
    obtain ⟨read, hsame, -, hread⟩ := hheld.load scan
    have hvalid : SlotValid (some state) ↔ state.Valid := by simp [SlotValid]
    rw [hread, ← hvalid, ← slotValid_reordered hsame]
    simp only [parse_rawState, SlotValid, exists_eq_left]

/-- A rotated pair's record, whose tombstone names its successor. -/
def rotatedState : VnuRefreshControlState := rotated (activated (emptyState testNow) oldPair testNow) oldPair nextPair

theorem rotatedState_valid : rotatedState.Valid := by
  have hempty : (emptyState testNow).Valid := emptyState_valid_iff.2 (by decide)
  have hactivated : (activated (emptyState testNow) oldPair testNow).Valid := by
    refine activate_valid hempty oldPair_valid rfl rfl ?_
    rintro _ ⟨⟩
    exact ⟨by decide, by decide, by decide⟩
  refine rotated_valid hactivated rfl ⟨by decide, by decide, by decide, by decide⟩ rfl ?_ ?_ rfl rfl
  · decide
  · decide

theorem saveState_loadState_rotated : ∃ next, saveState .empty ("".pushn 'a' 64) rotatedState = .ok next ∧
    ∀ scan, ∃ read, loadState next ("".pushn 'a' 64) scan = .ok (some read) ∧ Reordered read rotatedState := by
  have hstorable : Storable rotatedState := by
    apply Storable.of_valid rotatedState_valid
    intro e he
    obtain rfl := List.mem_singleton.1 he
    exact ⟨_, rfl⟩
  obtain ⟨next, hsave, hread, hloads, -⟩ := saveState_loadState .empty hstorable (by decide +kernel : isPrincipalKey ("".pushn 'a' 64) = true)
  refine ⟨next, hsave, fun scan => ?_⟩
  obtain ⟨result, hload⟩ := (hloads scan).2 rotatedState_valid
  obtain ⟨read, rfl, hsame⟩ := hread scan result hload
  exact ⟨read, hload, hsame⟩

theorem deletePrincipal_rows (db : Database) (key : String) :
    Holds (db.deletePrincipal key) key none ∧ ∀ other, other ≠ key → SameRows (db.deletePrincipal key) db other := by
  have hrows : ∀ other, (db.deletePrincipal key).tombstonesOf other = if other = key then [] else db.tombstonesOf other :=
    tombstonesOf_delete db key
  refine ⟨.absent ?_ ?_, ?_⟩
  · exact (Record.get?_delete _ _ _).trans (if_pos rfl)
  · rw [hrows, if_pos rfl]
  · intro other hne
    exact ⟨(Record.get?_delete _ _ _).trans (if_neg hne), by rw [hrows, if_neg hne]⟩

end

/-! ## One call -/

section
variable {db : Database} {call : CoordinatorCall} {slot : Option VnuRefreshControlState}

theorem CoordinatorCall.Made.fits (h : call.Made) : call.now + vnuRefreshWindowMs ≤ maxSafeInteger := by
  have hclock := h.clock
  have hlast : maxTimeValue + vnuRefreshWindowMs ≤ maxSafeInteger := by decide
  omega

/-- A written output: the object's record after the same change. -/
theorem writeOutput_rows {slot' : Option VnuRefreshControlState} {output output' : TransitionOutput OperationResult} {key : String}
    (hheld : Holds db key slot') (hkey : isPrincipalKey key = true) (hchanged : output.changed = output'.changed)
    (hstorable : output.changed = true → Storable output.state)
    (hsame : output.changed = true → Reordered output.state output'.state) :
    ∃ next, writeOutput db key output = .ok next ∧ Holds next key (kept slot' output') ∧
      ∀ other, other ≠ key → SameRows next db other := by
  unfold writeOutput kept Storage.write
  rw [← hchanged]
  cases hc : output.changed with
  | false => exact ⟨db, rfl, hheld, fun other _ => .refl db other⟩
  | true =>
    have hsame := hsame hc
    rw [if_pos rfl, if_pos rfl, ← hsame.quiescent]
    cases hq : isQuiescentVnuRefreshState output.state with
    | true => exact ⟨_, rfl, deletePrincipal_rows db key⟩
    | false =>
      obtain ⟨next, hsave, hholds, hothers⟩ := saveState_rows db (hstorable hc) hkey
      refine ⟨next, hsave, ?_, hothers⟩
      cases hholds with
      | present hwritten hstored hrow htombstones => exact .present (hwritten.trans hsame) hstored hrow htombstones

/-- A call next to the object: the same answer, with the rows of the record the
object then holds, or both throw. -/
theorem compute_alike (hheld : Holds db call.principalKey slot) (hmade : call.Made) :
    (SlotValid slot ∧ call.operation.RotationOk slot ∧ ∃ output next, compute db call = .ok output ∧
        output.result = (call.operation.output slot call.now).result ∧ writeOutput db call.principalKey output = .ok next ∧
          Holds next call.principalKey (kept slot (call.operation.output slot call.now)) ∧
            ∀ other, other ≠ call.principalKey → SameRows next db other) ∨
      ¬ (SlotValid slot ∧ call.operation.RotationOk slot) ∧ ∃ error, compute db call = .error error := by
  obtain ⟨read, hsame, hstorable, hload⟩ := hheld.load call.scan
  have hcompute : ∀ {output}, compute db call = .ok output ↔
      SlotValid slot ∧ call.operation.RotationOk slot ∧ output = call.operation.output read call.now := by
    intro output
    unfold compute
    rw [hload, ← slotValid_reordered hsame, ← rotationOk_reordered hsame]
    simp only [bind_eq_ok, parse_rawState, applyOperation_eq_ok]
    constructor
    · rintro ⟨_, ⟨rfl, hvalid⟩, -, hrot, rfl⟩
      exact ⟨hvalid, hrot, rfl⟩
    · rintro ⟨hvalid, hrot, rfl⟩
      exact ⟨_, ⟨rfl, hvalid⟩, hmade.arguments, hrot, rfl⟩
  by_cases hok : SlotValid slot ∧ call.operation.RotationOk slot
  · obtain ⟨hvalid, hrot⟩ := hok
    have hvalid' := (slotValid_reordered hsame).2 hvalid
    have hrot' := (rotationOk_reordered hsame).2 hrot
    obtain ⟨hresult, hchanged, hstate⟩ := output_reordered hsame hrot' call.now
    obtain ⟨next, hwrite, hholds, hothers⟩ := writeOutput_rows hheld hmade.principal hchanged
      (output_storable hvalid' hstorable hmade.arguments hrot' hmade.fits) hstate
    exact .inl ⟨hvalid, hrot, _, next, hcompute.2 ⟨hvalid, hrot, rfl⟩, hresult, hwrite, hholds, hothers⟩
  · refine .inr ⟨hok, ?_⟩
    cases hc : compute db call with
    | error error => exact ⟨error, rfl⟩
    | ok output =>
      obtain ⟨hvalid, hrot, -⟩ := hcompute.1 hc
      exact absurd ⟨hvalid, hrot⟩ hok

end

/-! ## Runs -/

/-- Every principal's rows are those of its object's record. -/
def Alike (both : Both) : Prop := ∀ key, Holds both.database key (both.objects key).state

theorem empty_alike : Alike .empty := fun _ => .absent rfl rfl

/-- One call: a committed call is answered as the object answers, any other
as unavailable. -/
theorem serveBoth_alike {both : Both} {call : CoordinatorCall} (halike : Alike both) (hmade : call.Made) :
    (serveBoth both call).1.1 =
        (if call.commit = .done then (serveBoth both call).1.2 else .error vnuRefreshUnavailable) ∧
      Alike (serveBoth both call).2 := by
  have hheld := halike call.principalKey
  unfold serveBoth coordinateDurably coordinate transition
  rw [arguments_accepted hmade.arguments, hmade.principal]
  dsimp only [Bool.not_true, Bool.false_eq_true, if_false]
  unfold finish
  rcases compute_alike hheld hmade with ⟨hvalid, hrot, output, next, hcompute, hresult, hwrite, hholds, hothers⟩ |
    ⟨hthrow, error, hcompute⟩
  · obtain ⟨hserve, hstate⟩ := serve_ok call.now hvalid hmade.arguments hrot
    rw [hcompute, hserve, ← hresult]
    dsimp only
    rw [hwrite]
    -- what both hold once the transaction has committed
    have hnext : Alike ⟨next, Function.update both.objects call.principalKey
        (serve (both.objects call.principalKey) ⟨call.operation, call.now⟩).2⟩ := by
      intro key
      by_cases hkey : key = call.principalKey
      · subst hkey
        rw [← hstate] at hholds
        simpa only [Function.update_self] using hholds
      · simpa only [Function.update_of_ne hkey] using (hothers key hkey).holds (halike key)
    cases call.commit with
    | done => exact ⟨rfl, hnext⟩
    | lost => exact ⟨rfl, hnext⟩
    | failed => exact ⟨rfl, halike⟩
  · obtain ⟨error', hserve⟩ := serve_error call.now fun h => hthrow ⟨h.1, h.2.2⟩
    rw [hcompute, hserve]
    have hsame : Function.update both.objects call.principalKey (both.objects call.principalKey) = both.objects :=
      Function.update_eq_self _ _
    cases call.commit with
    | done => exact ⟨rfl, by rw [hsame]; exact halike⟩
    | lost => exact ⟨rfl, by rw [hsame]; exact halike⟩
    | failed => exact ⟨rfl, halike⟩

/-- In every run over any principals, with failed and lost commits among the
calls, each call that commits is answered as the principal's durable object
answers it, every other as unavailable, and the tables hold the objects'
records. -/
theorem postgres_refines_durable_objects {trace : List _} {both : Both} {clock : Nat} (h : BothRun trace both clock) :
    (∀ e ∈ trace, e.result.1 = if e.call.commit = .done then e.result.2 else .error vnuRefreshUnavailable) ∧ Alike both := by
  refine h.invariant (fun trace both _ => (∀ e ∈ trace, e.result.1 =
    if e.call.commit = .done then e.result.2 else .error vnuRefreshUnavailable) ∧ Alike both) ⟨by simp, empty_alike⟩ ?_
  intro trace both clock call _ ⟨hanswers, halike⟩ _ hmade
  obtain ⟨hanswer, hnext⟩ := serveBoth_alike halike hmade
  refine ⟨?_, hnext⟩
  intro e he
  rcases List.mem_append.1 he with he | he
  · exact hanswers e he
  · rw [List.mem_singleton] at he
    subst he
    exact hanswer

/-! ## A run -/

def sampleKey : String := "".pushn 'a' 64

def reversed : Scan := ⟨List.reverse, List.reverse_perm⟩

def sampleCalls : List CoordinatorCall :=
  [⟨sampleKey, .activatePair oldPair, testNow, reversed, .done⟩,
    ⟨sampleKey, .beginRefresh oldPair, testNow + 1, reversed, .failed⟩,
    ⟨sampleKey, .beginRefresh oldPair, testNow + 2, reversed, .lost⟩,
    ⟨sampleKey, .completeRefresh oldPair nextPair, testNow + 3, reversed, .done⟩,
    ⟨sampleKey, .checkAccess nextPair, testNow + 4, reversed, .done⟩]

theorem samplePairs_valid {operation : Operation} (h : ∀ pair ∈ operation.pairs, pair = oldPair ∨ pair = nextPair) :
    operation.ArgumentsValid := by
  intro pair hpair
  rcases h pair hpair with rfl | rfl
  · exact oldPair_valid
  · exact ⟨by decide, by decide, by decide, by decide⟩

theorem sampleCalls_made : ∀ call ∈ sampleCalls, call.Made := by
  have hkey : isPrincipalKey sampleKey = true := by decide +kernel
  have hcalls : ∀ call ∈ sampleCalls, call.operation ≠ .alarm ∧
      (∀ pair ∈ call.operation.pairs, pair = oldPair ∨ pair = nextPair) ∧ call.principalKey = sampleKey ∧
        call.now ≤ maxTimeValue := by
    simp only [sampleCalls, List.forall_mem_cons]
    decide
  intro call hcall
  obtain ⟨hmethod, hpairs, hprincipal, hclock⟩ := hcalls call hcall
  exact ⟨hmethod, samplePairs_valid hpairs, hprincipal ▸ hkey, hclock⟩

/-- The lease taken by the call whose commit was lost lets the rotation through. -/
example :
    (execute serveBoth Both.empty sampleCalls).map (fun e => e.result.1) =
      [.ok (.activatePair .activated), .error vnuRefreshUnavailable, .error vnuRefreshUnavailable,
        .ok (.completeRefresh .completed), .ok (.checkAccess .active)] := by
  have hstart : BothRun [] Both.empty 0 := .start
  obtain ⟨clock, hrun⟩ := hstart.follow sampleCalls (by decide)
    fun e he _ => sampleCalls_made e.call (Run.call_mem_of_execute he)
  rw [List.nil_append] at hrun
  rw [List.map_congr_left (postgres_refines_durable_objects hrun).1]
  decide +kernel

end Hyeboard.VnuRefresh.Postgres
