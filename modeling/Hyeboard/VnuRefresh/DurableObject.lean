import Hyeboard.Lib.Runs
import Hyeboard.VnuRefresh.Stores
/-!
# The durable object of one principal

`apps/worker/src/vnu/vnu-refresh-control-durable-object.ts`: each call reads
the stored record, parses it, applies its transition in one storage
transaction and writes what changed. A throw rolls the transaction back. Calls
are served one at a time, so whatever the clients do is a `Run` of `serve`.
-/

namespace Hyeboard.VnuRefresh

/-- What the object's storage holds: the record under its key, and the alarm. -/
structure Storage where
  state : Option VnuRefreshControlState
  alarm : Option Nat
deriving DecidableEq

def Storage.empty : Storage := { state := none, alarm := none }

/-- Writing a changed state: deleted when quiescent, and the alarm moved. -/
def Storage.write (state : VnuRefreshControlState) : Storage :=
  { state := if isQuiescentVnuRefreshState state then none else some state
    alarm := nextVnuRefreshAlarm state }

def mutate {α : Type} (storage : Storage)
    (transition : Option VnuRefreshControlState → Nat → Except String (TransitionOutput α)) (now : Nat) :
    Except String (α × Storage) := do
  let stored ← parseVnuRefreshControlState (rawState storage.state)
  let output ← transition stored now
  return (output.result, if output.changed then Storage.write output.state else storage)

/-- `checkAccess` reads outside a transaction first, and opens one only when
cleaning changed something. -/
def checkAccessAuthoritatively (storage : Storage) (access : LinkedPair) (now : Nat) :
    Except String (AccessCheckResult × Storage) := do
  let _ ← assertLinkedPair access.toJs
  let stored ← parseVnuRefreshControlState (rawState storage.state)
  let checked ← applyCheckAccess stored access now
  if !checked.changed then
    return (checked.result, storage)
  mutate storage (fun stored now => applyCheckAccess stored access now) now

structure Call where
  operation : Operation
  now : Nat
deriving DecidableEq, Repr

/-- The object's method for each call. The runtime clears the alarm before it
runs the handler. -/
def handle (storage : Storage) (call : Call) : Except String (OperationResult × Storage) :=
  match call.operation with
  | .activatePair pair =>
    Prod.map .activatePair id <$> mutate storage (fun stored now => applyActivatePair stored pair now) call.now
  | .beginRefresh pair =>
    Prod.map .beginRefresh id <$> mutate storage (fun stored now => applyBeginRefresh stored pair now) call.now
  | .completeRefresh old next =>
    Prod.map .completeRefresh id <$>
      mutate storage (fun stored now => applyCompleteRefresh stored old next now) call.now
  | .abortRefresh pair terminal =>
    Prod.map .abortRefresh id <$> mutate storage (fun stored now => applyAbortRefresh stored pair terminal now) call.now
  | .revokeLinkedPairByAccess pair =>
    Prod.map .revoke id <$> mutate storage (fun stored now => applyRevokeLinkedPairByAccess stored pair now) call.now
  | .revokePrincipalByLinkedGrant proof =>
    Prod.map .revoke id <$>
      mutate storage (fun stored now => applyRevokePrincipalByLinkedGrant stored proof now) call.now
  | .checkAccess access => Prod.map .checkAccess id <$> checkAccessAuthoritatively storage access call.now
  | .alarm => mutate { storage with alarm := none } (fun stored now => .ok (applyAlarm stored now)) call.now

/-- A throw leaves storage as it was. -/
def serve (storage : Storage) (call : Call) : Except String OperationResult × Storage :=
  match handle storage call with
  | .ok (result, next) => (.ok result, next)
  | .error error => (.error error, storage)

/-! ## What a call does to storage -/

/-- What storage holds can be read back. -/
def SlotValid (slot : Option VnuRefreshControlState) : Prop := ∀ state, slot = some state → state.Valid

/-- The slot after the cleaned state was stored, when it differed. -/
def cleanedSlot (slot : Option VnuRefreshControlState) (now : Nat) : Option VnuRefreshControlState :=
  slot.bind fun state =>
    if cleanVnuRefreshState slot now = state then some state
    else if isQuiescentVnuRefreshState (cleanVnuRefreshState slot now) then none
    else some (cleanVnuRefreshState slot now)

/-- The storage a call starts from: the alarm handler runs with no alarm set. -/
def Storage.served (storage : Storage) : Operation → Storage
  | .alarm => { storage with alarm := none }
  | _ => storage

theorem mutate_eq_ok {α : Type} {storage : Storage}
    {transition : Option VnuRefreshControlState → Nat → Except String (TransitionOutput α)} {now : Nat} {result : α}
    {next : Storage} :
    mutate storage transition now = .ok (result, next) ↔
      SlotValid storage.state ∧ ∃ output, transition storage.state now = .ok output ∧ result = output.result ∧
        next = if output.changed then Storage.write output.state else storage := by
  simp only [mutate, bind_eq_ok, parse_rawState, pure_eq_ok, Prod.mk.injEq, SlotValid]
  constructor
  · rintro ⟨_, ⟨rfl, hv⟩, output, ho, rfl, rfl⟩; exact ⟨hv, output, ho, rfl, rfl⟩
  · rintro ⟨hv, output, ho, rfl, rfl⟩; exact ⟨_, ⟨rfl, hv⟩, output, ho, rfl, rfl⟩

/-- Both reads of `checkAccess` see the same record, so the early answer is the
one the transaction would give. -/
theorem checkAccessAuthoritatively_eq_ok {storage : Storage} {access : LinkedPair} {now : Nat}
    {result : AccessCheckResult} {next : Storage} :
    checkAccessAuthoritatively storage access now = .ok (result, next) ↔
      mutate storage (fun stored now => applyCheckAccess stored access now) now = .ok (result, next) := by
  rw [mutate_eq_ok]
  unfold checkAccessAuthoritatively
  rw [assertLinkedPair_bind]
  simp only [bind_eq_ok, parse_rawState]
  constructor
  · rintro ⟨-, _, ⟨rfl, hv⟩, output, ho, h⟩
    split at h
    · rename_i hc
      simp only [Bool.not_eq_true'] at hc
      cases h
      exact ⟨hv, output, ho, rfl, by simp [hc]⟩
    · exact mutate_eq_ok.1 h
  · rintro ⟨hv, output, ho, rfl, rfl⟩
    have hargs : access.Valid := by
      rw [applyCheckAccess, assertLinkedPair_bind] at ho
      exact ho.1
    refine ⟨hargs, _, ⟨rfl, hv⟩, output, ho, ?_⟩
    cases hc : output.changed with
    | false => simp
    | true => simpa using mutate_eq_ok.2 ⟨hv, output, ho, rfl, by simp [hc]⟩

/-- Renaming the results of a transition. -/
theorem map_mutate_eq_ok {α : Type} {storage : Storage} {f : α → OperationResult}
    {transition : Option VnuRefreshControlState → Nat → Except String (TransitionOutput α)} {now : Nat}
    {result : OperationResult} {next : Storage} :
    Prod.map f id <$> mutate storage transition now = .ok (result, next) ↔
      mutate storage (fun stored now => TransitionOutput.map f <$> transition stored now) now = .ok (result, next) := by
  simp only [map_eq_ok, mutate_eq_ok, Prod.exists, Prod.map_apply, id_eq, Prod.mk.injEq]
  constructor
  · rintro ⟨_, _, ⟨hv, output, ho, rfl, rfl⟩, rfl, rfl⟩
    exact ⟨hv, output.map f, ⟨output, ho, rfl⟩, rfl, rfl⟩
  · rintro ⟨hv, _, ⟨output, ho, rfl⟩, rfl, rfl⟩
    exact ⟨_, _, ⟨hv, output, ho, rfl, rfl⟩, rfl, rfl⟩

/-- Every call is `mutate` with its transition. -/
theorem handle_eq_ok {storage : Storage} {call : Call} {result : OperationResult} {next : Storage} :
    handle storage call = .ok (result, next) ↔
      mutate (storage.served call.operation) (applyOperation call.operation) call.now = .ok (result, next) := by
  obtain ⟨operation, now⟩ := call
  cases operation with
  | checkAccess access =>
    refine Iff.trans ?_ map_mutate_eq_ok
    simp only [handle, map_eq_ok, Prod.exists, checkAccessAuthoritatively_eq_ok]
    rfl
  | alarm => rfl
  | _ => exact map_mutate_eq_ok

/-- What serving a call does: it threw, was refused, stored a new state, or
cleaned. Only the first can happen on a slot that does not parse. -/
inductive Effect (slot : Option VnuRefreshControlState) (now : Nat) (operation : Operation) :
    Except String OperationResult → Option VnuRefreshControlState → Prop
  | threw (error : String) (h : ¬ (SlotValid slot ∧ operation.ArgumentsValid ∧ operation.RotationOk slot)) :
      Effect slot now operation (.error error) slot
  | refused (result : OperationResult) (hvalid : SlotValid slot) (hargs : operation.ArgumentsValid)
      (hrot : operation.RotationOk slot) (h : operation.Refuses slot now result) :
      Effect slot now operation (.ok result) slot
  | stored (result : OperationResult) (next : VnuRefreshControlState) (hvalid : SlotValid slot)
      (hargs : operation.ArgumentsValid) (hrot : operation.RotationOk slot)
      (h : Stores slot now operation result next) :
      Effect slot now operation (.ok result) (some next)
  | cleaned (result : OperationResult) (hvalid : SlotValid slot) (hargs : operation.ArgumentsValid)
      (h : operation.Cleans) (hv : operation.verdict (cleanVnuRefreshState slot now) now = .clean result) :
      Effect slot now operation (.ok result) (cleanedSlot slot now)

theorem served_state (storage : Storage) (operation : Operation) :
    (storage.served operation).state = storage.state := by
  cases operation <;> rfl

theorem cleanedSlot_eq (slot : Option VnuRefreshControlState) (now : Nat) :
    cleanedSlot slot now =
      if slot.isSome && !sameVnuRefreshState slot (cleanVnuRefreshState slot now) then
        (Storage.write (cleanVnuRefreshState slot now)).state
      else slot := by
  cases slot with
  | none => rfl
  | some state =>
    by_cases h : cleanVnuRefreshState (some state) now = state
    · simp [cleanedSlot, sameVnuRefreshState, h]
    · simp [cleanedSlot, sameVnuRefreshState, Storage.write, h, Ne.symm h]

/-- After a cleaning the slot holds the cleaned state, or nothing when that is
quiescent. -/
theorem cleanedSlot_cases (slot : Option VnuRefreshControlState) (now : Nat) :
    cleanedSlot slot now = some (cleanVnuRefreshState slot now) ∨
      cleanedSlot slot now = none ∧ isQuiescentVnuRefreshState (cleanVnuRefreshState slot now) = true := by
  cases slot with
  | none => exact .inr ⟨rfl, by rw [clean_none]; rfl⟩
  | some state =>
    simp only [cleanedSlot, Option.bind_some]
    split
    · rename_i h
      rw [h]
      exact .inl rfl
    · split
      · rename_i h
        exact .inr ⟨rfl, h⟩
      · exact .inl rfl

theorem serve_effect (storage : Storage) (call : Call) :
    Effect storage.state call.now call.operation (serve storage call).1 (serve storage call).2.state := by
  unfold serve
  cases h : handle storage call with
  | error error =>
    refine .threw error fun ⟨hvalid, hargs, hrot⟩ => ?_
    rw [← served_state storage call.operation] at hvalid hrot
    have hok := handle_eq_ok.2 (mutate_eq_ok.2 ⟨hvalid, _, applyOperation_eq_ok.2 ⟨hargs, hrot, rfl⟩, rfl, rfl⟩)
    rw [h] at hok
    cases hok
  | ok answer =>
    obtain ⟨result, next⟩ := answer
    obtain ⟨hvalid, output, ho, rfl, rfl⟩ := mutate_eq_ok.1 (handle_eq_ok.1 h)
    obtain ⟨hargs, hrot, rfl⟩ := applyOperation_eq_ok.1 ho
    rw [served_state] at hvalid hrot ⊢
    simp only
    rcases output_cases call.operation storage.state call.now with ⟨result, hr⟩ | ⟨result, state, hs⟩ | hc
    · rw [hr.output_eq]
      simpa [unchanged, served_state] using Effect.refused result hvalid hargs hrot hr
    · rw [hs.output_eq hrot]
      simpa [Storage.write, (hs.fresh hrot).2] using Effect.stored result state hvalid hargs hrot hs
    · obtain ⟨result, hv, ho⟩ := hc.output_eq storage.state call.now
      rw [ho]
      have hslot := Effect.cleaned result hvalid hargs hc hv
      rw [cleanedSlot_eq] at hslot
      split <;> rename_i hchanged
      · rwa [if_pos hchanged] at hslot
      · rw [if_neg hchanged] at hslot
        rwa [served_state]

/-! ## Runs -/

/-- The runs of one principal from empty storage, over any calls. -/
abbrev PrincipalRun := Run serve Call.now (fun _ _ _ => True) Storage.empty

/-- One served call: storage before and after, and the answer. -/
abbrev Served := Step Storage Call (Except String OperationResult)

/-! ## The pairs of `vnu-refresh-control.test.ts` -/

/-- `NOW`, 2036-02-03T04:05:06.000Z. -/
def testNow : Nat := 2085624306000

def testExpiry : Nat := testNow + 8 * 60 * 60 * 1000

def oldPair : LinkedPair :=
  { accessTokenId := "AAAAAAAAAAAAAAAAAAAAAA", accessExpiresAt := testExpiry - 60000
    grantId := "BBBBBBBBBBBBBBBBBBBBBB", grantExpiresAt := testExpiry }

def nextPair : LinkedPair :=
  { accessTokenId := "CCCCCCCCCCCCCCCCCCCCCC", accessExpiresAt := testExpiry + 60000
    grantId := "DDDDDDDDDDDDDDDDDDDDDD", grantExpiresAt := testExpiry }

theorem oldPair_valid : oldPair.Valid := ⟨by decide, by decide, by decide, by decide⟩

/-- What a list of calls does to empty storage. -/
abbrev executed (calls : List Call) : List Served := execute serve Storage.empty calls

theorem executed_run (calls : List Call) (hsorted : (0 :: calls.map Call.now).Pairwise (· ≤ ·)) :
    ∃ storage clock, PrincipalRun (executed calls) storage clock :=
  Run.execute calls .start hsorted fun _ _ _ _ => trivial

end Hyeboard.VnuRefresh
