import Hyeboard.BulkLookup.Request
/-!
# A bulk lookup, chunk by chunk

`executeBulkLookup` of the web client (`lib/lookup/bulk-lookup.ts`): the chunks are
requested one after another, and a run ends with the targets it did not get to. The
page (`pages/lookup/lookup.tsx`) runs these again, from the progress of the run.
-/

namespace Hyeboard.BulkLookup

/-- `VNU_REQUEST_NOT_REPLAYED`. -/
def vnuRequestNotReplayed : String := "VNU_REQUEST_NOT_REPLAYED"

/-- What `requestChunk` can reject with, other than `undefined`. -/
inductive Thrown where
  | apiError (code : String)
  | other (message : String)
deriving DecidableEq, Repr

def invalidResponse : Thrown := .other "Invalid bulk lookup response"

section
variable {Outcome : Type}

/-- A target, and its result or error code. -/
structure VnuBulkLookupItem (Outcome : Type) where
  target : String
  outcome : Outcome
deriving DecidableEq, Repr

structure BulkLookupProgress (Outcome : Type) where
  processed : Int
  total : Int
  items : List (VnuBulkLookupItem Outcome)
deriving DecidableEq, Repr

/-- What a run returns. An error `undefined` is no error. -/
structure BulkLookupExecution (Outcome : Type) where
  progress : BulkLookupProgress Outcome
  remainingTargets : List String
  error : Option Thrown
  aborted : Bool
  restoredWithoutReplay : Bool
deriving DecidableEq, Repr

structure ExecuteBulkLookupOptions (Outcome : Type) where
  mode : VnuBulkLookupMode
  targets : List String
  initialProgress : Option (BulkLookupProgress Outcome)
  directChunkMaxTargets : Option Nat

/-- One call of `requestChunk`: what it settles with, whether the signal aborts meanwhile, and whether it does so in the call of
`onProgress` behind it. -/
structure Reply (Outcome : Type) where
  answer : Except (Option Thrown) (List (VnuBulkLookupItem Outcome))
  abortsMeanwhile : Bool
  abortsInProgress : Bool

/-- The chunks that a run requested, and what it returned. -/
structure BulkRun (Outcome : Type) where
  requested : List (List String)
  execution : BulkLookupExecution Outcome

/-- `targetsMatch`. -/
def targetsMatch (items : List (VnuBulkLookupItem Outcome)) (chunk : List String) : Bool :=
  items.length == chunk.length && (items.zip chunk).all fun (item, target) => item.target == target

def BulkLookupProgress.add (progress : BulkLookupProgress Outcome) (items : List (VnuBulkLookupItem Outcome)) : BulkLookupProgress Outcome :=
  { progress with processed := min progress.total (progress.items ++ items).length, items := progress.items ++ items }

/-- The loop over the chunks, from request `k` on. -/
def executeChunks (targets : List String) (replies : Nat → Reply Outcome) : List (List String) → (k completedTargets : Nat) →
    (aborted : Bool) → BulkLookupProgress Outcome → BulkRun Outcome
  | [], _, _, _, progress => ⟨[], ⟨progress, [], none, false, false⟩⟩
  | chunk :: rest, k, completedTargets, aborted, progress =>
    let remainingTargets := targets.drop completedTargets
    if aborted then ⟨[], ⟨progress, remainingTargets, none, true, false⟩⟩
    else
      let reply := replies k
      match reply.answer with
      | .error thrown =>
        let aborted := reply.abortsMeanwhile
        let restoredWithoutReplay := ! aborted && thrown == some (.apiError vnuRequestNotReplayed)
        ⟨[chunk], ⟨progress, remainingTargets, if aborted || restoredWithoutReplay then none else thrown, aborted, restoredWithoutReplay⟩⟩
      | .ok items =>
        if reply.abortsMeanwhile then ⟨[chunk], ⟨progress, remainingTargets, none, true, false⟩⟩
        else if ! targetsMatch items chunk then ⟨[chunk], ⟨progress, remainingTargets, some invalidResponse, false, false⟩⟩
        else
          let run := executeChunks targets replies rest (k + 1) (completedTargets + chunk.length) reply.abortsInProgress (progress.add items)
          ⟨chunk :: run.requested, run.execution⟩

def ExecuteBulkLookupOptions.initial (options : ExecuteBulkLookupOptions Outcome) : BulkLookupProgress Outcome :=
  options.initialProgress.getD ⟨0, options.targets.length, []⟩

/-- A run whose signal has maybe aborted already. -/
def executeBulkLookup (options : ExecuteBulkLookupOptions Outcome) (replies : Nat → Reply Outcome) (aborted : Bool) : BulkRun Outcome :=
  executeChunks options.targets replies (chunkBulkTargets options.mode options.targets options.directChunkMaxTargets) 0 0 aborted
    options.initial

/-! ## One run -/

/-- The requests from `k` on that were accepted: their answers have an item for each target of their chunks. -/
def Accepted (replies : Nat → Reply Outcome) : Nat → List (List String) → List (List (VnuBulkLookupItem Outcome)) → Prop
  | _, [], [] => True
  | k, chunk :: chunks, items :: more =>
    (replies k).answer = .ok items ∧ (replies k).abortsMeanwhile = false ∧ items.map (·.target) = chunk ∧ Accepted replies (k + 1) chunks more
  | _, _, _ => False

/-- Another request may follow. -/
def Reply.Continues (reply : Reply Outcome) (chunk : List String) : Prop :=
  ∃ items, reply.answer = .ok items ∧ items.map (·.target) = chunk ∧ reply.abortsMeanwhile = false ∧ reply.abortsInProgress = false

/-- The ways in which a run can end. -/
inductive Ending where
  | completed
  | aborted
  | error
  | restoredWithoutReplay
deriving DecidableEq, Repr

/-- Whether an execution shows an ending. -/
def BulkLookupExecution.shows (execution : BulkLookupExecution Outcome) : Ending → Prop
  | .completed => execution.remainingTargets = []
  | .aborted => execution.aborted = true
  | .error => execution.error.isSome = true
  | .restoredWithoutReplay => execution.restoredWithoutReplay = true

/-- What has been appended to a progress. Its count is computed with its first items. -/
def BulkLookupProgress.extend (progress : BulkLookupProgress Outcome) (items : List (VnuBulkLookupItem Outcome)) :
    BulkLookupProgress Outcome :=
  if items = [] then progress else progress.add items

variable {replies : Nat → Reply Outcome}

namespace BulkLookupProgress
variable (progress : BulkLookupProgress Outcome) (items more : List (VnuBulkLookupItem Outcome))

@[simp] theorem extend_nil : progress.extend [] = progress := by
  simp [extend]

theorem extend_add (hitems : items ≠ []) : (progress.add items).extend more = progress.extend (items ++ more) := by
  by_cases hmore : more = [] <;> simp [extend, add, hitems, hmore]

theorem extend_extend : (progress.extend items).extend more = progress.extend (items ++ more) := by
  by_cases hitems : items = []
  · simp [hitems]
  · have hadded : progress.extend items = progress.add items := if_neg hitems
    rw [hadded, progress.extend_add items more hitems]

@[simp] theorem extend_total : (progress.extend items).total = progress.total := by
  by_cases hitems : items = [] <;> simp [extend, add, hitems]

@[simp] theorem extend_items : (progress.extend items).items = progress.items ++ items := by
  by_cases hitems : items = [] <;> simp [extend, add, hitems]

theorem extend_processed (h : items ≠ [] ∨ progress.processed = min progress.total progress.items.length) :
    (progress.extend items).processed = min progress.total (progress.items ++ items).length := by
  by_cases hitems : items = []
  · rw [hitems, extend_nil, List.append_nil]
    exact h.resolve_left (· hitems)
  · rw [extend, if_neg hitems]
    rfl

end BulkLookupProgress

theorem targetsMatch_iff {items : List (VnuBulkLookupItem Outcome)} {chunk : List String} :
    targetsMatch items chunk = true ↔ items.map (·.target) = chunk := by
  induction items generalizing chunk with
  | nil => cases chunk <;> simp [targetsMatch]
  | cons item rest ih =>
    cases chunk with
    | nil => simp [targetsMatch]
    | cons target chunk =>
      have hrest := @ih chunk
      simp only [targetsMatch, Bool.and_eq_true, beq_iff_eq] at hrest ⊢
      rw [List.map_cons, List.cons.injEq, ← hrest]
      simp only [List.length_cons, List.zip_cons_cons, List.all_cons, Bool.and_eq_true, beq_iff_eq, Nat.add_right_cancel_iff]
      constructor
      · rintro ⟨hlength, htarget, hall⟩
        exact ⟨htarget, hlength, hall⟩
      · rintro ⟨htarget, hlength, hall⟩
        exact ⟨hlength, htarget, hall⟩

/-- What was accepted has an item for each target. -/
theorem Accepted.targets {k : Nat} {front : List (List String)} {accepted : List (List (VnuBulkLookupItem Outcome))}
    (h : Accepted replies k front accepted) : accepted.flatten.map (·.target) = front.flatten := by
  induction front generalizing k accepted with
  | nil =>
    cases accepted with
    | nil => rfl
    | cons => exact h.elim
  | cons chunk front ih =>
    cases accepted with
    | nil => exact h.elim
    | cons items more =>
      obtain ⟨-, -, htargets, hrest⟩ := h
      rw [List.flatten_cons, List.map_append, htargets, ih hrest, List.flatten_cons]

/-- How a run ends behind the chunks it accepted. -/
structure Ended (replies : Nat → Reply Outcome) (k : Nat) (aborted : Bool) (front back : List (List String)) (run : BulkRun Outcome) :
    Prop where
  /-- One more chunk may have been requested. -/
  requested : run.requested = front ∨ ∃ chunk more, back = chunk :: more ∧ run.requested = front ++ [chunk]
  started : run.requested ≠ [] → aborted = false
  continues : ∀ j chunk, run.requested[j]? = some chunk → j + 1 < run.requested.length → (replies (k + j)).Continues chunk
  remaining : run.execution.remainingTargets = back.flatten
  ending : (∀ j < run.requested.length, (replies (k + j)).answer ≠ .error none) → ∃ ending, ∀ other, run.execution.shows other ↔ other = ending

theorem shows_unique {execution : BulkLookupExecution Outcome} (ending : Ending) (hshows : execution.shows ending)
    (hcompleted : ending ≠ .completed → execution.remainingTargets ≠ []) (haborted : ending ≠ .aborted → execution.aborted = false)
    (herror : ending ≠ .error → execution.error = none) (hrestored : ending ≠ .restoredWithoutReplay → execution.restoredWithoutReplay = false) :
    ∃ ending, ∀ other, execution.shows other ↔ other = ending := by
  refine ⟨ending, fun other => ⟨fun hother => ?_, fun heq => heq ▸ hshows⟩⟩
  by_contra hne
  cases other with
  | completed => exact hcompleted (Ne.symm hne) hother
  | aborted => simp [BulkLookupExecution.shows, haborted (Ne.symm hne)] at hother
  | error => simp [BulkLookupExecution.shows, herror (Ne.symm hne)] at hother
  | restoredWithoutReplay => simp [BulkLookupExecution.shows, hrestored (Ne.symm hne)] at hother

/-- The run from any chunk on. -/
theorem executeChunks_eq {targets : List String} {cut : List (List String)} {k completedTargets : Nat} {aborted : Bool}
    {progress : BulkLookupProgress Outcome} (hcut : targets.drop completedTargets = cut.flatten) (hne : ∀ chunk ∈ cut, chunk ≠ []) :
    ∃ front back accepted, cut = front ++ back ∧ Accepted replies k front accepted ∧
      (executeChunks targets replies cut k completedTargets aborted progress).execution.progress = progress.extend accepted.flatten ∧
      Ended replies k aborted front back (executeChunks targets replies cut k completedTargets aborted progress) := by
  induction cut generalizing k completedTargets aborted progress with
  | nil =>
    refine ⟨[], [], [], rfl, trivial, (progress.extend_nil).symm, .inl rfl, fun h => absurd rfl h, nofun, rfl, fun _ => ?_⟩
    exact shows_unique .completed rfl (fun h => absurd rfl h) (fun _ => rfl) (fun _ => rfl) (fun _ => rfl)
  | cons chunk rest ih =>
    rw [List.forall_mem_cons] at hne
    have hleft : targets.drop completedTargets ≠ [] := by
      rw [hcut, List.flatten_cons]
      exact List.append_ne_nil_of_left_ne_nil hne.1 _
    have hstops : ∀ execution : BulkLookupExecution Outcome, aborted = false → execution.progress = progress →
        execution.remainingTargets = targets.drop completedTargets →
        executeChunks targets replies (chunk :: rest) k completedTargets aborted progress = ⟨[chunk], execution⟩ →
        ((replies k).answer ≠ .error none → ∃ ending, ∀ other, execution.shows other ↔ other = ending) →
        ∃ front back accepted, chunk :: rest = front ++ back ∧ Accepted replies k front accepted ∧
          (executeChunks targets replies (chunk :: rest) k completedTargets aborted progress).execution.progress =
            progress.extend accepted.flatten ∧
          Ended replies k aborted front back (executeChunks targets replies (chunk :: rest) k completedTargets aborted progress) := by
      intro execution haborted hprogress hremaining hrun hending
      rw [hrun]
      refine ⟨[], chunk :: rest, [], rfl, trivial, hprogress.trans progress.extend_nil.symm, .inr ⟨chunk, rest, rfl, rfl⟩, fun _ => haborted, ?_,
        hremaining.trans hcut, ?_⟩
      · intro j _ _ hj
        rw [List.length_singleton] at hj
        omega
      · intro hreplies
        exact hending (hreplies 0 Nat.one_pos)
    cases aborted with
    | true =>
      refine ⟨[], chunk :: rest, [], rfl, trivial, progress.extend_nil.symm, .inl rfl, fun h => absurd rfl h, nofun, hcut, fun _ => ?_⟩
      exact shows_unique .aborted rfl (fun _ => hleft) (fun h => absurd rfl h) (fun _ => rfl) (fun _ => rfl)
    | false =>
      cases hanswer : (replies k).answer with
      | error thrown =>
        apply hstops ⟨progress, targets.drop completedTargets,
          if (replies k).abortsMeanwhile || (! (replies k).abortsMeanwhile && thrown == some (.apiError vnuRequestNotReplayed)) then none
          else thrown,
          (replies k).abortsMeanwhile, ! (replies k).abortsMeanwhile && thrown == some (.apiError vnuRequestNotReplayed)⟩ rfl rfl rfl
        · simp only [executeChunks, hanswer]
          rfl
        · intro hthrown
          cases (replies k).abortsMeanwhile with
          | true => exact shows_unique .aborted rfl (fun _ => hleft) (fun h => absurd rfl h) (fun _ => rfl) (fun _ => rfl)
          | false =>
            by_cases hreplayed : thrown = some (.apiError vnuRequestNotReplayed)
            · subst hreplayed
              exact shows_unique .restoredWithoutReplay rfl (fun _ => hleft) (fun _ => rfl) (fun _ => rfl) (fun h => absurd rfl h)
            · have hrestored : (thrown == some (.apiError vnuRequestNotReplayed)) = false := by simpa using hreplayed
              rw [hrestored]
              have hsome : thrown.isSome = true := by
                rw [Option.isSome_iff_ne_none]
                rintro rfl
                exact hthrown hanswer
              exact shows_unique .error hsome (fun _ => hleft) (fun _ => rfl) (fun h => absurd rfl h) (fun _ => rfl)
      | ok items =>
        cases habort : (replies k).abortsMeanwhile with
        | true =>
          apply hstops ⟨progress, targets.drop completedTargets, none, true, false⟩ rfl rfl rfl
          · simp [executeChunks, hanswer, habort]
          · exact fun _ => shows_unique .aborted rfl (fun _ => hleft) (fun h => absurd rfl h) (fun _ => rfl) (fun _ => rfl)
        | false =>
          cases hmatch : targetsMatch items chunk with
          | false =>
            apply hstops ⟨progress, targets.drop completedTargets, some invalidResponse, false, false⟩ rfl rfl rfl
            · simp [executeChunks, hanswer, habort, hmatch]
            · exact fun _ => shows_unique .error rfl (fun _ => hleft) (fun _ => rfl) (fun h => absurd rfl h) (fun _ => rfl)
          | true =>
            have hrun : executeChunks targets replies (chunk :: rest) k completedTargets false progress =
                ⟨chunk :: (executeChunks targets replies rest (k + 1) (completedTargets + chunk.length) (replies k).abortsInProgress
                    (progress.add items)).requested,
                  (executeChunks targets replies rest (k + 1) (completedTargets + chunk.length) (replies k).abortsInProgress
                    (progress.add items)).execution⟩ := by
              simp [executeChunks, hanswer, habort, hmatch]
            have hbehind : targets.drop (completedTargets + chunk.length) = rest.flatten := by
              rw [← List.drop_drop, hcut, List.flatten_cons, List.drop_left]
            have hitems : items ≠ [] := by
              rintro rfl
              exact hne.1 (targetsMatch_iff.1 hmatch).symm
            obtain ⟨front, back, accepted, hsplit, haccepted, hprogress, hended⟩ := @ih (k + 1) (completedTargets + chunk.length)
              (replies k).abortsInProgress (progress.add items) hbehind hne.2
            rw [hrun]
            refine ⟨chunk :: front, back, items :: accepted, by rw [hsplit, List.cons_append],
              ⟨hanswer, habort, targetsMatch_iff.1 hmatch, haccepted⟩, ?_, ?_, fun _ => rfl, ?_, hended.remaining, ?_⟩
            · rw [hprogress, progress.extend_add _ _ hitems, List.flatten_cons]
            · rcases hended.requested with heq | ⟨next, more, hback, heq⟩
              · exact .inl (by rw [heq])
              · exact .inr ⟨next, more, hback, by rw [heq, List.cons_append]⟩
            · intro j other hother hj
              cases j with
              | zero =>
                cases hother
                refine ⟨items, hanswer, targetsMatch_iff.1 hmatch, habort, hended.started ?_⟩
                intro hnil
                simp [hnil] at hj
              | succ j =>
                have hnext := hended.continues j other hother (by simpa using hj)
                rwa [Nat.add_comm j 1, ← Nat.add_assoc]
            · intro hreplies
              apply hended.ending
              intro j hj
              have hreply := hreplies (j + 1) (by simpa using hj)
              rwa [Nat.add_comm j 1, ← Nat.add_assoc] at hreply

/-! ## Running again -/

/-- What the page runs next. -/
def ExecuteBulkLookupOptions.retry (options : ExecuteBulkLookupOptions Outcome) (execution : BulkLookupExecution Outcome) :
    ExecuteBulkLookupOptions Outcome :=
  { options with targets := execution.remainingTargets, initialProgress := some execution.progress }

/-- A run: how its requests are answered, and whether its signal aborts before it. -/
structure Attempt (Outcome : Type) where
  replies : Nat → Reply Outcome
  aborted : Bool

/-- Runs, each from where the one before it ended. -/
def runAgain (options : ExecuteBulkLookupOptions Outcome) (attempts : List (Attempt Outcome)) : ExecuteBulkLookupOptions Outcome :=
  attempts.foldl (fun options attempt => options.retry (executeBulkLookup options attempt.replies attempt.aborted).execution) options

/-- The items that a chunk is answered with, whenever its answer is not refused. -/
def Attempt.Answers (answer : List String → List (VnuBulkLookupItem Outcome)) (attempt : Attempt Outcome) : Prop :=
  ∀ k chunk items, (attempt.replies k).answer = .ok items → items.map (·.target) = chunk → items = answer chunk

section
variable {options : ExecuteBulkLookupOptions Outcome}

theorem chunkBulkTargets_ne_nil {mode : VnuBulkLookupMode} {targets : List String} {directChunkMaxTargets : Option Nat} :
    ∀ chunk ∈ chunkBulkTargets mode targets directChunkMaxTargets, chunk ≠ [] :=
  fun _ hchunk => ne_nil_of_mem_chunks (chunkSize_pos mode directChunkMaxTargets) hchunk

theorem executeBulkLookup_eq (options : ExecuteBulkLookupOptions Outcome) (replies : Nat → Reply Outcome) (aborted : Bool) :
    ∃ front back accepted, chunkBulkTargets options.mode options.targets options.directChunkMaxTargets = front ++ back ∧
      Accepted replies 0 front accepted ∧
      (executeBulkLookup options replies aborted).execution.progress = options.initial.extend accepted.flatten ∧
      Ended replies 0 aborted front back (executeBulkLookup options replies aborted) := by
  have hcut : options.targets.drop 0 = (chunkBulkTargets options.mode options.targets options.directChunkMaxTargets).flatten := by
    rw [chunkBulkTargets, flatten_chunks (chunkSize_pos _ _), List.drop_zero]
  exact executeChunks_eq hcut chunkBulkTargets_ne_nil

/-- What any number of runs came to. -/
structure CameTo (options : ExecuteBulkLookupOptions Outcome) (front back : List (List String))
    (accepted : List (List (VnuBulkLookupItem Outcome))) (later : ExecuteBulkLookupOptions Outcome) : Prop where
  split : chunkBulkTargets options.mode options.targets options.directChunkMaxTargets = front ++ back
  targets : accepted.flatten.map (·.target) = front.flatten
  progress : later.initial = options.initial.extend accepted.flatten
  remaining : later.targets = back.flatten
  mode : later.mode = options.mode
  direct : later.directChunkMaxTargets = options.directChunkMaxTargets

/-- Chunks that are answered alike are accepted alike. -/
theorem Accepted.eq_answers {answer : List String → List (VnuBulkLookupItem Outcome)} {attempt : Attempt Outcome}
    (hanswers : attempt.Answers answer) {k : Nat} {front : List (List String)} {accepted : List (List (VnuBulkLookupItem Outcome))}
    (h : Accepted attempt.replies k front accepted) : accepted = front.map answer := by
  induction front generalizing k accepted with
  | nil =>
    cases accepted with
    | nil => rfl
    | cons => exact h.elim
  | cons chunk front ih =>
    cases accepted with
    | nil => exact h.elim
    | cons items more =>
      obtain ⟨hanswer, -, htargets, hrest⟩ := h
      rw [List.map_cons, ← ih hrest, ← hanswers k chunk items hanswer htargets]

/-- Runs go on where the run before them ended, with the chunks it did not get to. -/
theorem runAgain_eq (options : ExecuteBulkLookupOptions Outcome) (attempts : List (Attempt Outcome)) :
    ∃ front back accepted, CameTo options front back accepted (runAgain options attempts) ∧
      ∀ answer, (∀ attempt ∈ attempts, attempt.Answers answer) → accepted = front.map answer := by
  induction attempts generalizing options with
  | nil =>
    exact ⟨[], _, [], ⟨rfl, rfl, options.initial.extend_nil.symm, (flatten_chunks (chunkSize_pos _ _) _).symm, rfl, rfl⟩, fun _ _ => rfl⟩
  | cons attempt attempts ih =>
    obtain ⟨front, back, accepted, hsplit, haccepted, hprogress, hended⟩ := executeBulkLookup_eq options attempt.replies attempt.aborted
    obtain ⟨front', back', accepted', hcame, hanswers⟩ := ih (options.retry (executeBulkLookup options attempt.replies attempt.aborted).execution)
    have hback : chunkBulkTargets options.mode (executeBulkLookup options attempt.replies attempt.aborted).execution.remainingTargets
        options.directChunkMaxTargets = back := by
      rw [hended.remaining]
      exact chunks_of_suffix (chunkSize_pos _ _) hsplit
    refine ⟨front ++ front', back', accepted ++ accepted', ⟨?_, ?_, ?_, hcame.remaining, hcame.mode, hcame.direct⟩, ?_⟩
    · rw [hsplit, List.append_assoc, ← hcame.split]
      exact congrArg (front ++ ·) hback.symm
    · rw [List.flatten_append, List.map_append, haccepted.targets, hcame.targets, List.flatten_append]
    · have hinitial : (options.retry (executeBulkLookup options attempt.replies attempt.aborted).execution).initial =
          options.initial.extend accepted.flatten := hprogress
      rw [runAgain, List.foldl_cons, ← runAgain, hcame.progress, hinitial, BulkLookupProgress.extend_extend, List.flatten_append]
    · intro answer hall
      rw [List.forall_mem_cons] at hall
      rw [List.map_append, ← haccepted.eq_answers hall.1, ← hanswers answer hall.2]

theorem CameTo.completed {front back : List (List String)} {accepted : List (List (VnuBulkLookupItem Outcome))}
    {later : ExecuteBulkLookupOptions Outcome} (h : CameTo options front back accepted later) (hnone : later.targets = []) :
    front = chunkBulkTargets options.mode options.targets options.directChunkMaxTargets := by
  cases back with
  | nil => rw [h.split, List.append_nil]
  | cons chunk back =>
    have hne : chunk ≠ [] := chunkBulkTargets_ne_nil chunk (by rw [h.split]; simp)
    rw [h.remaining, List.flatten_cons, List.append_eq_nil_iff] at hnone
    exact absurd hnone.1 hne

end

/-- A run conserves the targets, requests a prefix of the chunks, and ends in one way, unless a request rejects with `undefined`; its
processed count is that of its items if it appended some or started with such a count. Running again comes to the items of one
uninterrupted run. -/
theorem bulk_lookup_conserves (options : ExecuteBulkLookupOptions Outcome) :
    (∀ replies aborted, let run := executeBulkLookup options replies aborted
      (∃ items, run.execution.progress.items = options.initial.items ++ items ∧
        items.map (·.target) ++ run.execution.remainingTargets = options.targets ∧
        (items = [] → run.execution.progress = options.initial) ∧
        (items ≠ [] ∨ options.initial.processed = min options.initial.total options.initial.items.length →
          run.execution.progress.processed = min run.execution.progress.total run.execution.progress.items.length)) ∧
      run.requested <+: chunkBulkTargets options.mode options.targets options.directChunkMaxTargets ∧
      (∀ k chunk, run.requested[k]? = some chunk → k + 1 < run.requested.length → (replies k).Continues chunk) ∧
      (run.requested ≠ [] → aborted = false) ∧
      run.execution.progress.total = options.initial.total ∧
      ((∀ k < run.requested.length, (replies k).answer ≠ .error none) →
        ∃ ending, ∀ other, run.execution.shows other ↔ other = ending)) ∧
    (∀ attempts, ∃ items, (runAgain options attempts).initial.items = options.initial.items ++ items ∧
      items.map (·.target) ++ (runAgain options attempts).targets = options.targets) ∧
    (∀ answer attempts, (∀ attempt ∈ attempts, attempt.Answers answer) → (runAgain options attempts).targets = [] →
      ∀ attempt : Attempt Outcome, attempt.Answers answer →
        (executeBulkLookup options attempt.replies attempt.aborted).execution.remainingTargets = [] →
        (runAgain options attempts).initial.items =
          (executeBulkLookup options attempt.replies attempt.aborted).execution.progress.items) := by
  have hflatten : (chunkBulkTargets options.mode options.targets options.directChunkMaxTargets).flatten = options.targets :=
    flatten_chunks (chunkSize_pos _ _) _
  refine ⟨fun replies aborted => ?_, fun attempts => ?_, fun answer attempts hanswers hnone attempt hattempt hremaining => ?_⟩
  · obtain ⟨front, back, accepted, hsplit, haccepted, hprogress, hended⟩ := executeBulkLookup_eq options replies aborted
    simp only [hprogress, BulkLookupProgress.extend_items, BulkLookupProgress.extend_total]
    refine ⟨⟨accepted.flatten, rfl, ?_, ?_, options.initial.extend_processed _⟩, ?_, ?_, hended.started, trivial, ?_⟩
    · rw [haccepted.targets, hended.remaining, ← List.flatten_append, ← hsplit, hflatten]
    · intro hnone
      rw [hnone, BulkLookupProgress.extend_nil]
    · rw [hsplit]
      rcases hended.requested with heq | ⟨chunk, more, rfl, heq⟩
      · rw [heq]
        exact List.prefix_append _ _
      · rw [heq]
        exact ⟨more, by simp⟩
    · intro k chunk hchunk hk
      have hcontinues := hended.continues k chunk hchunk hk
      rwa [Nat.zero_add] at hcontinues
    · intro hreplies
      apply hended.ending
      intro j hj
      rw [Nat.zero_add]
      exact hreplies j hj
  · obtain ⟨front, back, accepted, hcame, -⟩ := runAgain_eq options attempts
    refine ⟨accepted.flatten, by rw [hcame.progress, BulkLookupProgress.extend_items], ?_⟩
    rw [hcame.targets, hcame.remaining, ← List.flatten_append, ← hcame.split, hflatten]
  · obtain ⟨front, back, accepted, hcame, heq⟩ := runAgain_eq options attempts
    obtain ⟨front', back', accepted', hcame', heq'⟩ := runAgain_eq options [attempt]
    have hsingle : (runAgain options [attempt]).initial = (executeBulkLookup options attempt.replies attempt.aborted).execution.progress := rfl
    have hall := heq answer hanswers
    have hall' := heq' answer (by simpa using hattempt)
    rw [hcame.completed hnone] at hall
    rw [hcame'.completed hremaining] at hall'
    rw [hcame.progress, ← hsingle, hcame'.progress, hall, hall']

def foundIds (chunk : List String) : List (VnuBulkLookupItem String) :=
  chunk.map fun target => ⟨target, "2" ++ target⟩

/-- The answers of one run. Behind them the connection is lost. -/
def answering (chunks : List (List String)) : Attempt String where
  replies k := ⟨chunks[k]?.elim (.error (some (.other "Failed to fetch"))) fun chunk => .ok (foundIds chunk), false, false⟩
  aborted := false

theorem answering_answers (chunks : List (List String)) : (answering chunks).Answers foundIds := by
  intro k chunk items hanswer htargets
  cases hchunk : chunks[k]? with
  | none => simp [answering, hchunk] at hanswer
  | some other =>
    have hitems : foundIds other = items := by simpa [answering, hchunk] using hanswer
    have hother : other = chunk := by rw [← htargets, ← hitems, foundIds, List.map_map]; exact (List.map_id' other).symm
    rw [← hitems, hother]

def fourCodes : ExecuteBulkLookupOptions String :=
  ⟨.codeToStdid, ["23020006", "23020007", "23020008", "23020009"], none, none⟩

/-- A run that loses its connection behind the first three targets, and is run again with the fourth. -/
theorem bulk_lookup_conserves_sample :
    let first := answering [["23020006", "23020007", "23020008"]]
    let second := answering [["23020009"]]
    let whole := answering [["23020006", "23020007", "23020008"], ["23020009"]]
    let run := executeBulkLookup fourCodes first.replies first.aborted
    run.execution = ⟨⟨3, 4, foundIds ["23020006", "23020007", "23020008"]⟩, ["23020009"], some (.other "Failed to fetch"), false, false⟩ ∧
      (∃ ending, ∀ other, run.execution.shows other ↔ other = ending) ∧
      (runAgain fourCodes [first, second]).initial.items = (executeBulkLookup fourCodes whole.replies whole.aborted).execution.progress.items ∧
      (runAgain fourCodes [first, second]).initial.items = foundIds fourCodes.targets := by
  refine ⟨by decide +kernel, ((bulk_lookup_conserves fourCodes).1 _ _).2.2.2.2.2 (by decide +kernel), ?_, by decide +kernel⟩
  refine (bulk_lookup_conserves fourCodes).2.2 foundIds _ ?_ (by decide +kernel) _ (answering_answers _) (by decide +kernel)
  rw [List.forall_mem_cons, List.forall_mem_singleton]
  exact ⟨answering_answers _, answering_answers _⟩

def oneTarget (initialProgress : Option (BulkLookupProgress Unit)) : ExecuteBulkLookupOptions Unit :=
  ⟨.stdidToCode, ["20020001"], initialProgress, none⟩

/-- A progress that is not that of its items stays so, and a request that rejects with `undefined` leaves no sign of it. -/
theorem rejected_without_error :
    (¬ ∀ (options : ExecuteBulkLookupOptions Unit) replies aborted,
      let progress := (executeBulkLookup options replies aborted).execution.progress
      progress.processed = min progress.total progress.items.length) ∧
    (¬ ∀ (options : ExecuteBulkLookupOptions Unit) replies aborted,
      ∃ ending, ∀ other, (executeBulkLookup options replies aborted).execution.shows other ↔ other = ending) := by
  constructor
  · intro hall
    have hfive := hall (oneTarget (some ⟨5, 3, []⟩)) (fun _ => ⟨.error none, false, false⟩) false
    exact absurd hfive (by decide)
  · intro hall
    obtain ⟨ending, hending⟩ := hall (oneTarget none) (fun _ => ⟨.error none, false, false⟩) false
    have hshows := (hending ending).2 rfl
    cases ending with
    | completed => exact absurd hshows (List.cons_ne_nil _ _)
    | aborted => cases hshows
    | error => cases hshows
    | restoredWithoutReplay => cases hshows

end

end Hyeboard.BulkLookup
