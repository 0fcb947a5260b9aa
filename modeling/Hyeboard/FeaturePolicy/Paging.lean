import Mathlib.Data.List.Sort
import Hyeboard.FeaturePolicy.History
/-!
# Paging through the history

`history` of the four stores, and a reader who follows `nextBeforeRevision`
while others publish. The pages are the entries below the first bound, newest
first, however many come on top in the meantime.
-/

namespace Hyeboard.FeaturePolicy

structure HistoryInput where
  beforeRevision : Option Nat
  limit : Nat
deriving DecidableEq

structure HistoryPage where
  items : List FeaturePolicyAuditEntry
  nextBeforeRevision : Option Nat
deriving DecidableEq

def maxHistoryLimit : Nat := 100

def invalidHistory : PolicyError := .hyeboard "ADMIN_POLICY_INVALID" "Feature policy history request is invalid." 400 []

def parseHistoryInput (input : HistoryInput) : Except PolicyError HistoryInput := do
  require invalidHistory (PositiveSafe input.limit)
  require invalidHistory (input.beforeRevision.all (PositiveSafe ·))
  return { input with limit := min input.limit maxHistoryLimit }

/-- `items` and, if `more`, the revision of the last of them. -/
def historyPage (items : List FeaturePolicyAuditEntry) (more : Bool) : HistoryPage :=
  { items, nextBeforeRevision := if more then items.getLast?.map (·.revision) else none }

def MemoryStore.eligible (store : MemoryStore) : Option Nat → List FeaturePolicyAuditEntry
  | none => store.entries
  | some beforeRevision => store.entries.filter (·.revision < beforeRevision)

def MemoryStore.history (store : MemoryStore) (input : HistoryInput) : Except PolicyError HistoryPage := do
  let { beforeRevision, limit } ← parseHistoryInput input
  let eligible := store.eligible beforeRevision
  let items ← (eligible.take limit).mapM parseAuditEntry
  return historyPage items (items.length < eligible.length)

/-- Newest first. -/
def newerFirst (entry other : FeaturePolicyAuditEntry) : Prop := other.revision ≤ entry.revision

instance : DecidableRel newerFirst := fun entry other => inferInstanceAs (Decidable (other.revision ≤ entry.revision))

instance : Std.Total newerFirst := ⟨fun entry other => Nat.le_total other.revision entry.revision⟩

instance : IsTrans FeaturePolicyAuditEntry newerFirst := ⟨fun _ _ _ hfirst hsecond => Nat.le_trans hsecond hfirst⟩

/-- SELECT ... WHERE revision < before ORDER BY revision DESC LIMIT limit. -/
def PolicyTables.select (tables : PolicyTables) (before limit : Nat) : List HistoryRow :=
  ((tables.history.filter (·.revision < before)).insertionSort newerFirst).take limit

/-- `sentinel` is the bound of a first request that has none. -/
def PolicyTables.page (dialect : Dialect) (sentinel : Nat) (tables : PolicyTables) (input : HistoryInput) :
    Except PolicyError HistoryPage := do
  let { beforeRevision, limit } ← parseHistoryInput input
  let rows := tables.select (beforeRevision.getD sentinel) (limit + 1)
  let items ← (rows.take limit).mapM (PolicyTables.parseEntry dialect)
  return historyPage items (limit < rows.length)

structure PagedStore extends PolicyStore where
  page : State → HistoryInput → Except PolicyError HistoryPage
  /-- What stands for no bound, in the stores that need one. -/
  sentinel : Option Nat

def pagedMemoryStore : PagedStore := { memoryStore with page := MemoryStore.history, sentinel := none }

def pagedDatabase (dialect : Dialect) (sentinel : Nat) : PagedStore :=
  { databaseStore dialect with page := PolicyTables.page dialect sentinel, sentinel := some sentinel }

/-- `AFTER_ALL_SAFE_REVISIONS`. -/
def afterAllSafeRevisions : Nat := 9007199254740992

def pagedStores (order : KeyOrder) : List PagedStore :=
  [pagedMemoryStore, pagedDatabase durableObjectDialect maxSafeInteger,
    pagedDatabase (postgresDialect order) afterAllSafeRevisions, pagedDatabase sqliteDialect maxSafeInteger]

/-! ## A reader -/

/-- One request of a reader: its limit, and the calls that are served behind it. -/
structure Visit where
  limit : Nat
  calls : List Call

structure Reading (store : PagedStore) where
  clients : Clients store.toPolicyStore
  /-- The bound of the next request; none is a request without one. -/
  beforeRevision : Option Nat
  read : List FeaturePolicyAuditEntry
  finished : Bool

section
variable {store : PagedStore}

def Reading.visit (reading : Reading store) (visit : Visit) : Except PolicyError (Reading store) :=
  if reading.finished then .ok reading
  else do
    let page ← store.page reading.clients.storage { beforeRevision := reading.beforeRevision, limit := visit.limit }
    return {
      clients := stateAfter serve reading.clients visit.calls
      beforeRevision := page.nextBeforeRevision
      read := reading.read ++ page.items
      finished := page.nextBeforeRevision.isNone }

/-- From a first request on. -/
def follow (clients : Clients store.toPolicyStore) (beforeRevision : Option Nat) (visits : List Visit) :
    Except PolicyError (Reading store) :=
  visits.foldlM Reading.visit { clients, beforeRevision, read := [], finished := false }

end

/-! ## A page of a log -/

/-- How many entries have a revision below the bound. -/
def PolicyLog.countBelow (log : PolicyLog) : Option Nat → Nat
  | none => log.entries.length
  | some bound => min (bound - 1) log.entries.length

/-- The entries below the bound, newest first. -/
def PolicyLog.below (log : PolicyLog) (bound : Option Nat) : List FeaturePolicyAuditEntry :=
  (log.entries.filter fun entry => bound.all (entry.revision < ·)).reverse

/-- The page a log has. -/
def PolicyLog.page (log : PolicyLog) (bound : Option Nat) (limit : Nat) : HistoryPage :=
  historyPage ((log.below bound).take limit) (limit < log.countBelow bound)

section
variable {log : PolicyLog} {bound : Option Nat}

/-- Revisions count the entries. -/
theorem filter_lt_revision {entries : List FeaturePolicyAuditEntry} {start : Nat}
    (h : ∀ (n : Nat) entry, entries[n]? = some entry → entry.revision = start + n + 1) (bound : Nat) :
    (entries.filter fun entry => entry.revision < bound) = entries.take (bound - 1 - start) := by
  induction entries generalizing start with
  | nil => simp
  | cons entry rest ih =>
    have hentry : entry.revision = start + 1 := h 0 entry rfl
    have hrest : ∀ (n : Nat) other, rest[n]? = some other → other.revision = start + 1 + n + 1 := by
      intro n other hother
      have := h (n + 1) other hother
      omega
    rw [List.filter_cons, ih hrest]
    by_cases hlt : entry.revision < bound
    · rw [if_pos (by simpa using hlt)]
      have hcount : bound - 1 - start = bound - 1 - (start + 1) + 1 := by omega
      rw [hcount, List.take_succ_cons]
    · rw [if_neg (by simpa using hlt)]
      have hcount : bound - 1 - start = 0 := by omega
      have hnone : bound - 1 - (start + 1) = 0 := by omega
      rw [hcount, hnone, List.take_zero, List.take_zero]

theorem PolicyLog.filter_eq (log : PolicyLog) (bound : Nat) :
    (log.entries.filter fun entry => entry.revision < bound) = log.entries.take (bound - 1) := by
  have hrevisions : ∀ (n : Nat) entry, log.entries[n]? = some entry → entry.revision = 0 + n + 1 := by
    intro n entry hget
    rw [(log.linear n entry hget).revision, Nat.zero_add]
  exact filter_lt_revision hrevisions bound

theorem PolicyLog.below_eq (log : PolicyLog) (bound : Option Nat) : log.below bound = (log.entries.take (log.countBelow bound)).reverse := by
  cases bound with
  | none => simp [below, countBelow]
  | some bound =>
    have hfilter := log.filter_eq bound
    simp only [below, countBelow, Option.all_some]
    rw [hfilter, List.take_eq_take_min]

theorem PolicyLog.countBelow_le (log : PolicyLog) (bound : Option Nat) : log.countBelow bound ≤ log.entries.length := by
  cases bound with
  | none => exact le_refl _
  | some bound => exact min_le_right _ _

@[simp] theorem PolicyLog.length_below : (log.below bound).length = log.countBelow bound := by
  rw [below_eq, List.length_reverse, List.length_take, min_eq_left (log.countBelow_le bound)]

/-- Newer entries have greater revisions. -/
theorem PolicyLog.below_decreasing (log : PolicyLog) (bound : Option Nat) :
    (log.below bound).Pairwise fun entry other => other.revision < entry.revision := by
  have hascending : log.entries.Pairwise fun entry other => entry.revision < other.revision := by
    rw [List.pairwise_iff_getElem]
    intro i j hi hj hij
    have hfirst := (log.linear i _ (List.getElem?_eq_getElem hi)).revision
    have hsecond := (log.linear j _ (List.getElem?_eq_getElem hj)).revision
    omega
  rw [below, List.pairwise_reverse]
  exact hascending.filter _

/-! ## The pages of the stores -/

/-- The pages of the store are those of its log. -/
def Pages (store : PagedStore) (rep : store.State → PolicyLog → Prop) : Prop :=
  ∀ state log input, rep state log → PositiveSafe input.limit → (∀ bound ∈ input.beforeRevision, PositiveSafe bound) →
    store.page state input = .ok (log.page (input.beforeRevision.or store.sentinel) (min input.limit maxHistoryLimit))

theorem parseHistoryInput_ok {input : HistoryInput} (hlimit : PositiveSafe input.limit)
    (hbound : ∀ bound ∈ input.beforeRevision, PositiveSafe bound) :
    parseHistoryInput input = .ok { input with limit := min input.limit maxHistoryLimit } := by
  have hall : input.beforeRevision.all (PositiveSafe ·) = true := by
    cases hbefore : input.beforeRevision with
    | none => rfl
    | some bound => simpa using hbound bound hbefore
  simp only [parseHistoryInput, bind_eq_ok, require_eq_ok, pure_eq_ok, decide_eq_true_eq]
  exact ⟨(), hlimit, (), hall, trivial⟩

theorem mem_below {entry : FeaturePolicyAuditEntry} (h : entry ∈ log.below bound) : entry ∈ log.entries := by
  rw [PolicyLog.below, List.mem_reverse] at h
  exact (List.mem_filter.1 h).1

/-- Every entry of a log is parsed as it is. -/
theorem mapM_entries {parse : FeaturePolicyAuditEntry → Except PolicyError FeaturePolicyAuditEntry}
    (hparse : ∀ n entry, Follows entry n → parse entry = .ok entry) {entries : List FeaturePolicyAuditEntry}
    (hmem : ∀ entry ∈ entries, entry ∈ log.entries) : entries.mapM parse = .ok entries := by
  rw [mapM_eq_ok]
  induction entries with
  | nil => exact .nil
  | cons entry rest ih =>
    rw [List.forall_mem_cons] at hmem
    obtain ⟨n, hn⟩ := List.mem_iff_getElem?.1 hmem.1
    exact .cons (hparse n entry (log.linear n entry hn)) (ih hmem.2)

theorem mapM_page {parse : FeaturePolicyAuditEntry → Except PolicyError FeaturePolicyAuditEntry}
    (hparse : ∀ n entry, Follows entry n → parse entry = .ok entry) (log : PolicyLog) (bound : Option Nat) (limit : Nat) :
    ((log.below bound).take limit).mapM parse = .ok ((log.below bound).take limit) :=
  mapM_entries hparse fun _ hentry => mem_below (List.mem_of_mem_take hentry)

theorem eligible_eq {store : MemoryStore} (h : store.rep log) (bound : Option Nat) : store.eligible bound = log.below bound := by
  cases bound with
  | none => simp [MemoryStore.eligible, PolicyLog.below, h.2]
  | some bound => simp only [MemoryStore.eligible, PolicyLog.below, h.2, Option.all_some, List.filter_reverse]

theorem history_eq {store : MemoryStore} (h : store.rep log) {input : HistoryInput} (hlimit : PositiveSafe input.limit)
    (hbound : ∀ bound ∈ input.beforeRevision, PositiveSafe bound) :
    store.history input = .ok (log.page input.beforeRevision (min input.limit maxHistoryLimit)) := by
  have hitems := mapM_page (fun _ _ hfollows => hfollows.parsed) log input.beforeRevision (min input.limit maxHistoryLimit)
  unfold MemoryStore.history
  rw [parseHistoryInput_ok hlimit hbound]
  simp only [bind, Except.bind, eligible_eq h, hitems, pure, Except.pure]
  rw [PolicyLog.page]
  congr 2
  rw [List.length_take, PolicyLog.length_below]
  congr 1
  exact propext ⟨fun _ => by omega, fun _ => by omega⟩

theorem memory_pages : Pages pagedMemoryStore MemoryStore.rep := by
  intro store log input hrep hlimit hbound
  have hsentinel : input.beforeRevision.or pagedMemoryStore.sentinel = input.beforeRevision := Option.or_none
  rw [hsentinel]
  exact history_eq hrep hlimit hbound

/-- Sorted from the newest on, the rows below a bound are the reverse of their insertion. -/
theorem select_eq {tables : PolicyTables} (h : tables.rep log) (bound limit : Nat) :
    tables.select bound limit = (log.below (some bound)).take limit := by
  have hperm : ((tables.history.filter (·.revision < bound)).insertionSort newerFirst).Perm (log.below (some bound)) := by
    rw [h.2, PolicyLog.below]
    exact (List.perm_insertionSort _ _).trans (List.reverse_perm _).symm
  have hsorted : ((tables.history.filter (·.revision < bound)).insertionSort newerFirst).Pairwise newerFirst :=
    List.pairwise_insertionSort _ _
  have hbelow : (log.below (some bound)).Pairwise newerFirst := (log.below_decreasing _).imp Nat.le_of_lt
  -- a revision has one entry
  have hsame : ∀ entry other, entry ∈ log.below (some bound) → other ∈ log.below (some bound) → newerFirst entry other →
      newerFirst other entry → entry = other := by
    intro entry other hentry hother hle hge
    obtain ⟨n, hn⟩ := List.mem_iff_getElem?.1 (mem_below hentry)
    obtain ⟨m, hm⟩ := List.mem_iff_getElem?.1 (mem_below hother)
    have hfirst := (log.linear n entry hn).revision
    have hsecond := (log.linear m other hm).revision
    simp only [newerFirst] at hle hge
    have hnm : n = m := by omega
    rw [← hnm, hn, Option.some_inj] at hm
    exact hm
  rw [PolicyTables.select, hperm.eq_of_pairwise (fun entry other hentry => hsame entry other (hperm.mem_iff.1 hentry)) hsorted hbelow]

theorem page_eq {dialect : Dialect} {sentinel : Nat} {tables : PolicyTables} (h : tables.rep log) {input : HistoryInput}
    (hlimit : PositiveSafe input.limit) (hbound : ∀ bound ∈ input.beforeRevision, PositiveSafe bound) :
    tables.page dialect sentinel input =
      .ok (log.page (input.beforeRevision.or (some sentinel)) (min input.limit maxHistoryLimit)) := by
  have hgetD : some (input.beforeRevision.getD sentinel) = input.beforeRevision.or (some sentinel) := by
    cases input.beforeRevision with
    | none => rfl
    | some bound => rfl
  have hparse : ∀ n row, Follows row n → PolicyTables.parseEntry dialect row = .ok row := fun _ _ hfollows => parseEntry_eq hfollows
  have hitems := mapM_page hparse log (input.beforeRevision.or (some sentinel)) (min input.limit maxHistoryLimit)
  unfold PolicyTables.page
  rw [parseHistoryInput_ok hlimit hbound]
  simp only [bind, Except.bind, select_eq h, hgetD, List.take_take, pure, Except.pure]
  rw [min_eq_left (Nat.le_succ _)]
  simp only [hitems]
  rw [PolicyLog.page]
  congr 2
  -- the one more row there is room for
  rw [List.length_take, PolicyLog.length_below]
  congr 1
  exact propext ⟨fun _ => by omega, fun _ => by omega⟩

theorem database_pages (dialect : Dialect) (sentinel : Nat) : Pages (pagedDatabase dialect sentinel) PolicyTables.rep :=
  fun _ _ _ hrep hlimit hbound => page_eq hrep hlimit hbound

end

/-! ## What is read -/

/-- The reader gets the entries, each once: never anything else, all of them at an absent `nextBeforeRevision`, and comes
to one. -/
def Enumerates (store : PagedStore) (clients : Clients store.toPolicyStore) (beforeRevision : Option Nat)
    (entries : List FeaturePolicyAuditEntry) : Prop :=
  ∀ visits : List Visit, (∀ visit ∈ visits, PositiveSafe visit.limit) → ∃ reading : Reading store,
    follow clients beforeRevision visits = .ok reading ∧ reading.read <+: entries ∧
      (reading.finished = true → reading.read = entries) ∧
      (entries.length ≤ visits.length → visits ≠ [] → reading.finished = true)

section
variable {store : PagedStore} {rep : store.State → PolicyLog → Prop} {clients : Clients store.toPolicyStore}

theorem PolicyLog.length_le (log : PolicyLog) : log.entries.length ≤ maxSafeInteger := by
  by_contra hlong
  have hget := List.getElem?_eq_getElem (l := log.entries) (i := log.entries.length - 1) (by omega)
  have hfollows := log.linear _ _ hget
  have hsafe := hfollows.revisionOk
  rw [hfollows.revision] at hsafe
  have hle : log.entries.length - 1 + 1 ≤ maxSafeInteger := of_decide_eq_true hsafe
  omega

/-- A call leaves the log, or appends to it. -/
theorem Serves.grows {base : PolicyStore} {e : ClientStep base} {log next : PolicyLog} (h : Serves e log next) :
    log.entries <+: next.entries := by
  by_cases hpublished : ∃ entry, e.result = .published entry
  · obtain ⟨entry, hentry⟩ := hpublished
    rw [(h.appended entry hentry).1]
    exact List.prefix_append _ _
  · have hno : ∀ entry, e.result ≠ .published entry := by
      intro entry hentry
      exact hpublished ⟨entry, hentry⟩
    exact ⟨[], by rw [List.append_nil, (h.unchanged hno).2]⟩

/-- So do any number of them. -/
theorem grows_calls (hrefines : Refines store.toPolicyStore rep) (calls : List Call) {log : PolicyLog} (h : LogInv rep clients log) :
    ∃ next, LogInv rep (stateAfter serve clients calls) next ∧ log.entries <+: next.entries := by
  induction calls generalizing clients log with
  | nil => exact ⟨log, h, List.prefix_refl _⟩
  | cons call rest ih =>
    obtain ⟨served, hserved, hserves⟩ := serve_serves hrefines h call
    obtain ⟨next, hnext, hgrows⟩ := ih hserved
    exact ⟨next, hnext, hserves.grows.trans hgrows⟩

/-- A reader who has read all but the first `left` of the entries there were at the start. -/
structure Reading.AtWork (rep : store.State → PolicyLog → Prop) (start : PolicyLog) (entries : List FeaturePolicyAuditEntry)
    (reading : Reading store) (left : Nat) : Prop where
  log : ∃ log, LogInv rep reading.clients log ∧ start.entries <+: log.entries ∧
    log.countBelow (reading.beforeRevision.or store.sentinel) = left
  left_le : left ≤ start.entries.length
  read : reading.read ++ (start.entries.take left).reverse = entries
  safe : ∀ bound ∈ reading.beforeRevision, PositiveSafe bound
  unfinished : reading.finished = false

variable {start : PolicyLog} {entries : List FeaturePolicyAuditEntry} {reading : Reading store} {left : Nat}

/-- The last item of a page that is not the last has the revision above what is left. -/
theorem getLast_page {limit : Nat} (hpos : 0 < limit) (hlimit : limit < left) (hleft : left ≤ start.entries.length) :
    (((start.entries.take left).reverse.take limit).getLast?.map (·.revision)) = some (left - limit + 1) := by
  have hlength : ((start.entries.take left).reverse.take limit).length = limit := by
    rw [List.length_take, List.length_reverse, List.length_take]
    omega
  have hlast : ((start.entries.take left).reverse.take limit)[limit - 1]? = start.entries[left - limit]? := by
    rw [List.getElem?_take_of_lt (by omega), List.getElem?_reverse (by rw [List.length_take]; omega), List.getElem?_take_of_lt
      (by rw [List.length_take]; omega), List.length_take]
    congr 1
    omega
  have hget := List.getElem?_eq_getElem (l := start.entries) (i := left - limit) (by omega)
  rw [List.getLast?_eq_getElem?, hlength, hlast, hget, Option.map_some, (start.linear _ _ hget).revision]

/-- One request reads a page more, and the last one comes when nothing is left. -/
theorem Reading.AtWork.visit (hrefines : Refines store.toPolicyStore rep) (hpages : Pages store rep)
    (h : reading.AtWork rep start entries left) (visit : Visit) (hvisit : PositiveSafe visit.limit) :
    ∃ next, reading.visit visit = .ok next ∧
      ((next.finished = true ∧ next.read = entries) ∨ ∃ left', left' < left ∧ 0 < left' ∧ next.AtWork rep start entries left') := by
  obtain ⟨log, hlog, hstill, hcount⟩ := h.log
  have hpage := hpages _ _ { beforeRevision := reading.beforeRevision, limit := visit.limit } hlog.rep hvisit h.safe
  obtain ⟨later, hlater, hgrows⟩ := grows_calls hrefines visit.calls hlog
  have htake : log.entries.take left = start.entries.take left := by
    obtain ⟨more, hmore⟩ := hstill
    rw [← hmore, List.take_append_of_le_length h.left_le]
  have hbelow : log.below (reading.beforeRevision.or store.sentinel) = (start.entries.take left).reverse := by
    rw [log.below_eq, hcount, htake]
  have hpos : 0 < min visit.limit maxHistoryLimit := by
    have hmax : 0 < maxHistoryLimit := by decide
    have hlimit := hvisit.1
    omega
  simp only [PolicyLog.page, hcount, hbelow] at hpage
  simp only [Reading.visit, h.unfinished, hpage, bind, Except.bind, pure, Except.pure]
  refine ⟨_, rfl, ?_⟩
  by_cases hmore : min visit.limit maxHistoryLimit < left
  · right
    have hlast := getLast_page hpos hmore h.left_le
    have hlength := start.length_le
    have hleft := h.left_le
    have hnext : (historyPage ((start.entries.take left).reverse.take (min visit.limit maxHistoryLimit))
        (decide (min visit.limit maxHistoryLimit < left))).nextBeforeRevision = some (left - min visit.limit maxHistoryLimit + 1) := by
      rw [historyPage, decide_eq_true hmore]
      exact hlast
    refine ⟨left - min visit.limit maxHistoryLimit, by omega, by omega, ⟨later, hlater, hstill.trans hgrows, ?_⟩, by omega, ?_, ?_, ?_⟩
    · simp only [hnext, Option.some_or, PolicyLog.countBelow]
      have hlater := (hstill.trans hgrows).length_le
      omega
    · have hrest : (start.entries.take (left - min visit.limit maxHistoryLimit)).reverse =
          (start.entries.take left).reverse.drop (min visit.limit maxHistoryLimit) := by
        rw [List.drop_reverse, List.length_take, List.take_take]
        congr 2
        omega
      simp only [historyPage, hrest, List.append_assoc, List.take_append_drop]
      exact h.read
    · simp only [hnext, Option.mem_some_iff, forall_eq']
      exact ⟨Nat.succ_pos _, by omega⟩
    · simp only [hnext, Option.isNone_some]
  · left
    constructor
    · simp [historyPage, hmore]
    · have hall : (start.entries.take left).reverse.take (min visit.limit maxHistoryLimit) = (start.entries.take left).reverse := by
        apply List.take_of_length_le
        rw [List.length_reverse, List.length_take]
        omega
      simp only [historyPage, hall]
      exact h.read

theorem finished_visits (visits : List Visit) (h : reading.finished = true) : visits.foldlM Reading.visit reading = .ok reading := by
  induction visits with
  | nil => rfl
  | cons visit rest ih =>
    rw [List.foldlM_cons, Reading.visit, if_pos h]
    exact ih

/-- Any number of requests. -/
theorem Reading.AtWork.visits (hrefines : Refines store.toPolicyStore rep) (hpages : Pages store rep)
    (visits : List Visit) (hvisits : ∀ visit ∈ visits, PositiveSafe visit.limit) (h : reading.AtWork rep start entries left) :
    ∃ last, visits.foldlM Reading.visit reading = .ok last ∧ last.read <+: entries ∧
      (last.finished = true → last.read = entries) ∧ (left ≤ visits.length → visits ≠ [] → last.finished = true) := by
  induction visits generalizing reading left with
  | nil =>
    refine ⟨reading, rfl, ?_, ?_, fun _ hne => absurd rfl hne⟩
    · rw [← h.read]
      exact List.prefix_append _ _
    · rw [h.unfinished]
      intro hfinished
      cases hfinished
  | cons visit rest ih =>
    rw [List.forall_mem_cons] at hvisits
    obtain ⟨next, hnext, ⟨hfinished, hread⟩ | ⟨left', hless, hpos, hwork⟩⟩ := h.visit hrefines hpages visit hvisits.1
    · refine ⟨next, ?_, ⟨[], by rw [List.append_nil, hread]⟩, fun _ => hread, fun _ _ => hfinished⟩
      rw [List.foldlM_cons, hnext]
      exact finished_visits rest hfinished
    · obtain ⟨last, hlast, hbegins, hall, hends⟩ := ih hvisits.2 hwork
      refine ⟨last, ?_, hbegins, hall, fun hlength _ => ?_⟩
      · rw [List.foldlM_cons, hnext]
        exact hlast
      · rw [List.length_cons] at hlength
        apply hends (by omega)
        rintro rfl
        rw [List.length_nil] at hlength
        omega

/-- From wherever the log stands, the entries below the bound of the first request are read. -/
theorem enumerates_below (hrefines : Refines store.toPolicyStore rep) (hpages : Pages store rep) {log : PolicyLog}
    (hlog : LogInv rep clients log) {beforeRevision : Option Nat} (hbefore : ∀ bound ∈ beforeRevision, PositiveSafe bound) :
    Enumerates store clients beforeRevision (log.below (beforeRevision.or store.sentinel)) := by
  intro visits hvisits
  have hwork : ({ clients, beforeRevision, read := [], finished := false } : Reading store).AtWork rep log
      (log.below (beforeRevision.or store.sentinel)) (log.countBelow (beforeRevision.or store.sentinel)) :=
    ⟨⟨log, hlog, List.prefix_refl _, rfl⟩, log.countBelow_le _, (log.below_eq _).symm, hbefore, rfl⟩
  rw [PolicyLog.length_below]
  exact hwork.visits hrefines hpages visits hvisits

/-- A bound that stands for none misses what is not below it. -/
theorem enumerates_iff (hrefines : Refines store.toPolicyStore rep) (hpages : Pages store rep) {log : PolicyLog}
    (hlog : LogInv rep clients log) (hpositive : ∀ sentinel ∈ store.sentinel, 0 < sentinel) {beforeRevision : Option Nat}
    (hbefore : ∀ bound ∈ beforeRevision, PositiveSafe bound) :
    Enumerates store clients beforeRevision (log.below beforeRevision) ↔
      (beforeRevision = none → ∀ sentinel ∈ store.sentinel, log.entries.length < sentinel) := by
  have hbelow := enumerates_below hrefines hpages hlog hbefore
  constructor
  · rintro hall rfl sentinel hsentinel
    rw [Option.mem_def] at hsentinel
    rw [Option.none_or, hsentinel] at hbelow
    by_contra hnot
    -- one entry a page, and a page more than there are entries
    have hvisits : ∀ visit ∈ List.replicate (log.entries.length + 1) ({ limit := 1, calls := [] } : Visit), PositiveSafe visit.limit := by
      intro visit hvisit
      rw [List.eq_of_mem_replicate hvisit]
      decide
    have hne : List.replicate (log.entries.length + 1) ({ limit := 1, calls := [] } : Visit) ≠ [] := by simp
    obtain ⟨last, hlast, -, hread, hends⟩ := hall _ hvisits
    obtain ⟨last', hlast', -, hread', -⟩ := hbelow _ hvisits
    rw [hlast] at hlast'
    cases hlast'
    rw [List.length_replicate, PolicyLog.length_below] at hends
    have hfinished := hends (Nat.le_succ_of_le (log.countBelow_le _)) hne
    have hsame := congrArg List.length ((hread hfinished).symm.trans (hread' hfinished))
    rw [PolicyLog.length_below, PolicyLog.length_below, PolicyLog.countBelow, PolicyLog.countBelow] at hsame
    have hpos := hpositive sentinel hsentinel
    omega
  · intro hreach
    cases beforeRevision with
    | some bound => exact hbelow
    | none =>
      cases hsentinel : store.sentinel with
      | none =>
        rw [hsentinel] at hbelow
        exact hbelow
      | some sentinel =>
        have hlt := hreach rfl sentinel hsentinel
        have hsame : log.below none = log.below (some sentinel) := by
          rw [log.below_eq, log.below_eq, PolicyLog.countBelow, PolicyLog.countBelow]
          congr 2
          omega
        rw [hsentinel, Option.none_or, ← hsame] at hbelow
        exact hbelow

end

/-! ## Every store, from every state that is reached -/

theorem pages_of_mem {order : KeyOrder} {store : PagedStore} (h : store ∈ pagedStores order) :
    (∃ rep, Refines store.toPolicyStore rep ∧ Pages store rep) ∧
      ∀ sentinel ∈ store.sentinel, sentinel = maxSafeInteger ∨ sentinel = afterAllSafeRevisions := by
  simp only [pagedStores, List.mem_cons, List.not_mem_nil, or_false] at h
  rcases h with rfl | rfl | rfl | rfl
  · exact ⟨⟨_, memory_refines, memory_pages⟩, nofun⟩
  · refine ⟨⟨_, database_refines durableObject_sound, database_pages _ _⟩, ?_⟩
    rintro sentinel ⟨⟩
    exact .inl rfl
  · refine ⟨⟨_, database_refines (postgres_sound order), database_pages _ _⟩, ?_⟩
    rintro sentinel ⟨⟩
    exact .inr rfl
  · refine ⟨⟨_, database_refines sqlite_sound, database_pages _ _⟩, ?_⟩
    rintro sentinel ⟨⟩
    exact .inl rfl

/-- Every state that is reached reads as a log. -/
theorem logInv_of_run {store : PolicyStore} {rep : store.State → PolicyLog → Prop} (hrefines : Refines store rep)
    {trace : List (ClientStep store)} {clients : Clients store} {clock : Nat} (h : ClientRun store trace clients clock) :
    ∃ log, LogInv rep clients log := by
  refine h.invariant (fun _ clients _ => ∃ log, LogInv rep clients log) ?_ ?_
  · refine ⟨.empty, hrefines.init, ?_, ?_⟩
    all_goals
      intro _ hmem
      cases hmem
  · rintro _ clients - call - ⟨log, hinv⟩ - -
    obtain ⟨next, hnext, -⟩ := serve_serves hrefines hinv call
    exact ⟨next, hnext⟩

/-- From every state that is reached, whatever is published between the requests: the reader gets the entries below the
bound of the first request, newest first, exactly when the bound is given, the store needs none, or fewer than
`Number.MAX_SAFE_INTEGER` revisions were published. -/
theorem paging_enumerates_iff (order : KeyOrder) (store : PagedStore) (hstore : store ∈ pagedStores order)
    (trace : List (ClientStep store.toPolicyStore)) (clients : Clients store.toPolicyStore) (clock : Nat)
    (hrun : ClientRun store.toPolicyStore trace clients clock) (beforeRevision : Option Nat)
    (hbefore : ∀ bound ∈ beforeRevision, PositiveSafe bound) :
    ∃ log, Represents store.toPolicyStore clients.storage log ∧
      ((log.below beforeRevision).Pairwise fun entry other => other.revision < entry.revision) ∧
      (Enumerates store clients beforeRevision (log.below beforeRevision) ↔
        (beforeRevision = none → store.sentinel = some maxSafeInteger → log.entries.length < maxSafeInteger)) := by
  obtain ⟨⟨rep, hrefines, hpages⟩, hsentinels⟩ := pages_of_mem hstore
  obtain ⟨log, hlog⟩ := logInv_of_run hrefines hrun
  refine ⟨log, hrefines.represents _ _ hlog.rep, log.below_decreasing _, ?_⟩
  have hpositive : ∀ sentinel ∈ store.sentinel, 0 < sentinel := by
    intro sentinel hsentinel
    rcases hsentinels sentinel hsentinel with rfl | rfl
    · decide
    · decide
  rw [enumerates_iff hrefines hpages hlog hpositive hbefore]
  constructor
  · exact fun hreach hnone hsentinel => hreach hnone _ hsentinel
  · intro hreach hnone sentinel hsentinel
    rcases hsentinels sentinel hsentinel with rfl | rfl
    · exact hreach hnone hsentinel
    · exact Nat.lt_succ_of_le log.length_le

/-! ## The last revision -/

/-- The publication on top of `revision` entries. -/
def nextCall (revision : Nat) : Call :=
  { request := .publish { samplePublication with baseRevision := revision }, now := 0, fault := none }

def sqlitePages : PagedStore := pagedDatabase sqliteDialect maxSafeInteger

/-- After three publications. -/
def threePublished : Clients sqlitePages.toPolicyStore := stateAfter serve (Clients.init _) [nextCall 0, nextCall 1, nextCall 2]

/-- A page of two and, after another publication, the rest. -/
def sampleVisits : List Visit := [{ limit := 2, calls := [nextCall 3] }, { limit := 7, calls := [] }]

theorem paging_enumerates_iff_three : ∃ log reading, Represents sqlitePages.toPolicyStore threePublished.storage log ∧
    follow threePublished none sampleVisits = .ok reading ∧ reading.finished = true ∧ reading.read = log.below none ∧
    reading.read.map (·.revision) = [3, 2, 1] := by
  have hstart : ClientRun sqlitePages.toPolicyStore [] (Clients.init _) 0 := .start
  obtain ⟨clock, hrun⟩ := hstart.follow [nextCall 0, nextCall 1, nextCall 2] (by decide) fun _ _ _ => trivial
  have hmem : sqlitePages ∈ pagedStores .asWritten := by simp [pagedStores, sqlitePages]
  have hnone : ∀ bound ∈ (none : Option Nat), PositiveSafe bound := fun _ hbound => by cases hbound
  obtain ⟨log, hlog, -, hiff⟩ := paging_enumerates_iff .asWritten sqlitePages hmem _ threePublished clock hrun none hnone
  have hlength : log.entries.length = 3 := by
    rw [← hlog.history]
    decide +kernel
  have henumerates := hiff.2 fun _ _ => by
    rw [hlength]
    decide
  obtain ⟨reading, hreading, -, hread, hends⟩ := henumerates sampleVisits (by decide)
  have hrevisions : (follow threePublished none sampleVisits).toOption.map (fun reading => (reading.finished, reading.read.map (·.revision))) =
      some (true, [3, 2, 1]) := by
    decide +kernel
  rw [hreading] at hrevisions
  obtain ⟨hfinished, hthree⟩ := Prod.mk.inj (Option.some.inj hrevisions)
  exact ⟨log, reading, hlog, hreading, hfinished, hread hfinished, hthree⟩

/-- As many publications as there are revisions. -/
theorem published_all {store : PolicyStore} {rep : store.State → PolicyLog → Prop} (hrefines : Refines store rep) (n : Nat)
    (hn : n ≤ maxSafeInteger) :
    ∃ log, LogInv rep (stateAfter serve (Clients.init store) ((List.range n).map nextCall)) log ∧ log.entries.length = n := by
  induction n with
  | zero =>
    refine ⟨.empty, ⟨hrefines.init, ?_, ?_⟩, rfl⟩
    all_goals
      intro _ hmem
      cases hmem
  | succ n ih =>
    obtain ⟨log, hlog, hlength⟩ := ih (by omega)
    rw [List.range_succ, List.map_append, stateAfter_append]
    obtain ⟨next, hnext, hserves⟩ := serve_serves hrefines hlog (nextCall n)
    refine ⟨next, hnext, ?_⟩
    have hvalid : validatePolicy samplePublication.policy listUniversities .empty = .ok emptyPolicy := by decide +kernel
    have hprepared : preparePublication { samplePublication with baseRevision := n } =
        .ok { samplePublication with baseRevision := n } := by
      simp only [preparePublication, parsePublication, bind_eq_ok, require_eq_ok, pure_eq_ok]
      exact ⟨_, hvalid, (), decide_eq_true (by omega), (), by decide +kernel, _, by decide +kernel, (), by decide +kernel, rfl⟩
    have hcurrent := log.current_revision
    obtain ⟨entry, hentry⟩ := hserves.succeeds _ _ rfl hprepared rfl (by rw [hcurrent, hlength]) (by omega)
    rw [(hserves.appended entry hentry).1, List.length_append, hlength, List.length_singleton]

/-- After the last publication there can be, the first page of the Durable Object leaves out the newest entry. -/
theorem newest_missed : ∃ clients log, Represents (databaseStore durableObjectDialect) clients.storage log ∧
    (∃ trace clock, ClientRun (databaseStore durableObjectDialect) trace clients clock) ∧
    ¬ Enumerates (pagedDatabase durableObjectDialect maxSafeInteger) clients none (log.below none) := by
  have hrefines := database_refines durableObject_sound
  obtain ⟨log, hlog, hlength⟩ := published_all hrefines maxSafeInteger (le_refl _)
  refine ⟨_, log, hrefines.represents _ _ hlog.rep, ?_, ?_⟩
  · have hclocks : (0 :: ((List.range maxSafeInteger).map nextCall).map fun _ => 0).Pairwise (· ≤ ·) := by
      rw [List.map_map, List.pairwise_iff_getElem]
      intro i j hi hj _
      have hzero : ∀ time ∈ 0 :: (List.range maxSafeInteger).map ((fun _ => 0) ∘ nextCall), time = 0 := by simp
      rw [hzero _ (List.getElem_mem hi), hzero _ (List.getElem_mem hj)]
    have hstart : ClientRun (databaseStore durableObjectDialect) [] (Clients.init _) 0 := .start
    obtain ⟨clock, hrun⟩ := hstart.follow ((List.range maxSafeInteger).map nextCall) hclocks fun _ _ _ => trivial
    exact ⟨_, clock, hrun⟩
  · have hpositive : ∀ sentinel ∈ (pagedDatabase durableObjectDialect maxSafeInteger).sentinel, 0 < sentinel := by
      rintro sentinel ⟨⟩
      decide
    have hnone : ∀ bound ∈ (none : Option Nat), PositiveSafe bound := fun _ hmem => by cases hmem
    rw [enumerates_iff hrefines (database_pages _ _) hlog hpositive hnone]
    intro hreach
    have hlt := hreach rfl maxSafeInteger rfl
    omega

end Hyeboard.FeaturePolicy
