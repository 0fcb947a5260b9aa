import Hyeboard.WebSession.Refresh
/-!
# Accounts and requests of the web client

The stored accounts of `lib/api/api.ts`, what may change them, and `request`.
A request that is refused for want of a VNU session waits for a shared refresh
and is then sent once more; that replay is a call of `request` of its own. Every
`await` ends a turn, and other code may change the storage before the next one.
-/

namespace Hyeboard.WebSession

/-- What the client stores. `setItem` throws where a storage is full. -/
structure ClientStorage where
  accounts : List StoredAccount
  activeAccountId : Option String
  grants : String → Option String
  /-- `refreshSuppressedAccounts`. -/
  suppressed : List String
  localFull : Bool
  sessionFull : Bool

/-- The account found first is replaced. -/
def updateFirst (found : StoredAccount → Bool) (f : StoredAccount → StoredAccount) : List StoredAccount → List StoredAccount
  | [] => []
  | account :: rest => if found account then f account :: rest else account :: updateFirst found f rest

def StoredAccount.setToken (account : StoredAccount) (token : String) : StoredAccount := { account with token }

namespace ClientStorage

variable (s : ClientStorage)

def getAccountById (id : String) : Option StoredAccount := s.accounts.find? (·.id = id)

def getActiveAccount : Option StoredAccount := (s.activeAccountId.filter (· ≠ "")).bind s.getAccountById

def switchAccount (id : String) : ClientStorage :=
  if s.accounts.any (·.id = id) then { s with activeAccountId := some id } else s

def removeAccount (id : String) : ClientStorage :=
  let accounts := s.accounts.filter (·.id ≠ id)
  if s.activeAccountId = some id then { s with accounts, activeAccountId := accounts.head?.map (·.id) }
  else { s with accounts }

def clearVnuRefreshGrant (id : String) : ClientStorage := { s with grants := Function.update s.grants id none }

def storeVnuRefreshGrant (id grant : String) : ClientStorage :=
  { s with grants := Function.update s.grants id (some grant) }

def findUnchangedStoredAccount (originatingAccount : StoredAccount) : Option StoredAccount :=
  s.accounts.find? fun account => account.id = originatingAccount.id && account.token = originatingAccount.token

/-- Puts the grant from before a commit back. -/
def restoreGrant (id : String) (previousGrant : Option String) : ClientStorage :=
  match previousGrant.filter (· ≠ "") with
  | some grant => if s.sessionFull then s else s.storeVnuRefreshGrant id grant
  | none => s.clearVnuRefreshGrant id

def commitVnuRefresh (origin : StoredAccount) (result : AuthResult) : Except Thrown Bool × ClientStorage :=
  let unchanged := fun account : StoredAccount => decide (account.id = origin.id ∧ account.token = origin.token)
  match result.refreshGrant.filter (· ≠ "") with
  | none => (.ok false, s)
  | some grant =>
    if !s.accounts.any unchanged || s.activeAccountId ≠ some origin.id then (.ok false, s)
    else if s.sessionFull then (.error .other, s.restoreGrant origin.id (s.grants origin.id))
    else if s.localFull then (.error .other, (s.storeVnuRefreshGrant origin.id grant).restoreGrant origin.id (s.grants origin.id))
    else
      (.ok true, { s.storeVnuRefreshGrant origin.id grant with
        accounts := updateFirst unchanged
          (fun account => { account with token := result.token, studentCode := result.studentCode <|> account.studentCode })
          s.accounts })

def setOriginatingSessionToken (originatingAccount : Option StoredAccount) (token : String) :
    Except Thrown Unit × ClientStorage :=
  match originatingAccount.bind s.findUnchangedStoredAccount with
  | none => (.ok (), s)
  | some current =>
    if current.token = token then (.ok (), s)
    else if s.localFull then (.error .other, s)
    else (.ok (), { s with accounts := updateFirst (·.id = current.id) (·.setToken token) s.accounts })

def removeUnchangedOrigin (account : StoredAccount) : ClientStorage :=
  if s.activeAccountId ≠ some account.id || (s.findUnchangedStoredAccount account).isNone then s
  else (s.clearVnuRefreshGrant account.id).removeAccount account.id

def removeDeadOriginatingAccount (account : StoredAccount) : ClientStorage :=
  match s.findUnchangedStoredAccount account with
  | none => s
  | some unchanged =>
    if unchanged.universityId = "vnu" then (s.clearVnuRefreshGrant unchanged.id).removeAccount unchanged.id
    else s.removeAccount unchanged.id

end ClientStorage

def refreshDeps : VnuRefreshDeps ClientStorage where
  getAccount s id := if id ∈ s.suppressed then none else s.getAccountById id
  getActiveAccountId s := s.activeAccountId
  readVnuRefreshGrant s id := s.grants id
  commit := ClientStorage.commitVnuRefresh
  terminal := ClientStorage.removeUnchangedOrigin

/-! ## Requests -/

inductive VnuRequestPolicy where
  | safeReplay
  | refreshNoReplay
  | never
deriving DecidableEq, Repr

def safePaths : List String :=
  ["profile", "grades", "progress", "exam-base", "exams", "syllabus", "point-detail"].map ("/api/vnu/raw/" ++ ·) ++
  ["dashboard", "terms", "timetable", "courses", "assignments", "grades", "exams", "documents", "tuition", "news",
    "training-points", "requests"].map ("/api/vnu/" ++ ·) ++
  ["catalog", "point-detail"].map ("/api/vnu/class-lookup/" ++ ·)

def startsWith (pathname start : String) : Bool := start.toList.isPrefixOf pathname.toList

/-- `pathname` is the path of the URL. -/
def requestPolicyFor (method pathname : String) : VnuRequestPolicy :=
  let method := method.toUpper
  if method = "POST" ∧ pathname = "/api/vnu/cross-lookup/bulk" then .refreshNoReplay
  else if method = "POST" ∧ startsWith pathname "/api/vnu/cross-lookup/detail" then .refreshNoReplay
  else if method ≠ "GET" then .never
  else if startsWith pathname "/api/vnu/auth/" then .never
  else if startsWith pathname "/api/vnu/cross-lookup/" then .refreshNoReplay
  else if pathname ∈ safePaths then .safeReplay
  else .never

def reducedPolicy (routePolicy : VnuRequestPolicy) (override : Option VnuRequestPolicy) : VnuRequestPolicy :=
  match routePolicy, override with
  | _, some .never => .never
  | .safeReplay, some .refreshNoReplay => .refreshNoReplay
  | routePolicy, _ => routePolicy

/-- What `executeRequest` settles with. -/
inductive Reply where
  | ok (refreshedToken : Option String)
  /-- An `ApiError`, and the `reason` of its details if they hold nothing else. -/
  | failed (code reason : Option String)
  | thrown (error : Thrown)
deriving DecidableEq, Repr

def classifyVnuRecovery (code reason : Option String) : Bool :=
  decide (code = some "VNU_SESSION_EXPIRED" ∨ code = some "VNU_LOGIN_REQUIRED" ∧ reason = some "MISSING_VNU_CREDENTIAL")

def isSessionDeathCode (code : Option String) : Bool :=
  code.any ["MISSING_SESSION", "SESSION_EXPIRED", "INVALID_SESSION"].contains

def normalizeRefreshError : Thrown → Thrown
  | .api code => .api code
  | .aborted _ => .api (some "VNU_REFRESH_CANCELLED")
  | .other => .api (some "VNU_REFRESH_NETWORK_ERROR")

inductive RequestPhase where
  | sending
  /-- The refresh is awaited. -/
  | refreshing (waiter : Nat) (policy : VnuRequestPolicy) (error : Thrown)
  | done (result : Except Thrown Unit)
deriving DecidableEq

structure Request where
  /-- The account that was active when the caller asked. -/
  account : Option StoredAccount
  method : String
  pathname : String
  policy : Option VnuRequestPolicy
  /-- The signal, if any, and its reason if it is aborted. -/
  signal : Option (Option (Option String))
  /-- What this call of `request` took for the active account. -/
  originatingAccount : Option StoredAccount
  /-- The token it sends. -/
  failedToken : Option String
  noRefresh : Bool
  phase : RequestPhase
deriving DecidableEq

structure Client where
  refreshes : Refreshes ClientStorage
  requests : List Request

inductive ClientTurn where
  | start (method pathname : String) (policy : Option VnuRequestPolicy) (signal : Option (Option (Option String)))
  /-- The response to what a request sent; `reauth` if there are credentials and no recent success. -/
  | reply (request : Nat) (reply : Reply) (reauth : Bool)
  /-- A request goes on after its refresh. -/
  | resume (request : Nat)
  | abort (request : Nat) (reason : Option String)
  | fetched (flight : Nat) (result : Except Thrown AuthResult)
  | react (flight : Nat)
  | settle (waiter : Nat)
  /-- Other code runs: it signs in or out, switches accounts or rotates a token. -/
  | other (storage : ClientStorage)

namespace Client

variable (s : Client)

def storage : ClientStorage := s.refreshes.world

def setStorage (storage : ClientStorage) : Client := { s with refreshes := { s.refreshes with world := storage } }

def setRequest (request : Nat) (r : Request) : Client := { s with requests := s.requests.set request r }

/-- The replay of a request normalizes what it throws. -/
def finish (request : Nat) (r : Request) (result : Except Thrown Unit) : Client :=
  s.setRequest request { r with phase := .done (if r.noRefresh then result.mapError normalizeRefreshError else result) }

def start (method pathname : String) (policy : Option VnuRequestPolicy) (signal : Option (Option (Option String))) : Client :=
  let account := s.storage.getActiveAccount
  { s with requests := s.requests ++ [{ account, method, pathname, policy, signal, originatingAccount := account,
                                        failedToken := account.map (·.token), noRefresh := false, phase := .sending }] }

/-- The recovery of a VNU session. -/
def recover (request : Nat) (r : Request) (origin : StoredAccount) (code : Option String) : List DepCall × Client :=
  match r.signal with
  | some (some reason) => ([], s.finish request r (.error (.aborted (reason.getD "This operation was aborted"))))
  | _ =>
    let policy := reducedPolicy (requestPolicyFor r.method r.pathname) r.policy
    if r.noRefresh || policy = .never then ([], s.finish request r (.error (.api code)))
    else if origin.id ∈ s.storage.suppressed then ([], s.finish request r (.error (.api code)))
    else if ((s.storage.grants origin.id).filter (· ≠ "")).isNone then
      ([], (s.setStorage (s.storage.removeUnchangedOrigin origin)).finish request r (.error (.api code)))
    else
      let (calls, refreshes) := refreshDeps.runVnuRefresh s.refreshes origin r.signal
      (calls, { s with refreshes }.setRequest request
        { r with phase := .refreshing s.refreshes.waiters.length policy (.api code) })

/-- A session that died or needs a CAPTCHA. -/
def sessionDeath (r : Request) (code : Option String) (reauth : Bool) : ClientStorage :=
  let sessionDied := isSessionDeathCode code
  if sessionDied || code = some "STUDENTHUB_CAPTCHA_REQUIRED" then
    match r.originatingAccount.bind s.storage.findUnchangedStoredAccount with
    | none => s.storage
    | some current =>
      if s.storage.activeAccountId = some current.id ∧ current.universityId = "uet" ∧ reauth then s.storage
      else if sessionDied then s.storage.removeDeadOriginatingAccount current
      else s.storage
  else s.storage

def refused (request : Nat) (r : Request) (code reason : Option String) (reauth : Bool) : List DepCall × Client :=
  match r.originatingAccount.filter fun origin => origin.universityId = "vnu" && classifyVnuRecovery code reason with
  | some origin => s.recover request r origin code
  | none => ([], (s.setStorage (s.sessionDeath r code reauth)).finish request r (.error (.api code)))

def reply (request : Nat) (answer : Reply) (reauth : Bool) : List DepCall × Client :=
  match s.requests[request]? with
  | none => ([], s)
  | some r =>
    match r.phase with
    | .refreshing .. | .done _ => ([], s)
    | .sending =>
      match answer with
      | .ok refreshedToken =>
        match refreshedToken.filter (· ≠ "") with
        | none => ([], s.finish request r (.ok ()))
        | some token =>
          let (result, storage) := s.storage.setOriginatingSessionToken r.originatingAccount token
          ([], (s.setStorage storage).finish request r result)
      | .thrown error => ([], s.finish request r (.error error))
      | .failed code reason => s.refused request r code reason reauth

/-- The second send: another call of `request`, with the new token. -/
def replay (request : Nat) (r : Request) (token : String) : Client :=
  s.setRequest request
    { r with
      originatingAccount := s.storage.getActiveAccount
      failedToken := some token
      noRefresh := true
      phase := .sending }

def resume (request : Nat) : Client :=
  match s.requests[request]? with
  | none => s
  | some r =>
    match r.phase with
    | .sending | .done _ => s
    | .refreshing waiter policy error =>
      match (s.refreshes.waiters[waiter]?).bind (·.result) with
      | none => s
      | some (.error refreshError) => s.finish request r (.error (normalizeRefreshError refreshError))
      | some (.ok .stale) => s.finish request r (.error error)
      | some (.ok (.committed auth)) =>
        match r.signal with
        | some (some reason) => s.finish request r (.error (.aborted (reason.getD "This operation was aborted")))
        | _ =>
          if policy = .refreshNoReplay then s.finish request r (.error (.api (some "VNU_REQUEST_NOT_REPLAYED")))
          else s.replay request r auth.token

/-- The signal of a request aborts; what it sent rejects in a turn of its own. -/
def abort (request : Nat) (reason : Option String) : List DepCall × Client :=
  match s.requests[request]? with
  | none => ([], s)
  | some r =>
    if r.signal = some none then
      let s := s.setRequest request { r with signal := some (some reason) }
      match r.phase with
      | .refreshing waiter .. =>
        let (calls, refreshes) := refreshDeps.abort s.refreshes waiter reason
        (calls, { s with refreshes })
      | .sending | .done _ => ([], s)
    else ([], s)

/-- A turn of the shared refreshes. -/
def refresh (turn : RefreshTurn ClientStorage) : List DepCall × Client :=
  let (calls, refreshes) := refreshDeps.step s.refreshes turn
  (calls, { s with refreshes })

def step : ClientTurn → List DepCall × Client
  | .start method pathname policy signal => ([], s.start method pathname policy signal)
  | .reply request answer reauth => s.reply request answer reauth
  | .resume request => ([], s.resume request)
  | .abort request reason => s.abort request reason
  | .fetched flight result => s.refresh (.fetched flight result)
  | .react flight => s.refresh (.react flight)
  | .settle waiter => s.refresh (.settle waiter)
  | .other storage => s.refresh (.other storage)

/-- The client as a page load finds it. -/
def opened (storage : ClientStorage) : Client := { refreshes := VnuRefreshDeps.start storage, requests := [] }

end Client

end Hyeboard.WebSession
