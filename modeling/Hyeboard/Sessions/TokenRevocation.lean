import Hyeboard.Lib.Record
import Hyeboard.Lib.Runs
/-!
# Revoked tokens

`revokeToken` and `isTokenRevoked` of `app.ts`, with the cache they fall back to
outside distributed mode (`cachePut`, `cacheGet`, `createMemoryCache`). The
`SessionRevocationStore` is an exact set with expiries that may throw on any call,
after it recorded a revocation or before.
-/

namespace Hyeboard.Sessions

structure Deployment where
  /-- `haConfig.mode === "distributed"`. -/
  distributed : Bool
  /-- `sessionRevocationStore !== undefined`. -/
  storeInstalled : Bool
  hmacHex : String → String

/-- What the store does on one call. -/
inductive StoreAnswer where
  | answers
  | throws (recorded : Bool)
deriving DecidableEq, Repr

structure RevocationState where
  /-- The store: when the revocation of each token expires. -/
  store : Record Nat
  /-- The memory cache: the `expiresAt` of each entry. -/
  cache : Record Nat

inductive RevocationCall where
  /-- The cache is written `delay` after `now` was read. -/
  | revokeToken (token : String) (expiresAt now delay : Nat) (answer : StoreAnswer)
  | isTokenRevoked (token : String) (now : Nat) (answer : StoreAnswer)
deriving DecidableEq, Repr

inductive RevocationOutcome where
  | returned
  | revoked (answer : Bool)
  /-- `distributedDependencyUnavailable`. -/
  | unavailable (dependency : String)
deriving DecidableEq, Repr

/-! ## The cache -/

/-- `match` of `createMemoryCache`. -/
def cacheMatch (cache : Record Nat) (url : String) (now : Nat) : Bool × Record Nat :=
  match cache.get? url with
  | none => (false, cache)
  | some expiresAt => if expiresAt ≤ now then (false, cache.delete url) else (true, cache)

/-- `put` of `createMemoryCache`, of a response with `max-age`. -/
def cacheStore (cache : Record Nat) (url : String) (maxAgeSeconds now : Nat) : Record Nat :=
  cache.set url (now + maxAgeSeconds * 1000)

def cacheUrl (key : String) : String := "https://hyeboard.internal/cache/" ++ key

def cachePut (cache : Record Nat) (key : String) (maxAgeSeconds now : Nat) : Record Nat :=
  if maxAgeSeconds = 0 then cache else cacheStore cache (cacheUrl key) maxAgeSeconds now

/-- Whether `cacheGet` finds a value. -/
def cacheGet (cache : Record Nat) (key : String) (now : Nat) : Bool × Record Nat := cacheMatch cache (cacheUrl key) now

/-! ## The store -/

def storeRevoke (store : Record Nat) (token : String) (expiresAt : Nat) : Record Nat :=
  store.set token (max ((store.get? token).getD 0) expiresAt)

def storeRevoked (store : Record Nat) (token : String) (now : Nat) : Bool :=
  (store.get? token).any (now < ·)

/-! ## Calls -/

/-- `Math.max(0, Math.floor((Date.parse(expiresAt) - Date.now()) / 1000))`. -/
def ttlSeconds (expiresAt now : Nat) : Nat := (expiresAt - now) / 1000

namespace Deployment

variable (deployment : Deployment)

def revokedTokenKey (token : String) : String := "revoked-token/" ++ deployment.hmacHex token

def revokeToken (s : RevocationState) (token : String) (expiresAt now delay : Nat) (answer : StoreAnswer) :
    RevocationOutcome × RevocationState :=
  let written := { s with store := storeRevoke s.store token expiresAt }
  let cached (s : RevocationState) :=
    { s with cache := cachePut s.cache (deployment.revokedTokenKey token) (ttlSeconds expiresAt now) (now + delay) }
  if deployment.storeInstalled then
    match answer with
    | .answers => (.returned, written)
    | .throws recorded =>
      let s := if recorded then written else s
      if deployment.distributed then (.unavailable "PostgreSQL session revocation", s) else (.returned, cached s)
  else if deployment.distributed then (.unavailable "PostgreSQL session revocation", s)
  else (.returned, cached s)

def isTokenRevoked (s : RevocationState) (token : String) (now : Nat) (answer : StoreAnswer) :
    RevocationOutcome × RevocationState :=
  let found := cacheGet s.cache (deployment.revokedTokenKey token) now
  let cached := (RevocationOutcome.revoked found.1, { s with cache := found.2 })
  if deployment.storeInstalled then
    match answer with
    | .answers => (.revoked (storeRevoked s.store token now), s)
    | .throws _ => if deployment.distributed then (.unavailable "PostgreSQL session revocation", s) else cached
  else if deployment.distributed then (.unavailable "PostgreSQL session revocation", s)
  else cached

def handle (s : RevocationState) : RevocationCall → RevocationOutcome × RevocationState
  | .revokeToken token expiresAt now delay answer => deployment.revokeToken s token expiresAt now delay answer
  | .isTokenRevoked token now answer => deployment.isTokenRevoked s token now answer

end Deployment

end Hyeboard.Sessions
