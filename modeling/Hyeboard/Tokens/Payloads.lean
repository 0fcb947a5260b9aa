import Hyeboard.Lib.Numbers
import Hyeboard.Lib.JsValue
/-!
# What tokens carry

The checks of `packages/core` on a session, on a reconnect grant and on the envelope of
a cross-detail permit, made before one is encrypted and after one was decrypted.
-/

namespace Hyeboard.Tokens

structure HyeboardError where
  code : String
  message : String
  status : Nat
  /-- The only detail there is. -/
  retryAfterSeconds : Option Nat
deriving DecidableEq

def weakSessionSecret : HyeboardError := ⟨"WEAK_SESSION_SECRET", "HYEB_SESSION_SECRET must be at least 32 characters", 500, none⟩

def invalidSession : HyeboardError := ⟨"INVALID_SESSION", "Invalid session token", 401, none⟩

def sessionExpired : HyeboardError := ⟨"SESSION_EXPIRED", "Session expired", 401, none⟩

def invalidVnuRefreshGrant : HyeboardError := ⟨"VNU_REFRESH_GRANT_INVALID", "The VNU reconnect grant is invalid or expired.", 401, none⟩

def oversizedVnuRefreshGrant : HyeboardError :=
  ⟨"VNU_REFRESH_GRANT_TOO_LARGE", "The VNU reconnect credentials are too large to store safely.", 400, none⟩

def invalidVnuCrossDetailPermit : HyeboardError :=
  ⟨"VNU_CROSS_DETAIL_PERMIT_INVALID", "The cross-detail permit is invalid or expired.", 403, none⟩

/-- What the checks ask of the runtime: Unicode's lower case, and dates. -/
structure Platform where
  toLowerCase : Text → Text
  /-- `new Date(value).getTime()`, none where that is `NaN`. -/
  getTime : Option Json → Option Int
  /-- `new Date(time).toISOString()`, none where that throws. -/
  toISOString : Int → Option Text

/-! ## Properties -/

abbrev JsonObject := List (Text × Json)

/-- `value[key]`, none where it is `undefined`. -/
def get (value : JsonObject) (key : String) : Option Json := value.lookup (units key)

def hasExactKeys (value : JsonObject) (allowedKeys requiredKeys : List String) : Bool :=
  value.all (fun field => allowedKeys.any fun key => units key = field.1) &&
    requiredKeys.all fun key => value.any fun field => field.1 = units key

/-- `value === expected`. -/
def isString (expected : Text) : Option Json → Bool
  | some (.str s) => s = expected
  | _ => false

/-- `value === 1`. -/
def isOne : Option Json → Bool
  | some (.num literal) => Json.numberOf literal = some 1
  | _ => false

def isNonemptyString : Option Json → Bool
  | some (.str s) => s != []
  | _ => false

/-- `typeof value === "string"` and `test`. -/
def isStringWith (test : Text → Bool) : Option Json → Bool
  | some (.str s) => test s
  | _ => false

/-- `value === undefined || test(value)`. -/
def isAbsentOr (test : Option Json → Bool) : Option Json → Bool
  | none => true
  | some value => test (some value)

/-- `/^[0-9a-f]{length}$/`. -/
def isHexText (length : Nat) (t : Text) : Bool :=
  t.length == length && t.all fun u => (unit '0' ≤ u && u ≤ unit '9') || (unit 'a' ≤ u && u ≤ unit 'f')

section
variable (platform : Platform)

def parseCanonicalIso : Option Json → Option Int
  | some (.str value) =>
    match platform.getTime (some (.str value)) with
    | some timestamp => if platform.toISOString timestamp = some value then some timestamp else none
    | none => none
  | _ => none

/-- `username.trim().toLowerCase()`. -/
def normalizeVnuUsername (username : Text) : Text := platform.toLowerCase (trim username)

/-- `/^[A-Za-z0-9_-]{22}$/`, and the only spelling of its sixteen bytes. -/
def isBase64Url128 (value : Text) : Bool :=
  value.length = 22 && value.all Base64.isUrlChar &&
    match Base64.fromBase64Url value with
    | some bytes => bytes.length = 16 && Base64.toBase64Url bytes = value
    | none => false

/-! ## Reconnect grants -/

def vnuRefreshGrantMaxLength : Nat := 8192

def vnuRefreshLifetimeMs : Int := 8 * 60 * 60 * 1000

def grantKeys : List String :=
  ["expectedStudentCode", "expiresAt", "grantId", "issuedAt", "password", "purpose", "universityId", "username", "version"]

def encodedVnuRefreshGrantLength (payload : Json) : Nat :=
  let plaintextBytes := (Utf8.encode (Json.stringify payload)).length
  let encryptedBytes := plaintextBytes + 16
  17 + (encryptedBytes * 4 + 2) / 3

/-- The two dates are eight hours apart. -/
def isLifetime (issuedAt expiresAt : Option Json) : Bool :=
  match parseCanonicalIso platform issuedAt, parseCanonicalIso platform expiresAt with
  | some issuedAt, some expiresAt => expiresAt - issuedAt = vnuRefreshLifetimeMs
  | _, _ => false

def assertVnuRefreshGrantPayload : Json → Except HyeboardError Unit
  | .obj value => do
    require invalidVnuRefreshGrant (hasExactKeys value grantKeys grantKeys)
    require invalidVnuRefreshGrant (isOne (get value "version") && isString (units "vnu-refresh") (get value "purpose") &&
      isString (units "vnu") (get value "universityId"))
    require invalidVnuRefreshGrant (isStringWith isBase64Url128 (get value "grantId"))
    require invalidVnuRefreshGrant
      (isStringWith (fun username => username != [] && username = normalizeVnuUsername platform username) (get value "username"))
    require invalidVnuRefreshGrant (isNonemptyString (get value "password") && isNonemptyString (get value "expectedStudentCode"))
    require invalidVnuRefreshGrant (isLifetime platform (get value "issuedAt") (get value "expiresAt"))
    require oversizedVnuRefreshGrant (encodedVnuRefreshGrantLength (.obj value) ≤ vnuRefreshGrantMaxLength)
  | _ => .error invalidVnuRefreshGrant

/-! ## Permit envelopes -/

def vnuCrossDetailPermitEnvelopeMaxLength : Nat := 1024

def crossDetailEnvelopeKeys : List String := ["nonce", "purpose", "revisionHmac", "rowHmac", "selector", "targetHmac", "version"]

def crossDetailSelectorKeys : List String := ["classId", "stdId", "termOrdinal"]

/-- `/^\d{1,11}$/`. -/
def isStdId (t : Text) : Bool := 1 ≤ t.length && t.length ≤ 11 && t.all Json.isDigit

/-- `/^\S{1,limit}$/`. -/
def isUnspaced (limit : Nat) (t : Text) : Bool := 1 ≤ t.length && t.length ≤ limit && t.all fun u => ! isSpaceUnit u

def assertSelector : Option Json → Except HyeboardError Unit
  | some (.obj selector) => do
    require invalidVnuCrossDetailPermit (hasExactKeys selector crossDetailSelectorKeys crossDetailSelectorKeys)
    require invalidVnuCrossDetailPermit (isStringWith isStdId (get selector "stdId"))
    require invalidVnuCrossDetailPermit (isStringWith (isUnspaced 32) (get selector "classId"))
    require invalidVnuCrossDetailPermit (isStringWith (isUnspaced 16) (get selector "termOrdinal"))
  | _ => .error invalidVnuCrossDetailPermit

def assertVnuCrossDetailPermitEnvelope : Json → Except HyeboardError Unit
  | .obj value => do
    require invalidVnuCrossDetailPermit (hasExactKeys value crossDetailEnvelopeKeys crossDetailEnvelopeKeys)
    require invalidVnuCrossDetailPermit (isOne (get value "version") && isString (units "vnu-cross-detail") (get value "purpose"))
    require invalidVnuCrossDetailPermit (isStringWith (isHexText 32) (get value "nonce"))
    ["targetHmac", "revisionHmac", "rowHmac"].forM fun key =>
      require invalidVnuCrossDetailPermit (isStringWith (isHexText 64) (get value key))
    assertSelector (get value "selector")
  | _ => .error invalidVnuCrossDetailPermit

/-! ## Sessions -/

def sessionKeys : List String :=
  ["canvas", "expiresAt", "sessionEpoch", "sessionId", "studentCode", "studenthub", "uetGoogleCredential", "uetParentCredential",
    "universityId", "version", "vnu", "vnuRefresh"]

def credentialKeys : List String := ["csrfToken", "expiresAt", "kind", "value"]

def googleCredentialKeys : List String := ["email", "googleCookies", "password"]

def googleCookieKeys : List String := ["domain", "expires", "httpOnly", "name", "path", "sameSite", "secure", "value"]

def parentCredentialKeys : List String := ["password", "username"]

def descriptorKeys : List String :=
  ["accessExpiresAt", "accessTokenId", "grantExpiresAt", "grantId", "principalKey", "purpose", "version"]

/-- `Number.isSafeInteger(value) && value >= 0`. -/
def isSessionEpoch : Option Json → Bool
  | some (.num literal) =>
    match Json.numberOf literal with
    | some n => n.den = 1 && 0 ≤ n && n ≤ maxSafeInteger
    | none => false
  | _ => false

/-- `Number.isFinite(value)`. -/
def isFiniteNumber : Option Json → Bool
  | some (.num literal) => (Json.numberOf literal).isSome
  | _ => false

def isBoolean : Option Json → Bool
  | some (.bool _) => true
  | _ => false

def isOneOf (expected : List String) (value : Option Json) : Bool := expected.any fun text => isString (units text) value

def assertVnuRefreshAccessDescriptor : Option Json → Except HyeboardError Unit
  | some (.obj value) => do
    require invalidSession (hasExactKeys value descriptorKeys descriptorKeys)
    require invalidSession (isOne (get value "version") && isString (units "vnu-refresh-access") (get value "purpose"))
    require invalidSession (isStringWith (isHexText 64) (get value "principalKey"))
    require invalidSession (isStringWith isBase64Url128 (get value "accessTokenId") && isStringWith isBase64Url128 (get value "grantId"))
    require invalidSession ((parseCanonicalIso platform (get value "accessExpiresAt")).isSome &&
      (parseCanonicalIso platform (get value "grantExpiresAt")).isSome)
  | _ => .error invalidSession

def assertUpstreamCredential : Option Json → Except HyeboardError Unit
  | none => .ok ()
  | some (.obj value) => do
    require invalidSession (hasExactKeys value credentialKeys ["kind", "value"])
    require invalidSession (isOneOf ["bearer", "cookie", "manual"] (get value "kind"))
    require invalidSession (isNonemptyString (get value "value"))
    require invalidSession (isAbsentOr isNonemptyString (get value "csrfToken"))
    require invalidSession (isAbsentOr (fun date => (parseCanonicalIso platform date).isSome) (get value "expiresAt"))
  | some _ => .error invalidSession

def assertGoogleCookie : Json → Except HyeboardError Unit
  | .obj value => do
    require invalidSession (hasExactKeys value googleCookieKeys ["name", "value", "domain", "path"])
    ["name", "value", "domain", "path"].forM fun key => require invalidSession (isNonemptyString (get value key))
    require invalidSession (isAbsentOr isFiniteNumber (get value "expires"))
    ["httpOnly", "secure"].forM fun key => require invalidSession (isAbsentOr isBoolean (get value key))
    require invalidSession (isAbsentOr (isOneOf ["Strict", "Lax", "None"]) (get value "sameSite"))
  | _ => .error invalidSession

def assertParentCredential : Option Json → Except HyeboardError Unit
  | none => .ok ()
  | some (.obj value) => do
    require invalidSession (hasExactKeys value parentCredentialKeys parentCredentialKeys)
    require invalidSession (isNonemptyString (get value "username") && isNonemptyString (get value "password"))
  | some _ => .error invalidSession

def assertGoogleCredential : Option Json → Except HyeboardError Unit
  | none => .ok ()
  | some (.obj value) => do
    require invalidSession (hasExactKeys value googleCredentialKeys ["email", "password"])
    require invalidSession (isNonemptyString (get value "email") && isNonemptyString (get value "password"))
    match get value "googleCookies" with
    | none => .ok ()
    | some (.arr googleCookies) => googleCookies.forM assertGoogleCookie
    | some _ => .error invalidSession
  | some _ => .error invalidSession

/-- The `vnu` credential a descriptor goes with. -/
def hasVnuValue : Option Json → Bool
  | some (.obj value) => isNonemptyString (get value "value")
  | _ => false

/-- `left === right`, of strings. -/
def isSameString (left right : Option Json) : Bool := isStringWith (fun text => isString text right) left

/-- The accepted session is the value itself. A session without a descriptor is hardly looked at. -/
def parseEncryptedSessionPayload : Json → Except HyeboardError JsonObject
  | .obj value => do
    require invalidSession (isOne (get value "version"))
    require invalidSession (isAbsentOr isNonemptyString (get value "sessionId"))
    require invalidSession (isAbsentOr isSessionEpoch (get value "sessionEpoch"))
    match get value "vnuRefresh" with
    | none => return value
    | some (.obj vnuRefresh) =>
      require invalidSession (hasExactKeys value sessionKeys ["version", "universityId", "expiresAt"])
      require invalidSession (isNonemptyString (get value "universityId") && (parseCanonicalIso platform (get value "expiresAt")).isSome)
      require invalidSession (isAbsentOr isNonemptyString (get value "studentCode"))
      ["studenthub", "canvas", "vnu"].forM fun key => assertUpstreamCredential platform (get value key)
      assertParentCredential (get value "uetParentCredential")
      assertGoogleCredential (get value "uetGoogleCredential")
      assertVnuRefreshAccessDescriptor platform (some (.obj vnuRefresh))
      require invalidSession (isString (units "vnu") (get value "universityId") && hasVnuValue (get value "vnu"))
      require invalidSession (isSameString (get vnuRefresh "accessExpiresAt") (get value "expiresAt"))
      return value
    -- every check in between throws the same error
    | some _ => .error invalidSession
  | _ => .error invalidSession

end

/-! ## The errors of the checks -/

/-- The only error that is thrown. -/
def Fails {ε α : Type} (error : ε) (x : Except ε α) : Prop := ∀ e, x = .error e → e = error

section
variable {ε α β : Type} {error : ε}

theorem Fails.ok {a : α} : Fails error (.ok a : Except ε α) := nofun

theorem Fails.thrown : Fails error (.error error : Except ε α) := by
  intro e h
  cases h
  rfl

theorem Fails.bind {x : Except ε α} {f : α → Except ε β} (hx : Fails error x) (hf : ∀ a, Fails error (f a)) : Fails error (x >>= f) := by
  intro e h
  cases x with
  | error e' =>
    cases h
    exact hx e rfl
  | ok a => exact hf a e h

theorem Fails.require {test : Bool} : Fails error (require error test) := by
  unfold Hyeboard.require
  split
  · exact Fails.ok
  · exact Fails.thrown

theorem Fails.forM {check : α → Except ε PUnit} {xs : List α} (h : ∀ x, Fails error (check x)) : Fails error (List.forM xs check) := by
  induction xs with
  | nil => exact Fails.ok
  | cons x rest ih => exact (h x).bind fun _ => ih

end

section
variable (platform : Platform)

theorem assertUpstreamCredential_fails (value : Option Json) : Fails invalidSession (assertUpstreamCredential platform value) := by
  unfold assertUpstreamCredential
  split
  · exact Fails.ok
  · exact Fails.require.bind fun _ => Fails.require.bind fun _ => Fails.require.bind fun _ => Fails.require.bind fun _ => Fails.require
  · exact Fails.thrown

theorem assertGoogleCookie_fails (value : Json) : Fails invalidSession (assertGoogleCookie value) := by
  unfold assertGoogleCookie
  split
  · exact Fails.require.bind fun _ => (Fails.forM fun _ => Fails.require).bind fun _ => Fails.require.bind fun _ =>
      (Fails.forM fun _ => Fails.require).bind fun _ => Fails.require
  · exact Fails.thrown

theorem assertParentCredential_fails (value : Option Json) : Fails invalidSession (assertParentCredential value) := by
  unfold assertParentCredential
  split
  · exact Fails.ok
  · exact Fails.require.bind fun _ => Fails.require
  · exact Fails.thrown

theorem assertGoogleCredential_fails (value : Option Json) : Fails invalidSession (assertGoogleCredential value) := by
  unfold assertGoogleCredential
  split
  · exact Fails.ok
  · refine Fails.require.bind fun _ => Fails.require.bind fun _ => ?_
    split
    · exact Fails.ok
    · exact Fails.forM assertGoogleCookie_fails
    · exact Fails.thrown
  · exact Fails.thrown

theorem assertVnuRefreshAccessDescriptor_fails (value : Option Json) : Fails invalidSession (assertVnuRefreshAccessDescriptor platform value) := by
  unfold assertVnuRefreshAccessDescriptor
  split
  · exact Fails.require.bind fun _ => Fails.require.bind fun _ => Fails.require.bind fun _ => Fails.require.bind fun _ => Fails.require
  · exact Fails.thrown

/-- Whatever is wrong with a session, it is `INVALID_SESSION`. -/
theorem parseEncryptedSessionPayload_fails (value : Json) : Fails invalidSession (parseEncryptedSessionPayload platform value) := by
  unfold parseEncryptedSessionPayload
  split
  · refine Fails.require.bind fun _ => Fails.require.bind fun _ => Fails.require.bind fun _ => ?_
    split
    · exact Fails.ok
    · exact Fails.require.bind fun _ => Fails.require.bind fun _ => Fails.require.bind fun _ =>
        (Fails.forM fun _ => assertUpstreamCredential_fails platform _).bind fun _ => (assertParentCredential_fails _).bind fun _ =>
        (assertGoogleCredential_fails _).bind fun _ => (assertVnuRefreshAccessDescriptor_fails platform _).bind fun _ =>
        Fails.require.bind fun _ => Fails.require.bind fun _ => Fails.ok
    · exact Fails.thrown
  · exact Fails.thrown

end

end Hyeboard.Tokens
