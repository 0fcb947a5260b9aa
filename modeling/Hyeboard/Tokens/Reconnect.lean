import Hyeboard.Tokens.Respelling
/-!
# Reconnect grants

A grant that was created or rotated can be sealed and opened again: its length is
checked before it is encrypted, with a formula that gives the length of the token.
-/

namespace Hyeboard.Tokens

structure VnuRefreshGrantPayload where
  grantId : Text
  username : Text
  password : Text
  expectedStudentCode : Text
  issuedAt : Text
  expiresAt : Text
deriving DecidableEq

/-- With the properties that are the same in every grant, in the order they are written. -/
def VnuRefreshGrantPayload.toJson (payload : VnuRefreshGrantPayload) : Json :=
  .obj [(units "version", .num (units "1")), (units "purpose", .str (units "vnu-refresh")), (units "grantId", .str payload.grantId),
    (units "universityId", .str (units "vnu")), (units "username", .str payload.username), (units "password", .str payload.password),
    (units "expectedStudentCode", .str payload.expectedStudentCode), (units "issuedAt", .str payload.issuedAt),
    (units "expiresAt", .str payload.expiresAt)]

structure VnuRefreshAccessDescriptor where
  principalKey : Text
  accessTokenId : Text
  grantId : Text
  accessExpiresAt : Option Json
  grantExpiresAt : Text

def VnuRefreshAccessDescriptor.toJson (descriptor : VnuRefreshAccessDescriptor) : Json :=
  .obj ([(units "version", .num (units "1")), (units "purpose", .str (units "vnu-refresh-access")),
    (units "principalKey", .str descriptor.principalKey), (units "accessTokenId", .str descriptor.accessTokenId),
    (units "grantId", .str descriptor.grantId)] ++ (descriptor.accessExpiresAt.map fun date => (units "accessExpiresAt", date)).toList ++
    [(units "grantExpiresAt", .str descriptor.grantExpiresAt)])

/-- What is thrown. -/
inductive Thrown where
  | hyeboard (error : HyeboardError)
  /-- `toISOString` of no date. -/
  | rangeError
  /-- The reason the request was aborted with. -/
  | aborted
deriving DecidableEq

def incompleteVnuProfile : HyeboardError := ⟨"VNU_PROFILE_INCOMPLETE", "The university portal profile is incomplete.", 500, none⟩

def vnuRefreshUnavailable : HyeboardError :=
  ⟨"VNU_REFRESH_UNAVAILABLE", "VNU reconnect is temporarily unavailable. Try again.", 503, some 5⟩

def vnuManualActivationRateLimited (retryAfterSeconds : Nat) : HyeboardError :=
  ⟨"VNU_MANUAL_ACTIVATION_RATE_LIMITED", "Too many VNU sign-ins. Wait before trying again.", 429, some retryAfterSeconds⟩

def vnuRefreshGrantRevoked : HyeboardError := ⟨"VNU_REFRESH_GRANT_REVOKED", "The VNU reconnect grant has been revoked.", 401, none⟩

/-- The answer, as what the caller of the function sees. -/
def thrown {α : Type} : Except HyeboardError α → Except Thrown α
  | .ok a => .ok a
  | .error e => .error (.hyeboard e)

def encodeHex (bytes : Bytes) : Text := bytes.flatMap fun byte => [Json.hexUnit (byte.toNat / 16), Json.hexUnit (byte.toNat % 16)]

def isoString (platform : Platform) (time : Int) : Except Thrown Text :=
  match platform.toISOString time with
  | some text => .ok text
  | none => .error .rangeError

section
variable {Key : Type} (crypto : WebCrypto Key) (platform : Platform)

def createVnuRefreshGrant (username password expectedStudentCode : Text) (now : Int) (randomBytes : Bytes) :
    Except Thrown VnuRefreshGrantPayload := do
  let issuedAt ← isoString platform now
  let expiresAt ← isoString platform (now + vnuRefreshLifetimeMs)
  let grantId := Base64.toBase64Url randomBytes
  let payload : VnuRefreshGrantPayload :=
    ⟨grantId, normalizeVnuUsername platform username, password, expectedStudentCode, issuedAt, expiresAt⟩
  thrown (assertVnuRefreshGrantPayload platform payload.toJson)
  return payload

def rotateVnuRefreshGrant (payload : VnuRefreshGrantPayload) (randomBytes : Bytes) : Except HyeboardError VnuRefreshGrantPayload := do
  assertVnuRefreshGrantPayload platform payload.toJson
  let rotated := { payload with grantId := Base64.toBase64Url randomBytes }
  assertVnuRefreshGrantPayload platform rotated.toJson
  return rotated

/-- The grants the code makes. -/
inductive Made : VnuRefreshGrantPayload → Prop
  | created {username password expectedStudentCode : Text} {now : Int} {randomBytes : Bytes} {payload : VnuRefreshGrantPayload}
      (h : createVnuRefreshGrant platform username password expectedStudentCode now randomBytes = .ok payload) : Made payload
  | rotated {payload payload' : VnuRefreshGrantPayload} {randomBytes : Bytes} (hmade : Made payload)
      (h : rotateVnuRefreshGrant platform payload randomBytes = .ok payload') : Made payload'

def vnuPrincipalSalt : Bytes := Utf8.encode (units "hyeboard:vnu-refresh-principal:v1:salt")
def vnuPrincipalInfo : Bytes := Utf8.encode (units "hyeboard:vnu-refresh-principal:v1:hmac-sha256")
def vnuPrincipalMessagePrefix : Text := units "hyeboard:vnu-refresh-principal:v1:"

def deriveVnuRefreshPrincipal (username secret : Text) : Except HyeboardError Text := do
  let normalizedUsername := normalizeVnuUsername platform username
  require invalidSession (normalizedUsername != [])
  assertStrongSecret secret
  return encodeHex (crypto.signHkdf (Utf8.encode secret) vnuPrincipalSalt vnuPrincipalInfo
    (Utf8.encode (vnuPrincipalMessagePrefix ++ normalizedUsername)))

def createVnuRefreshAccessDescriptor (username grantId : Text) (accessExpiresAt : Option Json) (grantExpiresAt secret : Text)
    (randomBytes : Bytes) : Except HyeboardError VnuRefreshAccessDescriptor := do
  let principalKey ← deriveVnuRefreshPrincipal crypto platform username secret
  let descriptor : VnuRefreshAccessDescriptor := ⟨principalKey, Base64.toBase64Url randomBytes, grantId, accessExpiresAt, grantExpiresAt⟩
  assertVnuRefreshAccessDescriptor platform (some descriptor.toJson)
  return descriptor

/-! ## The routes -/

inductive Activation where
  | activated
  | rateLimited (retryAfterSeconds : Nat)

inductive Completion where
  | completed
  | revoked

/-- The refresh authority, none where its call throws. -/
structure Coordinator where
  activatePair : VnuRefreshAccessDescriptor → Option Activation
  completeRefresh : VnuRefreshAccessDescriptor → Option Completion

/-- What a request draws and reads: the clock, random bytes, a session id, and whether the request is aborted when it asks. -/
structure Draws where
  now : Int
  grantId : Bytes
  accessTokenId : Bytes
  sessionId : Text
  sessionIv : Iv
  grantIv : Iv
  abortedFirst : Bool
  abortedSecond : Bool

/-- A session in a deployment of several replicas has an id and an epoch; `epoch` is a literal there. -/
def sessionTokenPayload (epoch : Option Text) (payload previous : JsonObject) (sessionId : Text) : JsonObject :=
  match epoch with
  | none => payload
  | some epoch =>
    let chosen := ((get payload "sessionId").or (get previous "sessionId")).getD (.str sessionId)
    Json.setField (Json.setField payload (units "sessionId") chosen) (units "sessionEpoch") (.num epoch)

/-- What is issued: the session's token, and the grant's. -/
structure AuthResult where
  token : Text
  refreshGrant : Option Text

/-- Whether the authority was changed, and the answer. -/
structure Issued where
  settled : Bool
  answer : Except Thrown AuthResult

/-- `Promise.all` of the two encryptions: the first that throws. -/
def sealBoth (session : JsonObject) (grant : VnuRefreshGrantPayload) (secret : Text) (draws : Draws) : Except HyeboardError AuthResult := do
  let token ← (encryptSession crypto platform (.obj session) secret draws.sessionIv).answer
  let refreshGrant ← (encryptVnuRefreshGrant crypto platform grant.toJson secret draws.grantIv).answer
  return ⟨token, some refreshGrant⟩

/-- The student code of a session, where it is there. -/
def studentCodeOf (payload : JsonObject) : Option Text :=
  match get payload "studentCode" with
  | some (.str code) => if code = [] then none else some code
  | _ => none

/-- Before the authority is asked: the grant and the descriptor. -/
def prepareVnuAuthResult (username password : Text) (payload : JsonObject) (secret : Text) (draws : Draws) :
    Except Thrown (VnuRefreshGrantPayload × VnuRefreshAccessDescriptor) :=
  match studentCodeOf payload with
  | none => .error (.hyeboard incompleteVnuProfile)
  | some expectedStudentCode => do
    let grant ← createVnuRefreshGrant platform username password expectedStudentCode draws.now draws.grantId
    let descriptor ← thrown (createVnuRefreshAccessDescriptor crypto platform username grant.grantId (get payload "expiresAt")
      grant.expiresAt secret draws.accessTokenId)
    if draws.abortedSecond then .error .aborted else .ok (grant, descriptor)

def issueVnuAuthResult (coordinator : Option Coordinator) (epoch : Option Text) (username password : Text) (payload : JsonObject)
    (secret : Text) (draws : Draws) : Issued :=
  if draws.abortedFirst then ⟨false, .error .aborted⟩
  else
    match coordinator with
    | none =>
      let answer := (encryptSession crypto platform (.obj (sessionTokenPayload epoch payload [] draws.sessionId)) secret draws.sessionIv).answer
      ⟨false, thrown (answer.map fun token => ⟨token, none⟩)⟩
    | some coordinator =>
      match prepareVnuAuthResult crypto platform username password payload secret draws with
      | .error e => ⟨false, .error e⟩
      | .ok (grant, descriptor) =>
        match coordinator.activatePair descriptor with
        | none => ⟨false, .error (.hyeboard vnuRefreshUnavailable)⟩
        | some (.rateLimited retryAfterSeconds) => ⟨false, .error (.hyeboard (vnuManualActivationRateLimited retryAfterSeconds))⟩
        | some .activated =>
          let session := sessionTokenPayload epoch (Json.setField payload (units "vnuRefresh") descriptor.toJson) [] draws.sessionId
          ⟨true, thrown (sealBoth crypto platform session grant secret draws)⟩

/-- A refresh, once the university has answered with the session and before the authority completes: both tokens are made. -/
def prepareRefresh (epoch : Option Text) (grant : VnuRefreshGrantPayload) (refreshed session : JsonObject) (secret : Text) (draws : Draws) :
    Except HyeboardError (VnuRefreshAccessDescriptor × AuthResult) := do
  let rotatedGrant ← rotateVnuRefreshGrant platform grant draws.grantId
  let nextDescriptor ← createVnuRefreshAccessDescriptor crypto platform grant.username rotatedGrant.grantId (get refreshed "expiresAt")
    rotatedGrant.expiresAt secret draws.accessTokenId
  let nextPayload := Json.setField refreshed (units "vnuRefresh") nextDescriptor.toJson
  let tokens ← sealBoth crypto platform (sessionTokenPayload epoch nextPayload session draws.sessionId) rotatedGrant secret draws
  require vnuRefreshUnavailable (! draws.abortedSecond)
  return (nextDescriptor, tokens)

def finishRefresh (coordinator : Coordinator) (epoch : Option Text) (grant : VnuRefreshGrantPayload) (refreshed session : JsonObject)
    (secret : Text) (draws : Draws) : Issued :=
  match prepareRefresh crypto platform epoch grant refreshed session secret draws with
  | .error e => ⟨false, .error (.hyeboard e)⟩
  | .ok (nextDescriptor, tokens) =>
    match coordinator.completeRefresh nextDescriptor with
    | none => ⟨false, .error (.hyeboard vnuRefreshUnavailable)⟩
    | some .revoked => ⟨true, .error (.hyeboard vnuRefreshGrantRevoked)⟩
    | some .completed => ⟨true, .ok tokens⟩

end

/-! ## Grants that were made -/

section
variable {Key : Type} {crypto : WebCrypto Key} {platform : Platform} {payload : VnuRefreshGrantPayload} {secret : Text}

theorem thrown_eq_ok {α : Type} {x : Except HyeboardError α} {a : α} : thrown x = .ok a ↔ x = .ok a := by
  cases x with
  | ok b => simp [thrown]
  | error e => simp [thrown]

/-- A grant is written with one literal, and no key twice. -/
theorem ok_toJson (payload : VnuRefreshGrantPayload) : payload.toJson.Ok := by
  have hkeys : (["version", "purpose", "grantId", "universityId", "username", "password", "expectedStudentCode", "issuedAt",
    "expiresAt"].map units).Nodup := by decide +kernel
  have hversion : Json.IsLiteral (units "1") := by decide +kernel
  refine ⟨hkeys, ?_⟩
  simp only [Json.OkFields, Json.Ok, and_true]
  exact hversion

theorem checked_of_created {username password expectedStudentCode : Text} {now : Int} {randomBytes : Bytes}
    (h : createVnuRefreshGrant platform username password expectedStudentCode now randomBytes = .ok payload) :
    assertVnuRefreshGrantPayload platform payload.toJson = .ok () := by
  simp only [createVnuRefreshGrant, bind_eq_ok, pure_eq_ok] at h
  obtain ⟨issuedAt, -, expiresAt, -, ⟨⟩, hchecked, rfl⟩ := h
  exact thrown_eq_ok.1 hchecked

theorem checked_of_rotated {randomBytes : Bytes} {payload' : VnuRefreshGrantPayload}
    (h : rotateVnuRefreshGrant platform payload randomBytes = .ok payload') :
    assertVnuRefreshGrantPayload platform payload'.toJson = .ok () := by
  simp only [rotateVnuRefreshGrant, bind_eq_ok, pure_eq_ok] at h
  obtain ⟨⟨⟩, -, ⟨⟩, hchecked, rfl⟩ := h
  exact hchecked

theorem Made.checked (h : Made platform payload) : assertVnuRefreshGrantPayload platform payload.toJson = .ok () := by
  cases h with
  | created h => exact checked_of_created h
  | rotated _ h => exact checked_of_rotated h

theorem deriveVnuRefreshGrantKey_eq_ok (hsecret : 32 ≤ secret.length) :
    deriveVnuRefreshGrantKey crypto secret = .ok (crypto.hkdfKey (Utf8.encode secret) vnuRefreshSalt vnuRefreshInfo) := by
  rw [deriveVnuRefreshGrantKey, deriveHkdfKey, assertStrongSecret, require, if_pos (by simpa using hsecret)]
  rfl

/-- The token a checked grant is sealed in. -/
def grantToken (crypto : WebCrypto Key) (payload : VnuRefreshGrantPayload) (secret : Text) (iv : Iv) : Text :=
  sealToken iv.1 (crypto.encrypt (crypto.hkdfKey (Utf8.encode secret) vnuRefreshSalt vnuRefreshInfo) vnuRefreshAad iv.1
    (Utf8.encode (Json.stringify payload.toJson)))

theorem length_grantToken (htag : crypto.HasTag) (iv : Iv) :
    (grantToken crypto payload secret iv).length = encodedVnuRefreshGrantLength payload.toJson :=
  length_sealToken_eq htag _ _ _ _

theorem encrypt_checked (htag : crypto.HasTag) (hchecked : assertVnuRefreshGrantPayload platform payload.toJson = .ok ())
    (hsecret : 32 ≤ secret.length) (iv : Iv) :
    (encryptVnuRefreshGrant crypto platform payload.toJson secret iv).answer = .ok (grantToken crypto payload secret iv) := by
  have hlength : (grantToken crypto payload secret iv).length = encodedVnuRefreshGrantLength payload.toJson := length_grantToken htag iv
  have hfits := encodedLength_of_checked hchecked
  rw [← hlength] at hfits
  have hkey : (do
      assertVnuRefreshGrantPayload platform payload.toJson
      deriveVnuRefreshGrantKey crypto secret) = .ok (crypto.hkdfKey (Utf8.encode secret) vnuRefreshSalt vnuRefreshInfo) :=
    bind_eq_ok.2 ⟨(), hchecked, deriveVnuRefreshGrantKey_eq_ok hsecret⟩
  rw [encryptVnuRefreshGrant, hkey, sealPayload]
  simp only
  rw [← grantToken, require, if_pos (by simpa using hfits)]
  rfl

theorem decrypt_checked (htag : crypto.HasTag) (hopens : crypto.Opens)
    (hchecked : assertVnuRefreshGrantPayload platform payload.toJson = .ok ()) (hsecret : 32 ≤ secret.length) (iv : Iv) :
    decryptAuthenticatedVnuRefreshGrant crypto platform (grantToken crypto payload secret iv) secret = .ok payload.toJson := by
  rw [decryptAuthenticatedVnuRefreshGrant, deriveVnuRefreshGrantKey_eq_ok hsecret]
  apply openPayload_sealed htag hopens (ok_toJson payload)
  rw [hchecked]
  rfl

/-! ## The routes -/

theorem strong_of_descriptor {username grantId grantExpiresAt : Text} {accessExpiresAt : Option Json} {randomBytes : Bytes}
    {descriptor : VnuRefreshAccessDescriptor}
    (h : createVnuRefreshAccessDescriptor crypto platform username grantId accessExpiresAt grantExpiresAt secret randomBytes = .ok descriptor) :
    32 ≤ secret.length := by
  simp only [createVnuRefreshAccessDescriptor, deriveVnuRefreshPrincipal, bind_eq_ok, assertStrongSecret, require_eq_ok] at h
  obtain ⟨_, ⟨_, -, ⟨⟩, hstrong, -⟩, -⟩ := h
  simpa using hstrong

theorem encryptSession_error {session : Json} {iv : Iv} {e : HyeboardError} (hsecret : 32 ≤ secret.length)
    (h : (encryptSession crypto platform session secret iv).answer = .error e) : e = invalidSession := by
  have hstrong : assertStrongSecret secret = .ok () := by
    rw [assertStrongSecret, require, if_pos (by simpa using hsecret)]
  rw [encryptSession, hstrong] at h
  cases hparse : parseEncryptedSessionPayload platform session with
  | error e' =>
    rw [hparse] at h
    cases h
    exact parseEncryptedSessionPayload_fails platform session e hparse
  | ok value =>
    rw [hparse] at h
    cases h

/-- The session is what can fail, once the authority was asked. -/
theorem sealBoth_error {session : JsonObject} {draws : Draws} {e : HyeboardError} (htag : crypto.HasTag)
    (hchecked : assertVnuRefreshGrantPayload platform payload.toJson = .ok ()) (hsecret : 32 ≤ secret.length)
    (h : sealBoth crypto platform session payload secret draws = .error e) : e = invalidSession := by
  rw [sealBoth, encrypt_checked htag hchecked hsecret draws.grantIv] at h
  cases hsession : (encryptSession crypto platform (.obj session) secret draws.sessionIv).answer with
  | error e' =>
    rw [hsession] at h
    cases h
    exact encryptSession_error hsecret hsession
  | ok token =>
    rw [hsession] at h
    cases h

theorem prepared_checked {username password : Text} {session : JsonObject} {draws : Draws} {descriptor : VnuRefreshAccessDescriptor}
    (h : prepareVnuAuthResult crypto platform username password session secret draws = .ok (payload, descriptor)) :
    Made platform payload ∧ 32 ≤ secret.length := by
  unfold prepareVnuAuthResult at h
  split at h
  case h_1 => cases h
  case h_2 code _ =>
    simp only [bind_eq_ok, thrown_eq_ok] at h
    obtain ⟨grant, hgrant, made, hdescriptor, hprepared⟩ := h
    split at hprepared
    case isTrue => cases hprepared
    case isFalse =>
      cases hprepared
      exact ⟨.created hgrant, strong_of_descriptor hdescriptor⟩

/-- After the activation, only the session can be refused. -/
theorem issue_error {coordinator : Option Coordinator} {epoch : Option Text} {username password : Text} {session : JsonObject}
    {draws : Draws} {e : Thrown} (htag : crypto.HasTag)
    (hsettled : (issueVnuAuthResult crypto platform coordinator epoch username password session secret draws).settled = true)
    (h : (issueVnuAuthResult crypto platform coordinator epoch username password session secret draws).answer = .error e) :
    e = .hyeboard invalidSession := by
  unfold issueVnuAuthResult at h hsettled
  split at h
  case isTrue haborted => simp [haborted] at hsettled
  case isFalse haborted =>
    rw [if_neg haborted] at hsettled
    split at h
    case h_1 => cases hsettled
    case h_2 coordinator =>
      simp only at hsettled
      cases hprepared : prepareVnuAuthResult crypto platform username password session secret draws with
      | error e' => simp [hprepared] at hsettled
      | ok made =>
        obtain ⟨grant, descriptor⟩ := made
        obtain ⟨hmade, hstrong⟩ := prepared_checked hprepared
        simp only [hprepared] at h hsettled
        cases hactivated : coordinator.activatePair descriptor with
        | none => simp [hactivated] at hsettled
        | some activation =>
          cases activation with
          | rateLimited seconds => simp [hactivated] at hsettled
          | activated =>
            simp only [hactivated] at h
            cases hsealed : sealBoth crypto platform
                (sessionTokenPayload epoch (Json.setField session (units "vnuRefresh") descriptor.toJson) [] draws.sessionId) grant secret
                draws with
            | error e' =>
              rw [hsealed] at h
              cases h
              rw [sealBoth_error htag hmade.checked hstrong hsealed]
            | ok result =>
              rw [hsealed] at h
              cases h

/-- A refresh that is complete was answered with its tokens, or was revoked meanwhile. -/
theorem finish_error {coordinator : Coordinator} {epoch : Option Text} {refreshed session : JsonObject} {draws : Draws} {e : Thrown}
    (hsettled : (finishRefresh crypto platform coordinator epoch payload refreshed session secret draws).settled = true)
    (h : (finishRefresh crypto platform coordinator epoch payload refreshed session secret draws).answer = .error e) :
    e = .hyeboard vnuRefreshGrantRevoked := by
  unfold finishRefresh at h hsettled
  cases hmade : prepareRefresh crypto platform epoch payload refreshed session secret draws with
  | error e' => simp [hmade] at hsettled
  | ok made =>
    obtain ⟨descriptor, tokens⟩ := made
    simp only [hmade] at h hsettled
    cases hcompleted : coordinator.completeRefresh descriptor with
    | none => simp [hcompleted] at hsettled
    | some completion =>
      cases completion with
      | revoked =>
        simp only [hcompleted] at h
        cases h
        rfl
      | completed =>
        simp only [hcompleted] at h
        cases h

end

/-! ## A grant of the small cipher -/

/-- Without keys, it opens whatever has a tag. -/
def keylessCrypto : WebCrypto Bytes := { sampleCrypto with
  decrypt := fun _ _ _ encrypted => some (encrypted.take (encrypted.length - 16)) }

theorem keylessCrypto_opens : keylessCrypto.Opens := by
  intro key additionalData iv plaintext
  simp [keylessCrypto, sampleCrypto]

theorem keylessCrypto_hasTag : keylessCrypto.HasTag := sampleCrypto_hasTag

/-- A password with a quote, a letter of two bytes and a surrogate that stands alone. -/
def samplePassword : Text := [unit '"', 0xe9, 0xd800]

def sampleGrant : VnuRefreshGrantPayload :=
  ⟨Base64.toBase64Url (List.replicate 16 1), units "an", samplePassword, units "20020001", units "2026-01-01T00:00:00.000Z",
    units "2026-01-01T08:00:00.000Z"⟩

theorem sampleGrant_made : Made samplePlatform sampleGrant := by
  have hcreated : createVnuRefreshGrant samplePlatform (units " An") samplePassword (units "20020001") 1767225600000 (List.replicate 16 1) =
      .ok sampleGrant := by decide +kernel
  exact .created hcreated

/-- A grant that was made is sealed, in a token of the length that was checked, and opened again until it expires; a pair that was
activated or completed is not lost to the size of its grant. -/
theorem made_grant_sealed {Key : Type} (crypto : WebCrypto Key) (platform : Platform) (htag : crypto.HasTag) (hopens : crypto.Opens) :
    (∀ payload, Made platform payload → ∀ (secret : Text) (iv : Iv), 32 ≤ secret.length →
      ∃ token, (encryptVnuRefreshGrant crypto platform payload.toJson secret iv).answer = .ok token ∧
        token.length = encodedVnuRefreshGrantLength payload.toJson ∧
        encodedVnuRefreshGrantLength payload.toJson ≤ vnuRefreshGrantMaxLength ∧
        ∀ now, isExpired platform (some (.str payload.expiresAt)) now = false →
          decryptVnuRefreshGrant crypto platform token secret now = .ok payload.toJson) ∧
    (∀ coordinator epoch username password session secret draws,
      (issueVnuAuthResult crypto platform coordinator epoch username password session secret draws).settled = true →
      (issueVnuAuthResult crypto platform coordinator epoch username password session secret draws).answer ≠
        .error (.hyeboard oversizedVnuRefreshGrant)) ∧
    (∀ coordinator epoch payload refreshed session secret draws,
      (finishRefresh crypto platform coordinator epoch payload refreshed session secret draws).settled = true →
      (finishRefresh crypto platform coordinator epoch payload refreshed session secret draws).answer ≠
        .error (.hyeboard oversizedVnuRefreshGrant)) := by
  refine ⟨?_, ?_, ?_⟩
  · intro payload hmade secret iv hsecret
    refine ⟨grantToken crypto payload secret iv, encrypt_checked htag hmade.checked hsecret iv, length_grantToken htag iv,
      encodedLength_of_checked hmade.checked, ?_⟩
    intro now hlive
    rw [decryptVnuRefreshGrant, decrypt_checked htag hopens hmade.checked hsecret iv]
    have hexpires : grantExpiresAt payload.toJson = some (.str payload.expiresAt) := rfl
    refine bind_eq_ok.2 ⟨_, rfl, bind_eq_ok.2 ⟨(), ?_, rfl⟩⟩
    rw [hexpires, hlive]
    rfl
  · intro coordinator epoch username password session secret draws hsettled herror
    have hinvalid := issue_error htag hsettled herror
    simp [invalidSession, oversizedVnuRefreshGrant] at hinvalid
  · intro coordinator epoch payload refreshed session secret draws hsettled herror
    have hrevoked := finish_error hsettled herror
    simp [vnuRefreshGrantRevoked, oversizedVnuRefreshGrant] at hrevoked

theorem made_grant_sealed_sample : ∃ token,
    (encryptVnuRefreshGrant keylessCrypto samplePlatform sampleGrant.toJson sampleSecret sampleIv).answer = .ok token ∧
      token.length = encodedVnuRefreshGrantLength sampleGrant.toJson ∧
      decryptVnuRefreshGrant keylessCrypto samplePlatform token sampleSecret 1767225600000 = .ok sampleGrant.toJson := by
  obtain ⟨token, hsealed, hlength, -, hopened⟩ := (made_grant_sealed keylessCrypto samplePlatform keylessCrypto_hasTag
    keylessCrypto_opens).1 sampleGrant sampleGrant_made sampleSecret sampleIv (by decide)
  exact ⟨token, hsealed, hlength, hopened _ (by decide +kernel)⟩

end Hyeboard.Tokens
