import Hyeboard.Tokens.Sealing
/-!
# Tokens cannot be respelled

With AES-GCM as an ideal cipher, what a function accepts is a string that the function
it belongs to returned, and no other spelling of it: a token is revoked by its string.
-/

namespace Hyeboard.Tokens

/-- The calls that make tokens. -/
inductive Call where
  | encryptSession (payload : Json) (secret : Text) (iv : Iv)
  | encryptVnuRefreshGrant (payload : Json) (secret : Text) (iv : Iv)
  | encryptVnuCrossDetailPermitEnvelope (payload : Json) (secret : Text) (iv : Iv)

/-- The key under which the revocation of a token is stored. -/
def revokedTokenKey (hmacHex : Text → Text) (token : Text) : Text := units "revoked-token/" ++ hmacHex token

/-- The bytes of a token's parts, whatever their spelling. -/
def tokenBytes (token : Text) : List (Option Bytes) := (token.splitOn (unit '.')).map Base64.fromBase64Url

section
variable {Key : Type} (crypto : WebCrypto Key) (platform : Platform)

def Call.serve : Call → Sealing Key
  | .encryptSession payload secret iv => Tokens.encryptSession crypto platform payload secret iv
  | .encryptVnuRefreshGrant payload secret iv => Tokens.encryptVnuRefreshGrant crypto platform payload secret iv
  | .encryptVnuCrossDetailPermitEnvelope payload secret iv => Tokens.encryptVnuCrossDetailPermitEnvelope crypto payload secret iv

/-- What was encrypted in the calls so far. -/
def producedBy (calls : List Call) : List (Encryption Key) := calls.flatMap fun call => (call.serve crypto platform).produced

end

section
variable {Key : Type} {crypto : WebCrypto Key} {platform : Platform}

/-! ## What is encrypted is returned -/

theorem aads_ne : vnuRefreshAad ≠ sessionAad ∧ vnuCrossDetailAad ≠ sessionAad ∧ vnuCrossDetailAad ≠ vnuRefreshAad := by decide +kernel

theorem mem_produced_sealPayload {key : Except HyeboardError Key} {additionalData : Bytes} {bound : Text → Except HyeboardError Unit}
    {payload : Json} {iv : Iv} {e : Encryption Key} (h : e ∈ (sealPayload crypto key additionalData bound payload iv).produced) :
    ∃ k, key = .ok k ∧ e = ⟨k, additionalData, iv.1, crypto.encrypt k additionalData iv.1 (Utf8.encode (Json.stringify payload))⟩ ∧
      (sealPayload crypto key additionalData bound payload iv).answer =
        bound (sealToken e.iv e.encrypted) *> .ok (sealToken e.iv e.encrypted) := by
  cases key with
  | error error => cases h
  | ok k =>
    rw [sealPayload, List.mem_singleton] at h
    subst h
    exact ⟨k, rfl, rfl, rfl⟩

/-- A checked grant fits. -/
theorem encodedLength_of_checked {payload : Json} (h : assertVnuRefreshGrantPayload platform payload = .ok ()) :
    encodedVnuRefreshGrantLength payload ≤ vnuRefreshGrantMaxLength := by
  cases payload with
  | obj value =>
    simp only [assertVnuRefreshGrantPayload, bind_eq_ok, require_eq_ok] at h
    obtain ⟨-, -, -, -, -, -, -, -, -, -, -, -, hlength⟩ := h
    simpa using hlength
  | _ => cases h

/-- The length that is checked is the length of the token. -/
theorem length_sealToken_eq (htag : crypto.HasTag) (payload : Json) (iv : Iv) (k : Key) (additionalData : Bytes) :
    (sealToken iv.1 (crypto.encrypt k additionalData iv.1 (Utf8.encode (Json.stringify payload)))).length =
      encodedVnuRefreshGrantLength payload := by
  rw [length_sealToken, htag, iv.2, encodedVnuRefreshGrantLength]

variable {calls : List Call} {e : Encryption Key}

theorem session_returned (h : e ∈ producedBy crypto platform calls) (haad : e.additionalData = sessionAad) :
    ∃ payload secret iv, .encryptSession payload secret iv ∈ calls ∧
      (encryptSession crypto platform payload secret iv).answer = .ok (sealToken e.iv e.encrypted) := by
  obtain ⟨call, hcall, hmem⟩ := List.mem_flatMap.1 h
  cases call with
  | encryptSession payload secret iv =>
    obtain ⟨k, -, -, hanswer⟩ := mem_produced_sealPayload hmem
    exact ⟨payload, secret, iv, hcall, hanswer⟩
  | encryptVnuRefreshGrant payload secret iv =>
    obtain ⟨k, -, rfl, -⟩ := mem_produced_sealPayload hmem
    exact absurd haad aads_ne.1
  | encryptVnuCrossDetailPermitEnvelope payload secret iv =>
    obtain ⟨k, -, rfl, -⟩ := mem_produced_sealPayload hmem
    exact absurd haad aads_ne.2.1

theorem grant_returned (htag : crypto.HasTag) (h : e ∈ producedBy crypto platform calls) (haad : e.additionalData = vnuRefreshAad) :
    ∃ payload secret iv, .encryptVnuRefreshGrant payload secret iv ∈ calls ∧
      (encryptVnuRefreshGrant crypto platform payload secret iv).answer = .ok (sealToken e.iv e.encrypted) := by
  obtain ⟨call, hcall, hmem⟩ := List.mem_flatMap.1 h
  cases call with
  | encryptSession payload secret iv =>
    obtain ⟨k, -, rfl, -⟩ := mem_produced_sealPayload hmem
    exact absurd haad.symm aads_ne.1
  | encryptVnuRefreshGrant payload secret iv =>
    obtain ⟨k, hkey, rfl, hanswer⟩ := mem_produced_sealPayload hmem
    -- the payload was checked before it was encrypted
    rw [bind_eq_ok] at hkey
    obtain ⟨_, hchecked, -⟩ := hkey
    have hfits := encodedLength_of_checked hchecked
    rw [← length_sealToken_eq htag payload iv k vnuRefreshAad] at hfits
    refine ⟨payload, secret, iv, hcall, hanswer.trans ?_⟩
    simp only
    rw [require, if_pos (by simpa using hfits)]
    rfl
  | encryptVnuCrossDetailPermitEnvelope payload secret iv =>
    obtain ⟨k, -, rfl, -⟩ := mem_produced_sealPayload hmem
    exact absurd haad aads_ne.2.2

theorem permit_returned (h : e ∈ producedBy crypto platform calls) (haad : e.additionalData = vnuCrossDetailAad)
    (hlength : (sealToken e.iv e.encrypted).length ≤ vnuCrossDetailPermitEnvelopeMaxLength) :
    ∃ payload secret iv, .encryptVnuCrossDetailPermitEnvelope payload secret iv ∈ calls ∧
      (encryptVnuCrossDetailPermitEnvelope crypto payload secret iv).answer = .ok (sealToken e.iv e.encrypted) := by
  obtain ⟨call, hcall, hmem⟩ := List.mem_flatMap.1 h
  cases call with
  | encryptSession payload secret iv =>
    obtain ⟨k, -, rfl, -⟩ := mem_produced_sealPayload hmem
    exact absurd haad.symm aads_ne.2.1
  | encryptVnuRefreshGrant payload secret iv =>
    obtain ⟨k, -, rfl, -⟩ := mem_produced_sealPayload hmem
    exact absurd haad.symm aads_ne.2.2
  | encryptVnuCrossDetailPermitEnvelope payload secret iv =>
    obtain ⟨k, -, -, hanswer⟩ := mem_produced_sealPayload hmem
    refine ⟨payload, secret, iv, hcall, hanswer.trans ?_⟩
    rw [require, if_pos (by simpa using hlength)]
    rfl

/-! ## What is accepted was encrypted -/

variable {token secret : Text}

/-- An accepted token spells a pair that was produced. -/
theorem produced_of_accepted {α : Type} {key : Except HyeboardError Key} {additionalData : Bytes}
    {check : Json → Except HyeboardError α} {invalid : HyeboardError} {a : α} {produced : List (Encryption Key)}
    (hideal : crypto.Ideal produced) (h : openPayload crypto key additionalData check invalid token = .ok a) :
    ∃ e ∈ produced, e.additionalData = additionalData ∧ token = sealToken e.iv e.encrypted := by
  obtain ⟨iv, encrypted, k, decrypted, payload, hopen, -, hdecrypt, -⟩ := openPayload_eq_ok.1 h
  refine ⟨⟨k, additionalData, iv, encrypted⟩, ?_, rfl, (openToken_eq_some.1 hopen).1⟩
  apply hideal
  rw [hdecrypt]
  rfl

theorem access_accepted {payload : JsonObject} (hideal : crypto.Ideal (producedBy crypto platform calls))
    (h : decryptAccessToken crypto platform token secret = .ok payload) :
    ∃ payload secret iv, .encryptSession payload secret iv ∈ calls ∧
      (encryptSession crypto platform payload secret iv).answer = .ok token := by
  obtain ⟨e, he, haad, rfl⟩ := produced_of_accepted hideal h
  exact session_returned he haad

theorem refresh_accepted {payload : Json} (htag : crypto.HasTag) (hideal : crypto.Ideal (producedBy crypto platform calls))
    (h : decryptAuthenticatedVnuRefreshGrant crypto platform token secret = .ok payload) :
    ∃ payload secret iv, .encryptVnuRefreshGrant payload secret iv ∈ calls ∧
      (encryptVnuRefreshGrant crypto platform payload secret iv).answer = .ok token := by
  obtain ⟨e, he, haad, rfl⟩ := produced_of_accepted hideal h
  exact grant_returned htag he haad

theorem permit_accepted {payload : Json} (hideal : crypto.Ideal (producedBy crypto platform calls))
    (h : decryptVnuCrossDetailPermitEnvelope crypto token secret = .ok payload) :
    ∃ payload secret iv, .encryptVnuCrossDetailPermitEnvelope payload secret iv ∈ calls ∧
      (encryptVnuCrossDetailPermitEnvelope crypto payload secret iv).answer = .ok token := by
  unfold decryptVnuCrossDetailPermitEnvelope at h
  split at h
  case isFalse => cases h
  case isTrue hlength =>
    obtain ⟨e, he, haad, rfl⟩ := produced_of_accepted hideal h
    exact permit_returned he haad hlength

theorem tokenBytes_eq {iv encrypted : Bytes} (h : openToken token = some (iv, encrypted)) : tokenBytes token = [some iv, some encrypted] := by
  obtain ⟨rfl, -, -⟩ := openToken_eq_some.1 h
  rw [tokenBytes, sealToken, List.splitOn_append_cons_self_of_not_mem (dot_not_mem_toBase64Url iv),
    List.splitOn_eq_singleton (dot_not_mem_toBase64Url encrypted)]
  simp [Base64.fromBase64Url_toBase64Url]

/-- Two accepted tokens of the same bytes are the same string. -/
theorem eq_of_tokenBytes_eq {token' : Text} (hopen : (openToken token).isSome) (hopen' : (openToken token').isSome)
    (h : tokenBytes token = tokenBytes token') : token = token' := by
  obtain ⟨⟨iv, encrypted⟩, hparts⟩ := Option.isSome_iff_exists.1 hopen
  obtain ⟨⟨iv', encrypted'⟩, hparts'⟩ := Option.isSome_iff_exists.1 hopen'
  rw [tokenBytes_eq hparts, tokenBytes_eq hparts'] at h
  simp only [List.cons.injEq, Option.some.injEq, and_true] at h
  obtain ⟨rfl, rfl⟩ := h
  rw [(openToken_eq_some.1 hparts).1, (openToken_eq_some.1 hparts').1]

theorem openToken_of_session {payload : JsonObject} {now : Int} (h : decryptSession crypto platform token secret now = .ok payload) :
    (openToken token).isSome := by
  simp only [decryptSession, bind_eq_ok] at h
  obtain ⟨_, h, -⟩ := h
  obtain ⟨iv, encrypted, k, decrypted, payload, hopen, -⟩ := openPayload_eq_ok.1 h
  exact Option.isSome_iff_exists.2 ⟨_, hopen⟩

end

/-! ## A session of a small cipher -/

def sampleDates : List (Text × Int) :=
  [(units "2026-01-01T00:00:00.000Z", 1767225600000), (units "2026-01-01T08:00:00.000Z", 1767254400000)]

def samplePlatform : Platform where
  toLowerCase := fun t => t.map lowerUnit
  getTime := fun
    | some (.str t) => sampleDates.lookup t
    | _ => none
  toISOString := fun time => (sampleDates.find? (·.2 = time)).map (·.1)

def samplePayload : Json :=
  .obj [(units "version", .num (units "1")), (units "universityId", .str (units "uet")),
    (units "expiresAt", .str (units "2026-01-01T00:00:00.000Z"))]

def sampleSecret : Text := units "0123456789abcdef0123456789abcdef"

def sampleIv : Iv := ⟨List.replicate 12 7, by decide⟩

/-- Keys are their material, and the tag is sixteen zeros. -/
def sampleCiphertext : Bytes := Utf8.encode (Json.stringify samplePayload) ++ List.replicate 16 0

def sampleCrypto : WebCrypto Bytes where
  digestKey := id
  hkdfKey := fun material salt info => material ++ salt ++ info
  encrypt := fun _ _ _ plaintext => plaintext ++ List.replicate 16 0
  decrypt := fun key additionalData iv encrypted =>
    if key = Utf8.encode sampleSecret ∧ additionalData = sessionAad ∧ iv = sampleIv.1 ∧ encrypted = sampleCiphertext then
      some (Utf8.encode (Json.stringify samplePayload))
    else none
  signHkdf := fun _ _ _ _ => []
  sign := fun _ _ => List.replicate 32 0

theorem sampleCrypto_hasTag : sampleCrypto.HasTag := by
  intro key additionalData iv plaintext
  rw [sampleCrypto, List.length_append, List.length_replicate]

theorem sampleCrypto_ideal : sampleCrypto.Ideal (producedBy sampleCrypto samplePlatform [.encryptSession samplePayload sampleSecret sampleIv]) := by
  intro key additionalData iv encrypted h
  have hpair : key = Utf8.encode sampleSecret ∧ additionalData = sessionAad ∧ iv = sampleIv.1 ∧ encrypted = sampleCiphertext := by
    by_contra hne
    simp [sampleCrypto, hne] at h
  obtain ⟨rfl, rfl, rfl, rfl⟩ := hpair
  decide +kernel

/-! ## The strings that are accepted -/

/-- What is accepted was returned, character for character. -/
theorem accepted_returned {Key : Type} (crypto : WebCrypto Key) (platform : Platform) (calls : List Call) (htag : crypto.HasTag)
    (hideal : crypto.Ideal (producedBy crypto platform calls)) :
    (∀ token secret now session, decryptSession crypto platform token secret now = .ok session →
      ∃ payload secret' iv, .encryptSession payload secret' iv ∈ calls ∧
        (encryptSession crypto platform payload secret' iv).answer = .ok token) ∧
    (∀ token secret session, decryptSessionForVnuRefresh crypto platform token secret = .ok session →
      ∃ payload secret' iv, .encryptSession payload secret' iv ∈ calls ∧
        (encryptSession crypto platform payload secret' iv).answer = .ok token) ∧
    (∀ token secret now grant, decryptVnuRefreshGrant crypto platform token secret now = .ok grant →
      ∃ payload secret' iv, .encryptVnuRefreshGrant payload secret' iv ∈ calls ∧
        (encryptVnuRefreshGrant crypto platform payload secret' iv).answer = .ok token) ∧
    (∀ token secret grant, decryptVnuRefreshGrantForLogout crypto platform token secret = .ok grant →
      ∃ payload secret' iv, .encryptVnuRefreshGrant payload secret' iv ∈ calls ∧
        (encryptVnuRefreshGrant crypto platform payload secret' iv).answer = .ok token) ∧
    (∀ token secret envelope, decryptVnuCrossDetailPermitEnvelope crypto token secret = .ok envelope →
      ∃ payload secret' iv, .encryptVnuCrossDetailPermitEnvelope payload secret' iv ∈ calls ∧
        (encryptVnuCrossDetailPermitEnvelope crypto payload secret' iv).answer = .ok token) ∧
    (∀ bytes, Base64.fromBase64Url (Base64.toBase64Url bytes) = some bytes) ∧
    (∀ part, (decodeCanonical part).isSome ↔ ∃ bytes, Base64.toBase64Url bytes = part) ∧
    (∀ hmacHex token secret now session token' secret' now' session',
      decryptSession crypto platform token secret now = .ok session →
      decryptSession crypto platform token' secret' now' = .ok session' →
      tokenBytes token = tokenBytes token' → revokedTokenKey hmacHex token = revokedTokenKey hmacHex token') := by
  refine ⟨?_, ?_, ?_, ?_, ?_, Base64.fromBase64Url_toBase64Url, ?_, ?_⟩
  · intro token secret now session h
    simp only [decryptSession, bind_eq_ok] at h
    obtain ⟨payload, h, -⟩ := h
    exact access_accepted hideal h
  · intro token secret session h
    simp only [decryptSessionForVnuRefresh, decryptVnuRefreshPurposeToken, bind_eq_ok] at h
    obtain ⟨payload, h, -⟩ := h
    exact access_accepted hideal h
  · intro token secret now grant h
    simp only [decryptVnuRefreshGrant, bind_eq_ok] at h
    obtain ⟨payload, h, -⟩ := h
    exact refresh_accepted htag hideal h
  · intro token secret grant h
    exact refresh_accepted htag hideal h
  · intro token secret envelope h
    exact permit_accepted hideal h
  · intro part
    rw [Option.isSome_iff_exists]
    exact exists_congr fun bytes => decodeCanonical_eq_some.trans eq_comm
  · intro hmacHex token secret now session token' secret' now' session' h h' hbytes
    rw [eq_of_tokenBytes_eq (openToken_of_session h) (openToken_of_session h') hbytes]

/-- The token of the session is accepted, so it was returned. -/
theorem accepted_returned_sample : ∃ payload secret iv, Call.encryptSession payload secret iv ∈ [Call.encryptSession samplePayload sampleSecret sampleIv] ∧
    (encryptSession sampleCrypto samplePlatform payload secret iv).answer = .ok (sealToken sampleIv.1 sampleCiphertext) := by
  have haccepted : (decryptSession sampleCrypto samplePlatform (sealToken sampleIv.1 sampleCiphertext) sampleSecret 0).toBool = true := by
    decide +kernel
  cases hsession : decryptSession sampleCrypto samplePlatform (sealToken sampleIv.1 sampleCiphertext) sampleSecret 0 with
  | error e =>
    rw [hsession] at haccepted
    cases haccepted
  | ok session => exact (accepted_returned sampleCrypto samplePlatform _ sampleCrypto_hasTag sampleCrypto_ideal).1 _ _ _ _ hsession

end Hyeboard.Tokens
