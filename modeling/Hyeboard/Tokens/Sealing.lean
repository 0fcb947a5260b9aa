import Hyeboard.Tokens.Payloads
import Hyeboard.Lib.JsonText
/-!
# Sealed tokens

A token is `iv.ciphertext` in the url-safe alphabet. The three kinds differ in their
key, in the data that is authenticated with the ciphertext, and in what they carry.
What is read back has to be spelled exactly as the encoder spells it.
-/

namespace Hyeboard.Tokens

/-- The part of Web Crypto that is used: SHA-256 and HKDF keys, AES-GCM with a tag of 16 bytes, and HMAC-SHA-256, under
a derived key and under a raw one. -/
structure WebCrypto (Key : Type) where
  digestKey : (data : Bytes) → Key
  hkdfKey : (material salt info : Bytes) → Key
  encrypt : Key → (additionalData iv plaintext : Bytes) → Bytes
  decrypt : Key → (additionalData iv encrypted : Bytes) → Option Bytes
  signHkdf : (material salt info message : Bytes) → Bytes
  sign : (key message : Bytes) → Bytes

/-- One call of `encrypt`. -/
structure Encryption (Key : Type) where
  key : Key
  additionalData : Bytes
  iv : Bytes
  encrypted : Bytes
deriving DecidableEq

/-- The ciphertext is the plaintext and the tag. -/
def WebCrypto.HasTag {Key : Type} (crypto : WebCrypto Key) : Prop :=
  ∀ key additionalData iv plaintext, (crypto.encrypt key additionalData iv plaintext).length = plaintext.length + 16

/-- What was encrypted is decrypted. -/
def WebCrypto.Opens {Key : Type} (crypto : WebCrypto Key) : Prop :=
  ∀ key additionalData iv plaintext, crypto.decrypt key additionalData iv (crypto.encrypt key additionalData iv plaintext) = some plaintext

/-- AES-GCM as an ideal cipher: nothing else than what was produced by an encryption, under the key and with the
authenticated data, is decrypted. -/
def WebCrypto.Ideal {Key : Type} (crypto : WebCrypto Key) (produced : List (Encryption Key)) : Prop :=
  ∀ key additionalData iv encrypted, (crypto.decrypt key additionalData iv encrypted).isSome = true →
    ⟨key, additionalData, iv, encrypted⟩ ∈ produced

/-- An initialization vector of twelve bytes. -/
abbrev Iv := { bytes : Bytes // bytes.length = 12 }

/-! ## The format -/

def sealToken (iv encrypted : Bytes) : Text := Base64.toBase64Url iv ++ unit '.' :: Base64.toBase64Url encrypted

/-- The bytes of a part that is spelled as the encoder spells it. -/
def decodeCanonical (part : Text) : Option Bytes :=
  match Base64.fromBase64Url part with
  | some bytes => if Base64.toBase64Url bytes = part then some bytes else none
  | none => none

def openToken (token : Text) : Option (Bytes × Bytes) :=
  match token.splitOn (unit '.') with
  | [first, second] =>
    if first = [] || second = [] then none
    else
      match decodeCanonical first, decodeCanonical second with
      | some iv, some encrypted => if iv.length = 12 && 17 ≤ encrypted.length then some (iv, encrypted) else none
      | _, _ => none
  | _ => none

/-! ## Keys -/

def vnuRefreshSalt : Bytes := Utf8.encode (units "hyeboard:vnu-refresh:v1:salt")
def vnuRefreshInfo : Bytes := Utf8.encode (units "hyeboard:vnu-refresh:v1:aes-gcm")
def vnuRefreshAad : Bytes := Utf8.encode (units "hyeboard:vnu-refresh:v1")
def vnuCrossDetailSalt : Bytes := Utf8.encode (units "hyeboard:vnu-cross-detail:v1:salt")
def vnuCrossDetailInfo : Bytes := Utf8.encode (units "hyeboard:vnu-cross-detail:v1:aes-gcm")
def vnuCrossDetailAad : Bytes := Utf8.encode (units "hyeboard:vnu-cross-detail:v1")

/-- The tokens of sessions are encrypted without `additionalData`, which is as with an empty one. -/
def sessionAad : Bytes := []

/-- What a call that encrypts did: what it encrypted, and what it returned or threw. -/
structure Sealing (Key : Type) where
  produced : List (Encryption Key)
  answer : Except HyeboardError Text

section
variable {Key : Type} (crypto : WebCrypto Key) (platform : Platform)

def assertStrongSecret (secret : Text) : Except HyeboardError Unit := require weakSessionSecret (32 ≤ secret.length)

def deriveHkdfKey (secret : Text) (salt info : Bytes) : Except HyeboardError Key := do
  assertStrongSecret secret
  return crypto.hkdfKey (Utf8.encode secret) salt info

def deriveVnuRefreshGrantKey (secret : Text) : Except HyeboardError Key := deriveHkdfKey crypto secret vnuRefreshSalt vnuRefreshInfo

def deriveVnuCrossDetailKey (secret : Text) : Except HyeboardError Key :=
  deriveHkdfKey crypto secret vnuCrossDetailSalt vnuCrossDetailInfo

def deriveKey (secret : Text) : Except HyeboardError Key := .ok (crypto.digestKey (Utf8.encode secret))

/-! ## Encryption and decryption -/

/-- The checks and the key that come first, then the encryption, and last the bound on the token. -/
def sealPayload (key : Except HyeboardError Key) (additionalData : Bytes) (bound : Text → Except HyeboardError Unit) (payload : Json)
    (iv : Iv) : Sealing Key :=
  match key with
  | .error e => ⟨[], .error e⟩
  | .ok key =>
    let encrypted := crypto.encrypt key additionalData iv.1 (Utf8.encode (Json.stringify payload))
    let token := sealToken iv.1 encrypted
    ⟨[⟨key, additionalData, iv.1, encrypted⟩], bound token *> .ok token⟩

/-- Whatever goes wrong is one error, a weak secret apart. -/
def openPayload {α : Type} (key : Except HyeboardError Key) (additionalData : Bytes) (check : Json → Except HyeboardError α)
    (invalid : HyeboardError) (token : Text) : Except HyeboardError α :=
  match openToken token with
  | none => .error invalid
  | some (iv, encrypted) =>
    match key with
    | .error e => .error e
    | .ok key =>
      match (crypto.decrypt key additionalData iv encrypted).bind fun decrypted => Json.parse (Utf8.decode decrypted) with
      | none => .error invalid
      | some payload =>
        match check payload with
        | .ok a => .ok a
        | .error _ => .error invalid

def noBound : Text → Except HyeboardError Unit := fun _ => .ok ()

def encryptSession (payload : Json) (secret : Text) (iv : Iv) : Sealing Key :=
  sealPayload crypto (do
    assertStrongSecret secret
    let _ ← parseEncryptedSessionPayload platform payload
    deriveKey crypto secret) sessionAad noBound payload iv

def decryptAccessToken (token secret : Text) : Except HyeboardError JsonObject :=
  openPayload crypto (deriveKey crypto secret) sessionAad (parseEncryptedSessionPayload platform) invalidSession token

/-- `new Date(isoDate).getTime() <= now`; a date that is none is not expired. -/
def isExpired (isoDate : Option Json) (now : Int) : Bool :=
  match platform.getTime isoDate with
  | some time => time ≤ now
  | none => false

def decryptSession (token secret : Text) (now : Int) : Except HyeboardError JsonObject := do
  let payload ← decryptAccessToken crypto platform token secret
  require sessionExpired (! isExpired platform (get payload "expiresAt") now)
  return payload

def decryptVnuRefreshPurposeToken (token secret : Text) : Except HyeboardError JsonObject := do
  let payload ← decryptAccessToken crypto platform token secret
  -- what the check lets through is an object
  require invalidSession (get payload "vnuRefresh").isSome
  return payload

def decryptSessionForVnuRefresh (token secret : Text) : Except HyeboardError JsonObject :=
  decryptVnuRefreshPurposeToken crypto platform token secret

def decryptSessionForVnuLogout (token secret : Text) : Except HyeboardError JsonObject :=
  decryptVnuRefreshPurposeToken crypto platform token secret

def encryptVnuRefreshGrant (payload : Json) (secret : Text) (iv : Iv) : Sealing Key :=
  sealPayload crypto (do
    assertVnuRefreshGrantPayload platform payload
    deriveVnuRefreshGrantKey crypto secret) vnuRefreshAad
    (fun token => require oversizedVnuRefreshGrant (token.length ≤ vnuRefreshGrantMaxLength)) payload iv

def decryptAuthenticatedVnuRefreshGrant (token secret : Text) : Except HyeboardError Json :=
  openPayload crypto (deriveVnuRefreshGrantKey crypto secret) vnuRefreshAad
    (fun payload => assertVnuRefreshGrantPayload platform payload *> .ok payload) invalidVnuRefreshGrant token

/-- `payload.expiresAt` of a checked grant. -/
def grantExpiresAt : Json → Option Json
  | .obj value => get value "expiresAt"
  | _ => none

def decryptVnuRefreshGrant (token secret : Text) (now : Int) : Except HyeboardError Json := do
  let payload ← decryptAuthenticatedVnuRefreshGrant crypto platform token secret
  require invalidVnuRefreshGrant (! isExpired platform (grantExpiresAt payload) now)
  return payload

def decryptVnuRefreshGrantForLogout (token secret : Text) : Except HyeboardError Json :=
  decryptAuthenticatedVnuRefreshGrant crypto platform token secret

def encryptVnuCrossDetailPermitEnvelope (payload : Json) (secret : Text) (iv : Iv) : Sealing Key :=
  sealPayload crypto (do
    assertStrongSecret secret
    assertVnuCrossDetailPermitEnvelope payload
    deriveVnuCrossDetailKey crypto secret) vnuCrossDetailAad
    (fun token => require invalidVnuCrossDetailPermit (token.length ≤ vnuCrossDetailPermitEnvelopeMaxLength)) payload iv

def decryptVnuCrossDetailPermitEnvelope (token secret : Text) : Except HyeboardError Json :=
  if token.length ≤ vnuCrossDetailPermitEnvelopeMaxLength then
    openPayload crypto (deriveVnuCrossDetailKey crypto secret) vnuCrossDetailAad
      (fun payload => assertVnuCrossDetailPermitEnvelope payload *> .ok payload) invalidVnuCrossDetailPermit token
  else .error invalidVnuCrossDetailPermit

end

/-! ## What the format accepts -/

theorem decodeCanonical_eq_some {part : Text} {bytes : Bytes} : decodeCanonical part = some bytes ↔ part = Base64.toBase64Url bytes := by
  unfold decodeCanonical
  constructor
  · intro h
    cases hfrom : Base64.fromBase64Url part with
    | none => simp [hfrom] at h
    | some decoded =>
      simp only [hfrom] at h
      split at h
      case isTrue hsame =>
        cases h
        exact hsame.symm
      case isFalse => cases h
  · rintro rfl
    simp [Base64.fromBase64Url_toBase64Url]

theorem toBase64Url_ne_nil {bytes : Bytes} (h : bytes ≠ []) : Base64.toBase64Url bytes ≠ [] := by
  have hlength := Base64.length_toBase64Url bytes
  have hpos := List.length_pos_iff.2 h
  apply List.ne_nil_of_length_pos
  omega

theorem dot_not_mem_toBase64Url (bytes : Bytes) : unit '.' ∉ Base64.toBase64Url bytes := by
  intro hmem
  have hurl := Base64.isUrlChar_toBase64Url bytes _ hmem
  revert hurl
  decide

/-- A token is accepted when it is the spelling of its parts. -/
theorem openToken_eq_some {token : Text} {iv encrypted : Bytes} :
    openToken token = some (iv, encrypted) ↔ token = sealToken iv encrypted ∧ iv.length = 12 ∧ 17 ≤ encrypted.length := by
  constructor
  · intro h
    unfold openToken at h
    split at h
    case h_2 => cases h
    case h_1 first second hsplit =>
      have hjoin : [unit '.'].intercalate (token.splitOn (unit '.')) = token := List.intercalate_splitOn _
      have htoken : token = first ++ unit '.' :: second := by
        rw [hsplit] at hjoin
        simpa using hjoin.symm
      split at h
      case isTrue => cases h
      case isFalse =>
        cases hfirst : decodeCanonical first with
        | none => simp [hfirst] at h
        | some ivBytes =>
          cases hsecond : decodeCanonical second with
          | none => simp [hfirst, hsecond] at h
          | some encryptedBytes =>
            simp only [hfirst, hsecond] at h
            split at h
            case isFalse => cases h
            case isTrue hlengths =>
              cases h
              rw [decodeCanonical_eq_some] at hfirst hsecond
              simp only [Bool.and_eq_true, decide_eq_true_eq] at hlengths
              exact ⟨by rw [htoken, hfirst, hsecond, sealToken], hlengths⟩
  · rintro ⟨rfl, hiv, hencrypted⟩
    have hsplit : (sealToken iv encrypted).splitOn (unit '.') = [Base64.toBase64Url iv, Base64.toBase64Url encrypted] := by
      rw [sealToken, List.splitOn_append_cons_self_of_not_mem (dot_not_mem_toBase64Url iv),
        List.splitOn_eq_singleton (dot_not_mem_toBase64Url encrypted)]
    have hfirst : Base64.toBase64Url iv ≠ [] := toBase64Url_ne_nil (by rintro rfl; simp at hiv)
    have hsecond : Base64.toBase64Url encrypted ≠ [] := toBase64Url_ne_nil (by rintro rfl; simp at hencrypted)
    unfold openToken
    simp only [hsplit]
    simp [hfirst, hsecond, decodeCanonical_eq_some.2 rfl, hiv, hencrypted]

theorem length_sealToken (iv encrypted : Bytes) :
    (sealToken iv encrypted).length = (iv.length * 4 + 2) / 3 + 1 + (encrypted.length * 4 + 2) / 3 := by
  rw [sealToken, List.length_append, List.length_cons, Base64.length_toBase64Url, Base64.length_toBase64Url]
  omega

/-! ## What was accepted was decrypted, and what was sealed is -/

section
variable {Key : Type} {crypto : WebCrypto Key} {key : Except HyeboardError Key} {additionalData : Bytes} {invalid : HyeboardError}
  {token : Text}

theorem openPayload_eq_ok {α : Type} {check : Json → Except HyeboardError α} {a : α} :
    openPayload crypto key additionalData check invalid token = .ok a ↔
      ∃ iv encrypted k decrypted payload, openToken token = some (iv, encrypted) ∧ key = .ok k ∧
        crypto.decrypt k additionalData iv encrypted = some decrypted ∧ Json.parse (Utf8.decode decrypted) = some payload ∧
        check payload = .ok a := by
  constructor
  · intro h
    unfold openPayload at h
    cases hopen : openToken token with
    | none => simp [hopen] at h
    | some parts =>
      obtain ⟨iv, encrypted⟩ := parts
      cases key with
      | error e => simp [hopen] at h
      | ok k =>
        cases hdecrypt : crypto.decrypt k additionalData iv encrypted with
        | none => simp [hopen, hdecrypt] at h
        | some decrypted =>
          cases hparse : Json.parse (Utf8.decode decrypted) with
          | none => simp [hopen, hdecrypt, hparse] at h
          | some payload =>
            cases hcheck : check payload with
            | error e => simp [hopen, hdecrypt, hparse, hcheck] at h
            | ok b =>
              simp only [hopen, hdecrypt, hparse, hcheck, Option.bind_some, Except.ok.injEq] at h
              exact ⟨iv, encrypted, k, decrypted, payload, rfl, rfl, hdecrypt, hparse, h ▸ hcheck⟩
  · rintro ⟨iv, encrypted, k, decrypted, payload, hopen, rfl, hdecrypt, hparse, hcheck⟩
    simp [openPayload, hopen, hdecrypt, hparse, hcheck]

/-- What a sealing returns is the token of what it encrypted. -/
theorem sealPayload_answer_eq_ok {bound : Text → Except HyeboardError Unit} {payload : Json} {iv : Iv} :
    (sealPayload crypto key additionalData bound payload iv).answer = .ok token ↔
      ∃ k, key = .ok k ∧ token = sealToken iv.1 (crypto.encrypt k additionalData iv.1 (Utf8.encode (Json.stringify payload))) ∧
        bound token = .ok () := by
  cases key with
  | error e => simp [sealPayload]
  | ok k =>
    rw [sealPayload]
    simp only [Except.ok.injEq, exists_eq_left']
    generalize sealToken iv.1 (crypto.encrypt k additionalData iv.1 (Utf8.encode (Json.stringify payload))) = sealed
    constructor
    · intro h
      cases hbound : bound sealed with
      | error e =>
        rw [hbound] at h
        cases h
      | ok u =>
        rw [hbound] at h
        cases h
        exact ⟨rfl, hbound⟩
    · rintro ⟨rfl, hbound⟩
      rw [hbound]
      rfl

theorem encode_stringify_pos {payload : Json} (hok : payload.Ok) : 0 < (Utf8.encode (Json.stringify payload)).length := by
  apply List.length_pos_iff.2
  intro hempty
  have hparse := Json.parse_decode hok
  rw [hempty] at hparse
  cases hparse

/-- A sealed value is opened again under its key, and checked. -/
theorem openPayload_sealed {α : Type} {check : Json → Except HyeboardError α} {payload : Json} {k : Key} {iv : Iv} {a : α}
    (htag : crypto.HasTag) (hopens : crypto.Opens) (hok : payload.Ok) (hcheck : check payload = .ok a) :
    openPayload crypto (.ok k) additionalData check invalid
      (sealToken iv.1 (crypto.encrypt k additionalData iv.1 (Utf8.encode (Json.stringify payload)))) = .ok a := by
  have hlength := htag k additionalData iv.1 (Utf8.encode (Json.stringify payload))
  have hpos := encode_stringify_pos hok
  have hlong : 17 ≤ (crypto.encrypt k additionalData iv.1 (Utf8.encode (Json.stringify payload))).length := by omega
  have hopen := openToken_eq_some.2 ⟨rfl, iv.2, hlong⟩
  exact openPayload_eq_ok.2 ⟨iv.1, _, k, _, payload, hopen, rfl, hopens k additionalData iv.1 _, Json.parse_decode hok, hcheck⟩

end

end Hyeboard.Tokens
