import Hyeboard.Envelopes.Headers
/-!
# Envelopes that are opened

What was encrypted under a keyring opens under every keyring that still has the key, until
it expires, and nothing else opens.
-/

namespace Hyeboard.Envelopes

open Tokens

/-! ## The text of an envelope -/

theorem fromBase64Url_headerBytes (header : Header) : fromBase64Url (Base64.toBase64Url (headerBytes header)) = some (headerBytes header) := by
  refine fromBase64Url_eq_some.2 ⟨rfl, fun hnil => ?_⟩
  have hpos := encode_stringify_pos (ok_header header)
  rw [headerBytes] at hnil
  rw [hnil] at hpos
  cases hpos

theorem splitOn_encodeEnvelope (header : Header) (ciphertext : Bytes) : (encodeEnvelope header ciphertext).splitOn (unit '.') =
    [units "aep1", Base64.toBase64Url (headerBytes header), Base64.toBase64Url ciphertext] := by
  have hversion : units "aep1." = units "aep1" ++ [unit '.'] := by decide +kernel
  have hdot : unit '.' ∉ units "aep1" := by decide +kernel
  rw [encodeEnvelope, hversion, List.append_assoc, List.append_assoc, List.singleton_append,
    List.splitOn_append_cons_self_of_not_mem hdot, List.splitOn_append_cons_self_of_not_mem (dot_not_mem_toBase64Url _),
    List.splitOn_eq_singleton (dot_not_mem_toBase64Url ciphertext)]

section
variable {dates : Dates} {header : Header} {ciphertext : Bytes}

theorem length_encodeEnvelope (h : header.Valid dates) : (encodeEnvelope header ciphertext).length ≤ 408 + (ciphertext.length * 4 + 2) / 3 := by
  have hheader := h.length_headerBytes
  have hversion : (units "aep1.").length = 5 := by decide +kernel
  rw [encodeEnvelope, List.length_append, List.length_append, List.length_cons, Base64.length_toBase64Url,
    Base64.length_toBase64Url, hversion]
  omega

/-- An envelope within the bound is decoded as it was encoded. -/
theorem decodeEnvelope_encodeEnvelope (h : header.Valid dates) (hlong : 17 ≤ ciphertext.length)
    (hbound : (encodeEnvelope header ciphertext).length ≤ maxEnvelopeBytes * 2) :
    decodeEnvelope dates (encodeEnvelope header ciphertext) = .ok (header, ciphertext) := by
  have hciphertext : fromBase64Url (Base64.toBase64Url ciphertext) = some ciphertext := by
    refine fromBase64Url_eq_some.2 ⟨rfl, ?_⟩
    rintro rfl
    cases hlong
  simp [decodeEnvelope, splitOn_encodeEnvelope, fromBase64Url_headerBytes, parse_headerBytes, parseHeader_toJson h, hciphertext, hlong,
    hbound, require, bind, Except.bind, pure, Except.pure]

theorem isEnvelopeReference_encodeEnvelope (hlong : 17 ≤ ciphertext.length)
    (hbound : (encodeEnvelope header ciphertext).length ≤ maxEnvelopeBytes * 2) :
    isEnvelopeReference (encodeEnvelope header ciphertext) = true := by
  have hheader : Base64.toBase64Url (headerBytes header) ≠ [] := by
    intro hnil
    have hdecode := fromBase64Url_headerBytes header
    rw [hnil] at hdecode
    cases hdecode
  have hciphertext : Base64.toBase64Url ciphertext ≠ [] := toBase64Url_ne_nil (by rintro rfl; cases hlong)
  have hchars := fun bytes => List.all_eq_true.2 (Base64.isUrlChar_toBase64Url bytes)
  simp [isEnvelopeReference, splitOn_encodeEnvelope, hchars, hheader, hciphertext, hbound]

/-- What was decoded has a header that is valid. -/
theorem decodeEnvelope_valid {token : Text} (h : decodeEnvelope dates token = .ok (header, ciphertext)) : header.Valid dates := by
  unfold decodeEnvelope at h
  simp only [bind_eq_ok, require_eq_ok] at h
  obtain ⟨-, -, h⟩ := h
  split at h
  case h_2 => cases h
  case h_1 first second third _ =>
    simp only [bind_eq_ok, require_eq_ok] at h
    obtain ⟨-, -, h⟩ := h
    split at h
    case h_1 => cases h
    case h_2 headerValue _ =>
      simp only [bind_eq_ok] at h
      obtain ⟨parsed, hparsed, h⟩ := h
      split at h
      case h_1 => cases h
      case h_2 =>
        simp only [bind_eq_ok, require_eq_ok, pure_eq_ok, Prod.mk.injEq] at h
        obtain ⟨-, -, rfl, -⟩ := h
        exact parseHeader_valid hparsed

end

/-! ## What encryption does -/

section
variable {Key : Type} {crypto : Subtle Key} {dates : Dates} {call : Call Key} {issued : Issued Key}

/-- What a call that returned has checked and made. -/
structure Made (crypto : Subtle Key) (dates : Dates) (call : Call Key) (issued : Issued Key) : Prop where
  valid : issued.header.Valid dates
  keyId : issued.header.keyId = call.options.keyring.current.id
  expiresAt : issued.header.expiresAt = call.options.expiresAt
  key : importAesKey crypto call.options.keyring.current.material .encrypt = .ok issued.encryption.key
  additionalData : authenticatedData issued.header call.options.aad = .ok issued.encryption.additionalData
  iv : issued.encryption.iv.length = 12 ∧ issued.header.nonce = Base64.toBase64Url issued.encryption.iv
  payload : ∃ json : Json, json.Ok ∧ call.payload.copied = some json ∧
    (Utf8.encode (Json.stringify json)).length ≤ maxEnvelopeBytes ∧
    issued.encryption.encrypted = crypto.encrypt issued.encryption.key issued.encryption.additionalData issued.encryption.iv
      (Utf8.encode (Json.stringify json))
  token : issued.token = encodeEnvelope issued.header issued.encryption.encrypted

theorem assertKeyring_eq_ok {keyring : AutomationKeyring Key} : assertKeyring keyring = .ok () ↔
    isKeyId keyring.current.id = true ∧ assertKeyMaterial keyring.current.material = .ok () ∧
      ∀ previous, keyring.previous = some previous → isKeyId previous.id = true ∧ assertKeyMaterial previous.material = .ok () ∧
        previous.id ≠ keyring.current.id := by
  obtain ⟨current, previous⟩ := keyring
  cases previous with
  | none => simp [assertKeyring, assertKey, assertKeyId, Unique.exists_iff]
  | some previous => simp [assertKeyring, assertKey, assertKeyId, Unique.exists_iff]

theorem serializeJson_eq_ok {payload : Payload} {bytes : Bytes} (h : serializeJson payload = .ok bytes) :
    ∃ json : Json, json.Ok ∧ payload.copied = some json ∧ bytes.length ≤ maxEnvelopeBytes ∧ bytes = Utf8.encode (Json.stringify json) := by
  cases payload with
  | unserializable => cases h
  | undefined => cases h
  | value json hok =>
    simp only [serializeJson, bind_eq_ok, require_eq_ok, pure_eq_ok, decide_eq_true_eq] at h
    obtain ⟨-, hlength, rfl⟩ := h
    exact ⟨json, hok, Json.parse_stringify hok, hlength, rfl⟩

theorem made_of_issued (h : encryptEnvelope crypto dates call = .ok issued) : Made crypto dates call issued := by
  simp only [encryptEnvelope, bind_eq_ok, require_eq_ok, pure_eq_ok, decide_eq_true_eq, assertTimeWindow, Bool.not_eq_true'] at h
  obtain ⟨⟨⟩, hring, -, ⟨-, hissuedAt, -, hexpiresAt, hwindow⟩, -, hrandom, key, hkey, data, hdata, plaintext, hplaintext, rfl⟩ := h
  obtain ⟨json, hok, hcopied, hlength, rfl⟩ := serializeJson_eq_ok hplaintext
  refine ⟨⟨(assertKeyring_eq_ok.1 hring).1, ⟨_, hrandom, rfl⟩, hissuedAt, hexpiresAt, hwindow⟩, rfl, rfl, hkey, hdata, ⟨hrandom, rfl⟩,
    ⟨json, hok, hcopied, hlength, rfl⟩, rfl⟩

/-- Every payload that is taken makes an envelope within the decoder's bound. -/
theorem Made.bounds (h : Made crypto dates call issued) (htag : crypto.HasTag) : 17 ≤ issued.encryption.encrypted.length ∧
    (encodeEnvelope issued.header issued.encryption.encrypted).length ≤ maxEnvelopeBytes * 2 := by
  obtain ⟨json, hok, -, hlength, hencrypted⟩ := h.payload
  have hpos := encode_stringify_pos hok
  have htagged := htag issued.encryption.key issued.encryption.additionalData issued.encryption.iv (Utf8.encode (Json.stringify json))
  rw [← hencrypted] at htagged
  have htoken : (encodeEnvelope issued.header issued.encryption.encrypted).length ≤
      408 + (issued.encryption.encrypted.length * 4 + 2) / 3 := length_encodeEnvelope h.valid
  unfold maxEnvelopeBytes at *
  omega

/-! ## What opening does -/

/-- The keyring has the key under the id, as its previous one or as its current one. -/
def Contains (crypto : Subtle Key) (keyring : AutomationKeyring Key) (id : Text) (key : Key) (rotated : Bool) : Prop :=
  ∃ material, importAesKey crypto material .decrypt = .ok key ∧
    if rotated then keyring.previous = some ⟨id, material⟩ else keyring.current = ⟨id, material⟩

theorem findKey_of_contains {keyring : AutomationKeyring Key} {id : Text} {key : Key} {rotated : Bool}
    (hring : assertKeyring keyring = .ok ()) (h : Contains crypto keyring id key rotated) :
    ∃ material, importAesKey crypto material .decrypt = .ok key ∧ findKey keyring id = .ok (⟨id, material⟩, rotated) := by
  obtain ⟨material, hkey, hentry⟩ := h
  refine ⟨material, hkey, ?_⟩
  cases rotated with
  | false =>
    have hcurrent : keyring.current = ⟨id, material⟩ := hentry
    simp [findKey, hcurrent]
  | true =>
    have hprevious : keyring.previous = some ⟨id, material⟩ := hentry
    have hne := ((assertKeyring_eq_ok.1 hring).2.2 _ hprevious).2.2
    simp [findKey, hprevious, Ne.symm hne]

theorem contains_of_findKey {keyring : AutomationKeyring Key} {id : Text} {found : AutomationKey Key} {key : Key} {rotated : Bool}
    (hfind : findKey keyring id = .ok (found, rotated)) (hkey : importAesKey crypto found.material .decrypt = .ok key) :
    Contains crypto keyring id key rotated := by
  unfold findKey at hfind
  split at hfind
  case isTrue hcurrent =>
    cases hfind
    exact ⟨_, hkey, by rw [← hcurrent]; rfl⟩
  case isFalse =>
    split at hfind
    case h_1 previous hprevious =>
      split at hfind
      case isTrue hid =>
        cases hfind
        exact ⟨_, hkey, by rw [← hid]; exact hprevious⟩
      case isFalse => cases hfind
    case h_2 => cases hfind

/-- What an envelope that was opened passed. -/
theorem openEnvelope_eq_ok {token : Text} {options : DecryptEnvelopeOptions Key} {opened : OpenedAutomationEnvelope} :
    openEnvelope crypto dates token options = .ok opened ↔
      assertKeyring options.keyring = .ok () ∧ ∃ header ciphertext, decodeEnvelope dates token = .ok (header, ciphertext) ∧
        assertNotExpired dates header.expiresAt options.now = .ok () ∧ ∃ found rotated,
          findKey options.keyring header.keyId = .ok (found, rotated) ∧ ∃ payload,
            openSealed crypto header ciphertext found.material options.aad = .ok payload ∧
              opened = ⟨payload, ⟨header, Base64.toBase64Url ciphertext⟩, header.keyId, rotated⟩ := by
  simp only [openEnvelope, bind_eq_ok, pure_eq_ok, Prod.exists]
  constructor
  · rintro ⟨⟨⟩, hring, header, ciphertext, hdecode, ⟨⟩, hfresh, found, rotated, hfind, payload, hpayload, rfl⟩
    exact ⟨hring, header, ciphertext, hdecode, hfresh, found, rotated, hfind, payload, hpayload, rfl⟩
  · rintro ⟨hring, header, ciphertext, hdecode, hfresh, found, rotated, hfind, payload, hpayload, rfl⟩
    exact ⟨(), hring, header, ciphertext, hdecode, (), hfresh, found, rotated, hfind, payload, hpayload, rfl⟩

theorem openSealed_eq_ok {header : Header} {ciphertext : Bytes} {material : KeyMaterial Key} {aad : EnvelopeAad} {payload : Json} :
    openSealed crypto header ciphertext material aad = .ok payload ↔
      ∃ key nonce data plaintext, importAesKey crypto material .decrypt = .ok key ∧ fromBase64Url header.nonce = some nonce ∧
        authenticatedData header aad = .ok data ∧ crypto.decrypt key data nonce ciphertext = some plaintext ∧
        Json.parse (Utf8.decode plaintext) = some payload := by
  simp only [openSealed, bind_eq_ok]
  constructor
  · rintro ⟨key, hkey, h⟩
    split at h
    case h_1 => cases h
    case h_2 nonce hnonce =>
      simp only [bind_eq_ok] at h
      obtain ⟨data, hdata, h⟩ := h
      split at h
      case h_1 => cases h
      case h_2 parsed hparsed =>
        rw [pure_eq_ok] at h
        obtain ⟨plaintext, hdecrypt, hparse⟩ := Option.bind_eq_some_iff.1 hparsed
        exact ⟨key, nonce, data, plaintext, hkey, hnonce, hdata, hdecrypt, h ▸ hparse⟩
  · rintro ⟨key, nonce, data, plaintext, hkey, hnonce, hdata, hdecrypt, hparse⟩
    refine ⟨key, hkey, ?_⟩
    simp [hnonce, hdata, hdecrypt, hparse, bind, Except.bind, pure, Except.pure]

theorem Made.nonce (h : Made crypto dates call issued) : fromBase64Url issued.header.nonce = some issued.encryption.iv := by
  refine fromBase64Url_eq_some.2 ⟨h.iv.2, ?_⟩
  intro hnil
  have hlength := h.iv.1
  rw [hnil] at hlength
  cases hlength

/-- Whatever encryption takes, under whatever keyring, opens with the same data under every keyring that has the key, until
it expires; and the envelope fits the decoder's bound and the schema of the jobs that carry it. -/
theorem issued_envelope_opens (htag : crypto.HasTag) (hopens : crypto.Opens) (h : encryptEnvelope crypto dates call = .ok issued) :
    issued.token.length ≤ maxEnvelopeBytes * 2 ∧ isEnvelopeReference issued.token = true ∧
      ∃ payload, call.payload.copied = some payload ∧
        ∀ keyring aad now rotated, assertKeyring keyring = .ok () → aad.encoded = call.options.aad.encoded →
          isExpired dates call.options.expiresAt now = false →
          Contains crypto keyring call.options.keyring.current.id issued.encryption.key rotated →
          openEnvelope crypto dates issued.token ⟨keyring, aad, now⟩ =
            .ok ⟨payload, ⟨issued.header, Base64.toBase64Url issued.encryption.encrypted⟩, call.options.keyring.current.id, rotated⟩ := by
  have hmade := made_of_issued h
  obtain ⟨hlong, hbound⟩ := hmade.bounds htag
  obtain ⟨json, hok, hcopied, -, hencrypted⟩ := hmade.payload
  refine ⟨by rw [hmade.token]; exact hbound, by rw [hmade.token]; exact isEnvelopeReference_encodeEnvelope hlong hbound, json, hcopied, ?_⟩
  intro keyring aad now rotated hring haad hfresh hcontains
  rw [← hmade.keyId] at hcontains ⊢
  obtain ⟨material, hkey, hfind⟩ := findKey_of_contains hring hcontains
  have hdata : authenticatedData issued.header aad = .ok issued.encryption.additionalData := by
    rw [authenticatedData_eq_ok, haad]
    exact authenticatedData_eq_ok.1 hmade.additionalData
  have hdecrypt : crypto.decrypt issued.encryption.key issued.encryption.additionalData issued.encryption.iv
      issued.encryption.encrypted = some (Utf8.encode (Json.stringify json)) := by
    rw [hencrypted]
    exact hopens _ _ _ _
  have hnotExpired : assertNotExpired dates issued.header.expiresAt now = .ok () := by
    have hcanonical := hmade.valid.expiresAt
    rw [hmade.expiresAt] at hcanonical ⊢
    simp [assertNotExpired, hcanonical, hfresh, require, bind, Except.bind]
  refine openEnvelope_eq_ok.2 ⟨hring, _, _, ?_, hnotExpired, _, _, hfind, json, ?_, rfl⟩
  · rw [hmade.token]
    exact decodeEnvelope_encodeEnvelope hmade.valid hlong hbound
  · exact openSealed_eq_ok.2 ⟨_, _, _, _, hkey, hmade.nonce, hdata, hdecrypt, Json.parse_decode hok⟩

/-- A small cipher without keys, whose tag is sixteen zeros. -/
def keylessCrypto : Subtle Bytes where
  digestKey := id
  hkdfKey := fun material _ _ => material
  encrypt := fun _ _ _ plaintext => plaintext ++ List.replicate 16 0
  decrypt := fun _ _ _ encrypted => some (encrypted.take (encrypted.length - 16))
  signHkdf := fun _ _ _ _ => []
  sign := fun _ _ => []
  importKey := id

def sampleDates : Dates where
  parse := fun t =>
    if t = units "2026-01-01T00:00:00.000Z" then some 1767225600000
    else if t = units "2026-01-01T08:00:00.000Z" then some 1767254400000
    else none
  toISOString := fun time =>
    if time = 1767225600000 then units "2026-01-01T00:00:00.000Z" else units "2026-01-01T08:00:00.000Z"

def sampleKey (id : String) (byte : UInt8) : AutomationKey Bytes := ⟨units id, .raw (List.replicate 32 byte)⟩

def sampleCall : Call Bytes where
  payload := .value (.str (units "answer")) trivial
  options := ⟨⟨sampleKey "k1" 1, none⟩, .string (units "job"), units "2026-01-01T08:00:00.000Z", some (units "2026-01-01T00:00:00.000Z")⟩
  clock := []
  random := List.replicate 12 7

def sampleHeader : Header :=
  ⟨units "k1", Base64.toBase64Url (List.replicate 12 7), units "2026-01-01T00:00:00.000Z", units "2026-01-01T08:00:00.000Z"⟩

def sampleEncryption : Encryption Bytes where
  key := List.replicate 32 1
  additionalData := (authenticatedData sampleHeader (.string (units "job"))).toOption.getD []
  iv := List.replicate 12 7
  encrypted := Utf8.encode (Json.stringify (.str (units "answer"))) ++ List.replicate 16 0

def sampleIssued : Issued Bytes := ⟨sampleHeader, sampleEncryption, encodeEnvelope sampleHeader sampleEncryption.encrypted⟩

/-- The key has become the previous one. -/
theorem issued_envelope_opens_sample : ∃ payload,
    openEnvelope keylessCrypto sampleDates sampleIssued.token
        ⟨⟨sampleKey "k2" 2, some (sampleKey "k1" 1)⟩, .bytes (Utf8.encode (units "job")), 1767225600000⟩ =
      .ok ⟨payload, ⟨sampleIssued.header, Base64.toBase64Url sampleIssued.encryption.encrypted⟩, units "k1", true⟩ := by
  have htag : keylessCrypto.HasTag := by
    intro key additionalData iv plaintext
    rw [keylessCrypto, List.length_append, List.length_replicate]
  have hopens : keylessCrypto.Opens := by
    intro key additionalData iv plaintext
    simp [keylessCrypto]
  have hissued : encryptEnvelope keylessCrypto sampleDates sampleCall = .ok sampleIssued := by decide +kernel
  obtain ⟨-, -, payload, -, hopen⟩ := issued_envelope_opens htag hopens hissued
  have hring : assertKeyring ⟨sampleKey "k2" 2, some (sampleKey "k1" 1)⟩ = .ok () := by decide +kernel
  exact ⟨payload, hopen _ _ _ true hring rfl (by decide +kernel) ⟨_, rfl, rfl⟩⟩

/-- With an ideal cipher, an envelope that opens has the header and the ciphertext of one that was issued, for the caller's
data it was issued for, under a keyring that has its key and before it expires. -/
theorem opened_envelope_was_issued (issues : List (Call Key × Issued Key))
    (hissues : ∀ issue ∈ issues, encryptEnvelope crypto dates issue.1 = .ok issue.2)
    (hideal : crypto.Ideal (issues.map fun issue => issue.2.encryption)) {token : Text} {options : DecryptEnvelopeOptions Key}
    {opened : OpenedAutomationEnvelope} (h : openEnvelope crypto dates token options = .ok opened) :
    ∃ issue ∈ issues, opened.envelope = ⟨issue.2.header, Base64.toBase64Url issue.2.encryption.encrypted⟩ ∧
      options.aad.encoded = issue.1.options.aad.encoded ∧ isExpired dates issue.1.options.expiresAt options.now = false ∧
      opened.keyId = issue.1.options.keyring.current.id ∧
      Contains crypto options.keyring issue.1.options.keyring.current.id issue.2.encryption.key opened.rotated := by
  obtain ⟨-, header, ciphertext, hdecode, hfresh, found, rotated, hfind, payload, hpayload, rfl⟩ := openEnvelope_eq_ok.1 h
  obtain ⟨key, nonce, data, plaintext, hkey, hnonce, hdata, hdecrypt, -⟩ := openSealed_eq_ok.1 hpayload
  obtain ⟨issue, hissue, heq⟩ := List.mem_map.1 (hideal key data nonce ciphertext (by rw [hdecrypt]; rfl))
  have hmade := made_of_issued (hissues issue hissue)
  obtain ⟨rfl, rfl, rfl, rfl⟩ : issue.2.encryption.key = key ∧ issue.2.encryption.additionalData = data ∧
      issue.2.encryption.iv = nonce ∧ issue.2.encryption.encrypted = ciphertext := by
    rw [heq]
    exact ⟨rfl, rfl, rfl, rfl⟩
  obtain ⟨rfl, haad⟩ := authenticatedData_inj (decodeEnvelope_valid hdecode) hmade.valid hdata hmade.additionalData
  simp only [assertNotExpired, bind_eq_ok, require_eq_ok, Bool.not_eq_true', hmade.expiresAt] at hfresh
  obtain ⟨-, -, hfresh⟩ := hfresh
  have hcontains := contains_of_findKey hfind hkey
  rw [hmade.keyId] at hcontains
  exact ⟨issue, hissue, rfl, haad, hfresh, hmade.keyId, hcontains⟩

/-- The small cipher, opening nothing but what the sample call encrypted. -/
def idealCrypto : Subtle Bytes := { keylessCrypto with
  decrypt := fun key additionalData iv encrypted =>
    if (⟨key, additionalData, iv, encrypted⟩ : Encryption Bytes) = sampleEncryption then
      some (encrypted.take (encrypted.length - 16))
    else none }

theorem opened_envelope_was_issued_sample : ∃ opened,
    openEnvelope idealCrypto sampleDates sampleIssued.token ⟨sampleCall.options.keyring, .string (units "job"), 1767225600000⟩ = .ok opened ∧
      ∃ issue ∈ [(sampleCall, sampleIssued)],
        opened.envelope = ⟨issue.2.header, Base64.toBase64Url issue.2.encryption.encrypted⟩ ∧
          Contains idealCrypto sampleCall.options.keyring (units "k1") issue.2.encryption.key opened.rotated := by
  have hissued : encryptEnvelope idealCrypto sampleDates sampleCall = .ok sampleIssued := by decide +kernel
  have hideal : idealCrypto.Ideal ([(sampleCall, sampleIssued)].map fun issue => issue.2.encryption) := by
    intro key additionalData iv encrypted h
    have hsame : (⟨key, additionalData, iv, encrypted⟩ : Encryption Bytes) = sampleEncryption := by
      by_contra hne
      simp [idealCrypto, hne] at h
    rw [hsame]
    exact List.mem_singleton_self _
  have hopens : (openEnvelope idealCrypto sampleDates sampleIssued.token
      ⟨sampleCall.options.keyring, .string (units "job"), 1767225600000⟩).toBool = true := by decide +kernel
  cases hopen : openEnvelope idealCrypto sampleDates sampleIssued.token
      ⟨sampleCall.options.keyring, .string (units "job"), 1767225600000⟩ with
  | error error =>
    rw [hopen] at hopens
    cases hopens
  | ok opened =>
    obtain ⟨issue, hissue, henvelope, -, -, -, hcontains⟩ := opened_envelope_was_issued [(sampleCall, sampleIssued)]
      (by simpa using hissued) hideal hopen
    obtain rfl := List.mem_singleton.1 hissue
    exact ⟨opened, rfl, _, hissue, henvelope, hcontains⟩

end

end Hyeboard.Envelopes
