import Hyeboard.Tokens.Sealing
/-!
# Automation envelopes

The sealed payloads of `packages/automation-protocol`: keyrings with a current and a
previous key, the header that travels in clear and is authenticated together with the
caller's own data, and the text `aep1.header.ciphertext`.
-/

namespace Hyeboard.Envelopes

open Tokens

/-- The codes of `AutomationProtocolError` that sealing and opening throw. -/
inductive Code where
  | invalidInput
  | invalidKey
  | invalidKeyring
  | unknownKeyId
  | invalidEnvelope
  | envelopeExpired
  | invalidAad
  | serializationError
deriving DecidableEq

structure ProtocolError where
  code : Code
  message : String
deriving DecidableEq

def invalidEnvelope : ProtocolError := ⟨.invalidEnvelope, "Invalid encrypted automation envelope."⟩

def maxAadBytes : Nat := 4096

def maxEnvelopeBytes : Nat := 1048576

/-! ## Texts -/

def isAlphanumeric (u : UInt16) : Bool :=
  (unit 'A' ≤ u && u ≤ unit 'Z') || (unit 'a' ≤ u && u ≤ unit 'z') || (unit '0' ≤ u && u ≤ unit '9')

/-- `/^[A-Za-z0-9][A-Za-z0-9._-]{0,63}$/`. -/
def isKeyId : Text → Bool
  | [] => false
  | u :: rest => isAlphanumeric u && rest.length ≤ 63 && rest.all fun v => isAlphanumeric v || v = unit '.' || v = unit '_' || v = unit '-'

/-- `/^\d{4}-\d{2}-\d{2}T\d{2}:\d{2}:\d{2}\.\d{3}Z$/`, where a zero stands for any digit. -/
def isoPattern : Text := units "0000-00-00T00:00:00.000Z"

def isIsoDate (t : Text) : Bool :=
  t.length = isoPattern.length && (t.zip isoPattern).all fun (u, expected) => if expected = unit '0' then Json.isDigit u else u = expected

/-- `/^[A-Za-z0-9_-]{16}$/`. -/
def isNonce (t : Text) : Bool := t.length = 16 && t.all Base64.isUrlChar

/-- The bytes of the one spelling the encoder has for them. -/
def fromBase64Url (value : Text) : Option Bytes :=
  if value = [] || ! value.all Base64.isUrlChar then none
  else
    match Base64.fromBase64Url value with
    | some bytes => if Base64.toBase64Url bytes = value then some bytes else none
    | none => none

/-- What is asked of `Date`: `Date.parse`, none where that is `NaN`, and the canonical text of a time. -/
structure Dates where
  parse : Text → Option Int
  toISOString : Int → Text

section
variable (dates : Dates)

def isCanonicalIsoDate (value : Text) : Bool :=
  isIsoDate value && match dates.parse value with
    | some timestamp => dates.toISOString timestamp = value
    | none => false

/-- `Date.parse(expiresAt) <= Date.parse(issuedAt)`. -/
def endsBefore (issuedAt expiresAt : Text) : Bool :=
  match dates.parse expiresAt, dates.parse issuedAt with
  | some expiry, some issue => expiry ≤ issue
  | _, _ => false

def assertTimeWindow (issuedAt expiresAt : Text) : Except ProtocolError Unit := do
  require ⟨.invalidInput, "issuedAt must be a canonical ISO-8601 timestamp."⟩ (isCanonicalIsoDate dates issuedAt)
  require ⟨.invalidInput, "expiresAt must be a canonical ISO-8601 timestamp."⟩ (isCanonicalIsoDate dates expiresAt)
  require ⟨.invalidInput, "expiresAt must be later than issuedAt."⟩ (! endsBefore dates issuedAt expiresAt)

def isExpired (expiresAt : Text) (now : Int) : Bool :=
  match dates.parse expiresAt with
  | some time => time ≤ now
  | none => false

def assertNotExpired (expiresAt : Text) (now : Int) : Except ProtocolError Unit := do
  require ⟨.invalidInput, "expiresAt must be a canonical ISO-8601 timestamp."⟩ (isCanonicalIsoDate dates expiresAt)
  require ⟨.envelopeExpired, "The automation protocol value has expired."⟩ (! isExpired dates expiresAt now)

end

/-! ## Keys -/

/-- A key that Web Crypto holds. -/
structure CryptoKey (Key : Type) where
  name : String
  length : Option Nat
  /-- Whether `encrypt` and `decrypt` are among its usages. -/
  encrypts : Bool
  decrypts : Bool
  key : Key

inductive KeyMaterial (Key : Type) where
  | raw (bytes : Bytes)
  | cryptoKey (key : CryptoKey Key)

structure AutomationKey (Key : Type) where
  id : Text
  material : KeyMaterial Key

structure AutomationKeyring (Key : Type) where
  current : AutomationKey Key
  previous : Option (AutomationKey Key)

/-- Web Crypto, with keys made of raw bytes. -/
structure Subtle (Key : Type) extends WebCrypto Key where
  importKey : Bytes → Key

inductive Usage where
  | encrypt
  | decrypt

section
variable {Key : Type}

def assertKeyId (value : Text) : Except ProtocolError Unit := require ⟨.invalidKeyring, "Invalid automation key ID."⟩ (isKeyId value)

def assertKeyMaterial : KeyMaterial Key → Except ProtocolError Unit
  | .raw bytes => require ⟨.invalidKey, "Automation AES-GCM keys must contain exactly 32 bytes."⟩ (bytes.length = 32)
  | .cryptoKey key =>
    require ⟨.invalidKey, "Automation keys must be AES-256-GCM keys."⟩ (key.name = "AES-GCM" && key.length.all (· = 256))

def assertKey (key : AutomationKey Key) : Except ProtocolError Unit := do
  assertKeyId key.id
  assertKeyMaterial key.material

def assertKeyring (keyring : AutomationKeyring Key) : Except ProtocolError Unit := do
  assertKey keyring.current
  match keyring.previous with
  | none => return ()
  | some previous =>
    assertKey previous
    require ⟨.invalidKeyring, "Current and previous automation key IDs must differ."⟩ (previous.id != keyring.current.id)

def CryptoKey.permits (key : CryptoKey Key) : Usage → Bool
  | .encrypt => key.encrypts
  | .decrypt => key.decrypts

def importAesKey (crypto : Subtle Key) (material : KeyMaterial Key) (usage : Usage) : Except ProtocolError Key := do
  assertKeyMaterial material
  match material with
  | .raw bytes => return crypto.importKey bytes
  | .cryptoKey key =>
    require ⟨.invalidKey, "Automation key does not permit the requested operation."⟩ (key.permits usage)
    return key.key

def findKey (keyring : AutomationKeyring Key) (keyId : Text) : Except ProtocolError (AutomationKey Key × Bool) :=
  if keyring.current.id = keyId then .ok (keyring.current, false)
  else
    match keyring.previous with
    | some previous => if previous.id = keyId then .ok (previous, true) else .error ⟨.unknownKeyId, "The automation envelope key ID is not available."⟩
    | none => .error ⟨.unknownKeyId, "The automation envelope key ID is not available."⟩

end

/-! ## The header and what is authenticated -/

/-- The fields of a header that vary: its version is 1, and its algorithm AES-256-GCM. -/
structure Header where
  keyId : Text
  nonce : Text
  issuedAt : Text
  expiresAt : Text
deriving DecidableEq

def Header.toJson (header : Header) : Json :=
  .obj [(units "version", .num (units "1")), (units "algorithm", .str (units "AES-256-GCM")), (units "keyId", .str header.keyId),
    (units "nonce", .str header.nonce), (units "issuedAt", .str header.issuedAt), (units "expiresAt", .str header.expiresAt)]

def headerKeys : List String := ["version", "algorithm", "keyId", "nonce", "issuedAt", "expiresAt"]

/-- `string | Uint8Array`. -/
inductive EnvelopeAad where
  | string (value : Text)
  | bytes (value : Bytes)
deriving DecidableEq

def EnvelopeAad.encoded : EnvelopeAad → Bytes
  | .string value => Utf8.encode value
  | .bytes value => value

def aadBytes (aad : EnvelopeAad) : Except ProtocolError Bytes := do
  require ⟨.invalidAad, "AAD must be non-empty and at most 4096 bytes."⟩ (aad.encoded.length != 0 && aad.encoded.length ≤ maxAadBytes)
  return aad.encoded

def headerBytes (header : Header) : Bytes := Utf8.encode (Json.stringify header.toJson)

def authenticatedData (header : Header) (aad : EnvelopeAad) : Except ProtocolError Bytes := do
  let context ← aadBytes aad
  return Utf8.encode (units "hyeboard:automation-envelope:v1\n") ++ headerBytes header ++ 0 :: context

/-- A payload as `JSON.stringify` sees it: it throws, it gives `undefined`, or it writes a value. -/
inductive Payload where
  | unserializable
  | undefined
  | value (json : Json) (ok : json.Ok)

def serializeJson (payload : Payload) : Except ProtocolError Bytes :=
  match payload with
  | .value json _ => do
    let bytes := Utf8.encode (Json.stringify json)
    require ⟨.serializationError, "Envelope payload is too large."⟩ (bytes.length ≤ maxEnvelopeBytes)
    return bytes
  | _ => .error ⟨.serializationError, "Envelope payload must be JSON serializable."⟩

/-- `JSON.parse(JSON.stringify(payload))`. -/
def Payload.copied : Payload → Option Json
  | .value json _ => Json.parse (Json.stringify json)
  | _ => none

def parseHeader (dates : Dates) : Json → Except ProtocolError Header
  | .obj value => do
    require invalidEnvelope (hasExactKeys value headerKeys headerKeys)
    require invalidEnvelope (isOne (get value "version") && isString (units "AES-256-GCM") (get value "algorithm"))
    match get value "keyId", get value "nonce", get value "issuedAt", get value "expiresAt" with
    | some (.str keyId), some (.str nonce), some (.str issuedAt), some (.str expiresAt) =>
      require invalidEnvelope (isKeyId keyId && isNonce nonce)
      require invalidEnvelope (isCanonicalIsoDate dates issuedAt && isCanonicalIsoDate dates expiresAt)
      require invalidEnvelope (! endsBefore dates issuedAt expiresAt)
      require invalidEnvelope ((fromBase64Url nonce).any (·.length = 12))
      return ⟨keyId, nonce, issuedAt, expiresAt⟩
    | _, _, _, _ => .error invalidEnvelope
  | _ => .error invalidEnvelope

def encodeEnvelope (header : Header) (ciphertext : Bytes) : Text :=
  units "aep1." ++ Base64.toBase64Url (headerBytes header) ++ unit '.' :: Base64.toBase64Url ciphertext

def decodeEnvelope (dates : Dates) (token : Text) : Except ProtocolError (Header × Bytes) := do
  require invalidEnvelope (token.length ≤ maxEnvelopeBytes * 2)
  match token.splitOn (unit '.') with
  | [first, second, third] =>
    require invalidEnvelope (first = units "aep1")
    match (fromBase64Url second).bind fun bytes => Json.parse (Utf8.decode bytes) with
    | none => .error invalidEnvelope
    | some headerValue =>
      let header ← parseHeader dates headerValue
      match fromBase64Url third with
      | none => .error ⟨.invalidEnvelope, "Invalid base64url data."⟩
      | some ciphertext =>
        require invalidEnvelope (17 ≤ ciphertext.length)
        return (header, ciphertext)
  | _ => .error invalidEnvelope

/-- `/^aep1\.[A-Za-z0-9_-]+\.[A-Za-z0-9_-]+$/`, and its greatest length: no character of the two classes is a dot. -/
def isEnvelopeReference (token : Text) : Bool :=
  (match token.splitOn (unit '.') with
    | [first, second, third] =>
      first = units "aep1" && second != [] && second.all Base64.isUrlChar && third != [] && third.all Base64.isUrlChar
    | _ => false) && token.length ≤ maxEnvelopeBytes * 2

/-! ## Sealing and opening -/

structure EncryptEnvelopeOptions (Key : Type) where
  keyring : AutomationKeyring Key
  aad : EnvelopeAad
  expiresAt : Text
  issuedAt : Option Text

/-- One call: its arguments, the text of the clock's time, and the bytes its random source gives. -/
structure Call (Key : Type) where
  payload : Payload
  options : EncryptEnvelopeOptions Key
  clock : Text
  random : Bytes

/-- What a call that returned has made: its token, of a header and an encryption. -/
structure Issued (Key : Type) where
  header : Header
  encryption : Encryption Key
  token : Text
deriving DecidableEq

structure DecryptEnvelopeOptions (Key : Type) where
  keyring : AutomationKeyring Key
  aad : EnvelopeAad
  now : Int

structure EncryptedAutomationEnvelope where
  header : Header
  ciphertext : Text
deriving DecidableEq

structure OpenedAutomationEnvelope where
  payload : Json
  envelope : EncryptedAutomationEnvelope
  keyId : Text
  rotated : Bool

section
variable {Key : Type} (crypto : Subtle Key) (dates : Dates)

def encryptEnvelope (call : Call Key) : Except ProtocolError (Issued Key) := do
  let options := call.options
  assertKeyring options.keyring
  let issuedAt := options.issuedAt.getD call.clock
  assertTimeWindow dates issuedAt options.expiresAt
  require ⟨.invalidInput, "Random source must provide exactly 12 bytes."⟩ (call.random.length = 12)
  let header : Header := ⟨options.keyring.current.id, Base64.toBase64Url call.random, issuedAt, options.expiresAt⟩
  let key ← importAesKey crypto options.keyring.current.material .encrypt
  let additionalData ← authenticatedData header options.aad
  let plaintext ← serializeJson call.payload
  let encrypted := crypto.encrypt key additionalData call.random plaintext
  return ⟨header, ⟨key, additionalData, call.random, encrypted⟩, encodeEnvelope header encrypted⟩

/-- The part inside `try`: an error of the protocol is thrown on, every other one becomes an invalid envelope. -/
def openSealed (header : Header) (ciphertext : Bytes) (material : KeyMaterial Key) (aad : EnvelopeAad) : Except ProtocolError Json := do
  let key ← importAesKey crypto material .decrypt
  match fromBase64Url header.nonce with
  | none => .error ⟨.invalidEnvelope, "Invalid base64url data."⟩
  | some nonce =>
    let additionalData ← authenticatedData header aad
    match (crypto.decrypt key additionalData nonce ciphertext).bind fun plaintext => Json.parse (Utf8.decode plaintext) with
    | none => .error invalidEnvelope
    | some payload => return payload

def openEnvelope (token : Text) (options : DecryptEnvelopeOptions Key) : Except ProtocolError OpenedAutomationEnvelope := do
  assertKeyring options.keyring
  let (header, ciphertext) ← decodeEnvelope dates token
  assertNotExpired dates header.expiresAt options.now
  let (key, rotated) ← findKey options.keyring header.keyId
  let payload ← openSealed crypto header ciphertext key.material options.aad
  return ⟨payload, ⟨header, Base64.toBase64Url ciphertext⟩, header.keyId, rotated⟩

end

end Hyeboard.Envelopes
