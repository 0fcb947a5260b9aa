import Hyeboard.ProbeBudget.State
import Hyeboard.Tokens.Reconnect
/-!
# Minting permits

`createVnuCrossDetailMinter` of `vnu-cross-detail.ts`. Every mint waits for the one
before it, so the calls run one after another in the order in which they were made,
whatever they return.
-/

namespace Hyeboard.Permits

open Tokens

/-- An ASCII string, as the object that stores permits has it. -/
def asString (t : Text) : String := String.ofList (t.map fun u => Char.ofNat u.toNat)

def vnuCrossDetailPermitMaxLength : Nat := 1100

def crossDetailHmacDomain : Text := units "hyeboard:vnu-cross-detail:v1"

structure VnuCrossDetailRow where
  courseCode : Text
  classId : Text
  termOrdinal : Text
deriving DecidableEq

structure MintInput where
  targetStdId : Text
  transcriptHtml : Text
  row : VnuCrossDetailRow
deriving DecidableEq

/-- What one mint draws and reads. -/
structure MintDraw where
  permitId : Bytes
  nonce : Bytes
  iv : Iv
  now : Nat

/-- Sixteen random bytes each, and a clock that shows a time value. -/
structure MintDraw.Ok (draw : MintDraw) : Prop where
  permitId : draw.permitId.length = 16
  nonce : draw.nonce.length = 16
  now : draw.now ≤ 8640000000000000

structure MinterOptions where
  secret : Text
  requesterToken : Text
  maxTargets : Nat
  maxRows : Nat
  permitTtlSeconds : Nat

/-- `issued` and `targets`. -/
structure Minter where
  issued : List ProbeBudget.VnuCrossDetailIssuedPermit
  targets : List Text

def Minter.start : Minter := ⟨[], []⟩

/-- The payload of an envelope, with the properties that are the same in every envelope. -/
structure VnuCrossDetailPermitEnvelope where
  nonce : Text
  targetHmac : Text
  revisionHmac : Text
  rowHmac : Text
  stdId : Text
  classId : Text
  termOrdinal : Text

def VnuCrossDetailPermitEnvelope.selector (envelope : VnuCrossDetailPermitEnvelope) : JsonObject :=
  [(units "stdId", .str envelope.stdId), (units "classId", .str envelope.classId), (units "termOrdinal", .str envelope.termOrdinal)]

def VnuCrossDetailPermitEnvelope.fields (envelope : VnuCrossDetailPermitEnvelope) : JsonObject :=
  [(units "version", .num (units "1")), (units "purpose", .str (units "vnu-cross-detail")), (units "nonce", .str envelope.nonce),
    (units "targetHmac", .str envelope.targetHmac), (units "revisionHmac", .str envelope.revisionHmac),
    (units "rowHmac", .str envelope.rowHmac), (units "selector", .obj envelope.selector)]

def VnuCrossDetailPermitEnvelope.toJson (envelope : VnuCrossDetailPermitEnvelope) : Json := .obj envelope.fields

/-- HMAC-SHA-256 makes 32 bytes. -/
def SignsThirtyTwo {Key : Type} (crypto : WebCrypto Key) : Prop := ∀ key message, (crypto.sign key message).length = 32

section
variable {Key : Type} (crypto : WebCrypto Key)

def hmacVnuCrossDetail (secret : Text) (domain : String) (value : Text) : Text :=
  encodeHex (crypto.sign (Utf8.encode secret) (Utf8.encode (crossDetailHmacDomain ++ unit ':' :: units domain ++ unit '\n' :: value)))

/-- The row that is bound to a permit. -/
def rowValue (input : MintInput) : Text :=
  input.targetStdId ++ unit '\n' :: input.row.termOrdinal ++ unit '\n' :: input.row.classId ++ unit '\n' :: input.row.courseCode

def envelopeOf (options : MinterOptions) (input : MintInput) (draw : MintDraw) : VnuCrossDetailPermitEnvelope where
  nonce := encodeHex draw.nonce
  targetHmac := hmacVnuCrossDetail crypto options.secret "target" input.targetStdId
  revisionHmac := hmacVnuCrossDetail crypto options.secret "revision" input.transcriptHtml
  rowHmac := hmacVnuCrossDetail crypto options.secret "row" (rowValue input)
  stdId := input.targetStdId
  classId := input.row.classId
  termOrdinal := input.row.termOrdinal

/-- The envelope, or what its encryption throws. -/
def sealedOf (options : MinterOptions) (input : MintInput) (draw : MintDraw) : Except HyeboardError Text :=
  (encryptVnuCrossDetailPermitEnvelope crypto (envelopeOf crypto options input draw).toJson options.secret draw.iv).answer

/-- The record that is issued. -/
def issuedOf (options : MinterOptions) (input : MintInput) (draw : MintDraw) (envelope : Text) : ProbeBudget.VnuCrossDetailIssuedPermit where
  permitHash := asString (hmacVnuCrossDetail crypto options.secret "permit" (encodeHex draw.permitId))
  record :=
    { requesterHmac := asString (hmacVnuCrossDetail crypto options.secret "requester" options.requesterToken)
      targetHmac := asString (envelopeOf crypto options input draw).targetHmac
      revisionHmac := asString (envelopeOf crypto options input draw).revisionHmac
      rowHmac := asString (envelopeOf crypto options input draw).rowHmac
      policyVersion := ProbeBudget.vnuCrossDetailPolicyVersion
      nonce := asString (encodeHex draw.nonce)
      envelope := asString envelope
      expiresAt := draw.now + options.permitTtlSeconds * 1000 }

/-- No permit is issued any more, or not for this target. -/
def Minter.full (minter : Minter) (options : MinterOptions) (input : MintInput) : Bool :=
  options.maxRows ≤ minter.issued.length ||
    (input.targetStdId ∉ minter.targets && options.maxTargets ≤ minter.targets.length)

def Minter.mint (options : MinterOptions) (minter : Minter) (input : MintInput) (draw : MintDraw) :
    Except HyeboardError (Option Text) × Minter :=
  if minter.full options input then (.ok none, minter)
  else
    match sealedOf crypto options input draw with
    | .error e => (.error e, minter)
    | .ok envelope =>
      (.ok (some (encodeHex draw.permitId ++ unit '.' :: envelope)),
        ⟨minter.issued ++ [issuedOf crypto options input draw envelope],
          if input.targetStdId ∈ minter.targets then minter.targets else minter.targets ++ [input.targetStdId]⟩)

/-- Calls in the order they were made: what each of them settles with, and the minter behind them. -/
def Minter.mintAll (options : MinterOptions) : Minter → List (MintInput × MintDraw) → List (Except HyeboardError (Option Text)) × Minter
  | minter, [] => ([], minter)
  | minter, (input, draw) :: calls =>
    let (answer, minter) := minter.mint crypto options input draw
    let (answers, minter) := Minter.mintAll options minter calls
    (answer :: answers, minter)

/-! ## Permits that come back -/

def crossDetailPermitInvalid : HyeboardError :=
  ⟨"VNU_CROSS_DETAIL_PERMIT_INVALID", "The cross-detail permit is invalid or expired.", 403, none⟩

/-- `/^([0-9a-f]{32})\.([A-Za-z0-9_-]+\.[A-Za-z0-9_-]+)$/`: its two groups. -/
def permitGroups (value : Text) : Option (Text × Text) :=
  match value.splitOn (unit '.') with
  | [permitId, iv, encrypted] =>
    if isHexText 32 permitId && iv != [] && iv.all Base64.isUrlChar && encrypted != [] && encrypted.all Base64.isUrlChar then
      some (permitId, iv ++ unit '.' :: encrypted)
    else none
  | _ => none

structure ParsedPermit where
  permitId : Text
  envelope : Text

def parseVnuCrossDetailPermitString : Json → Except HyeboardError ParsedPermit
  | .str value =>
    if value.length ≤ vnuCrossDetailPermitMaxLength then
      match permitGroups value with
      | some (permitId, envelope) => .ok ⟨permitId, envelope⟩
      | none => .error crossDetailPermitInvalid
    else .error crossDetailPermitInvalid
  | _ => .error crossDetailPermitInvalid

/-- A property of an envelope that was checked. -/
def textOf : Option Json → Text
  | some (.str t) => t
  | _ => []

def buildVnuCrossDetailConsumeInput (secret requesterToken : Text) (parsed : ParsedPermit) (presented : JsonObject) :
    ProbeBudget.VnuCrossDetailConsumeInput where
  permitHash := asString (hmacVnuCrossDetail crypto secret "permit" parsed.permitId)
  nonce := asString (textOf (get presented "nonce"))
  requesterHmac := asString (hmacVnuCrossDetail crypto secret "requester" requesterToken)
  targetHmac := asString (textOf (get presented "targetHmac"))
  revisionHmac := asString (textOf (get presented "revisionHmac"))
  rowHmac := asString (textOf (get presented "rowHmac"))
  policyVersion := ProbeBudget.vnuCrossDetailPolicyVersion

end

end Hyeboard.Permits
