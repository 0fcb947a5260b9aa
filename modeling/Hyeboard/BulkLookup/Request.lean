import Hyeboard.FeaturePolicy.Policy
import Hyeboard.Lib.Chunks
/-!
# Bulk lookup requests

What the web client makes of the typed targets (`lib/lookup/bulk-lookup.ts`,
`pages/lookup/lookup.tsx`, `lib/api/vnu-client.ts`), and how the worker reads the
body of one chunk (`app.ts`). Both sides read the limits of the effective
university.
-/

namespace Hyeboard.BulkLookup
open FeaturePolicy

inductive VnuBulkLookupMode where
  | stdidToCode
  | codeToStdid
  | stdidToTranscript
deriving DecidableEq, Repr

def VnuBulkLookupMode.name : VnuBulkLookupMode → String
  | .stdidToCode => "stdid-to-code"
  | .codeToStdid => "code-to-stdid"
  | .stdidToTranscript => "stdid-to-transcript"

/-! ## The client -/

inductive BulkTargetError where
  | disabled
  | empty
  | tooMany
deriving DecidableEq, Repr

structure ParsedBulkTargets where
  targets : List String
  error : Option BulkTargetError
deriving DecidableEq, Repr

/-- `raw.split(/\r?\n/)`. -/
def splitLines : List Char → List (List Char)
  | [] => [[]]
  | '\r' :: '\n' :: rest => [] :: splitLines rest
  | '\n' :: rest => [] :: splitLines rest
  | c :: rest =>
    match splitLines rest with
    | [] => [[c]]
    | line :: lines => (c :: line) :: lines

/-- The typed targets: trimmed, without empty ones, each once. -/
def typedTargets (raw : String) : List String :=
  (((splitLines raw.toList).map fun line => jsTrim (String.ofList line)).filter (· != "")).eraseDups

def parseBulkTargets (raw : String) (bulkMaxTargets : Option Nat) : ParsedBulkTargets :=
  let targets := typedTargets raw
  match bulkMaxTargets.filter fun n => decide (PositiveSafe n) with
  | none => { targets, error := some .disabled }
  | some bulkMaxTargets =>
    if targets.isEmpty then { targets, error := some .empty }
    else if bulkMaxTargets < targets.length then { targets, error := some .tooMany }
    else { targets, error := none }

def validChunkMaximum (value : Option Nat) : Option Nat := value.filter fun n => decide (PositiveSafe n)

/-- The size `chunkBulkTargets` cuts at. -/
def chunkSize (mode : VnuBulkLookupMode) (directChunkMaxTargets : Option Nat) : Nat :=
  if mode = .codeToStdid then 3 else (validChunkMaximum directChunkMaxTargets).getD 5

theorem chunkSize_pos (mode : VnuBulkLookupMode) (directChunkMaxTargets : Option Nat) : 0 < chunkSize mode directChunkMaxTargets := by
  unfold chunkSize
  split
  · decide
  · cases hvalid : validChunkMaximum directChunkMaxTargets with
    | none => decide
    | some direct =>
      rw [validChunkMaximum, Option.filter_eq_some_iff, decide_eq_true_eq] at hvalid
      exact hvalid.2.1

def chunkBulkTargets (mode : VnuBulkLookupMode) (targets : List String) (directChunkMaxTargets : Option Nat) :
    List (List String) :=
  chunks (chunkSize mode directChunkMaxTargets) targets

/-- `state.activeUniversity?.limits?.crossLookup`, while the university has the
capability. -/
def servedLimits (university : University) : Option CrossLookupLimits :=
  if university.capabilities.get? "crossLookup" = some true then university.limits.bind (·.crossLookup) else none

/-- `activeMaximum` of the page. -/
def activeMaximum (limits : CrossLookupLimits) (mode : VnuBulkLookupMode) : Option Nat :=
  (limits.bulkModeMaxTargets.bind (·.get? mode.name)).or (some limits.bulkMaxTargets)

/-- The body of `crossLookupBulk`. -/
def requestBody (mode : VnuBulkLookupMode) (targets : List String) : JsValue :=
  .object [("mode", .string mode.name), ("targets", .array (targets.map .string)), ("allowCrossLookup", .bool true)]

/-! ## The worker -/

structure VnuBulkLookupBody where
  mode : VnuBulkLookupMode
  targets : List JsValue

def vnuBulkModeLimit (mode : VnuBulkLookupMode) (limits : Option UniversityLimits) : Nat :=
  match limits.bind (·.crossLookup) with
  | none => 0
  | some crossLookup =>
    min crossLookup.bulkMaxTargets <| min (crossLookup.bulkDirectChunkMaxTargets.getD crossLookup.bulkMaxTargets)
      ((crossLookup.bulkModeMaxTargets.bind (·.get? mode.name)).getD crossLookup.bulkMaxTargets)

def parseMode : JsValue → Option VnuBulkLookupMode
  | .string "stdid-to-code" => some .stdidToCode
  | .string "code-to-stdid" => some .codeToStdid
  | .string "stdid-to-transcript" => some .stdidToTranscript
  | _ => none

def bodyError (code message : String) : PolicyError := .hyeboard code message 400 []

def chunkTooLarge : PolicyError :=
  bodyError "VNU_CROSS_LOOKUP_CHUNK_TOO_LARGE" "Bulk cross-lookup chunk exceeds the selected mode limit."

def parseVnuBulkLookupBody (value : JsValue) (limits : Option UniversityLimits) : Except PolicyError VnuBulkLookupBody :=
  match value with
  | .object fields =>
    match JsValue.field fields "allowCrossLookup" with
    | .bool true =>
      match parseMode (JsValue.field fields "mode") with
      | none => .error (bodyError "VNU_CROSS_LOOKUP_MODE_INVALID" "Bulk cross-lookup mode is invalid.")
      | some mode =>
        match JsValue.field fields "targets" with
        | .array (target :: rest) =>
          if vnuBulkModeLimit mode limits < (target :: rest).length then .error chunkTooLarge
          else .ok { mode, targets := target :: rest }
        | _ => .error (bodyError "VNU_CROSS_LOOKUP_TARGETS_INVALID" "Bulk cross-lookup needs at least one target.")
    | _ =>
      .error (bodyError "VNU_CROSS_LOOKUP_NOT_EXPLICITLY_ALLOWED"
        "Cross-student lookup requires the literal allowCrossLookup: true opt-in.")
  | _ => .error (bodyError "VNU_CROSS_LOOKUP_BODY_INVALID" "Bulk cross-lookup needs a JSON object body.")

end Hyeboard.BulkLookup
