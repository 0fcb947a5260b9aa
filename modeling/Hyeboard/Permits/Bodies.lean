import Hyeboard.Permits.Envelopes
/-!
# Bodies with permits

`readVnuCrossDetailBody`: a body is read up to a bound that is computed from the rows, at
most 512 of them, and then checked.
-/

namespace Hyeboard.Permits

open Tokens

def vnuCrossDetailBodyOverheadBytes : Nat := 1024

def payloadTooLarge : HyeboardError := ⟨"PAYLOAD_TOO_LARGE", "The request body is too large.", 413, none⟩

def crossDetailBodyInvalid : HyeboardError := ⟨"VNU_CROSS_DETAIL_BODY_INVALID", "The cross-detail request body is invalid.", 400, none⟩

def crossDetailNotExplicitlyAllowed : HyeboardError :=
  ⟨"VNU_CROSS_LOOKUP_NOT_EXPLICITLY_ALLOWED", "Cross-student lookup requires the literal allowCrossLookup: true opt-in.", 400, none⟩

def crossDetailExportNotSelected : HyeboardError :=
  ⟨"VNU_CROSS_DETAIL_EXPORT_NOT_SELECTED", "Cross-detail export requires an explicit selected set of row permits.", 400, none⟩

def crossDetailBodyMaxBytes (maxRows : Nat) : Nat :=
  let boundedRows := min (max 1 maxRows) 512
  boundedRows * (vnuCrossDetailPermitMaxLength + 16) + vnuCrossDetailBodyOverheadBytes

/-- A request: `Number` of its `Content-Length`, where that is finite, and the chunks of its body. -/
structure Request where
  declaredLength : Option Int
  body : Option (List Bytes)

/-- The loop over the chunks. -/
def readChunks (maxBytes : Nat) : Nat → List Bytes → Except HyeboardError (List Bytes)
  | _, [] => .ok []
  | byteLength, value :: rest =>
    if byteLength + value.length > maxBytes then .error payloadTooLarge
    else do
      let chunks ← readChunks maxBytes (byteLength + value.length) rest
      return value :: chunks

def readBoundedJsonBody (request : Request) (maxBytes : Nat) : Except HyeboardError Json := do
  require payloadTooLarge (! request.declaredLength.any fun declaredLength => decide ((maxBytes : Int) < declaredLength))
  match request.body with
  | none => .error crossDetailBodyInvalid
  | some body =>
    let chunks ← readChunks maxBytes 0 body
    match (Utf8.decodeFatal chunks.flatten).bind Json.parse with
    | some value => .ok value
    | none => .error crossDetailBodyInvalid

/-- A string that a permit can be. -/
def isPermitText (permit : Text) : Bool := permit.length ≤ vnuCrossDetailPermitMaxLength && (permitGroups permit).isSome

/-- The loop over the permits. -/
def checkPermits (seen : List Text) : List Json → Except HyeboardError (List Text)
  | [] => .ok []
  | .str permit :: rest => do
    require crossDetailBodyInvalid (isPermitText permit)
    require crossDetailBodyInvalid (permit ∉ seen)
    let others ← checkPermits (permit :: seen) rest
    return permit :: others
  | _ :: _ => .error crossDetailBodyInvalid

def parsePermitArray (value : Option Json) (maxRows : Nat) (shapeInvalid : HyeboardError) : Except HyeboardError (List Text) :=
  match value with
  | some (.arr items) => do
    require shapeInvalid (items.length != 0 && items.length ≤ maxRows)
    checkPermits [] items
  | _ => .error shapeInvalid

inductive BodyKind where
  | single
  | bulk
  | exported

def BodyKind.keys : BodyKind → List String
  | .single => ["allowCrossLookup", "permit"]
  | .bulk => ["allowCrossLookup", "permits"]
  | .exported => ["allowCrossLookup", "permits"]

inductive CrossDetailBody where
  | permit (permit : Text)
  | permits (permits : List Text)
deriving DecidableEq

/-- An explicit selection within the bound. -/
def isSelection (maxRows : Nat) : Option Json → Bool
  | some (.arr items) => items.length != 0 && items.length ≤ maxRows
  | _ => false

def isTrue : Option Json → Bool
  | some (.bool true) => true
  | _ => false

def checkVnuCrossDetailBody (kind : BodyKind) (maxRows : Nat) : Json → Except HyeboardError CrossDetailBody
  | .obj value => do
    require crossDetailNotExplicitlyAllowed (isTrue (get value "allowCrossLookup"))
    let hasUnknownKeys := value.any fun field => ! kind.keys.any fun key => units key = field.1
    match kind with
    | .single =>
      require crossDetailBodyInvalid (! hasUnknownKeys)
      match get value "permit" with
      | some (.str permit) => if isPermitText permit then .ok (.permit permit) else .error crossDetailBodyInvalid
      | _ => .error crossDetailBodyInvalid
    | .bulk =>
      require crossDetailBodyInvalid (! hasUnknownKeys)
      let permits ← parsePermitArray (get value "permits") maxRows crossDetailBodyInvalid
      return .permits permits
    | .exported =>
      -- an export without a selection has an error of its own, and that first
      require crossDetailExportNotSelected (isSelection maxRows (get value "permits"))
      require crossDetailBodyInvalid (! hasUnknownKeys)
      let permits ← parsePermitArray (get value "permits") maxRows crossDetailExportNotSelected
      return .permits permits
  | _ => .error crossDetailBodyInvalid

def readVnuCrossDetailBody (request : Request) (kind : BodyKind) (maxRows : Nat) : Except HyeboardError CrossDetailBody := do
  let value ← readBoundedJsonBody request (crossDetailBodyMaxBytes maxRows)
  checkVnuCrossDetailBody kind maxRows value

/-! ## The body of the client -/

/-- `{ allowCrossLookup: true, permits }`. -/
def selectionJson (permits : List Text) : Json :=
  .obj [(units "allowCrossLookup", .bool true), (units "permits", .arr (permits.map .str))]

def selectionBytes (permits : List Text) : Bytes := Utf8.encode (Json.stringify (selectionJson permits))

/-! ## Selections are accepted -/

section
variable {permits : List Text}

theorem ok_selectionJson (permits : List Text) : (selectionJson permits).Ok := by
  have hitems : ∀ permits : List Text, Json.OkItems (permits.map .str) := by
    intro permits
    induction permits with
    | nil => trivial
    | cons permit rest ih => exact ⟨trivial, ih⟩
  have hkeys : ([units "allowCrossLookup", units "permits"]).Nodup := by decide
  exact ⟨hkeys, trivial, hitems permits, trivial⟩

theorem checkPermits_eq_ok {seen : List Text} (htexts : ∀ permit ∈ permits, isPermitText permit = true) (hnodup : permits.Nodup)
    (hnew : ∀ permit ∈ permits, permit ∉ seen) : checkPermits seen (permits.map .str) = .ok permits := by
  induction permits generalizing seen with
  | nil => rfl
  | cons permit rest ih =>
    rw [List.forall_mem_cons] at htexts hnew
    rw [List.nodup_cons] at hnodup
    have hrest : ∀ other ∈ rest, other ∉ permit :: seen := by
      intro other hother
      rw [List.mem_cons, not_or]
      refine ⟨?_, hnew.2 other hother⟩
      rintro rfl
      exact hnodup.1 hother
    simp only [List.map_cons, checkPermits, bind_eq_ok, require_eq_ok, pure_eq_ok, decide_eq_true_eq]
    exact ⟨(), htexts.1, (), hnew.1, rest, ih htexts.2 hnodup.2 hrest, rfl⟩

theorem parsePermitArray_eq_ok {maxRows : Nat} {shapeInvalid : HyeboardError} (hne : permits ≠ []) (hrows : permits.length ≤ maxRows)
    (htexts : ∀ permit ∈ permits, isPermitText permit = true) (hnodup : permits.Nodup) :
    parsePermitArray (some (.arr (permits.map .str))) maxRows shapeInvalid = .ok permits := by
  have hchecked : checkPermits [] (permits.map .str) = .ok permits := checkPermits_eq_ok htexts hnodup fun _ _ => List.not_mem_nil
  simp only [parsePermitArray, bind_eq_ok, require_eq_ok]
  refine ⟨(), ?_, hchecked⟩
  simpa [hrows] using hne

theorem check_selection {kind : BodyKind} {maxRows : Nat} (hkind : kind ≠ .single) (hne : permits ≠ []) (hrows : permits.length ≤ maxRows)
    (htexts : ∀ permit ∈ permits, isPermitText permit = true) (hnodup : permits.Nodup) :
    checkVnuCrossDetailBody kind maxRows (selectionJson permits) = .ok (.permits permits) := by
  cases kind with
  | single => exact absurd rfl hkind
  | bulk =>
    simp only [checkVnuCrossDetailBody, selectionJson, bind_eq_ok, require_eq_ok]
    exact ⟨(), rfl, (), rfl, permits, parsePermitArray_eq_ok hne hrows htexts hnodup, rfl⟩
  | exported =>
    simp only [checkVnuCrossDetailBody, selectionJson, bind_eq_ok, require_eq_ok]
    refine ⟨(), rfl, (), ?_, (), rfl, permits, parsePermitArray_eq_ok hne hrows htexts hnodup, rfl⟩
    have hselection : isSelection maxRows (some (.arr (permits.map .str))) = true := by
      simpa [isSelection, hrows] using hne
    exact hselection

theorem readChunks_eq_ok {maxBytes byteLength : Nat} {chunks : List Bytes} (h : byteLength + chunks.flatten.length ≤ maxBytes) :
    readChunks maxBytes byteLength chunks = .ok chunks := by
  induction chunks generalizing byteLength with
  | nil => rfl
  | cons value rest ih =>
    rw [List.flatten_cons, List.length_append] at h
    rw [readChunks, if_neg (by omega), ih (by omega)]
    rfl

/-- A body that is not longer than the bound is read, however it is split. -/
theorem readBoundedJsonBody_eq_ok {request : Request} {maxBytes : Nat} {chunks : List Bytes} {value : Json} (hok : value.Ok)
    (hbody : request.body = some chunks) (hchunks : chunks.flatten = Utf8.encode (Json.stringify value))
    (hlength : chunks.flatten.length ≤ maxBytes) (hdeclared : ∀ declared, request.declaredLength = some declared → declared ≤ maxBytes) :
    readBoundedJsonBody request maxBytes = .ok value := by
  have hheader : (request.declaredLength.any fun declaredLength => decide ((maxBytes : Int) < declaredLength)) = false := by
    cases hlength' : request.declaredLength with
    | none => rfl
    | some declared => simpa using hdeclared declared hlength'
  simp only [readBoundedJsonBody, bind_eq_ok, require_eq_ok, hheader, hbody]
  refine ⟨(), rfl, chunks, readChunks_eq_ok (by omega), ?_⟩
  rw [hchunks, Json.parse_decodeFatal hok]

theorem read_selection {request : Request} {kind : BodyKind} {maxRows : Nat} {chunks : List Bytes} (hkind : kind ≠ .single)
    (hne : permits ≠ []) (hrows : permits.length ≤ maxRows) (htexts : ∀ permit ∈ permits, isPermitText permit = true)
    (hnodup : permits.Nodup) (hbody : request.body = some chunks) (hchunks : chunks.flatten = selectionBytes permits)
    (hlength : (selectionBytes permits).length ≤ crossDetailBodyMaxBytes maxRows)
    (hdeclared : ∀ declared, request.declaredLength = some declared → declared = (selectionBytes permits).length) :
    readVnuCrossDetailBody request kind maxRows = .ok (.permits permits) := by
  have hread : readBoundedJsonBody request (crossDetailBodyMaxBytes maxRows) = .ok (selectionJson permits) := by
    apply readBoundedJsonBody_eq_ok (ok_selectionJson permits) hbody hchunks (by rw [hchunks]; exact hlength)
    intro declared hsome
    rw [hdeclared declared hsome]
    omega
  exact bind_eq_ok.2 ⟨_, hread, check_selection hkind hne hrows htexts hnodup⟩

/-- A body that is longer than the bound is too large, however it is split. -/
theorem readChunks_tooLarge {maxBytes byteLength : Nat} {chunks : List Bytes} (h : maxBytes < byteLength + chunks.flatten.length)
    (hstart : byteLength ≤ maxBytes) : readChunks maxBytes byteLength chunks = .error payloadTooLarge := by
  induction chunks generalizing byteLength with
  | nil => simp at h; omega
  | cons value rest ih =>
    rw [List.flatten_cons, List.length_append] at h
    rw [readChunks]
    split
    · rfl
    · rw [ih (by omega) (by omega)]
      rfl

end

end Hyeboard.Permits
