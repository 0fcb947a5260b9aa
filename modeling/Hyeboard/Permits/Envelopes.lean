import Hyeboard.Permits.Minter
/-!
# What one mint seals

When an envelope passes its checks, how long its text is, and that a permit that was
returned is parsed, opened and bound as it was minted.
-/

namespace Hyeboard.Permits

open Tokens

/-! ## Hexadecimal strings -/

def isHexUnit (u : UInt16) : Bool := (unit '0' ≤ u && u ≤ unit '9') || (unit 'a' ≤ u && u ≤ unit 'f')

theorem isHexUnit_hexUnit : ∀ n < 16, isHexUnit (Json.hexUnit n) = true := by decide +kernel

theorem length_encodeHex (bytes : Bytes) : (encodeHex bytes).length = 2 * bytes.length := by
  induction bytes with
  | nil => rfl
  | cons byte rest ih =>
    rw [encodeHex, List.flatMap_cons, List.length_append, ← encodeHex, ih, List.length_cons, List.length_cons, List.length_cons,
      List.length_nil]
    omega

theorem isHexUnit_encodeHex (bytes : Bytes) : ∀ u ∈ encodeHex bytes, isHexUnit u = true := by
  intro u hu
  obtain ⟨byte, -, hu⟩ := List.mem_flatMap.1 hu
  have hlt := byte.toNat_lt
  simp only [List.mem_cons, List.not_mem_nil, or_false] at hu
  rcases hu with rfl | rfl
  · exact isHexUnit_hexUnit _ (by omega)
  · exact isHexUnit_hexUnit _ (by omega)

theorem isHexText_encodeHex {bytes : Bytes} {n : Nat} (h : 2 * bytes.length = n) : isHexText n (encodeHex bytes) = true := by
  rw [isHexText, length_encodeHex, h, beq_self_eq_true, Bool.true_and, List.all_eq_true]
  exact isHexUnit_encodeHex bytes

theorem hexUnit_lt {u : UInt16} (h : isHexUnit u = true) : u.toNat < 0x80 := by
  simp only [isHexUnit, Bool.or_eq_true, Bool.and_eq_true, decide_eq_true_eq, UInt16.le_iff_toNat_le] at h
  have hnine : (unit '9').toNat = 57 := rfl
  have hf : (unit 'f').toNat = 102 := rfl
  omega

theorem hexUnit_all : ∀ n < 0x80, isHexUnit (UInt16.ofNat n) = true →
    Json.isPlain (UInt16.ofNat n) = true ∧ UInt16.ofNat n ≠ unit '.' ∧
      ((Char.ofNat n).isDigit || ('a' ≤ Char.ofNat n && Char.ofNat n ≤ 'f')) = true := by decide +kernel

/-- No hexadecimal digit is escaped, and none is a dot. -/
theorem hexUnit_facts {u : UInt16} (h : isHexUnit u = true) : Json.isPlain u = true ∧ u ≠ unit '.' := by
  have hall := hexUnit_all u.toNat (hexUnit_lt h)
  rw [UInt16.ofNat_toNat] at hall
  exact ⟨(hall h).1, (hall h).2.1⟩

theorem isHex_asString {t : Text} {n : Nat} (h : isHexText n t = true) : ProbeBudget.isHex n (asString t) = true := by
  simp only [isHexText, Bool.and_eq_true, beq_iff_eq, List.all_eq_true] at h
  have hlength : (asString t).length = t.length := by simp [asString]
  rw [ProbeBudget.isHex, hlength, h.1, beq_self_eq_true, Bool.true_and, List.all_eq_true]
  intro c hc
  rw [asString, String.toList_ofList] at hc
  obtain ⟨u, hu, rfl⟩ := List.mem_map.1 hc
  have hhex : isHexUnit u = true := h.2 u hu
  have hall := hexUnit_all u.toNat (hexUnit_lt hhex)
  rw [UInt16.ofNat_toNat] at hall
  exact (hall hhex).2.2

/-! ## The checks on an envelope -/

section
variable {Key : Type} {crypto : WebCrypto Key} {options : MinterOptions} {input : MintInput} {draw : MintDraw}

theorem isHexText_hmac (hsigns : SignsThirtyTwo crypto) (secret : Text) (domain : String) (value : Text) :
    isHexText 64 (hmacVnuCrossDetail crypto secret domain value) = true := by
  apply isHexText_encodeHex
  rw [hsigns]

/-- The selector is the part of an envelope that can be refused. -/
def SelectorOk (input : MintInput) : Prop :=
  isStdId input.targetStdId = true ∧ isUnspaced 32 input.row.classId = true ∧ isUnspaced 16 input.row.termOrdinal = true

instance (input : MintInput) : Decidable (SelectorOk input) := inferInstanceAs (Decidable (_ ∧ _))

theorem envelope_checked (hsigns : SignsThirtyTwo crypto) (hdraw : draw.Ok) :
    assertVnuCrossDetailPermitEnvelope (envelopeOf crypto options input draw).toJson = .ok () ↔ SelectorOk input := by
  have hnonce : isHexText 32 (encodeHex draw.nonce) = true := isHexText_encodeHex (by rw [hdraw.nonce])
  have htarget := isHexText_hmac hsigns options.secret "target" input.targetStdId
  have hrevision := isHexText_hmac hsigns options.secret "revision" input.transcriptHtml
  have hrow := isHexText_hmac hsigns options.secret "row" (rowValue input)
  generalize hpayload : envelopeOf crypto options input draw = payload
  have hkeys : hasExactKeys payload.fields crossDetailEnvelopeKeys crossDetailEnvelopeKeys = true := rfl
  have hselectorKeys : hasExactKeys payload.selector crossDetailSelectorKeys crossDetailSelectorKeys = true := rfl
  have hversion : isOne (some (.num (units "1"))) = true := by decide +kernel
  have hfields : ["targetHmac", "revisionHmac", "rowHmac"].all (fun key => isStringWith (isHexText 64) (get payload.fields key)) = true := by
    simp only [List.all_cons, List.all_nil, Bool.and_true, Bool.and_eq_true]
    subst hpayload
    exact ⟨htarget, hrevision, hrow⟩
  have hassert : assertVnuCrossDetailPermitEnvelope payload.toJson = .ok () ↔
      isHexText 32 payload.nonce = true ∧ isStdId payload.stdId = true ∧ isUnspaced 32 payload.classId = true ∧
        isUnspaced 16 payload.termOrdinal = true := by
    rw [List.all_eq_true] at hfields
    simp only [assertVnuCrossDetailPermitEnvelope, VnuCrossDetailPermitEnvelope.toJson, assertSelector, bind_eq_ok, require_eq_ok,
      forM_eq_ok, hkeys]
    constructor
    · rintro ⟨⟨⟩, -, ⟨⟩, -, ⟨⟩, hnonce, ⟨⟩, -, hselector⟩
      have hchecked : assertSelector (some (.obj payload.selector)) = .ok () := hselector
      simp only [assertSelector, bind_eq_ok, require_eq_ok] at hchecked
      obtain ⟨⟨⟩, -, ⟨⟩, hstdId, ⟨⟩, hclassId, htermOrdinal⟩ := hchecked
      exact ⟨hnonce, hstdId, hclassId, htermOrdinal⟩
    · rintro ⟨hnonce, hstdId, hclassId, htermOrdinal⟩
      have hselector : assertSelector (some (.obj payload.selector)) = .ok () := by
        simp only [assertSelector, bind_eq_ok, require_eq_ok]
        exact ⟨(), hselectorKeys, (), hstdId, (), hclassId, htermOrdinal⟩
      exact ⟨(), trivial, (), by rw [Bool.and_eq_true]; exact ⟨hversion, rfl⟩, (), hnonce, (), hfields, hselector⟩
  rw [hassert]
  subst hpayload
  exact ⟨fun h => h.2, fun h => ⟨hnonce, h⟩⟩

/-! ## The text of an envelope -/

/-- Every string of the envelope is ASCII and needs no escape. -/
structure VnuCrossDetailPermitEnvelope.Plain (payload : VnuCrossDetailPermitEnvelope) : Prop where
  nonce : ∀ u ∈ payload.nonce, Json.isPlain u = true
  targetHmac : ∀ u ∈ payload.targetHmac, Json.isPlain u = true
  revisionHmac : ∀ u ∈ payload.revisionHmac, Json.isPlain u = true
  rowHmac : ∀ u ∈ payload.rowHmac, Json.isPlain u = true
  stdId : ∀ u ∈ payload.stdId, Json.isPlain u = true
  classId : ∀ u ∈ payload.classId, Json.isPlain u = true
  termOrdinal : ∀ u ∈ payload.termOrdinal, Json.isPlain u = true

section
variable {payload : VnuCrossDetailPermitEnvelope}

theorem length_quote_units : ∀ key ∈ crossDetailEnvelopeKeys ++ crossDetailSelectorKeys ++ ["vnu-cross-detail"],
    (Json.quote (units key)).length = key.length + 2 ∧ Json.IsAscii (Json.quote (units key)) :=
  List.all_iff_forall_prop.1 (by decide +kernel)

theorem length_envelope (h : payload.Plain) : (Json.stringify payload.toJson).length =
    154 + payload.nonce.length + payload.targetHmac.length + payload.revisionHmac.length + payload.rowHmac.length + payload.stdId.length +
      payload.classId.length + payload.termOrdinal.length := by
  have hkeys := length_quote_units
  simp only [crossDetailEnvelopeKeys, crossDetailSelectorKeys, List.cons_append, List.nil_append, List.forall_mem_cons] at hkeys
  simp only [VnuCrossDetailPermitEnvelope.toJson, VnuCrossDetailPermitEnvelope.fields, VnuCrossDetailPermitEnvelope.selector,
    Json.stringify, Json.stringifyFields, List.length_append, List.length_cons, List.length_nil, List.cons_append, hkeys,
    Json.length_quote_plain h.nonce, Json.length_quote_plain h.targetHmac, Json.length_quote_plain h.revisionHmac,
    Json.length_quote_plain h.rowHmac, Json.length_quote_plain h.stdId, Json.length_quote_plain h.classId,
    Json.length_quote_plain h.termOrdinal]
  have hone : (units "1").length = 1 := rfl
  have hwords : "version".length = 7 ∧ "purpose".length = 7 ∧ "vnu-cross-detail".length = 16 ∧ "nonce".length = 5 ∧
      "targetHmac".length = 10 ∧ "revisionHmac".length = 12 ∧ "rowHmac".length = 7 ∧ "selector".length = 8 ∧ "stdId".length = 5 ∧
      "classId".length = 7 ∧ "termOrdinal".length = 11 := by decide
  simp only [hone, hwords]
  omega

theorem isAscii_envelope (h : payload.Plain) : Json.IsAscii (Json.stringify payload.toJson) := by
  have hkeys := length_quote_units
  simp only [crossDetailEnvelopeKeys, crossDetailSelectorKeys, List.cons_append, List.nil_append, List.forall_mem_cons] at hkeys
  have hunits : ∀ c ∈ [unit ',', unit ':', unit '\x7b', unit '\x7d'], c.toNat < 0x80 :=
    List.all_iff_forall_prop.1 (by decide)
  simp only [List.forall_mem_cons] at hunits
  have hone : Json.IsAscii (units "1") := by decide
  simp only [VnuCrossDetailPermitEnvelope.toJson, VnuCrossDetailPermitEnvelope.fields, VnuCrossDetailPermitEnvelope.selector,
    Json.stringify, Json.stringifyFields, Json.isAscii_append, Json.isAscii_cons, Json.isAscii_nil, List.cons_append, hunits, hkeys, hone,
    Json.isAscii_quote_plain h.nonce, Json.isAscii_quote_plain h.targetHmac, Json.isAscii_quote_plain h.revisionHmac,
    Json.isAscii_quote_plain h.rowHmac, Json.isAscii_quote_plain h.stdId, Json.isAscii_quote_plain h.classId,
    Json.isAscii_quote_plain h.termOrdinal, and_self]

end

/-! ## What a mint seals -/

/-- The ciphertext of an envelope. -/
def ciphertextOf (crypto : WebCrypto Key) (options : MinterOptions) (input : MintInput) (draw : MintDraw) : Bytes :=
  crypto.encrypt (crypto.hkdfKey (Utf8.encode options.secret) vnuCrossDetailSalt vnuCrossDetailInfo) vnuCrossDetailAad draw.iv.1
    (Utf8.encode (Json.stringify (envelopeOf crypto options input draw).toJson))

theorem deriveVnuCrossDetailKey_eq_ok {secret : Text} {k : Key} : deriveVnuCrossDetailKey crypto secret = .ok k ↔
    32 ≤ secret.length ∧ k = crypto.hkdfKey (Utf8.encode secret) vnuCrossDetailSalt vnuCrossDetailInfo := by
  simp only [deriveVnuCrossDetailKey, deriveHkdfKey, assertStrongSecret, bind_eq_ok, require_eq_ok, pure_eq_ok, decide_eq_true_eq]
  constructor
  · rintro ⟨_, hsecret, hk⟩
    exact ⟨hsecret, hk.symm⟩
  · rintro ⟨hsecret, hk⟩
    exact ⟨(), hsecret, hk.symm⟩

/-- A mint seals the selectors that pass their checks, as long as the token is short enough. -/
theorem sealedOf_eq_ok (hsigns : SignsThirtyTwo crypto) (hdraw : draw.Ok) {envelope : Text} :
    sealedOf crypto options input draw = .ok envelope ↔
      32 ≤ options.secret.length ∧ SelectorOk input ∧ envelope = sealToken draw.iv.1 (ciphertextOf crypto options input draw) ∧
        envelope.length ≤ vnuCrossDetailPermitEnvelopeMaxLength := by
  simp only [sealedOf, encryptVnuCrossDetailPermitEnvelope, sealPayload_answer_eq_ok, bind_eq_ok, assertStrongSecret, require_eq_ok,
    envelope_checked hsigns hdraw, deriveVnuCrossDetailKey_eq_ok, decide_eq_true_eq]
  constructor
  · rintro ⟨k, ⟨_, hsecret, _, hselector, -, rfl⟩, htoken, hlength⟩
    exact ⟨hsecret, hselector, htoken, hlength⟩
  · rintro ⟨hsecret, hselector, htoken, hlength⟩
    exact ⟨_, ⟨(), hsecret, (), hselector, hsecret, rfl⟩, htoken, hlength⟩

theorem isPlain_digit {u : UInt16} (h : Json.isDigit u = true) : Json.isPlain u = true := by
  apply (hexUnit_facts _).1
  rw [isHexUnit, Bool.or_eq_true]
  exact .inl h

theorem isPlain_encodeHex (bytes : Bytes) : ∀ u ∈ encodeHex bytes, Json.isPlain u = true :=
  fun u hu => (hexUnit_facts (isHexUnit_encodeHex bytes u hu)).1

theorem isPlain_stdId {t : Text} (h : isStdId t = true) : ∀ u ∈ t, Json.isPlain u = true := by
  simp only [isStdId, Bool.and_eq_true, List.all_eq_true] at h
  exact fun u hu => isPlain_digit (h.2 u hu)

/-- With digits only, an envelope that passes its checks is short. -/
theorem length_sealed (htag : crypto.HasTag) (hsigns : SignsThirtyTwo crypto) (hdraw : draw.Ok) (hselector : SelectorOk input)
    (hclassId : ∀ u ∈ input.row.classId, Json.isPlain u = true) (htermOrdinal : ∀ u ∈ input.row.termOrdinal, Json.isPlain u = true) :
    (sealToken draw.iv.1 (ciphertextOf crypto options input draw)).length ≤ vnuCrossDetailPermitEnvelopeMaxLength := by
  have hplain : (envelopeOf crypto options input draw).Plain := ⟨isPlain_encodeHex _, isPlain_encodeHex _, isPlain_encodeHex _,
    isPlain_encodeHex _, isPlain_stdId hselector.1, hclassId, htermOrdinal⟩
  have hhmac : ∀ domain value, (hmacVnuCrossDetail crypto options.secret domain value).length = 64 := by
    intro domain value
    rw [hmacVnuCrossDetail, length_encodeHex, hsigns]
  have hnonce : (encodeHex draw.nonce).length = 32 := by rw [length_encodeHex, hdraw.nonce]
  have hlength := length_envelope hplain
  simp only [envelopeOf, hhmac, hnonce] at hlength
  obtain ⟨hstdId, hclass, hterm⟩ := hselector
  simp only [isStdId, isUnspaced, Bool.and_eq_true, decide_eq_true_eq] at hstdId hclass hterm
  rw [length_sealToken, ciphertextOf, htag, Utf8.length_encode_ascii (isAscii_envelope hplain), draw.iv.2, envelopeOf, hlength,
    vnuCrossDetailPermitEnvelopeMaxLength]
  omega

end

end Hyeboard.Permits
