import Mathlib.Data.List.Dedup
import Hyeboard.Permits.Bodies
import Hyeboard.Permits.TranscriptMint
/-!
# Permits survive the round trip

What a minter issues passes the check of the object that stores it; a returned permit is
parsed, opened and bound as it was issued; and a selection of permits is accepted as long
as its body is within the bound.
-/

namespace Hyeboard.Permits

open Tokens

/-- What an enabled configuration promises. -/
structure MinterOptions.Enabled (options : MinterOptions) : Prop where
  maxTargets : 0 < options.maxTargets
  maxRows : 0 < options.maxRows
  ttl_pos : 0 < options.permitTtlSeconds
  ttl_le : options.permitTtlSeconds ≤ 1200

section
variable {Key : Type} {crypto : WebCrypto Key} {options : MinterOptions} {input : MintInput} {draw : MintDraw} {envelope : Text}

/-! ## One permit -/

def permitOf (draw : MintDraw) (envelope : Text) : Text := encodeHex draw.permitId ++ unit '.' :: envelope

theorem dot_not_mem_encodeHex (bytes : Bytes) : unit '.' ∉ encodeHex bytes :=
  fun hmem => (hexUnit_facts (isHexUnit_encodeHex bytes _ hmem)).2 rfl

theorem permitGroups_permitOf {iv encrypted : Bytes} (hdraw : draw.Ok) (hiv : iv.length = 12) (hencrypted : encrypted ≠ []) :
    permitGroups (permitOf draw (sealToken iv encrypted)) = some (encodeHex draw.permitId, sealToken iv encrypted) := by
  have hsplit : (permitOf draw (sealToken iv encrypted)).splitOn (unit '.') =
      [encodeHex draw.permitId, Base64.toBase64Url iv, Base64.toBase64Url encrypted] := by
    rw [permitOf, sealToken, List.splitOn_append_cons_self_of_not_mem (dot_not_mem_encodeHex _),
      List.splitOn_append_cons_self_of_not_mem (dot_not_mem_toBase64Url iv), List.splitOn_eq_singleton (dot_not_mem_toBase64Url encrypted)]
  have hhex : isHexText 32 (encodeHex draw.permitId) = true := isHexText_encodeHex (by rw [hdraw.permitId])
  have hfirst : Base64.toBase64Url iv ≠ [] := toBase64Url_ne_nil (by rintro rfl; cases hiv)
  have hsecond : Base64.toBase64Url encrypted ≠ [] := toBase64Url_ne_nil hencrypted
  have hfirstUrl := List.all_eq_true.2 (Base64.isUrlChar_toBase64Url iv)
  have hsecondUrl := List.all_eq_true.2 (Base64.isUrlChar_toBase64Url encrypted)
  rw [permitGroups, hsplit]
  simp [hhex, hfirst, hsecond, hfirstUrl, hsecondUrl, sealToken]

theorem length_permitOf (hdraw : draw.Ok) : (permitOf draw envelope).length = 33 + envelope.length := by
  rw [permitOf, List.length_append, List.length_cons, length_encodeHex, hdraw.permitId]
  omega

theorem isPlain_url {u : UInt16} (h : Base64.isUrlChar u = true) : Json.isPlain u = true := by
  have hlt : u.toNat < 0x80 := by
    simp only [Base64.isUrlChar, Bool.or_eq_true, Bool.and_eq_true, decide_eq_true_eq, UInt16.le_iff_toNat_le] at h
    have hupper : (unit 'Z').toNat = 90 := rfl
    have hlower : (unit 'z').toNat = 122 := rfl
    have hnine : (unit '9').toNat = 57 := rfl
    rcases h with (((h | h) | h) | rfl) | rfl
    · omega
    · omega
    · omega
    · decide
    · decide
  have hall : ∀ n < 0x80, Base64.isUrlChar (UInt16.ofNat n) = true → Json.isPlain (UInt16.ofNat n) = true := by decide +kernel
  have hplain := hall u.toNat hlt
  rw [UInt16.ofNat_toNat] at hplain
  exact hplain h

theorem isPlain_permitOf {iv encrypted : Bytes} : ∀ u ∈ permitOf draw (sealToken iv encrypted), Json.isPlain u = true := by
  have hdot : Json.isPlain (unit '.') = true := by decide
  simp only [permitOf, sealToken, List.forall_mem_append, List.forall_mem_cons]
  exact ⟨isPlain_encodeHex _, hdot, fun u hu => isPlain_url (Base64.isUrlChar_toBase64Url iv u hu), hdot,
    fun u hu => isPlain_url (Base64.isUrlChar_toBase64Url encrypted u hu)⟩

/-- What a mint that sealed its envelope returned. -/
structure Returned (crypto : WebCrypto Key) (options : MinterOptions) (call : MintInput × MintDraw) (permit envelope : Text) : Prop where
  draw : call.2.Ok
  sealed : sealedOf crypto options call.1 call.2 = .ok envelope
  permit_eq : permit = permitOf call.2 envelope

variable {call : MintInput × MintDraw} {permit : Text}

theorem ok_envelope (payload : VnuCrossDetailPermitEnvelope) : payload.toJson.Ok := by
  have hversion : Json.IsLiteral (units "1") := by decide +kernel
  have hkeys : (["version", "purpose", "nonce", "targetHmac", "revisionHmac", "rowHmac", "selector"].map units).Nodup := by decide +kernel
  have hselector : (["stdId", "classId", "termOrdinal"].map units).Nodup := by decide +kernel
  refine ⟨hkeys, ?_⟩
  simp only [VnuCrossDetailPermitEnvelope.fields, Json.OkFields, Json.Ok, true_and, and_true]
  exact ⟨hversion, hselector, by simp only [VnuCrossDetailPermitEnvelope.selector, Json.OkFields, Json.Ok, and_self]⟩

theorem ciphertext_long (htag : crypto.HasTag) : 17 ≤ (ciphertextOf crypto options input draw).length := by
  have hlength := encode_stringify_pos (ok_envelope (envelopeOf crypto options input draw))
  rw [ciphertextOf, htag]
  omega

theorem Returned.envelope_eq (hsigns : SignsThirtyTwo crypto) (h : Returned crypto options call permit envelope) :
    envelope = sealToken call.2.iv.1 (ciphertextOf crypto options call.1 call.2) :=
  ((sealedOf_eq_ok hsigns h.draw).1 h.sealed).2.2.1

theorem Returned.length_le (hsigns : SignsThirtyTwo crypto) (h : Returned crypto options call permit envelope) :
    envelope.length ≤ vnuCrossDetailPermitEnvelopeMaxLength :=
  ((sealedOf_eq_ok hsigns h.draw).1 h.sealed).2.2.2

theorem Returned.groups (htag : crypto.HasTag) (hsigns : SignsThirtyTwo crypto) (h : Returned crypto options call permit envelope) :
    permitGroups permit = some (encodeHex call.2.permitId, envelope) := by
  rw [h.permit_eq, h.envelope_eq hsigns]
  apply permitGroups_permitOf h.draw call.2.iv.2
  have hlong : 17 ≤ (ciphertextOf crypto options call.1 call.2).length := ciphertext_long htag
  exact List.ne_nil_of_length_pos (by omega)

theorem Returned.length_permit (hsigns : SignsThirtyTwo crypto) (h : Returned crypto options call permit envelope) :
    permit.length ≤ 1057 := by
  have hlength := h.length_le hsigns
  rw [vnuCrossDetailPermitEnvelopeMaxLength] at hlength
  rw [h.permit_eq, length_permitOf h.draw]
  omega

theorem Returned.isPermitText (htag : crypto.HasTag) (hsigns : SignsThirtyTwo crypto)
    (h : Returned crypto options call permit envelope) : isPermitText permit = true := by
  have hlength := h.length_permit hsigns
  rw [Permits.isPermitText, h.groups htag hsigns, vnuCrossDetailPermitMaxLength]
  simp only [Option.isSome_some, Bool.and_true, decide_eq_true_eq]
  omega

theorem Returned.parsed (htag : crypto.HasTag) (hsigns : SignsThirtyTwo crypto) (h : Returned crypto options call permit envelope) :
    parseVnuCrossDetailPermitString (.str permit) = .ok ⟨encodeHex call.2.permitId, envelope⟩ := by
  have hlength := h.length_permit hsigns
  rw [parseVnuCrossDetailPermitString, if_pos (by rw [vnuCrossDetailPermitMaxLength]; omega), h.groups htag hsigns]

theorem Returned.opened (htag : crypto.HasTag) (hopens : crypto.Opens) (hsigns : SignsThirtyTwo crypto)
    (h : Returned crypto options call permit envelope) :
    decryptVnuCrossDetailPermitEnvelope crypto envelope options.secret = .ok (envelopeOf crypto options call.1 call.2).toJson := by
  obtain ⟨hsecret, hselector, henvelope, hlength⟩ := (sealedOf_eq_ok hsigns h.draw).1 h.sealed
  have hkey : deriveVnuCrossDetailKey crypto options.secret =
      .ok (crypto.hkdfKey (Utf8.encode options.secret) vnuCrossDetailSalt vnuCrossDetailInfo) :=
    deriveVnuCrossDetailKey_eq_ok.2 ⟨hsecret, rfl⟩
  rw [decryptVnuCrossDetailPermitEnvelope, if_pos hlength, hkey, henvelope, ciphertextOf]
  apply openPayload_sealed htag hopens (ok_envelope _)
  rw [(envelope_checked hsigns h.draw).2 hselector]
  rfl

/-- What the permit binds, as the record of it has it. -/
def consumeInputOf (issued : ProbeBudget.VnuCrossDetailIssuedPermit) : ProbeBudget.VnuCrossDetailConsumeInput where
  permitHash := issued.permitHash
  nonce := issued.record.nonce
  requesterHmac := issued.record.requesterHmac
  targetHmac := issued.record.targetHmac
  revisionHmac := issued.record.revisionHmac
  rowHmac := issued.record.rowHmac
  policyVersion := issued.record.policyVersion

theorem consumeInput_eq (crypto : WebCrypto Key) (options : MinterOptions) (call : MintInput × MintDraw) (envelope : Text) :
    buildVnuCrossDetailConsumeInput crypto options.secret options.requesterToken ⟨encodeHex call.2.permitId, envelope⟩
      (envelopeOf crypto options call.1 call.2).fields = consumeInputOf (issuedOf crypto options call.1 call.2 envelope) := rfl

/-! ## The minter -/

/-- What the minter holds: records of permits that were sealed, within the bounds. -/
structure Minter.Ok (crypto : WebCrypto Key) (options : MinterOptions) (minter : Minter) : Prop where
  rows : minter.issued.length ≤ options.maxRows
  targets : minter.targets.length ≤ options.maxTargets
  genuine : ∀ p ∈ minter.issued, ∃ call permit envelope, Returned crypto options call permit envelope ∧
    p = issuedOf crypto options call.1 call.2 envelope ∧ call.1.targetStdId ∈ minter.targets

theorem Minter.Ok.start : Minter.start.Ok crypto options := ⟨Nat.zero_le _, Nat.zero_le _, List.forall_mem_nil _⟩

/-- One mint leaves the minter as it is, or issues one permit. -/
theorem mint_cases (minter : Minter) (input : MintInput) (draw : MintDraw) :
    ((minter.mint crypto options input draw).2 = minter ∧ ∀ permit, (minter.mint crypto options input draw).1 ≠ .ok (some permit)) ∨
      ∃ envelope, sealedOf crypto options input draw = .ok envelope ∧ minter.full options input = false ∧
        minter.mint crypto options input draw = (.ok (some (permitOf draw envelope)),
          ⟨minter.issued ++ [issuedOf crypto options input draw envelope],
            if input.targetStdId ∈ minter.targets then minter.targets else minter.targets ++ [input.targetStdId]⟩) := by
  unfold Minter.mint
  cases hfull : minter.full options input with
  | true => exact .inl ⟨rfl, by simp⟩
  | false =>
    cases hsealed : sealedOf crypto options input draw with
    | error e => exact .inl ⟨rfl, by simp⟩
    | ok envelope => exact .inr ⟨envelope, rfl, rfl, rfl⟩

theorem Minter.Ok.mint {minter : Minter} (hok : minter.Ok crypto options) (hdraw : draw.Ok) :
    (minter.mint crypto options input draw).2.Ok crypto options := by
  rcases @mint_cases Key crypto options minter input draw with ⟨hsame, -⟩ | ⟨envelope, hsealed, hfull, hmint⟩
  · rw [hsame]
    exact hok
  · rw [hmint]
    simp only [Minter.full, Bool.or_eq_false_iff, Bool.and_eq_false_iff, decide_eq_false_iff_not, not_not, not_le] at hfull
    obtain ⟨hrows, htargets⟩ := hfull
    have hmem : ∀ t, t = input.targetStdId ∨ t ∈ minter.targets →
        t ∈ if input.targetStdId ∈ minter.targets then minter.targets else minter.targets ++ [input.targetStdId] := by
      rintro t (rfl | ht)
      · split <;> simp_all
      · split
        · exact ht
        · exact List.mem_append_left _ ht
    refine ⟨?_, ?_, ?_⟩
    · simp only [List.length_append, List.length_singleton]
      omega
    · simp only
      split
      · exact hok.targets
      · have hleft := htargets.resolve_left ‹_›
        rw [List.length_append, List.length_singleton]
        omega
    · rw [List.forall_mem_append, List.forall_mem_singleton]
      refine ⟨?_, (input, draw), _, envelope, ⟨hdraw, hsealed, rfl⟩, rfl, hmem _ (.inl rfl)⟩
      intro p hp
      obtain ⟨call, permit, sealed, hreturned, heq, htarget⟩ := hok.genuine p hp
      exact ⟨call, permit, sealed, hreturned, heq, hmem _ (.inr htarget)⟩

theorem issued_mint (minter : Minter) : minter.issued ⊆ (minter.mint crypto options input draw).2.issued := by
  rcases @mint_cases Key crypto options minter input draw with ⟨hsame, -⟩ | ⟨envelope, -, -, hmint⟩
  · rw [hsame]
    exact List.Subset.refl _
  · rw [hmint]
    exact List.subset_append_left _ _

theorem Minter.Ok.mintAll {minter : Minter} (hok : minter.Ok crypto options) {calls : List (MintInput × MintDraw)}
    (hdraws : ∀ call ∈ calls, call.2.Ok) : (minter.mintAll crypto options calls).2.Ok crypto options := by
  induction calls generalizing minter with
  | nil => exact hok
  | cons call rest ih =>
    rw [List.forall_mem_cons] at hdraws
    exact ih (hok.mint hdraws.1) hdraws.2

theorem issued_mintAll (minter : Minter) (calls : List (MintInput × MintDraw)) :
    minter.issued ⊆ (minter.mintAll crypto options calls).2.issued := by
  induction calls generalizing minter with
  | nil => exact List.Subset.refl _
  | cons call rest ih => exact List.Subset.trans (issued_mint minter) (ih _)

theorem length_mintAll (minter : Minter) (calls : List (MintInput × MintDraw)) :
    (minter.mintAll crypto options calls).1.length = calls.length := by
  induction calls generalizing minter with
  | nil => rfl
  | cons call rest ih => rw [Minter.mintAll, List.length_cons, ih, List.length_cons]

/-- A permit that was returned was sealed for its call, and its record is issued. -/
theorem returned_of_answer {minter : Minter} {calls : List (MintInput × MintDraw)} (hdraws : ∀ call ∈ calls, call.2.Ok)
    (h : (call, .ok (some permit)) ∈ calls.zip (minter.mintAll crypto options calls).1) :
    ∃ envelope, Returned crypto options call permit envelope ∧
      issuedOf crypto options call.1 call.2 envelope ∈ (minter.mintAll crypto options calls).2.issued := by
  induction calls generalizing minter with
  | nil => cases h
  | cons first rest ih =>
    rw [List.forall_mem_cons] at hdraws
    rw [Minter.mintAll, List.zip_cons_cons, List.mem_cons] at h
    rcases h with heq | hrest
    · simp only [Prod.mk.injEq] at heq
      obtain ⟨rfl, hanswer⟩ := heq
      rcases @mint_cases Key crypto options minter call.1 call.2 with ⟨-, hnone⟩ | ⟨envelope, hsealed, -, hmint⟩
      · exact absurd hanswer.symm (hnone permit)
      · rw [hmint] at hanswer
        simp only [Except.ok.injEq, Option.some.injEq] at hanswer
        have hissued : issuedOf crypto options call.1 call.2 envelope ∈ (minter.mint crypto options call.1 call.2).2.issued := by
          rw [hmint]
          exact List.mem_append_right _ (List.mem_singleton_self _)
        exact ⟨envelope, ⟨hdraws.1, hsealed, hanswer⟩, issued_mintAll _ rest hissued⟩
    · exact ih hdraws.2 hrest

/-! ## The check of what was issued -/

theorem length_asString (t : Text) : (asString t).length = t.length := by simp [asString]

/-- The targets of the issued permits are no more than those the minter counted. -/
theorem Minter.Ok.targets_le {minter : Minter} (hok : minter.Ok crypto options) :
    (minter.issued.map (·.record.targetHmac)).dedup.length ≤ options.maxTargets := by
  have hsubset : (minter.issued.map (·.record.targetHmac)).dedup ⊆
      minter.targets.map fun target => asString (hmacVnuCrossDetail crypto options.secret "target" target) := by
    intro hmac hmem
    rw [List.mem_dedup] at hmem
    obtain ⟨p, hp, rfl⟩ := List.mem_map.1 hmem
    obtain ⟨call, permit, envelope, -, rfl, htarget⟩ := hok.genuine p hp
    exact List.mem_map.2 ⟨call.1.targetStdId, htarget, rfl⟩
  have hle := (List.subperm_of_subset (List.nodup_dedup _) hsubset).length_le
  rw [List.length_map] at hle
  exact hle.trans hok.targets

theorem record_ok (hsigns : SignsThirtyTwo crypto) (henabled : options.Enabled)
    (h : Returned crypto options call permit envelope) :
    ProbeBudget.isHex 64 (issuedOf crypto options call.1 call.2 envelope).permitHash = true ∧
      ProbeBudget.assertValidCrossDetailRecord (issuedOf crypto options call.1 call.2 envelope).record = .ok () := by
  have hhmac : ∀ domain value, ProbeBudget.isHex 64 (asString (hmacVnuCrossDetail crypto options.secret domain value)) = true :=
    fun domain value => isHex_asString (isHexText_hmac hsigns options.secret domain value)
  have hnonce : ProbeBudget.isHex 32 (asString (encodeHex call.2.nonce)) = true :=
    isHex_asString (isHexText_encodeHex (by rw [h.draw.nonce]))
  have hlength := h.length_le hsigns
  have hlong : 0 < envelope.length := by
    rw [h.envelope_eq hsigns, length_sealToken]
    omega
  have hnow := h.draw.now
  have hpos := henabled.ttl_pos
  have hle := henabled.ttl_le
  have hexpires : ProbeBudget.isPositiveSafe (call.2.now + options.permitTtlSeconds * 1000) = true := by
    simp only [ProbeBudget.isPositiveSafe, ProbeBudget.isSafe, Bool.and_eq_true, decide_eq_true_eq]
    have hmax : maxSafeInteger = 9007199254740991 := rfl
    omega
  rw [vnuCrossDetailPermitEnvelopeMaxLength] at hlength
  refine ⟨hhmac "permit" _, ?_⟩
  rw [ProbeBudget.assertValidCrossDetailRecord, require_eq_ok]
  simp only [issuedOf, envelopeOf, ProbeBudget.bindingsOk, hhmac, hnonce, hexpires, length_asString,
    ProbeBudget.vnuCrossDetailEnvelopeMaxLength, beq_self_eq_true, Bool.and_true, Bool.true_and, Bool.and_eq_true, bne_iff_ne,
    decide_eq_true_eq]
  omega

theorem Minter.Ok.valid {minter : Minter} (hsigns : SignsThirtyTwo crypto) (henabled : options.Enabled)
    (hok : minter.Ok crypto options) (hissued : minter.issued ≠ []) {limits : ProbeBudget.VnuCrossDetailLimits}
    (hrows : limits.maxRows = options.maxRows) (htargets : limits.maxTargets = options.maxTargets) :
    ProbeBudget.assertValidVnuCrossDetailIssuedPermits minter.issued limits = .ok () := by
  have hpos := List.length_pos_iff.2 hissued
  have hle := hok.rows
  simp only [ProbeBudget.assertValidVnuCrossDetailIssuedPermits, bind_eq_ok, require_eq_ok, forM_eq_ok, hrows, htargets,
    Bool.and_eq_true, bne_iff_ne, decide_eq_true_eq]
  refine ⟨(), ⟨by omega, hle⟩, (), ?_, hok.targets_le⟩
  intro p hp
  obtain ⟨call, permit, envelope, hreturned, rfl, -⟩ := hok.genuine p hp
  obtain ⟨hhash, hrecord⟩ := record_ok hsigns henabled hreturned
  exact ⟨(), hhash, hrecord⟩

/-! ## The length of a selection -/

theorem isPlain_returned (hsigns : SignsThirtyTwo crypto) (h : Returned crypto options call permit envelope) :
    ∀ u ∈ permit, Json.isPlain u = true := by
  rw [h.permit_eq, h.envelope_eq hsigns]
  exact isPlain_permitOf

variable {permits : List Text}

theorem items_length (hplain : ∀ permit ∈ permits, ∀ u ∈ permit, Json.isPlain u = true) :
    (Json.stringifyItems (permits.map .str)).length = (permits.map fun permit => permit.length + 3).sum + 1 ∧
      Json.IsAscii (Json.stringifyItems (permits.map .str)) := by
  induction permits with
  | nil => exact ⟨rfl, by decide⟩
  | cons permit rest ih =>
    rw [List.forall_mem_cons] at hplain
    obtain ⟨hlength, hascii⟩ := ih hplain.2
    have hcomma : (unit ',').toNat < 0x80 := by decide
    constructor
    · rw [List.map_cons, Json.stringifyItems, Json.stringify, List.length_append, List.length_cons, Json.length_quote_plain hplain.1,
        hlength, List.map_cons, List.sum_cons]
      omega
    · rw [List.map_cons, Json.stringifyItems, Json.stringify]
      simp only [Json.isAscii_append, Json.isAscii_cons, List.cons_append]
      exact ⟨hcomma, Json.isAscii_quote_plain hplain.1, hascii⟩

/-- A selection takes three bytes more than its permits each, and 37 for the rest. -/
theorem length_selectionBytes (hne : permits ≠ []) (hplain : ∀ permit ∈ permits, ∀ u ∈ permit, Json.isPlain u = true) :
    (selectionBytes permits).length = (permits.map fun permit => permit.length + 3).sum + 37 := by
  cases permits with
  | nil => exact absurd rfl hne
  | cons permit rest =>
    rw [List.forall_mem_cons] at hplain
    obtain ⟨hlength, hascii⟩ := items_length hplain.2
    have hkeys : (Json.quote (units "allowCrossLookup")).length = 18 ∧ (Json.quote (units "permits")).length = 9 ∧
        Json.IsAscii (Json.quote (units "allowCrossLookup")) ∧ Json.IsAscii (Json.quote (units "permits")) := by decide +kernel
    have htrue : (units "true").length = 4 ∧ Json.IsAscii (units "true") := by decide +kernel
    have hunits : ∀ c ∈ [unit ',', unit ':', unit '\x7b', unit '\x7d', unit '['], c.toNat < 0x80 :=
      List.all_iff_forall_prop.1 (by decide)
    simp only [List.forall_mem_cons] at hunits
    have hall : Json.IsAscii (Json.stringify (selectionJson (permit :: rest))) := by
      simp only [selectionJson, Json.stringify, Json.stringifyFields, List.map_cons, Json.isAscii_append, Json.isAscii_cons,
        Json.isAscii_nil, List.cons_append, hunits, hkeys, htrue, hascii, Json.isAscii_quote_plain hplain.1, and_self]
    rw [selectionBytes, Utf8.length_encode_ascii hall]
    simp only [selectionJson, Json.stringify, Json.stringifyFields, List.map_cons, List.length_append, List.length_cons, List.length_nil,
      List.cons_append, hkeys, htrue, hlength, Json.length_quote_plain hplain.1, List.sum_cons]
    omega

theorem sum_le (hlengths : ∀ permit ∈ permits, permit.length ≤ 1057) :
    (permits.map fun permit => permit.length + 3).sum ≤ permits.length * 1060 := by
  induction permits with
  | nil => simp
  | cons permit rest ih =>
    rw [List.forall_mem_cons] at hlengths
    have hrest := ih hlengths.2
    rw [List.map_cons, List.sum_cons, List.length_cons, Nat.succ_mul]
    omega

/-- Up to 512 permits stay within the bound. -/
theorem selectionBytes_le {maxRows : Nat} (hne : permits ≠ []) (hplain : ∀ permit ∈ permits, ∀ u ∈ permit, Json.isPlain u = true)
    (hlengths : ∀ permit ∈ permits, permit.length ≤ 1057) (hrows : permits.length ≤ maxRows) (hmany : permits.length ≤ 512) :
    (selectionBytes permits).length ≤ crossDetailBodyMaxBytes maxRows := by
  have hsum := sum_le hlengths
  have hbounded : permits.length ≤ min (max 1 maxRows) 512 := by omega
  rw [length_selectionBytes hne hplain, crossDetailBodyMaxBytes, vnuCrossDetailPermitMaxLength, vnuCrossDetailBodyOverheadBytes]
  omega

/-! ## A minter with room for every call -/

theorem answers_mintAll {minter : Minter} {calls : List (MintInput × MintDraw)} {target sealed : Text}
    (hsealed : ∀ call ∈ calls, sealedOf crypto options call.1 call.2 = .ok sealed) (htarget : ∀ call ∈ calls, call.1.targetStdId = target)
    (hrows : minter.issued.length + calls.length ≤ options.maxRows)
    (htargets : target ∈ minter.targets ∨ minter.targets.length < options.maxTargets) :
    (minter.mintAll crypto options calls).1 = calls.map fun call => .ok (some (permitOf call.2 sealed)) := by
  induction calls generalizing minter with
  | nil => rfl
  | cons call rest ih =>
    rw [List.forall_mem_cons] at hsealed htarget
    rw [List.length_cons] at hrows
    have hfull : minter.full options call.1 = false := by
      rw [Minter.full, htarget.1, Bool.or_eq_false_iff, decide_eq_false_iff_not, Bool.and_eq_false_iff]
      refine ⟨by omega, ?_⟩
      rcases htargets with hmem | hlt
      · exact .inl (by simpa using hmem)
      · exact .inr (by simpa using hlt)
    have hmint : minter.mint crypto options call.1 call.2 = (.ok (some (permitOf call.2 sealed)),
        ⟨minter.issued ++ [issuedOf crypto options call.1 call.2 sealed],
          if target ∈ minter.targets then minter.targets else minter.targets ++ [target]⟩) := by
      simp only [Minter.mint, hfull, hsealed.1, htarget.1]
      rfl
    rw [Minter.mintAll, hmint]
    simp only [List.map_cons, List.cons.injEq, true_and]
    apply ih hsealed.2 htarget.2
    · simp only [List.length_append, List.length_singleton]
      omega
    · left
      by_cases hmem : target ∈ minter.targets
      · simp [hmem]
      · simp [hmem]

end

/-- Permits survive the round trip, in selections whose body is within its bound: all of up to 512 permits are. -/
theorem permits_round_trip {Key : Type} (crypto : WebCrypto Key) (htag : crypto.HasTag) (hopens : crypto.Opens)
    (hsigns : SignsThirtyTwo crypto) (options : MinterOptions) (henabled : options.Enabled) (calls : List (MintInput × MintDraw))
    (hdraws : ∀ call ∈ calls, call.2.Ok) :
    let settled := Minter.start.mintAll crypto options calls
    settled.2.issued.length ≤ options.maxRows ∧
    (settled.2.issued.map (·.record.targetHmac)).dedup.length ≤ options.maxTargets ∧
    (settled.2.issued ≠ [] → ∀ limits : ProbeBudget.VnuCrossDetailLimits, limits.maxRows = options.maxRows →
      limits.maxTargets = options.maxTargets → ProbeBudget.assertValidVnuCrossDetailIssuedPermits settled.2.issued limits = .ok ()) ∧
    (∀ call permit, (call, .ok (some permit)) ∈ calls.zip settled.1 →
      ∃ parsed presented, parseVnuCrossDetailPermitString (.str permit) = .ok parsed ∧
        decryptVnuCrossDetailPermitEnvelope crypto parsed.envelope options.secret = .ok (.obj presented) ∧
        get presented "selector" = some (.obj [(units "stdId", .str call.1.targetStdId), (units "classId", .str call.1.row.classId),
          (units "termOrdinal", .str call.1.row.termOrdinal)]) ∧
        ∃ issued ∈ settled.2.issued, issued.record.envelope = asString parsed.envelope ∧
          buildVnuCrossDetailConsumeInput crypto options.secret options.requesterToken parsed presented = consumeInputOf issued) ∧
    (∀ permits : List Text, permits ≠ [] → permits.Nodup → permits.length ≤ options.maxRows →
      (∀ permit ∈ permits, .ok (some permit) ∈ settled.1) →
      ((selectionBytes permits).length ≤ crossDetailBodyMaxBytes options.maxRows → ∀ (request : Request) kind chunks, kind ≠ .single →
        request.body = some chunks → chunks.flatten = selectionBytes permits →
        (∀ declared : Int, request.declaredLength = some declared → declared = (selectionBytes permits).length) →
        readVnuCrossDetailBody request kind options.maxRows = .ok (.permits permits)) ∧
      (permits.length ≤ 512 → (selectionBytes permits).length ≤ crossDetailBodyMaxBytes options.maxRows)) := by
  intro settled
  have hok : settled.2.Ok crypto options := Minter.Ok.start.mintAll hdraws
  refine ⟨hok.rows, hok.targets_le, fun hissued limits hrows htargets => hok.valid hsigns henabled hissued hrows htargets, ?_, ?_⟩
  · intro call permit hanswer
    obtain ⟨envelope, hreturned, hissued⟩ := returned_of_answer hdraws hanswer
    exact ⟨⟨encodeHex call.2.permitId, envelope⟩, (envelopeOf crypto options call.1 call.2).fields, hreturned.parsed htag hsigns,
      hreturned.opened htag hopens hsigns, rfl, _, hissued, rfl, consumeInput_eq crypto options call envelope⟩
  · intro permits hne hnodup hrows hanswers
    have hreturned : ∀ permit ∈ permits, ∃ call envelope, Returned crypto options call permit envelope := by
      intro permit hpermit
      have hlength : calls.length = settled.1.length := (length_mintAll Minter.start calls).symm
      obtain ⟨i, hi, hget⟩ := List.getElem_of_mem (hanswers permit hpermit)
      have hzip : (calls[i], .ok (some permit)) ∈ calls.zip settled.1 := by
        rw [← hget, ← List.getElem_zip]
        exact List.getElem_mem (by rw [List.length_zip]; omega)
      obtain ⟨envelope, hreturned, -⟩ := returned_of_answer hdraws hzip
      exact ⟨calls[i], envelope, hreturned⟩
    have htexts : ∀ permit ∈ permits, isPermitText permit = true := by
      intro permit hpermit
      obtain ⟨call, envelope, h⟩ := hreturned permit hpermit
      exact h.isPermitText htag hsigns
    have hplain : ∀ permit ∈ permits, ∀ u ∈ permit, Json.isPlain u = true := by
      intro permit hpermit
      obtain ⟨call, envelope, h⟩ := hreturned permit hpermit
      exact isPlain_returned hsigns h
    have hlengths : ∀ permit ∈ permits, permit.length ≤ 1057 := by
      intro permit hpermit
      obtain ⟨call, envelope, h⟩ := hreturned permit hpermit
      exact h.length_permit hsigns
    refine ⟨?_, fun hmany => selectionBytes_le hne hplain hlengths hrows hmany⟩
    intro hlength request kind chunks hkind hbody hchunks hdeclared
    exact read_selection hkind hne hrows htexts hnodup hbody hchunks hlength hdeclared

def fewOptions : MinterOptions := { sampleOptions with maxTargets := 2, maxRows := 3 }

def numberedDraw (k : UInt8) : MintDraw := { sampleDraw with permitId := List.replicate 15 0 ++ [k] }

def fewCall (target course : String) (k : UInt8) : MintInput × MintDraw :=
  (⟨units target, [], ⟨units course, units "251", units "1"⟩⟩, numberedDraw k)

/-- The third call is for one target too many, and at the last one all rows are taken. -/
def fewCalls : List (MintInput × MintDraw) :=
  [fewCall "20020001" "INT1001" 1, fewCall "20020002" "INT1001" 2, fewCall "20020003" "INT1001" 3, fewCall "20020001" "INT1002" 4,
    fewCall "20020002" "INT1002" 5]

def fewPermit (call : MintInput × MintDraw) : Text :=
  permitOf call.2 (sealToken sampleIv.1 (ciphertextOf keylessCrypto fewOptions call.1 call.2))

theorem permits_round_trip_sample :
    let first := fewPermit (fewCall "20020001" "INT1001" 1)
    let second := fewPermit (fewCall "20020002" "INT1001" 2)
    let fourth := fewPermit (fewCall "20020001" "INT1002" 4)
    let body := selectionBytes [fourth, second]
    (Minter.start.mintAll keylessCrypto fewOptions fewCalls).1 = [.ok (some first), .ok (some second), .ok none, .ok (some fourth), .ok none] ∧
    readVnuCrossDetailBody ⟨some body.length, some [body.take 700, [], body.drop 700]⟩ .exported fewOptions.maxRows =
      .ok (.permits [fourth, second]) := by
  obtain ⟨-, -, -, -, hselections⟩ := permits_round_trip keylessCrypto keylessCrypto_hasTag keylessCrypto_opens keylessCrypto_signs
    fewOptions ⟨by decide, by decide, by decide, by decide⟩ fewCalls (by
      simp only [fewCalls, List.forall_mem_cons]
      exact ⟨⟨rfl, rfl, sampleDraw_ok.now⟩, ⟨rfl, rfl, sampleDraw_ok.now⟩, ⟨rfl, rfl, sampleDraw_ok.now⟩, ⟨rfl, rfl, sampleDraw_ok.now⟩,
        ⟨rfl, rfl, sampleDraw_ok.now⟩, List.forall_mem_nil _⟩)
  have hanswers : (Minter.start.mintAll keylessCrypto fewOptions fewCalls).1 =
      [.ok (some (fewPermit (fewCall "20020001" "INT1001" 1))), .ok (some (fewPermit (fewCall "20020002" "INT1001" 2))), .ok none,
        .ok (some (fewPermit (fewCall "20020001" "INT1002" 4))), .ok none] := by
    decide +kernel
  refine ⟨hanswers, ?_⟩
  obtain ⟨hread, hmany⟩ := hselections [fewPermit (fewCall "20020001" "INT1002" 4), fewPermit (fewCall "20020002" "INT1001" 2)]
    (List.cons_ne_nil _ _) (by decide +kernel) (by decide) (by
      rw [hanswers, List.forall_mem_cons, List.forall_mem_singleton]
      exact ⟨by simp, by simp⟩)
  refine hread (hmany (by decide)) _ _ _ (fun h => by cases h) rfl ?_ fun declared hdeclared => (Option.some.inj hdeclared).symm
  rw [List.flatten_cons, List.flatten_cons, List.flatten_singleton, List.nil_append, List.take_append_drop]

/-! ## A thousand rows -/

def overOptions : MinterOptions := { sampleOptions with maxRows := 1000 }

def overInput : MintInput := ⟨units "20020001", [], ⟨units "INT1001", units "251", units "1"⟩⟩

def overDraw (k : Nat) : MintDraw :=
  ⟨List.replicate 14 0 ++ [UInt8.ofNat (k / 256), UInt8.ofNat k], List.replicate 16 2, sampleIv, 1767225600000⟩

def overCalls : List (MintInput × MintDraw) := (List.range 1000).map fun k => (overInput, overDraw k)

def overEnvelope : Text := sealToken sampleIv.1 (ciphertextOf keylessCrypto overOptions overInput (overDraw 0))

def overPermits : List Text := (List.range 1000).map fun k => permitOf (overDraw k) overEnvelope

theorem overDraw_ok (k : Nat) : (overDraw k).Ok := ⟨rfl, rfl, sampleDraw_ok.now⟩

theorem overDraw_sealed (k : Nat) : sealedOf keylessCrypto overOptions overInput (overDraw k) = .ok overEnvelope := by
  rw [sealedOf_eq_ok keylessCrypto_signs (overDraw_ok k)]
  exact ⟨by decide, by decide, rfl, by decide +kernel⟩

/-- The last two bytes of a permit id are its number. -/
theorem overDraw_injective : ∀ k < 1000, ((overDraw k).permitId.foldl (fun n byte => 256 * n + byte.toNat) 0) = k := by decide +kernel

theorem encodeHex_injective : ∀ {bytes others : Bytes}, encodeHex bytes = encodeHex others → bytes = others
  | [], [], _ => rfl
  | [], other :: others, h => by cases h
  | byte :: bytes, [], h => by cases h
  | byte :: bytes, other :: others, h => by
    have hdigits : ∀ n < 16, ∀ m < 16, Json.hexUnit n = Json.hexUnit m → n = m := by
      intro n hn m hm heq
      have hvalue := Json.hexValue_hexUnit n hn
      rw [heq, Json.hexValue_hexUnit m hm] at hvalue
      exact (Option.some.inj hvalue).symm
    have hbyte := byte.toNat_lt
    have hother := other.toNat_lt
    simp only [encodeHex, List.flatMap_cons, List.cons_append, List.nil_append, List.cons.injEq] at h
    have hhigh := hdigits _ (by omega) _ (by omega) h.1
    have hlow := hdigits _ (by omega) _ (by omega) h.2.1
    have heq : byte = other := UInt8.toNat_inj.1 (by omega)
    rw [heq, encodeHex_injective h.2.2]

theorem overPermits_nodup : overPermits.Nodup := by
  apply List.Nodup.map_on _ List.nodup_range
  intro k hk j hj heq
  rw [List.mem_range] at hk hj
  have hhex : encodeHex (overDraw k).permitId = encodeHex (overDraw j).permitId := List.append_cancel_right heq
  rw [← overDraw_injective k hk, ← overDraw_injective j hj, encodeHex_injective hhex]

theorem length_overBytes : (selectionBytes overPermits).length = 595037 := by
  have hplain : ∀ permit ∈ overPermits, ∀ u ∈ permit, Json.isPlain u = true := by
    intro permit hpermit
    obtain ⟨k, -, rfl⟩ := List.mem_map.1 hpermit
    exact isPlain_permitOf
  have henvelope : overEnvelope.length = 559 := by decide +kernel
  have hlengths : overPermits.map (fun permit => permit.length + 3) = List.replicate 1000 595 := by
    rw [List.eq_replicate_iff]
    constructor
    · rw [List.length_map, overPermits, List.length_map, List.length_range]
    · intro n hn
      obtain ⟨permit, hpermit, rfl⟩ := List.mem_map.1 hn
      obtain ⟨k, -, rfl⟩ := List.mem_map.1 hpermit
      rw [length_permitOf (overDraw_ok k), henvelope]
  have hne : overPermits ≠ [] := by
    apply List.ne_nil_of_length_pos
    rw [overPermits, List.length_map, List.length_range]
    omega
  rw [length_selectionBytes hne hplain, hlengths, List.sum_replicate, Nat.nsmul_eq_mul]

/-- With a thousand rows a thousand permits are minted, and as a selection they are too large; and a minter that issued nothing does
not pass the check. -/
theorem selection_too_large : overOptions.Enabled ∧ (∀ call ∈ overCalls, call.2.Ok) ∧
    overPermits ≠ [] ∧ overPermits.Nodup ∧ overPermits.length ≤ overOptions.maxRows ∧
    (∀ permit ∈ overPermits, .ok (some permit) ∈ (Minter.start.mintAll keylessCrypto overOptions overCalls).1) ∧
    readVnuCrossDetailBody ⟨none, some [selectionBytes overPermits]⟩ .bulk overOptions.maxRows = .error payloadTooLarge ∧
    ProbeBudget.assertValidVnuCrossDetailIssuedPermits (Minter.start.mintAll keylessCrypto overOptions []).2.issued ⟨overOptions.maxTargets, overOptions.maxRows, 1, 1, 1⟩ ≠ .ok () := by
  have hlength : overPermits.length = 1000 := by rw [overPermits, List.length_map, List.length_range]
  have hanswers : (Minter.start.mintAll keylessCrypto overOptions overCalls).1 =
      overCalls.map fun call => .ok (some (permitOf call.2 overEnvelope)) := by
    apply answers_mintAll
    · simp only [overCalls, List.forall_mem_map]
      exact fun k _ => overDraw_sealed k
    · simp only [overCalls, List.forall_mem_map]
      exact fun _ _ => rfl
    · rw [overCalls, List.length_map, List.length_range]
      decide
    · exact .inr (by decide)
  refine ⟨⟨by decide, by decide, by decide, by decide⟩, ?_, List.ne_nil_of_length_pos (by omega), overPermits_nodup, hlength.le, ?_, ?_, ?_⟩
  · simp only [overCalls, List.forall_mem_map]
    exact fun k _ => overDraw_ok k
  · intro permit hpermit
    obtain ⟨k, hk, rfl⟩ := List.mem_map.1 hpermit
    rw [hanswers, overCalls, List.map_map]
    exact List.mem_map.2 ⟨k, hk, rfl⟩
  · have hchunks : readChunks (crossDetailBodyMaxBytes 1000) 0 [selectionBytes overPermits] = .error payloadTooLarge := by
      apply readChunks_tooLarge _ (Nat.zero_le _)
      rw [List.flatten_singleton, length_overBytes]
      decide
    simp only [readVnuCrossDetailBody, readBoundedJsonBody, overOptions, hchunks]
    rfl
  · decide

end Hyeboard.Permits
