import Hyeboard.Envelopes.Format
/-!
# The text of a header

A header that was written is parsed as it was, its text is short and has no zero byte,
and what is authenticated determines the header and the caller's data.
-/

namespace Hyeboard.Envelopes

open Tokens

/-! ## Characters -/

/-- A character of the texts in a header. -/
def isHeaderUnit (u : UInt16) : Bool := isAlphanumeric u || u = unit '.' || u = unit '_' || u = unit '-' || u = unit ':'

theorem isPlain_headerUnit {u : UInt16} (h : isHeaderUnit u = true) : Json.isPlain u = true := by
  have hlt : u.toNat < 0x80 := by
    simp only [isHeaderUnit, isAlphanumeric, Bool.or_eq_true, Bool.and_eq_true, decide_eq_true_eq, UInt16.le_iff_toNat_le] at h
    have hupper : (unit 'Z').toNat = 90 := rfl
    have hlower : (unit 'z').toNat = 122 := rfl
    have hnine : (unit '9').toNat = 57 := rfl
    rcases h with ((((((h | h) | h) | rfl) | rfl) | rfl) | rfl)
    · omega
    · omega
    · omega
    · decide
    · decide
    · decide
    · decide
  have hall : ∀ n < 0x80, isHeaderUnit (UInt16.ofNat n) = true → Json.isPlain (UInt16.ofNat n) = true := by decide +kernel
  have hu := hall u.toNat hlt
  rw [UInt16.ofNat_toNat] at hu
  exact hu h

theorem isHeaderUnit_keyId {t : Text} (h : isKeyId t = true) : (∀ u ∈ t, isHeaderUnit u = true) ∧ t.length ≤ 64 := by
  cases t with
  | nil => cases h
  | cons u rest =>
    simp only [isKeyId, Bool.and_eq_true, decide_eq_true_eq, List.all_eq_true, Bool.or_eq_true] at h
    obtain ⟨⟨hfirst, hlength⟩, hrest⟩ := h
    constructor
    · rw [List.forall_mem_cons]
      refine ⟨by simp [isHeaderUnit, hfirst], fun v hv => ?_⟩
      have hv := hrest v hv
      simp only [isHeaderUnit, Bool.or_eq_true, decide_eq_true_eq]
      exact .inl hv
    · rw [List.length_cons]
      omega

theorem isHeaderUnit_url {u : UInt16} (h : Base64.isUrlChar u = true) : isHeaderUnit u = true := by
  simp only [Base64.isUrlChar, Bool.or_eq_true, Bool.and_eq_true, decide_eq_true_eq] at h
  simp only [isHeaderUnit, isAlphanumeric, Bool.or_eq_true, Bool.and_eq_true, decide_eq_true_eq]
  tauto

/-- A date has the characters of the pattern, with a digit for each zero. -/
theorem isHeaderUnit_isoDate {t : Text} (h : isIsoDate t = true) : (∀ u ∈ t, isHeaderUnit u = true) ∧ t.length = 24 := by
  simp only [isIsoDate, Bool.and_eq_true, decide_eq_true_eq, List.all_eq_true] at h
  obtain ⟨hlength, hall⟩ := h
  have hpattern : isoPattern.length = 24 ∧ ∀ u ∈ isoPattern, isHeaderUnit u = true :=
    ⟨rfl, List.all_eq_true.1 rfl⟩
  refine ⟨fun u hu => ?_, hlength.trans hpattern.1⟩
  obtain ⟨i, hi, rfl⟩ := List.getElem_of_mem hu
  have hmem : (t[i], isoPattern[i]) ∈ t.zip isoPattern := by
    rw [List.mem_iff_getElem]
    exact ⟨i, by simp; omega, by simp⟩
  have hchar := hall _ hmem
  split at hchar
  case isTrue =>
    simp only [Json.isDigit, Bool.and_eq_true] at hchar
    simp [isHeaderUnit, isAlphanumeric, hchar]
  case isFalse =>
    rw [decide_eq_true_eq] at hchar
    change t[i] = isoPattern[i] at hchar
    rw [hchar]
    exact hpattern.2 _ (List.getElem_mem _)

/-! ## Base64 -/

theorem fromBase64Url_eq_some {value : Text} {bytes : Bytes} :
    fromBase64Url value = some bytes ↔ value = Base64.toBase64Url bytes ∧ bytes ≠ [] := by
  constructor
  · intro h
    unfold fromBase64Url at h
    split at h
    case isTrue => cases h
    case isFalse hchars =>
      have hcanonical : decodeCanonical value = some bytes := h
      rw [decodeCanonical_eq_some] at hcanonical
      refine ⟨hcanonical, ?_⟩
      rintro rfl
      apply hchars
      rw [hcanonical]
      rfl
  · rintro ⟨rfl, hbytes⟩
    have hchars := List.all_eq_true.2 (Base64.isUrlChar_toBase64Url bytes)
    unfold fromBase64Url
    rw [if_neg (by simp [toBase64Url_ne_nil hbytes, hchars])]
    simp only [Base64.fromBase64Url_toBase64Url, if_true]

/-! ## Headers that are accepted -/

/-- What `parseHeader` asks of the texts. -/
structure Header.Valid (dates : Dates) (header : Header) : Prop where
  keyId : isKeyId header.keyId = true
  nonce : ∃ bytes : Bytes, bytes.length = 12 ∧ header.nonce = Base64.toBase64Url bytes
  issuedAt : isCanonicalIsoDate dates header.issuedAt = true
  expiresAt : isCanonicalIsoDate dates header.expiresAt = true
  window : endsBefore dates header.issuedAt header.expiresAt = false

section
variable {dates : Dates} {header : Header}

theorem Header.Valid.texts (h : header.Valid dates) :
    ∀ t ∈ [header.keyId, header.nonce, header.issuedAt, header.expiresAt], ∀ u ∈ t, Json.isPlain u = true := by
  have hdate : ∀ t, isCanonicalIsoDate dates t = true → ∀ u ∈ t, isHeaderUnit u = true := by
    intro t ht
    rw [isCanonicalIsoDate, Bool.and_eq_true] at ht
    exact (isHeaderUnit_isoDate ht.1).1
  obtain ⟨bytes, -, hnonce⟩ := h.nonce
  simp only [List.forall_mem_cons]
  refine ⟨fun u hu => ?_, fun u hu => ?_, fun u hu => ?_, fun u hu => ?_, List.forall_mem_nil _⟩
  · exact isPlain_headerUnit ((isHeaderUnit_keyId h.keyId).1 u hu)
  · rw [hnonce] at hu
    exact isPlain_headerUnit (isHeaderUnit_url (Base64.isUrlChar_toBase64Url bytes u hu))
  · exact isPlain_headerUnit (hdate _ h.issuedAt u hu)
  · exact isPlain_headerUnit (hdate _ h.expiresAt u hu)

theorem Header.Valid.length_le (h : header.Valid dates) :
    header.keyId.length + header.nonce.length + header.issuedAt.length + header.expiresAt.length ≤ 128 := by
  have hdate : ∀ t, isCanonicalIsoDate dates t = true → t.length = 24 := by
    intro t ht
    rw [isCanonicalIsoDate, Bool.and_eq_true] at ht
    exact (isHeaderUnit_isoDate ht.1).2
  obtain ⟨bytes, hbytes, hnonce⟩ := h.nonce
  have hkeyId := (isHeaderUnit_keyId h.keyId).2
  have hissuedAt := hdate _ h.issuedAt
  have hexpiresAt := hdate _ h.expiresAt
  have hnonceLength := Base64.length_toBase64Url bytes
  rw [hbytes, ← hnonce] at hnonceLength
  omega

theorem ok_header (header : Header) : header.toJson.Ok := by
  have hkeys : (headerKeys.map units).Nodup := by decide +kernel
  have hversion : Json.IsLiteral (units "1") := by decide +kernel
  refine ⟨hkeys, ?_⟩
  simp only [Json.OkFields, Json.Ok, and_true]
  exact hversion

/-- A header that was written is parsed as it was. -/
theorem parseHeader_toJson (h : header.Valid dates) : parseHeader dates header.toJson = .ok header := by
  have hkeys : hasExactKeys [(units "version", Json.num (units "1")), (units "algorithm", .str (units "AES-256-GCM")),
      (units "keyId", .str header.keyId), (units "nonce", .str header.nonce), (units "issuedAt", .str header.issuedAt),
      (units "expiresAt", .str header.expiresAt)] headerKeys headerKeys = true := rfl
  have hversion : isOne (some (.num (units "1"))) = true := by decide +kernel
  obtain ⟨bytes, hbytes, hnonce⟩ := h.nonce
  have hnonceBytes : fromBase64Url header.nonce = some bytes :=
    fromBase64Url_eq_some.2 ⟨hnonce, by rintro rfl; cases hbytes⟩
  have hisNonce : isNonce header.nonce = true := by
    rw [isNonce, Bool.and_eq_true, decide_eq_true_eq, hnonce, Base64.length_toBase64Url, hbytes]
    exact ⟨rfl, List.all_eq_true.2 (Base64.isUrlChar_toBase64Url bytes)⟩
  rw [Header.toJson]
  generalize hfields : [(units "version", Json.num (units "1")), (units "algorithm", .str (units "AES-256-GCM")),
    (units "keyId", .str header.keyId), (units "nonce", .str header.nonce), (units "issuedAt", .str header.issuedAt),
    (units "expiresAt", .str header.expiresAt)] = fields at hkeys ⊢
  have hget : get fields "version" = some (.num (units "1")) ∧ get fields "algorithm" = some (.str (units "AES-256-GCM")) ∧
      get fields "keyId" = some (.str header.keyId) ∧ get fields "nonce" = some (.str header.nonce) ∧
      get fields "issuedAt" = some (.str header.issuedAt) ∧ get fields "expiresAt" = some (.str header.expiresAt) := by
    have hcompare : ∀ a ∈ headerKeys, ∀ b ∈ headerKeys, (units a == units b) = decide (a = b) := by decide +kernel
    simp only [headerKeys, List.forall_mem_cons] at hcompare
    rw [← hfields]
    simp [Tokens.get, List.lookup_cons, hcompare]
  simp [parseHeader, hkeys, hget, hversion, isString, h.keyId, hisNonce, h.issuedAt, h.expiresAt, h.window, hnonceBytes, hbytes,
    require, bind, Except.bind, pure, Except.pure]

theorem parseHeader_valid {value : Json} (h : parseHeader dates value = .ok header) : header.Valid dates := by
  unfold parseHeader at h
  split at h
  case h_2 => cases h
  case h_1 fields =>
    simp only [bind_eq_ok, require_eq_ok] at h
    obtain ⟨-, -, -, -, h⟩ := h
    split at h
    case h_2 => cases h
    case h_1 keyId nonce issuedAt expiresAt _ _ _ _ =>
      simp only [bind_eq_ok, require_eq_ok, pure_eq_ok, Bool.and_eq_true, Bool.not_eq_true'] at h
      obtain ⟨-, ⟨hkeyId, -⟩, -, ⟨hissuedAt, hexpiresAt⟩, -, hwindow, -, hnonce, rfl⟩ := h
      cases hbytes : fromBase64Url nonce with
      | none =>
        rw [hbytes] at hnonce
        cases hnonce
      | some bytes =>
        rw [hbytes, Option.any_some, decide_eq_true_eq] at hnonce
        exact ⟨hkeyId, ⟨bytes, hnonce, (fromBase64Url_eq_some.1 hbytes).1⟩, hissuedAt, hexpiresAt, hwindow⟩

/-! ## Its text -/

/-- A character that is no control character and no letter beyond ASCII. -/
def isPrintable (u : UInt16) : Bool := 0x20 ≤ u && u < 0x80

theorem isPrintable_quote {s : Text} (h : ∀ u ∈ s, Json.isPlain u = true) : (Json.quote s).all isPrintable = true := by
  have hs : s.all isPrintable = true := by
    rw [List.all_eq_true]
    intro u hu
    have hplain := h u hu
    simp only [Json.isPlain, Bool.and_eq_true] at hplain
    rw [isPrintable, Bool.and_eq_true]
    exact hplain.1.1
  have hquote : isPrintable (unit '"') = true := by decide
  simp [Json.quote, Json.quoteBody_plain h, hs, hquote]

theorem keys_printable : ∀ key ∈ headerKeys, (Json.quote (units key)).all isPrintable = true ∧ (Json.quote (units key)).length ≤ 11 := by
  decide +kernel

theorem Header.Valid.printable (h : header.Valid dates) : (Json.stringify header.toJson).all isPrintable = true := by
  have htexts := h.texts
  simp only [List.forall_mem_cons] at htexts
  obtain ⟨hkeyId, hnonce, hissuedAt, hexpiresAt, -⟩ := htexts
  have hkeys := keys_printable
  simp only [headerKeys, List.forall_mem_cons] at hkeys
  have halgorithm : (Json.quote (units "AES-256-GCM")).all isPrintable = true := rfl
  have hmarks : isPrintable (unit '\x7b') = true ∧ isPrintable (unit '\x7d') = true ∧ isPrintable (unit ':') = true ∧
    isPrintable (unit ',') = true ∧ (units "1").all isPrintable = true := ⟨rfl, rfl, rfl, rfl, rfl⟩
  simp [Header.toJson, Json.stringify, Json.stringifyFields, hkeys, halgorithm, hmarks, isPrintable_quote hkeyId, isPrintable_quote hnonce,
    isPrintable_quote hissuedAt, isPrintable_quote hexpiresAt]

theorem Header.Valid.length_stringify (h : header.Valid dates) : (Json.stringify header.toJson).length ≤ 300 := by
  have htexts := h.texts
  simp only [List.forall_mem_cons] at htexts
  obtain ⟨hkeyId, hnonce, hissuedAt, hexpiresAt, -⟩ := htexts
  have hkeys := keys_printable
  simp only [headerKeys, List.forall_mem_cons] at hkeys
  have halgorithm : (Json.quote (units "AES-256-GCM")).length = 13 ∧ (units "1").length = 1 := ⟨rfl, rfl⟩
  have hlength := h.length_le
  simp only [Header.toJson, Json.stringify, Json.stringifyFields, List.length_append, List.length_cons, List.length_nil,
    Json.length_quote_plain hkeyId, Json.length_quote_plain hnonce, Json.length_quote_plain hissuedAt,
    Json.length_quote_plain hexpiresAt]
  omega

theorem Header.Valid.isAscii (h : header.Valid dates) : Json.IsAscii (Json.stringify header.toJson) := by
  intro u hu
  have hprintable := List.all_eq_true.1 h.printable u hu
  rw [isPrintable, Bool.and_eq_true, decide_eq_true_eq, decide_eq_true_eq] at hprintable
  exact UInt16.lt_iff_toNat_lt.1 hprintable.2

/-- No byte of a header is zero, so the first zero ends it. -/
theorem Header.Valid.ne_zero (h : header.Valid dates) : ∀ byte ∈ headerBytes header, byte ≠ 0 := by
  intro byte hbyte
  rw [headerBytes, Utf8.encode, Utf8.utf8_flatMap_ascii h.isAscii, List.map_map] at hbyte
  obtain ⟨u, hu, rfl⟩ := List.mem_map.1 hbyte
  have hprintable := List.all_eq_true.1 h.printable u hu
  rw [isPrintable, Bool.and_eq_true, decide_eq_true_eq, decide_eq_true_eq] at hprintable
  have hlower := UInt16.le_iff_toNat_le.1 hprintable.1
  have hupper := UInt16.lt_iff_toNat_lt.1 hprintable.2
  intro hzero
  have hnat := congrArg UInt8.toNat hzero
  simp only [Function.comp_apply, UInt8.toNat_ofNat'] at hnat
  simp at hlower hupper hnat
  omega

theorem Header.Valid.length_headerBytes (h : header.Valid dates) : (headerBytes header).length ≤ 300 := by
  rw [headerBytes, Utf8.length_encode_ascii h.isAscii]
  exact h.length_stringify

theorem parse_headerBytes (header : Header) : Json.parse (Utf8.decode (headerBytes header)) = some header.toJson :=
  Json.parse_decode (ok_header header)

theorem headerBytes_inj {other : Header} (h : headerBytes header = headerBytes other) : header = other := by
  have hparse := parse_headerBytes header
  rw [h, parse_headerBytes other, Option.some.injEq] at hparse
  obtain ⟨keyId, nonce, issuedAt, expiresAt⟩ := header
  obtain ⟨keyId', nonce', issuedAt', expiresAt'⟩ := other
  simp [Header.toJson] at hparse
  simp [hparse]

/-- The two parts on either side of the first zero. -/
theorem append_zero_inj {a b c d : Bytes} (ha : ∀ byte ∈ a, byte ≠ 0) (hb : ∀ byte ∈ b, byte ≠ 0) (h : a ++ 0 :: c = b ++ 0 :: d) :
    a = b ∧ c = d := by
  induction a generalizing b with
  | nil =>
    cases b with
    | nil => exact ⟨rfl, (List.cons.inj h).2⟩
    | cons byte b => exact absurd (List.cons.inj h).1.symm (hb byte List.mem_cons_self)
  | cons byte a ih =>
    cases b with
    | nil => exact absurd (List.cons.inj h).1 (ha byte List.mem_cons_self)
    | cons byte' b =>
      rw [List.forall_mem_cons] at ha hb
      obtain ⟨rfl, htail⟩ := List.cons.inj h
      obtain ⟨rfl, hcd⟩ := ih ha.2 hb.2 htail
      exact ⟨rfl, hcd⟩

theorem authenticatedData_eq_ok {aad : EnvelopeAad} {data : Bytes} : authenticatedData header aad = .ok data ↔
    (aad.encoded.length ≠ 0 ∧ aad.encoded.length ≤ maxAadBytes) ∧
      data = Utf8.encode (units "hyeboard:automation-envelope:v1\n") ++ headerBytes header ++ 0 :: aad.encoded := by
  simp only [authenticatedData, aadBytes, bind_eq_ok, require_eq_ok, pure_eq_ok, Bool.and_eq_true, bne_iff_ne, decide_eq_true_eq]
  constructor
  · rintro ⟨context, ⟨-, hbounds, rfl⟩, rfl⟩
    exact ⟨hbounds, rfl⟩
  · rintro ⟨hbounds, rfl⟩
    exact ⟨_, ⟨(), hbounds, rfl⟩, rfl⟩

/-- What is authenticated tells the header and the caller's data. -/
theorem authenticatedData_inj {other : Header} {aad aad' : EnvelopeAad} {data : Bytes} (hheader : header.Valid dates)
    (hother : other.Valid dates) (h : authenticatedData header aad = .ok data) (h' : authenticatedData other aad' = .ok data) :
    header = other ∧ aad.encoded = aad'.encoded := by
  obtain ⟨-, rfl⟩ := authenticatedData_eq_ok.1 h
  obtain ⟨-, heq⟩ := authenticatedData_eq_ok.1 h'
  rw [List.append_assoc, List.append_assoc, List.append_cancel_left_eq] at heq
  obtain ⟨hbytes, hcontext⟩ := append_zero_inj hheader.ne_zero hother.ne_zero heq
  exact ⟨headerBytes_inj hbytes, hcontext⟩

end

end Hyeboard.Envelopes
