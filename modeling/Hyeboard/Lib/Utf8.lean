import Hyeboard.Lib.Base64
/-!
# UTF-8

`TextEncoder` and `TextDecoder`. A surrogate that stands alone is encoded as the
replacement character; the decoder goes byte by byte, as it is specified, and says of
each malformed sequence that it is one.
-/

namespace Hyeboard.Utf8

/-! ## Code points -/

/-- A code point that is no surrogate. -/
def IsScalar (n : Nat) : Prop := n < 0xd800 ∨ (0xdfff < n ∧ n < 0x110000)

instance (n : Nat) : Decidable (IsScalar n) := inferInstanceAs (Decidable (_ ∨ _))

def isHigh (u : UInt16) : Bool := 0xd800 ≤ u.toNat && u.toNat ≤ 0xdbff

def isLow (u : UInt16) : Bool := 0xdc00 ≤ u.toNat && u.toNat ≤ 0xdfff

/-- The code units of a code point. -/
def utf16 (n : Nat) : Text :=
  if n < 0x10000 then [UInt16.ofNat n]
  else [UInt16.ofNat (0xd800 + (n - 0x10000) / 0x400), UInt16.ofNat (0xdc00 + (n - 0x10000) % 0x400)]

/-- The code points of a string, with replacement characters. -/
def codePoints : Text → List Nat
  | [] => []
  | [u] => [if isHigh u || isLow u then 0xfffd else u.toNat]
  | u :: v :: rest =>
    if isHigh u && isLow v then (0x10000 + (u.toNat - 0xd800) * 0x400 + (v.toNat - 0xdc00)) :: codePoints rest
    else (if isHigh u || isLow u then 0xfffd else u.toNat) :: codePoints (v :: rest)

/-! ## Bytes -/

/-- The bytes of a code point. -/
def utf8 (n : Nat) : List Nat :=
  if n < 0x80 then [n]
  else if n < 0x800 then [0xc0 + n / 0x40, 0x80 + n % 0x40]
  else if n < 0x10000 then [0xe0 + n / 0x1000, 0x80 + n / 0x40 % 0x40, 0x80 + n % 0x40]
  else [0xf0 + n / 0x40000, 0x80 + n / 0x1000 % 0x40, 0x80 + n / 0x40 % 0x40, 0x80 + n % 0x40]

/-- `new TextEncoder().encode(t)`. -/
def encode (t : Text) : Bytes := ((codePoints t).flatMap utf8).map UInt8.ofNat

/-- A sequence that has begun: what it says so far, how many bytes are missing, and the bounds of the next one. -/
structure Pending where
  value : Nat
  needed : Nat
  lower : Nat
  upper : Nat

/-- A byte that begins a sequence; none stands for a malformed one. -/
def lead (byte : Nat) : List (Option Nat) × Option Pending :=
  if byte < 0x80 then ([some byte], none)
  else if 0xc2 ≤ byte ∧ byte ≤ 0xdf then ([], some ⟨byte % 0x20, 1, 0x80, 0xbf⟩)
  else if 0xe0 ≤ byte ∧ byte ≤ 0xef then
    ([], some ⟨byte % 0x10, 2, if byte = 0xe0 then 0xa0 else 0x80, if byte = 0xed then 0x9f else 0xbf⟩)
  else if 0xf0 ≤ byte ∧ byte ≤ 0xf4 then
    ([], some ⟨byte % 0x8, 3, if byte = 0xf0 then 0x90 else 0x80, if byte = 0xf4 then 0x8f else 0xbf⟩)
  else ([none], none)

/-- The code points of bytes; a byte that does not continue a sequence is looked at again. -/
def scan : Option Pending → List Nat → List (Option Nat)
  | none, [] => []
  | some _, [] => [none]
  | none, byte :: rest => (lead byte).1 ++ scan (lead byte).2 rest
  | some pending, byte :: rest =>
    if pending.lower ≤ byte ∧ byte ≤ pending.upper then
      if pending.needed = 1 then some (pending.value * 0x40 + byte % 0x40) :: scan none rest
      else scan (some ⟨pending.value * 0x40 + byte % 0x40, pending.needed - 1, 0x80, 0xbf⟩) rest
    else none :: (lead byte).1 ++ scan (lead byte).2 rest

/-- The byte order mark is not part of the text. -/
def dropMark : List (Option Nat) → List (Option Nat)
  | some 0xfeff :: rest => rest
  | points => points

/-- `new TextDecoder().decode(bytes)`. -/
def decode (bytes : Bytes) : Text := (dropMark (scan none (bytes.map UInt8.toNat))).flatMap fun point => utf16 (point.getD 0xfffd)

/-- `new TextDecoder("utf-8", { fatal: true }).decode(bytes)`. -/
def decodeFatal (bytes : Bytes) : Option Text :=
  ((dropMark (scan none (bytes.map UInt8.toNat))).mapM id).map fun points => points.flatMap utf16

/-! ## Round trips -/

section
variable {n : Nat}

theorem utf8_lt (h : IsScalar n) : ∀ byte ∈ utf8 n, byte < 256 := by
  unfold utf8
  unfold IsScalar at h
  split
  · simp; omega
  · split
    · simp; omega
    · split
      · simp; omega
      · simp; omega

theorem scan_last {pending : Pending} {byte : Nat} (hneeded : pending.needed = 1) (hlower : pending.lower ≤ byte)
    (hupper : byte ≤ pending.upper) (rest : List Nat) :
    scan (some pending) (byte :: rest) = some (pending.value * 0x40 + byte % 0x40) :: scan none rest := by
  rw [scan, if_pos ⟨hlower, hupper⟩, if_pos hneeded]

theorem scan_more {pending : Pending} {byte : Nat} (hneeded : 1 < pending.needed) (hlower : pending.lower ≤ byte)
    (hupper : byte ≤ pending.upper) (rest : List Nat) : scan (some pending) (byte :: rest) =
      scan (some ⟨pending.value * 0x40 + byte % 0x40, pending.needed - 1, 0x80, 0xbf⟩) rest := by
  rw [scan, if_pos ⟨hlower, hupper⟩, if_neg (by omega)]

theorem lead_one {byte : Nat} (h : byte < 0x80) : lead byte = ([some byte], none) := if_pos h

theorem lead_two {byte : Nat} (hlower : 0xc2 ≤ byte) (hupper : byte ≤ 0xdf) : lead byte = ([], some ⟨byte % 0x20, 1, 0x80, 0xbf⟩) := by
  rw [lead, if_neg (by omega), if_pos ⟨hlower, hupper⟩]

theorem lead_three {byte : Nat} (hlower : 0xe0 ≤ byte) (hupper : byte ≤ 0xef) : lead byte =
    ([], some ⟨byte % 0x10, 2, if byte = 0xe0 then 0xa0 else 0x80, if byte = 0xed then 0x9f else 0xbf⟩) := by
  rw [lead, if_neg (by omega), if_neg (by omega), if_pos ⟨hlower, hupper⟩]

theorem lead_four {byte : Nat} (hlower : 0xf0 ≤ byte) (hupper : byte ≤ 0xf4) : lead byte =
    ([], some ⟨byte % 0x8, 3, if byte = 0xf0 then 0x90 else 0x80, if byte = 0xf4 then 0x8f else 0xbf⟩) := by
  rw [lead, if_neg (by omega), if_neg (by omega), if_neg (by omega), if_pos ⟨hlower, hupper⟩]

/-- The decoder reads back what the encoder writes for one code point. -/
theorem scan_utf8 (h : IsScalar n) (rest : List Nat) : scan none (utf8 n ++ rest) = some n :: scan none rest := by
  unfold IsScalar at h
  unfold utf8
  split
  case isTrue hone =>
    rw [List.singleton_append, scan, lead_one hone]
    rfl
  case isFalse hone =>
    split
    case isTrue htwo =>
      rw [List.cons_append, List.cons_append, List.nil_append, scan, lead_two (by omega) (by omega), List.nil_append]
      rw [scan_last rfl (by simp) (by simp; omega)]
      congr 2
      simp only
      omega
    case isFalse htwo =>
      split
      case isTrue hthree =>
        simp only [List.cons_append, List.nil_append]
        rw [scan, lead_three (by omega) (by omega), List.nil_append]
        -- the second byte is bounded where the first one is 0xe0 or 0xed
        rw [scan_more (by simp) (by simp only; split <;> omega) (by simp only; split <;> omega)]
        rw [scan_last rfl (by simp) (by simp; omega)]
        congr 2
        simp only
        omega
      case isFalse hthree =>
        simp only [List.cons_append, List.nil_append]
        rw [scan, lead_four (by omega) (by omega), List.nil_append]
        rw [scan_more (by simp) (by simp only; split <;> omega) (by simp only; split <;> omega)]
        rw [scan_more (by simp) (by simp) (by simp; omega)]
        rw [scan_last rfl (by simp) (by simp; omega)]
        congr 2
        simp only
        omega

theorem codePoints_utf16 (h : IsScalar n) (rest : Text) : codePoints (utf16 n ++ rest) = n :: codePoints rest := by
  unfold IsScalar at h
  unfold utf16
  split
  case isTrue hlt =>
    have hn : (UInt16.ofNat n).toNat = n := by
      rw [UInt16.toNat_ofNat']
      omega
    have hhigh : isHigh (UInt16.ofNat n) = false := by
      simp only [isHigh, hn, Bool.and_eq_false_iff, decide_eq_false_iff_not]
      omega
    have hlow : isLow (UInt16.ofNat n) = false := by
      simp only [isLow, hn, Bool.and_eq_false_iff, decide_eq_false_iff_not]
      omega
    cases rest with
    | nil => simp [codePoints, hhigh, hlow, hn]
    | cons v rest => simp [codePoints, hhigh, hlow, hn]
  case isFalse hlt =>
    have hfirst : (UInt16.ofNat (0xd800 + (n - 0x10000) / 0x400)).toNat = 0xd800 + (n - 0x10000) / 0x400 := by
      rw [UInt16.toNat_ofNat']
      omega
    have hsecond : (UInt16.ofNat (0xdc00 + (n - 0x10000) % 0x400)).toNat = 0xdc00 + (n - 0x10000) % 0x400 := by
      rw [UInt16.toNat_ofNat']
      omega
    have hpair : (isHigh (UInt16.ofNat (0xd800 + (n - 0x10000) / 0x400)) && isLow (UInt16.ofNat (0xdc00 + (n - 0x10000) % 0x400))) = true := by
      simp only [isHigh, isLow, hfirst, hsecond, Bool.and_eq_true, decide_eq_true_eq]
      omega
    have hvalue : 0x10000 + (0xd800 + (n - 0x10000) / 0x400 - 0xd800) * 0x400 + (0xdc00 + (n - 0x10000) % 0x400 - 0xdc00) = n := by
      omega
    rw [List.cons_append, List.cons_append, List.nil_append, codePoints, if_pos hpair, hfirst, hsecond, hvalue]

end

/-! ## Well-formed strings -/

/-- No surrogate stands alone. -/
def WellFormed (t : Text) : Prop := ∃ points : List Nat, (∀ n ∈ points, IsScalar n) ∧ t = points.flatMap utf16

section
variable {s t : Text}

theorem WellFormed.nil : WellFormed [] := ⟨[], List.forall_mem_nil _, rfl⟩

theorem WellFormed.append (hs : WellFormed s) (ht : WellFormed t) : WellFormed (s ++ t) := by
  obtain ⟨points, hpoints, rfl⟩ := hs
  obtain ⟨others, hothers, rfl⟩ := ht
  exact ⟨points ++ others, List.forall_mem_append.2 ⟨hpoints, hothers⟩, by rw [List.flatMap_append]⟩

theorem WellFormed.point {n : Nat} (h : IsScalar n) : WellFormed (utf16 n) := ⟨[n], by simpa using h, by simp⟩

/-- A unit that is no surrogate. -/
theorem WellFormed.unit {u : UInt16} (h : isHigh u = false) (h' : isLow u = false) : WellFormed [u] := by
  have hlt := u.toNat_lt
  have hscalar : IsScalar u.toNat := by
    simp only [isHigh, isLow, Bool.and_eq_false_iff, decide_eq_false_iff_not] at h h'
    unfold IsScalar
    omega
  have hunits : utf16 u.toNat = [u] := by
    rw [utf16, if_pos (by omega), UInt16.ofNat_toNat]
  exact hunits ▸ WellFormed.point hscalar

theorem codePoints_flatMap {points : List Nat} (h : ∀ n ∈ points, IsScalar n) : codePoints (points.flatMap utf16) = points := by
  induction points with
  | nil => rfl
  | cons n rest ih =>
    rw [List.forall_mem_cons] at h
    rw [List.flatMap_cons, codePoints_utf16 h.1, ih h.2]

theorem scan_flatMap {points : List Nat} (h : ∀ n ∈ points, IsScalar n) : scan none (points.flatMap utf8) = points.map some := by
  induction points with
  | nil => rfl
  | cons n rest ih =>
    rw [List.forall_mem_cons] at h
    rw [List.flatMap_cons, scan_utf8 h.1, ih h.2, List.map_cons]

theorem scan_encode {points : List Nat} (h : ∀ n ∈ points, IsScalar n) :
    scan none ((encode (points.flatMap utf16)).map UInt8.toNat) = points.map some := by
  have hbytes : (encode (points.flatMap utf16)).map UInt8.toNat = points.flatMap utf8 := by
    have hsame : ∀ byte ∈ points.flatMap utf8, (UInt8.toNat ∘ UInt8.ofNat) byte = byte := by
      intro byte hbyte
      obtain ⟨n, hn, hbyte⟩ := List.mem_flatMap.1 hbyte
      exact (UInt8.toNat_ofNat').trans (Nat.mod_eq_of_lt (utf8_lt (h n hn) byte hbyte))
    rw [encode, codePoints_flatMap h, List.map_map, List.map_congr_left hsame]
    exact List.map_id _
  rw [hbytes, scan_flatMap h]

/-- The text does not begin with a byte order mark. -/
def Unmarked (t : Text) : Prop := t.head? ≠ some 0xfeff

theorem dropMark_points {points : List Nat} (h : Unmarked (points.flatMap utf16)) : dropMark (points.map some) = points.map some := by
  cases points with
  | nil => rfl
  | cons n rest =>
    have hn : n ≠ 0xfeff := by
      rintro rfl
      exact h rfl
    rw [List.map_cons, dropMark]
    simpa using hn

/-- What was encoded is decoded. -/
theorem decode_encode (h : WellFormed t) (hmark : Unmarked t) : decode (encode t) = t := by
  obtain ⟨points, hpoints, rfl⟩ := h
  rw [decode, scan_encode hpoints, dropMark_points hmark, List.flatMap_map]
  rfl

theorem decodeFatal_encode (h : WellFormed t) (hmark : Unmarked t) : decodeFatal (encode t) = some t := by
  obtain ⟨points, hpoints, rfl⟩ := h
  have hall : (points.map some).mapM id = some points := by
    clear hpoints hmark
    induction points with
    | nil => rfl
    | cons n rest ih =>
      rw [List.map_cons, List.mapM_cons, ih]
      rfl
  rw [decodeFatal, scan_encode hpoints, dropMark_points hmark, hall, Option.map_some]

theorem not_surrogate {u : UInt16} (h : u.toNat < 0x80) : isHigh u = false ∧ isLow u = false := by
  simp only [isHigh, isLow, Bool.and_eq_false_iff, decide_eq_false_iff_not]
  omega

theorem utf8_flatMap_ascii (h : ∀ u ∈ t, u.toNat < 0x80) : (codePoints t).flatMap utf8 = t.map UInt16.toNat := by
  fun_induction codePoints t with
  | case1 => rfl
  | case2 u =>
    have hu := h u (by simp)
    simp [not_surrogate hu, utf8, hu]
  | case3 u v rest hpair =>
    have hu := h u (by simp)
    simp [not_surrogate hu] at hpair
  | case4 u v rest _ ih =>
    have hu := h u (by simp)
    rw [List.flatMap_cons, ih fun w hw => h w (List.mem_cons_of_mem _ hw)]
    simp [not_surrogate hu, utf8, hu]

/-- Characters that are one byte each. -/
theorem length_encode_ascii (h : ∀ u ∈ t, u.toNat < 0x80) : (encode t).length = t.length := by
  rw [encode, utf8_flatMap_ascii h, List.length_map, List.length_map]

end

end Hyeboard.Utf8
