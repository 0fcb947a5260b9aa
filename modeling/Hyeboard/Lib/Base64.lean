import Hyeboard.Lib.CodeUnits
/-!
# Base64

`btoa` and `atob`, with `atob` as forgiving as it is: it drops white space, takes the
padding or not, and does not look at the bits that are left over. The url-safe
spelling has no padding.
-/

namespace Hyeboard

abbrev Bytes := List UInt8

namespace Base64

/-! ## Groups of three bytes -/

/-- The values of six bits. -/
def sextets : List Nat → List Nat
  | [] => []
  | [a] => [a / 4, a % 4 * 16]
  | [a, b] => [a / 4, a % 4 * 16 + b / 16, b % 16 * 4]
  | a :: b :: c :: rest => (a / 4) :: (a % 4 * 16 + b / 16) :: (b % 16 * 4 + c / 64) :: (c % 64) :: sextets rest

/-- The bytes of complete groups, and what two or three values more begin. -/
def octets : List Nat → List Nat
  | a :: b :: c :: d :: rest => (a * 4 + b / 16) :: (b % 16 * 16 + c / 4) :: (c % 4 * 64 + d) :: octets rest
  | [a, b, c] => [a * 4 + b / 16, b % 16 * 16 + c / 4]
  | [a, b] => [a * 4 + b / 16]
  | _ => []

/-! ## Alphabets -/

def alphabet : Text := units "ABCDEFGHIJKLMNOPQRSTUVWXYZabcdefghijklmnopqrstuvwxyz0123456789+/"

def toChar (value : Nat) : UInt16 := alphabet.getD value 0

/-- The value of a character of the alphabet. -/
def ofChar (u : UInt16) : Option Nat := alphabet.idxOf? u

def isAsciiSpace (u : UInt16) : Bool := u ∈ [9, 10, 12, 13, 32]

/-- `btoa`, of bytes. -/
def btoa (bytes : Bytes) : Text :=
  let chars := (sextets (bytes.map UInt8.toNat)).map toChar
  chars ++ List.replicate ((4 - chars.length % 4) % 4) (unit '=')

/-- Up to two characters of padding. -/
def dropPadding (t : Text) : Text :=
  if t.length % 4 = 0 then
    if t.getLast? = some (unit '=') then
      let t := t.dropLast
      if t.getLast? = some (unit '=') then t.dropLast else t
    else t
  else t

/-- `atob`, as bytes. -/
def atob (t : Text) : Option Bytes :=
  let t := dropPadding (t.filter (! isAsciiSpace ·))
  if t.length % 4 = 1 then none else (t.mapM ofChar).map fun values => (octets values).map UInt8.ofNat

/-- `replaceAll` of one character. -/
def replaceAll (t : Text) (u v : Char) : Text := t.map fun c => if c = unit u then unit v else c

def toBase64Url (bytes : Bytes) : Text :=
  (replaceAll (replaceAll (btoa bytes) '+' '-') '/' '_').filter (· != unit '=')

def fromBase64Url (value : Text) : Option Bytes :=
  let padded := replaceAll (replaceAll value '-' '+') '_' '/'
  atob (padded ++ List.replicate ((value.length + 3) / 4 * 4 - value.length) (unit '='))

/-! ## The round trip -/

theorem sextets_lt (l : List Nat) (h : ∀ n ∈ l, n < 256) : ∀ n ∈ sextets l, n < 64 := by
  fun_induction sextets l with
  | case1 => exact List.forall_mem_nil _
  | case2 a =>
    simp only [List.forall_mem_cons] at h ⊢
    exact ⟨by omega, by omega, List.forall_mem_nil _⟩
  | case3 a b =>
    simp only [List.forall_mem_cons] at h ⊢
    exact ⟨by omega, by omega, by omega, List.forall_mem_nil _⟩
  | case4 a b c rest ih =>
    simp only [List.forall_mem_cons] at h ⊢
    exact ⟨by omega, by omega, by omega, by omega, ih h.2.2.2⟩

theorem octets_sextets (l : List Nat) (h : ∀ n ∈ l, n < 256) : octets (sextets l) = l := by
  fun_induction sextets l with
  | case1 => rfl
  | case2 a =>
    have ha := h a (by simp)
    simp only [octets, List.cons.injEq, and_true]
    omega
  | case3 a b =>
    have ha := h a (by simp)
    have hb := h b (by simp)
    simp only [octets, List.cons.injEq, and_true]
    omega
  | case4 a b c rest ih =>
    have ha := h a (by simp)
    have hb := h b (by simp)
    have hc := h c (by simp)
    rw [octets, ih fun n hn => h n (by simp [hn])]
    simp only [List.cons.injEq, and_true]
    omega

theorem length_sextets (l : List Nat) : (sextets l).length = (l.length * 4 + 2) / 3 := by
  fun_induction sextets l with
  | case1 => rfl
  | case2 a => simp
  | case3 a b => simp
  | case4 a b c rest ih =>
    simp only [List.length_cons, ih]
    omega

/-! ## The alphabets -/

/-- The character of the url-safe alphabet. -/
def toUrlChar (value : Nat) : UInt16 := if value = 62 then unit '-' else if value = 63 then unit '_' else toChar value

/-- The characters of the url-safe alphabet. -/
def isUrlChar (u : UInt16) : Bool :=
  (unit 'A' ≤ u && u ≤ unit 'Z') || (unit 'a' ≤ u && u ≤ unit 'z') || (unit '0' ≤ u && u ≤ unit '9') || u = unit '_' || u = unit '-'

/-- The two alphabets, value by value. -/
theorem alphabets : ∀ value < 64,
    ofChar (toChar value) = some value ∧ isAsciiSpace (toChar value) = false ∧ toChar value ≠ unit '=' ∧
    toUrlChar value = (fun c => if c = unit '/' then unit '_' else c) (if toChar value = unit '+' then unit '-' else toChar value) ∧
    toChar value = (fun c => if c = unit '_' then unit '/' else c) (if toUrlChar value = unit '-' then unit '+' else toUrlChar value) ∧
    toUrlChar value ≠ unit '=' ∧ toUrlChar value ≠ unit '.' ∧ isUrlChar (toUrlChar value) = true := by
  decide +kernel

section
variable {value : Nat}

theorem ofChar_toChar (h : value < 64) : ofChar (toChar value) = some value := (alphabets value h).1

theorem toChar_keeps (h : value < 64) : isAsciiSpace (toChar value) = false ∧ toChar value ≠ unit '=' :=
  ⟨(alphabets value h).2.1, (alphabets value h).2.2.1⟩

theorem toUrlChar_eq (h : value < 64) : toUrlChar value =
    (fun c => if c = unit '/' then unit '_' else c) (if toChar value = unit '+' then unit '-' else toChar value) :=
  (alphabets value h).2.2.2.1

theorem toChar_eq (h : value < 64) : toChar value =
    (fun c => if c = unit '_' then unit '/' else c) (if toUrlChar value = unit '-' then unit '+' else toUrlChar value) :=
  (alphabets value h).2.2.2.2.1

theorem toUrlChar_ne (h : value < 64) : toUrlChar value ≠ unit '=' ∧ toUrlChar value ≠ unit '.' :=
  ⟨(alphabets value h).2.2.2.2.2.1, (alphabets value h).2.2.2.2.2.2.1⟩

theorem isUrlChar_toUrlChar (h : value < 64) : isUrlChar (toUrlChar value) = true := (alphabets value h).2.2.2.2.2.2.2

end

section
variable {values : List Nat}

theorem mapM_ofChar (h : ∀ n ∈ values, n < 64) : (values.map toChar).mapM ofChar = some values := by
  induction values with
  | nil => rfl
  | cons value rest ih =>
    rw [List.forall_mem_cons] at h
    rw [List.map_cons, List.mapM_cons, ofChar_toChar h.1, ih h.2]
    rfl

theorem map_bytes (bytes : Bytes) : ∀ n ∈ bytes.map UInt8.toNat, n < 256 := by
  intro n hn
  obtain ⟨byte, -, rfl⟩ := List.mem_map.1 hn
  exact byte.toNat_lt

theorem map_ofNat_toNat (bytes : Bytes) : (bytes.map UInt8.toNat).map UInt8.ofNat = bytes := by
  rw [List.map_map]
  exact List.map_id'' (fun byte => UInt8.ofNat_toNat) bytes

theorem toBase64Url_eq (bytes : Bytes) : toBase64Url bytes = (sextets (bytes.map UInt8.toNat)).map toUrlChar := by
  have hvalues := sextets_lt _ (map_bytes bytes)
  have hfilter : ((sextets (bytes.map UInt8.toNat)).map toUrlChar).filter (· != unit '=') =
      (sextets (bytes.map UInt8.toNat)).map toUrlChar := by
    rw [List.filter_eq_self]
    intro u hu
    obtain ⟨value, hmem, rfl⟩ := List.mem_map.1 hu
    simpa using (toUrlChar_ne (hvalues value hmem)).1
  have hmap : replaceAll (replaceAll ((sextets (bytes.map UInt8.toNat)).map toChar) '+' '-') '/' '_' =
      (sextets (bytes.map UInt8.toNat)).map toUrlChar := by
    rw [replaceAll, replaceAll, List.map_map, List.map_map]
    exact List.map_congr_left fun value hmem => (toUrlChar_eq (hvalues value hmem)).symm
  have hpadding : ∀ n, (replaceAll (replaceAll (List.replicate n (unit '=')) '+' '-') '/' '_').filter (· != unit '=') = [] := by
    intro n
    rw [replaceAll, replaceAll, List.map_replicate, List.map_replicate]
    simp [unit]
  unfold toBase64Url btoa
  simp only [replaceAll, List.map_append, List.filter_append] at hmap hpadding ⊢
  rw [hmap, hpadding, List.append_nil, hfilter]

/-- What the padding of `atob` adds, it drops. -/
theorem dropPadding_padded (t : Text) (hlast : t.getLast? ≠ some (unit '=')) (h : t.length % 4 ≠ 1) :
    dropPadding (t ++ List.replicate ((t.length + 3) / 4 * 4 - t.length) (unit '=')) = t := by
  have hcases : t.length % 4 = 0 ∨ t.length % 4 = 2 ∨ t.length % 4 = 3 := by omega
  rcases hcases with hzero | htwo | hthree
  · have hcount : (t.length + 3) / 4 * 4 - t.length = 0 := by omega
    rw [hcount, List.replicate_zero, List.append_nil, dropPadding, if_pos hzero, if_neg hlast]
  · have hcount : (t.length + 3) / 4 * 4 - t.length = 2 := by omega
    rw [hcount]
    have hlength : (t ++ List.replicate 2 (unit '=')).length % 4 = 0 := by
      rw [List.length_append, List.length_replicate]
      omega
    rw [dropPadding, if_pos hlength]
    simp [List.replicate_succ]
  · have hcount : (t.length + 3) / 4 * 4 - t.length = 1 := by omega
    rw [hcount]
    have hlength : (t ++ List.replicate 1 (unit '=')).length % 4 = 0 := by
      rw [List.length_append, List.length_replicate]
      omega
    rw [dropPadding, if_pos hlength]
    simp [List.replicate_succ, hlast]

/-- Every byte string comes back. -/
theorem fromBase64Url_toBase64Url (bytes : Bytes) : fromBase64Url (toBase64Url bytes) = some bytes := by
  have hvalues := sextets_lt _ (map_bytes bytes)
  have hlength := length_sextets (bytes.map UInt8.toNat)
  have hmod : ((sextets (bytes.map UInt8.toNat)).map toChar).length % 4 ≠ 1 := by
    rw [List.length_map, hlength]
    omega
  have hmap : replaceAll (replaceAll (toBase64Url bytes) '-' '+') '_' '/' = (sextets (bytes.map UInt8.toNat)).map toChar := by
    rw [toBase64Url_eq, replaceAll, replaceAll, List.map_map, List.map_map]
    exact List.map_congr_left fun value hmem => (toChar_eq (hvalues value hmem)).symm
  have hsame : (toBase64Url bytes).length = ((sextets (bytes.map UInt8.toNat)).map toChar).length := by
    rw [toBase64Url_eq, List.length_map, List.length_map]
  have hkeeps : ∀ u ∈ (sextets (bytes.map UInt8.toNat)).map toChar, isAsciiSpace u = false ∧ u ≠ unit '=' := by
    intro u hu
    obtain ⟨value, hmem, rfl⟩ := List.mem_map.1 hu
    exact toChar_keeps (hvalues value hmem)
  have hlast : ((sextets (bytes.map UInt8.toNat)).map toChar).getLast? ≠ some (unit '=') := by
    intro heq
    exact (hkeeps _ (List.mem_of_getLast? heq)).2 rfl
  have hfilter : ∀ n, ((sextets (bytes.map UInt8.toNat)).map toChar ++ List.replicate n (unit '=')).filter (! isAsciiSpace ·) =
      (sextets (bytes.map UInt8.toNat)).map toChar ++ List.replicate n (unit '=') := by
    intro n
    rw [List.filter_eq_self]
    intro u hu
    rcases List.mem_append.1 hu with hu | hu
    · simp [(hkeeps u hu).1]
    · rw [List.eq_of_mem_replicate hu]
      decide
  unfold fromBase64Url atob
  simp only
  rw [hmap, hsame, hfilter, dropPadding_padded _ hlast hmod, if_neg hmod, mapM_ofChar hvalues, Option.map_some,
    octets_sextets _ (map_bytes bytes), map_ofNat_toNat]

theorem length_toBase64Url (bytes : Bytes) : (toBase64Url bytes).length = (bytes.length * 4 + 2) / 3 := by
  rw [toBase64Url_eq, List.length_map, length_sextets, List.length_map]

theorem isUrlChar_toBase64Url (bytes : Bytes) : ∀ u ∈ toBase64Url bytes, isUrlChar u = true := by
  rw [toBase64Url_eq]
  intro u hu
  obtain ⟨value, hmem, rfl⟩ := List.mem_map.1 hu
  exact isUrlChar_toUrlChar (sextets_lt _ (map_bytes bytes) value hmem)

end

end Base64

end Hyeboard
