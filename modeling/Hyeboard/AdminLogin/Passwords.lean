import Hyeboard.Lib.JsValue
import Hyeboard.Lib.Utf8
/-!
# The password of the administrator

`createAdminPasswordHash` and `verifyAdminPassword` of `apps/worker/src/admin/admin-auth.ts`.
A hash is a text of four parts; it verifies a password exactly if it is one that could have
been created for it. PBKDF2 is a parameter.
-/

namespace Hyeboard.AdminLogin

def passwordIterations : Nat := 31 * 10000

/-- `invalidHash()`. -/
def invalidHash : String := "Admin password hash is invalid."

structure PasswordHash where
  iterations : Nat
  salt : Bytes
  digest : Bytes
deriving DecidableEq

/-- None where it throws. -/
def fromBase64Url (value : Text) : Option Bytes :=
  if value != [] && value.all Base64.isUrlChar then Base64.fromBase64Url value else none

/-- Whatever is thrown on the way is thrown as `invalidHash`. -/
def parseAdminPasswordHash (encoded : Text) : Except String PasswordHash :=
  match encoded.splitOn (unit '$') with
  | [algorithm, iterations, third, fourth] =>
    if algorithm ≠ units "pbkdf2-sha256" ∨ iterations ≠ units (toString passwordIterations) then .error invalidHash
    else
      match fromBase64Url third, fromBase64Url fourth with
      | some salt, some digest =>
        if salt.length ≠ 16 ∨ digest.length ≠ 32 ∨ Base64.toBase64Url salt ≠ third ∨ Base64.toBase64Url digest ≠ fourth then
          .error invalidHash
        else .ok { iterations := passwordIterations, salt, digest }
      | _, _ => .error invalidHash
  | _ => .error invalidHash

/-- `pbkdf2-sha256$310000$salt$digest`. -/
def passwordHashText (salt digest : Bytes) : Text :=
  units "pbkdf2-sha256" ++ unit '$' :: (units (toString passwordIterations) ++
    unit '$' :: (Base64.toBase64Url salt ++ unit '$' :: Base64.toBase64Url digest))

/-- `difference |= left[index] ^ right[index]` over all indices. -/
def difference (left right : Bytes) : UInt8 := (left.zip right).foldl (fun d pair => d ||| (pair.1 ^^^ pair.2)) 0

def timingSafeEqual (left right : Bytes) : Except String Bool :=
  if left.length ≠ 32 ∨ right.length ≠ 32 then .error invalidHash else .ok (difference left right = 0)

section
variable (deriveBits : Bytes → Bytes → Nat → Bytes)

def derivePassword (password : Text) (salt : Bytes) : Bytes := deriveBits (Utf8.encode password) salt passwordIterations

def createAdminPasswordHash (password : Text) (salt : Bytes) : Except String Text :=
  if password = [] ∨ salt.length ≠ 16 then .error invalidHash
  else .ok (passwordHashText salt (derivePassword deriveBits password salt))

def verifyAdminPassword (password encoded : Text) : Except String Bool := do
  let parsed ← parseAdminPasswordHash encoded
  timingSafeEqual (derivePassword deriveBits password parsed.salt) parsed.digest

end

/-! ## The text of a hash -/

theorem fromBase64Url_toBase64Url {bytes : Bytes} (h : bytes ≠ []) : fromBase64Url (Base64.toBase64Url bytes) = some bytes := by
  have hne : Base64.toBase64Url bytes ≠ [] := by
    intro hnil
    have hlength := Base64.length_toBase64Url bytes
    have hpos := List.length_pos_of_ne_nil h
    rw [hnil, List.length_nil] at hlength
    omega
  have hchars : (Base64.toBase64Url bytes).all Base64.isUrlChar = true := List.all_eq_true.2 (Base64.isUrlChar_toBase64Url bytes)
  rw [fromBase64Url, if_pos (by simp [hne, hchars]), Base64.fromBase64Url_toBase64Url]

theorem dollar_not_mem (bytes : Bytes) : unit '$' ∉ Base64.toBase64Url bytes := by
  intro h
  have hurl := Base64.isUrlChar_toBase64Url bytes _ h
  revert hurl
  decide

theorem splitOn_passwordHashText (salt digest : Bytes) : (passwordHashText salt digest).splitOn (unit '$') =
    [units "pbkdf2-sha256", units (toString passwordIterations), Base64.toBase64Url salt, Base64.toBase64Url digest] := by
  have halgorithm : unit '$' ∉ units "pbkdf2-sha256" := by decide +kernel
  have hiterations : unit '$' ∉ units (toString passwordIterations) := by decide +kernel
  rw [passwordHashText, List.splitOn_append_cons_self_of_not_mem halgorithm,
    List.splitOn_append_cons_self_of_not_mem hiterations, List.splitOn_append_cons_self_of_not_mem (dollar_not_mem salt),
    List.splitOn_eq_singleton (dollar_not_mem digest)]

section
variable {salt digest : Bytes} {encoded : Text}

theorem parse_passwordHashText (hsalt : salt.length = 16) (hdigest : digest.length = 32) :
    parseAdminPasswordHash (passwordHashText salt digest) = .ok ⟨passwordIterations, salt, digest⟩ := by
  have hsaltBytes : fromBase64Url (Base64.toBase64Url salt) = some salt :=
    fromBase64Url_toBase64Url (List.ne_nil_of_length_pos (by omega))
  have hdigestBytes : fromBase64Url (Base64.toBase64Url digest) = some digest :=
    fromBase64Url_toBase64Url (List.ne_nil_of_length_pos (by omega))
  simp [parseAdminPasswordHash, splitOn_passwordHashText, hsaltBytes, hdigestBytes, hsalt, hdigest]

/-- There is one spelling of a hash. -/
theorem parse_cases (encoded : Text) : parseAdminPasswordHash encoded = .error invalidHash ∨
    ∃ salt digest : Bytes, salt.length = 16 ∧ digest.length = 32 ∧ encoded = passwordHashText salt digest := by
  unfold parseAdminPasswordHash
  split
  case h_2 => exact .inl rfl
  case h_1 algorithm iterations third fourth hparts =>
    split
    case isTrue => exact .inl rfl
    case isFalse hnames =>
      split
      case h_2 => exact .inl rfl
      case h_1 salt digest _ _ =>
        split
        case isTrue => exact .inl rfl
        case isFalse hbytes =>
          simp only [not_or, not_not] at hnames hbytes
          obtain ⟨hsalt, hdigest, rfl, rfl⟩ := hbytes
          refine .inr ⟨salt, digest, hsalt, hdigest, ?_⟩
          have hjoin : [unit '$'].intercalate (encoded.splitOn (unit '$')) = encoded := List.intercalate_splitOn _
          rw [hparts, hnames.1, hnames.2] at hjoin
          rw [← hjoin, passwordHashText]
          simp [List.intercalate, List.intersperse]

/-! ## Comparing all bytes -/

theorem foldl_difference (pairs : List (UInt8 × UInt8)) : ∀ d : UInt8,
    pairs.foldl (fun d pair => d ||| (pair.1 ^^^ pair.2)) d = 0 ↔ d = 0 ∧ ∀ pair ∈ pairs, pair.1 = pair.2 := by
  induction pairs with
  | nil => simp
  | cons pair rest ih =>
    intro d
    rw [List.foldl_cons, ih, UInt8.or_eq_zero_iff, UInt8.xor_eq_zero_iff, List.forall_mem_cons, and_assoc]

/-- No difference in any byte means none. -/
theorem difference_eq_zero {left right : Bytes} (h : left.length = right.length) : difference left right = 0 ↔ left = right := by
  rw [difference, foldl_difference]
  induction left generalizing right with
  | nil =>
    cases right with
    | nil => simp
    | cons => cases h
  | cons byte left ih =>
    cases right with
    | nil => cases h
    | cons other right =>
      have hrest := ih (Nat.succ.inj h)
      simp only [true_and] at hrest
      simp only [true_and, List.zip_cons_cons, List.forall_mem_cons, List.cons.injEq, hrest]

/-! ## Verifying a password -/

variable {deriveBits : Bytes → Bytes → Nat → Bytes}

theorem verify_passwordHashText (hbits : ∀ password salt, (deriveBits password salt passwordIterations).length = 32)
    (hsalt : salt.length = 16) (hdigest : digest.length = 32) (password : Text) :
    verifyAdminPassword deriveBits password (passwordHashText salt digest) =
      .ok (decide (derivePassword deriveBits password salt = digest)) := by
  have hderived : (derivePassword deriveBits password salt).length = 32 := hbits _ _
  have hsame := difference_eq_zero (hderived.trans hdigest.symm)
  rw [verifyAdminPassword, parse_passwordHashText hsalt hdigest]
  simp [bind, Except.bind, timingSafeEqual, hderived, hdigest, hsame]

theorem verify_error (h : parseAdminPasswordHash encoded = .error invalidHash) (password : Text) :
    verifyAdminPassword deriveBits password encoded = .error invalidHash := by
  rw [verifyAdminPassword, h]
  rfl

/-- What verifies a password is a hash of it. -/
theorem verify_eq_true (hbits : ∀ password salt, (deriveBits password salt passwordIterations).length = 32) {password : Text} :
    verifyAdminPassword deriveBits password encoded = .ok true ↔
      ∃ salt : Bytes, salt.length = 16 ∧ encoded = passwordHashText salt (derivePassword deriveBits password salt) := by
  constructor
  · intro h
    rcases parse_cases encoded with hinvalid | ⟨salt, digest, hsalt, hdigest, rfl⟩
    · rw [verify_error hinvalid] at h
      cases h
    · rw [verify_passwordHashText hbits hsalt hdigest] at h
      have hsame : derivePassword deriveBits password salt = digest := by simpa using h
      exact ⟨salt, hsalt, by rw [hsame]⟩
  · rintro ⟨salt, hsalt, rfl⟩
    have hderived : (derivePassword deriveBits password salt).length = 32 := hbits _ _
    rw [verify_passwordHashText hbits hsalt hderived]
    simp

theorem create_eq_ok {password : Text} : createAdminPasswordHash deriveBits password salt = .ok encoded ↔
    password ≠ [] ∧ salt.length = 16 ∧ encoded = passwordHashText salt (derivePassword deriveBits password salt) := by
  unfold createAdminPasswordHash
  split
  case isTrue h => simp; tauto
  case isFalse h =>
    rw [not_or, not_not] at h
    simp [h, eq_comm]

/-- A hash verifies the passwords it could have been created for: those whose bits are the same under its salt. A text
that could have been created for none is refused, and nothing else is. -/
theorem verified_as_created (hbits : ∀ password salt, (deriveBits password salt passwordIterations).length = 32) (encoded : Text) :
    (∀ password, password ≠ [] → (verifyAdminPassword deriveBits password encoded = .ok true ↔
      ∃ salt, createAdminPasswordHash deriveBits password salt = .ok encoded)) ∧
    (∀ password salt, createAdminPasswordHash deriveBits password salt = .ok encoded → ∀ other,
      verifyAdminPassword deriveBits other encoded =
        .ok (decide (derivePassword deriveBits other salt = derivePassword deriveBits password salt))) ∧
    (∀ password message, verifyAdminPassword deriveBits password encoded = .error message ↔ message = invalidHash ∧
      ∀ salt digest : Bytes, salt.length = 16 → digest.length = 32 → encoded ≠ passwordHashText salt digest) := by
  refine ⟨?_, ?_, ?_⟩
  · intro password hpassword
    rw [verify_eq_true hbits]
    simp only [create_eq_ok, hpassword, ne_eq, not_false_eq_true, true_and]
  · intro password salt hcreated other
    obtain ⟨-, hsalt, rfl⟩ := create_eq_ok.1 hcreated
    exact verify_passwordHashText hbits hsalt (hbits _ _) other
  · intro password message
    constructor
    · intro h
      rcases parse_cases encoded with hinvalid | ⟨salt, digest, hsalt, hdigest, rfl⟩
      · rw [verify_error hinvalid] at h
        refine ⟨(Except.error.inj h).symm, ?_⟩
        rintro salt digest hsalt hdigest rfl
        rw [parse_passwordHashText hsalt hdigest] at hinvalid
        cases hinvalid
      · rw [verify_passwordHashText hbits hsalt hdigest] at h
        cases h
    · rintro ⟨rfl, hother⟩
      rcases parse_cases encoded with hinvalid | ⟨salt, digest, hsalt, hdigest, hencoded⟩
      · exact verify_error hinvalid password
      · exact absurd hencoded (hother salt digest hsalt hdigest)

end

/-! ### A hash -/

def sampleSalt : Bytes := List.replicate 16 3

def sampleDigest : Bytes :=
  [136, 77, 123, 82, 232, 102, 200, 252, 86, 29, 181, 197, 184, 181, 255, 75,
    111, 60, 242, 114, 171, 254, 198, 168, 5, 235, 207, 118, 140, 197, 124, 152]

/-- What PBKDF2 gives for two passwords under that salt, and zeros elsewhere. -/
def sampleBits (password salt : Bytes) (iterations : Nat) : Bytes :=
  if salt = sampleSalt ∧ iterations = passwordIterations then
    if password = Utf8.encode (units "correct horse") then sampleDigest
    else if password = Utf8.encode (units "wrong") then
      [126, 238, 141, 99, 186, 213, 73, 171, 194, 203, 114, 71, 166, 151, 41, 120,
        151, 23, 31, 69, 190, 175, 187, 220, 241, 103, 217, 115, 68, 119, 214, 51]
    else List.replicate 32 0
  else List.replicate 32 0

theorem length_sampleBits (password salt : Bytes) : (sampleBits password salt passwordIterations).length = 32 := by
  unfold sampleBits
  split_ifs <;> rfl

theorem verified_as_created_sample :
    passwordHashText sampleSalt sampleDigest =
      units "pbkdf2-sha256$310000$AwMDAwMDAwMDAwMDAwMDAw$iE17UuhmyPxWHbXFuLX_S2888nKr_saoBevPdozFfJg" ∧
    verifyAdminPassword sampleBits (units "correct horse") (passwordHashText sampleSalt sampleDigest) = .ok true ∧
    verifyAdminPassword sampleBits (units "wrong") (passwordHashText sampleSalt sampleDigest) = .ok false := by
  have hcreated : createAdminPasswordHash sampleBits (units "correct horse") sampleSalt =
      .ok (passwordHashText sampleSalt sampleDigest) := by
    have hbits : derivePassword sampleBits (units "correct horse") sampleSalt = sampleDigest := by decide +kernel
    have hpassword : units "correct horse" ≠ [] := by decide +kernel
    exact create_eq_ok.2 ⟨hpassword, rfl, by rw [hbits]⟩
  have hall := verified_as_created length_sampleBits (passwordHashText sampleSalt sampleDigest)
  refine ⟨by decide +kernel, (hall.1 _ (by decide +kernel)).2 ⟨sampleSalt, hcreated⟩, ?_⟩
  rw [hall.2.1 _ _ hcreated]
  decide +kernel

end Hyeboard.AdminLogin
