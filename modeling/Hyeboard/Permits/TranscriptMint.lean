import Hyeboard.Permits.Transcript
import Hyeboard.Permits.Envelopes
/-!
# Permits for a transcript

The route mints for every row that has both selectors, and waits for all of the mints:
one that rejects takes the transcript with it. The parser takes digits of any length
where the envelope has bounds.
-/

namespace Hyeboard.Permits

open Tokens Transcript

/-- The selectors of a row, when it has both. -/
def selectorsOf (row : TranscriptRow) : Option (Text × Text) :=
  match row.classId, row.termOrdinal with
  | some classId, some termOrdinal => if classId != [] && termOrdinal != [] then some (classId, termOrdinal) else none
  | _, _ => none

/-- What the route mints, in the order of the page. -/
def permitInputs (targetStdId transcriptHtml : Text) : List MintInput :=
  (parseTranscriptHtml transcriptHtml).flatMap fun term => term.rows.filterMap fun row =>
    (selectorsOf row).map fun (classId, termOrdinal) => ⟨targetStdId, transcriptHtml, ⟨row.courseCode, classId, termOrdinal⟩⟩

/-! ## Selectors from a page -/

/-- A selector is digits. -/
def IsDigits (t : Text) : Prop := t ≠ [] ∧ ∀ u ∈ t, Regex.isDigitUnit u = true

/-- The selectors of a row are digits, where it has them. -/
def RowOk (row : TranscriptRow) : Prop := (∀ t, row.classId = some t → IsDigits t) ∧ ∀ t, row.termOrdinal = some t → IsDigits t

theorem isDigits_digitsOf {selector : Option Text} {t : Text} (h : digitsOf selector = some t) : IsDigits t := by
  unfold digitsOf at h
  split at h
  case h_2 => cases h
  case h_1 =>
    split at h
    case isFalse => cases h
    case isTrue hdigits =>
      cases h
      rw [Bool.and_eq_true] at hdigits
      exact Regex.all_of_test hdigits.2

theorem rows_addRow {row : TranscriptRow} {terms : List Term} (hrow : RowOk row) (h : ∀ term ∈ terms, ∀ row ∈ term.rows, RowOk row) :
    ∀ term ∈ addRow row terms, ∀ row ∈ term.rows, RowOk row := by
  fun_induction addRow row terms with
  | case1 => exact h
  | case2 term =>
    simp only [List.forall_mem_singleton, List.forall_mem_append] at h ⊢
    exact ⟨h, hrow⟩
  | case3 term terms _ ih =>
    rw [List.forall_mem_cons] at h ⊢
    exact ⟨h.1, ih h.2⟩

theorem rows_readTr {terms : List Term} (rowHtml : Text) (h : ∀ term ∈ terms, ∀ row ∈ term.rows, RowOk row) :
    ∀ term ∈ readTr terms rowHtml, ∀ row ∈ term.rows, RowOk row := by
  unfold readTr
  simp only
  split
  · exact h
  · split
    · rw [List.forall_mem_append]
      exact ⟨h, by simp⟩
    · split
      · exact rows_addRow ⟨fun t ht => isDigits_digitsOf ht, fun t ht => isDigits_digitsOf ht⟩ h
      · exact h

theorem rows_parseTranscriptHtml (html : Text) : ∀ term ∈ parseTranscriptHtml html, ∀ row ∈ term.rows, RowOk row := by
  have hfold : ∀ (found : List Regex.Found) (terms : List Term), (∀ term ∈ terms, ∀ row ∈ term.rows, RowOk row) →
      ∀ term ∈ found.foldl (fun terms m => readTr terms ((m.group 1).getD [])) terms, ∀ row ∈ term.rows, RowOk row := by
    intro found
    induction found with
    | nil => exact fun _ h => h
    | cons m rest ih => exact fun terms h => ih _ (rows_readTr _ h)
  exact hfold _ [] (List.forall_mem_nil _)

/-- What is minted is for the target, with digits as selectors. -/
theorem input_ok {targetStdId html : Text} {input : MintInput} (h : input ∈ permitInputs targetStdId html) :
    input.targetStdId = targetStdId ∧ IsDigits input.row.classId ∧ IsDigits input.row.termOrdinal := by
  obtain ⟨term, hterm, hinput⟩ := List.mem_flatMap.1 h
  obtain ⟨row, hrow, hmap⟩ := List.mem_filterMap.1 hinput
  obtain ⟨selectors, hselectors, rfl⟩ := Option.map_eq_some_iff.1 hmap
  have hok := rows_parseTranscriptHtml html term hterm row hrow
  unfold selectorsOf at hselectors
  split at hselectors
  case h_2 => cases hselectors
  case h_1 classId termOrdinal hclassId htermOrdinal =>
    split at hselectors
    case isFalse => cases hselectors
    case isTrue =>
      cases hselectors
      exact ⟨rfl, hok.1 classId hclassId, hok.2 termOrdinal htermOrdinal⟩

theorem digit_facts : ∀ n < 0x80, Regex.isDigitUnit (UInt16.ofNat n) = true → isSpaceUnit (UInt16.ofNat n) = false := by decide +kernel

theorem digit_unspaced {u : UInt16} (h : Regex.isDigitUnit u = true) : isSpaceUnit u = false := by
  have hlt := Json.isPlain_lt (isPlain_digit h)
  have hfacts := digit_facts u.toNat hlt
  rw [UInt16.ofNat_toNat] at hfacts
  exact hfacts h

/-- Of digits, only the length is in question. -/
theorem isUnspaced_digits {t : Text} {limit : Nat} (h : IsDigits t) : isUnspaced limit t = true ↔ t.length ≤ limit := by
  have hpos := List.length_pos_iff.2 h.1
  have hspaces : (t.all fun u => ! isSpaceUnit u) = true := by
    rw [List.all_eq_true]
    intro u hu
    rw [digit_unspaced (h.2 u hu)]
    rfl
  simp only [isUnspaced, hspaces, Bool.and_true, Bool.and_eq_true, decide_eq_true_eq]
  omega

/-! ## Mints for one target -/

section
variable {Key : Type} {crypto : WebCrypto Key} {options : MinterOptions} {target : Text}

/-- Digits, and not too many. -/
def FitsDigits (limit : Nat) (t : Text) : Prop := IsDigits t ∧ t.length ≤ limit

/-- The envelope of the row can be sealed. -/
def Fits (input : MintInput) : Prop :=
  FitsDigits 11 input.targetStdId ∧ input.row.classId.length ≤ 32 ∧ input.row.termOrdinal.length ≤ 16

/-- A row of a page for the target, with random bytes for its mint. -/
structure CallOk (target : Text) (call : MintInput × MintDraw) : Prop where
  target : call.1.targetStdId = target
  classId : IsDigits call.1.row.classId
  termOrdinal : IsDigits call.1.row.termOrdinal
  draw : call.2.Ok

theorem isStdId_iff {t : Text} : isStdId t = true ↔ FitsDigits 11 t := by
  have hchars : t.all Json.isDigit = true ↔ ∀ u ∈ t, Regex.isDigitUnit u = true := List.all_eq_true
  simp only [isStdId, FitsDigits, IsDigits, Bool.and_eq_true, decide_eq_true_eq, hchars, ← List.length_pos_iff, Nat.succ_le_iff]
  tauto

theorem selectorOk_iff {call : MintInput × MintDraw} (h : CallOk target call) : SelectorOk call.1 ↔ Fits call.1 := by
  rw [SelectorOk, isStdId_iff, isUnspaced_digits h.classId, isUnspaced_digits h.termOrdinal, Fits]

theorem sealedOf_page (htag : crypto.HasTag) (hsigns : SignsThirtyTwo crypto) (hsecret : 32 ≤ options.secret.length)
    {call : MintInput × MintDraw} (h : CallOk target call) :
    (∃ envelope, sealedOf crypto options call.1 call.2 = .ok envelope) ↔ Fits call.1 := by
  rw [← selectorOk_iff h]
  simp only [sealedOf_eq_ok hsigns h.draw]
  constructor
  · rintro ⟨envelope, -, hselector, -⟩
    exact hselector
  · intro hselector
    exact ⟨_, hsecret, hselector, rfl, length_sealed htag hsigns h.draw hselector (fun u hu => isPlain_digit (h.classId.2 u hu))
      fun u hu => isPlain_digit (h.termOrdinal.2 u hu)⟩

/-- Only this target has permits. -/
def Minter.For (minter : Minter) (target : Text) : Prop := minter.targets = [] ∨ minter.targets = [target]

theorem full_iff {minter : Minter} (hfor : minter.For target) (htargets : 0 < options.maxTargets) {input : MintInput}
    (htarget : input.targetStdId = target) : minter.full options input = true ↔ options.maxRows ≤ minter.issued.length := by
  rw [Minter.full, htarget]
  rcases hfor with hnone | hone
  · simp [hnone]
    omega
  · simp [hone]

/-- Nothing is rejected exactly when the rows for which a permit is left fit. -/
theorem mintAll_ok_iff (htag : crypto.HasTag) (hsigns : SignsThirtyTwo crypto) (hsecret : 32 ≤ options.secret.length)
    (htargets : 0 < options.maxTargets) (calls : List (MintInput × MintDraw))
    (hcalls : ∀ call ∈ calls, CallOk target call) (minter : Minter) (hfor : minter.For target) :
    (∀ answer ∈ (minter.mintAll crypto options calls).1, ∃ permit, answer = .ok permit) ↔
      ∀ input ∈ (calls.map Prod.fst).take (options.maxRows - minter.issued.length), Fits input := by
  induction calls generalizing minter with
  | nil => simp [Minter.mintAll]
  | cons call rest ih =>
    obtain ⟨hcall, hrest⟩ := List.forall_mem_cons.1 hcalls
    rw [Minter.mintAll]
    simp only [List.forall_mem_cons]
    by_cases hfull : minter.full options call.1 = true
    · -- no permit is left, for any row
      have hzero : options.maxRows - minter.issued.length = 0 := by
        have hrows := (full_iff hfor htargets hcall.target).1 hfull
        omega
      have hmint : minter.mint crypto options call.1 call.2 = (.ok none, minter) := if_pos hfull
      rw [hmint, ih hrest minter hfor, hzero]
      simp
    · have hleft : options.maxRows - minter.issued.length = options.maxRows - (minter.issued.length + 1) + 1 := by
        have hrows := mt (full_iff hfor htargets hcall.target).2 hfull
        omega
      rw [hleft, List.map_cons, List.take_succ_cons, List.forall_mem_cons, ← sealedOf_page htag hsigns hsecret hcall]
      cases hsealed : sealedOf crypto options call.1 call.2 with
      | error e =>
        have hmint : minter.mint crypto options call.1 call.2 = (.error e, minter) := by
          rw [Minter.mint, if_neg hfull, hsealed]
        simp [hmint]
      | ok envelope =>
        have hmint : minter.mint crypto options call.1 call.2 = (.ok (some (encodeHex call.2.permitId ++ unit '.' :: envelope)),
            ⟨minter.issued ++ [issuedOf crypto options call.1 call.2 envelope],
              if call.1.targetStdId ∈ minter.targets then minter.targets else minter.targets ++ [call.1.targetStdId]⟩) := by
          rw [Minter.mint, if_neg hfull, hsealed]
        have hfor' : Minter.For ⟨minter.issued ++ [issuedOf crypto options call.1 call.2 envelope],
            if call.1.targetStdId ∈ minter.targets then minter.targets else minter.targets ++ [call.1.targetStdId]⟩ target := by
          rw [Minter.For, hcall.target]
          rcases hfor with hnone | hone
          · simp [hnone]
          · simp [hone]
        rw [hmint, ih hrest _ hfor', List.length_append, List.length_singleton]
        simp

end

/-! ## A page with a long class id -/

/-- A term with one course, and a `detailPoint` call of the given selectors. -/
def samplePage (classId termOrdinal : String) : Text :=
  units ("<tr><td>MÃ HỌC KỲ 251</td></tr><tr><td>1</td><td>INT1001</td><td>x</td><td>3</td><td>8</td><td>B</td><td onclick=\"detailPoint('" ++
    classId ++ "','','','" ++ termOrdinal ++ "')\">3</td></tr>")

def longPage : Text := samplePage "111111111111111111111111111111111" "1"

def sampleOptions : MinterOptions :=
  { secret := sampleSecret, requesterToken := units "token", maxTargets := 50, maxRows := 200, permitTtlSeconds := 1200 }

def sampleDraw : MintDraw := ⟨List.replicate 16 1, List.replicate 16 2, sampleIv, 1767225600000⟩

theorem sampleDraw_ok : sampleDraw.Ok := ⟨rfl, rfl, by decide⟩

theorem keylessCrypto_signs : SignsThirtyTwo keylessCrypto := fun _ _ => rfl

def longInput : MintInput :=
  ⟨units "20020001", longPage, ⟨units "INT1001", units "111111111111111111111111111111111", units "1"⟩⟩

/-- The mints of a transcript all settle with a permit or without one, exactly when each of the first `maxRows` rows with selectors
can be sealed: the target's id has at most 11 digits and the selectors at most 32 and 16. -/
theorem transcript_minted_iff {Key : Type} (crypto : WebCrypto Key) (htag : crypto.HasTag) (hsigns : SignsThirtyTwo crypto)
    (options : MinterOptions) (hsecret : 32 ≤ options.secret.length) (htargets : 0 < options.maxTargets) (targetStdId transcriptHtml : Text)
    (calls : List (MintInput × MintDraw))
    (hcalls : calls.map Prod.fst = permitInputs targetStdId transcriptHtml) (hdraws : ∀ call ∈ calls, call.2.Ok) :
    (∀ answer ∈ (Minter.start.mintAll crypto options calls).1, ∃ permit, answer = .ok permit) ↔
      ∀ input ∈ (permitInputs targetStdId transcriptHtml).take options.maxRows,
        FitsDigits 11 targetStdId ∧ input.row.classId.length ≤ 32 ∧ input.row.termOrdinal.length ≤ 16 := by
  have hpage : ∀ call ∈ calls, CallOk targetStdId call := by
    intro call hcall
    have hinput : call.1 ∈ permitInputs targetStdId transcriptHtml := hcalls ▸ List.mem_map_of_mem hcall
    obtain ⟨htarget, hclassId, htermOrdinal⟩ := input_ok hinput
    exact ⟨htarget, hclassId, htermOrdinal, hdraws call hcall⟩
  rw [mintAll_ok_iff htag hsigns hsecret htargets calls hpage Minter.start (.inl rfl), hcalls]
  apply forall₂_congr
  intro input hinput
  rw [Fits, (input_ok (List.mem_of_mem_take hinput)).1]

/-- A class id of 33 digits: its row is minted for. -/
theorem permitInputs_longPage : permitInputs (units "20020001") longPage = [longInput] := by decide +kernel

theorem transcript_minted_iff_sample :
    (∀ answer ∈ (Minter.start.mintAll keylessCrypto sampleOptions [(longInput, sampleDraw)]).1, ∃ permit, answer = .ok permit) ↔
      ∀ input ∈ (permitInputs (units "20020001") longPage).take 200,
        FitsDigits 11 (units "20020001") ∧ input.row.classId.length ≤ 32 ∧ input.row.termOrdinal.length ≤ 16 := by
  have hinputs : ([(longInput, sampleDraw)].map Prod.fst) = permitInputs (units "20020001") longPage := permitInputs_longPage.symm
  exact transcript_minted_iff keylessCrypto keylessCrypto_hasTag keylessCrypto_signs sampleOptions (by decide) (by decide) _ _
    _ hinputs (by simpa using sampleDraw_ok)

/-- The row is minted for, and the mint rejects. -/
theorem transcript_rejected : permitInputs (units "20020001") longPage = [longInput] ∧
    (Minter.start.mintAll keylessCrypto sampleOptions [(longInput, sampleDraw)]).1 = [.error invalidVnuCrossDetailPermit] := by
  constructor
  · exact permitInputs_longPage
  · decide +kernel

end Hyeboard.Permits
