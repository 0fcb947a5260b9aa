import Mathlib.Data.List.Forall2
import Hyeboard.Lib.Csv
import Hyeboard.Export.DataExport
/-!
# The table of an export

`serializeExportCsv`: a header and the rows, each field as text that no spreadsheet takes
for a formula. A reader of CSV files finds the header and one record for each row.
-/

namespace Hyeboard.Export

/-- The headers whose values are identifiers, which are never taken for numbers. -/
def isIdentifier (header : CsvHeader) : Bool :=
  header ∈ [.queryValue, .target, .universityId, .studentCode, .internalStudentId, .managingClass, .classCode, .classNumber, .classId,
    .resolvedStudentCode, .resolvedInternalStudentId, .termCode, .courseCode]

/-- Tabs, line breaks and spaces. -/
def isGap (u : UInt16) : Bool := u == 9 || u == 13 || u == 10 || u == 32

/-- `FORMULA_LIKE_TEXT`. -/
def isFormulaLike (t : Text) : Bool := (t.dropWhile isGap).head?.any fun u => u == unit '=' || u == unit '+' || u == unit '-' || u == unit '@'

def cellText (header : CsvHeader) : Option CsvValue → Text
  | none => []
  | some (.number value) => value.text
  | some (.text value) => if isIdentifier header || isFormulaLike value then unit '\'' :: value else value

def encodeCsvField (header : CsvHeader) (value : Option CsvValue) : Text := Csv.encode (cellText header value)

def serializeRow (row : CsvRow) : Text := [Csv.comma].intercalate (csvHeaders.map fun header => encodeCsvField header (row header))

def serializeExportCsv (model : ExportDocument) : Except Text Text := do
  let sanitizedModel ← sanitizeExportDocument model
  let header := [Csv.comma].intercalate (csvHeaders.map fun header => units header.name)
  let lines := header :: (createCsvRows sanitizedModel).map serializeRow
  .ok (0xfeff :: [Csv.carriageReturn, Csv.lineFeed].intercalate lines ++ [Csv.carriageReturn, Csv.lineFeed])

/-! ## What a reader finds -/

/-- Behind tabs, line breaks and spaces, a text that a spreadsheet takes for a formula. -/
def StartsFormula (t : Text) : Prop :=
  ∃ gaps mark rest, t = gaps ++ mark :: rest ∧ (∀ u ∈ gaps, u ∈ units "\t\r\n ") ∧ mark ∈ units "=+-@"

/-- The columns of codes and numbers that stand for somebody or something. -/
def identifierColumns : List String :=
  ["query_value", "target", "university_id", "student_code", "internal_student_id", "managing_class", "class_code", "class_number",
    "class_id", "resolved_student_code", "resolved_internal_student_id", "term_code", "course_code"]

/-- The cell of a value. -/
def CellOk (header : CsvHeader) : Option CsvValue → Text → Prop
  | none, cell => cell = []
  | some (.number value), cell => cell = value.text
  | some (.text value), cell =>
    (cell = value ∨ cell = unit '\'' :: value) ∧ (header.name ∈ identifierColumns → cell = unit '\'' :: value) ∧ ¬ StartsFormula cell

theorem isIdentifier_iff (header : CsvHeader) : isIdentifier header = true ↔ header.name ∈ identifierColumns := by
  cases header <;> decide

theorem isGap_iff (u : UInt16) : isGap u = true ↔ u ∈ units "\t\r\n " := by
  have hgaps : units "\t\r\n " = [9, 13, 10, 32] := by decide
  simp [isGap, hgaps, or_assoc]

theorem isFormulaLike_iff (t : Text) : isFormulaLike t = true ↔ StartsFormula t := by
  have hmarks : units "=+-@" = [unit '=', unit '+', unit '-', unit '@'] := by decide
  constructor
  · intro h
    rw [isFormulaLike, Option.any_eq_true] at h
    obtain ⟨mark, hhead, hmark⟩ := h
    obtain ⟨rest, hrest⟩ := List.head?_eq_some_iff.1 hhead
    refine ⟨t.takeWhile isGap, mark, rest, ?_, fun u hu => (isGap_iff u).1 (List.mem_takeWhile_imp hu), ?_⟩
    · rw [← hrest, List.takeWhile_append_dropWhile]
    · simpa [hmarks, or_assoc] using hmark
  · rintro ⟨gaps, mark, rest, rfl, hgaps, hmark⟩
    have hmark' : isGap mark = false ∧ (mark == unit '=' || mark == unit '+' || mark == unit '-' || mark == unit '@') = true := by
      rw [hmarks] at hmark
      simp only [List.mem_cons, List.not_mem_nil, or_false] at hmark
      rcases hmark with rfl | rfl | rfl | rfl <;> decide
    rw [isFormulaLike, List.dropWhile_append_of_pos fun u hu => (isGap_iff u).2 (hgaps u hu), List.dropWhile_cons_of_neg (by simp [hmark'.1])]
    exact hmark'.2

theorem cellText_ok (header : CsvHeader) (value : Option CsvValue) : CellOk header value (cellText header value) := by
  match value with
  | none => rfl
  | some (.number value) => rfl
  | some (.text value) =>
    have hquoted : isFormulaLike (unit '\'' :: value) = false := by
      rw [isFormulaLike, List.dropWhile_cons, if_neg (by decide), List.head?_cons, Option.any_some]
      decide
    simp only [CellOk, cellText, ← isIdentifier_iff, ← isFormulaLike_iff, Bool.not_eq_true]
    split
    case isTrue => exact ⟨.inr rfl, fun _ => rfl, hquoted⟩
    case isFalse hplain =>
      rw [Bool.or_eq_true, not_or, Bool.not_eq_true, Bool.not_eq_true] at hplain
      refine ⟨.inl rfl, fun hidentifier => ?_, hplain.2⟩
      rw [hplain.1] at hidentifier
      cases hidentifier

theorem headers_plain : ∀ header ∈ csvHeaders, (units header.name).any Csv.isSpecial = false := by decide +kernel

/-- The lines of a file, each with its line break. -/
theorem intercalate_append {sep : Text} (line : Text) (lines : List Text) :
    sep.intercalate (line :: lines) ++ sep = (line :: lines).flatMap (· ++ sep) := by
  induction lines generalizing line with
  | nil => simp
  | cons next lines ih =>
    have hsplit : sep.intercalate (line :: next :: lines) = line ++ sep ++ sep.intercalate (next :: lines) := by simp [List.intercalate]
    rw [hsplit, List.append_assoc, ih next]
    rfl

/-- The header and the rows, as the records that are read. -/
def csvRecords (sanitizedModel : ExportDocument) : List (List Text) :=
  csvHeaders.map (fun header => units header.name) ::
    (createCsvRows sanitizedModel).map fun row => csvHeaders.map fun header => cellText header (row header)

theorem csvRecords_ne_nil (sanitizedModel : ExportDocument) : ∀ fields ∈ csvRecords sanitizedModel, fields ≠ [] := by
  rw [csvRecords, List.forall_mem_cons]
  refine ⟨by simp [csvHeaders], fun record hrecord => ?_⟩
  obtain ⟨row, -, rfl⟩ := List.mem_map.1 hrecord
  simp [csvHeaders]

theorem serializeExportCsv_eq (model : ExportDocument) :
    serializeExportCsv model = (sanitizeExportDocument model).map fun sanitizedModel => 0xfeff :: Csv.encodeRecords (csvRecords sanitizedModel) := by
  have hnames : csvHeaders.map (fun header => units header.name) = csvHeaders.map (Csv.encode ∘ fun header => units header.name) := by
    apply List.map_congr_left
    intro header hmem
    rw [Function.comp, Csv.encode, headers_plain header hmem]
    rfl
  have hheader : [Csv.comma].intercalate (csvHeaders.map fun header => units header.name) =
      Csv.encodeRecord (csvHeaders.map fun header => units header.name) := by
    rw [Csv.encodeRecord, List.map_map]
    exact congrArg _ hnames
  unfold serializeExportCsv
  cases sanitizeExportDocument model with
  | error e => rfl
  | ok sanitizedModel =>
    have hlines : [Csv.carriageReturn, Csv.lineFeed].intercalate
          ([Csv.comma].intercalate (csvHeaders.map fun header => units header.name) :: (createCsvRows sanitizedModel).map serializeRow) ++
        [Csv.carriageReturn, Csv.lineFeed] = Csv.encodeRecords (csvRecords sanitizedModel) := by
      have hrow : ∀ row : CsvRow, serializeRow row = Csv.encodeRecord (csvHeaders.map fun header => cellText header (row header)) := by
        intro row
        rw [Csv.encodeRecord, List.map_map]
        rfl
      rw [intercalate_append, Csv.encodeRecords, csvRecords, List.flatMap_cons, List.flatMap_cons, List.flatMap_map, List.flatMap_map, hheader]
      simp only [hrow]
    simp only [bind, Except.bind, Except.map, List.cons_append, hlines]

/-! ## Documents that are written -/

def ExportItem.isBulk : ExportItem → Bool
  | .result _ => false
  | .ok _ _ | .error _ _ => true

theorem copyBulkResults_ok_iff (index : Nat) (items : List ExportItem) :
    (∃ copies, copyBulkResults index items = .ok copies) ↔ ∀ item ∈ items, item.isBulk = true := by
  induction items generalizing index with
  | nil => exact ⟨fun _ => List.forall_mem_nil _, fun _ => ⟨[], rfl⟩⟩
  | cons item items ih =>
    rw [List.forall_mem_cons, ← ih (index + 1)]
    rw [copyBulkResults]
    cases item with
    | result result => simp [copyBulkResult, ExportItem.isBulk, bind, Except.bind]
    | ok target result =>
      cases copyBulkResults (index + 1) items <;> simp [copyBulkResult, ExportItem.isBulk, bind, Except.bind]
    | error target errorCode =>
      cases copyBulkResults (index + 1) items <;> simp [copyBulkResult, ExportItem.isBulk, bind, Except.bind]

/-- A document is written unless a bulk surface has a result that is none of a bulk run. -/
theorem sanitize_ok_iff (model : ExportDocument) : (∃ sanitizedModel, sanitizeExportDocument model = .ok sanitizedModel) ↔
    (isBulkSurface model.surface = true → ∀ item ∈ model.results.getD [], item.isBulk = true) := by
  have hresults : (∃ sanitizedModel, sanitizeExportDocument model = .ok sanitizedModel) ↔
      ∃ results, copyDocumentResults model.surface model.results = .ok results := by
    unfold sanitizeExportDocument
    cases copyDocumentResults model.surface model.results <;> simp [bind, Except.bind]
  rw [hresults]
  cases hitems : model.results with
  | none => simp [copyDocumentResults]
  | some items =>
    by_cases hbulk : isBulkSurface model.surface = true
    · simp only [copyDocumentResults, hbulk, if_true, Option.getD_some, true_imp_iff]
      rw [← copyBulkResults_ok_iff 0 items]
      cases copyBulkResults 0 items <;> simp [Except.map]
    · simp [copyDocumentResults, hbulk]

/-- An export is written exactly when its bulk surface, if it has one, has bulk results; and it is read back as the header and one
record for each row, with a cell for each header that is the value, or the value behind an apostrophe, and no formula. -/
theorem csv_read_back (model : ExportDocument) :
    ((∃ text, serializeExportCsv model = .ok text) ↔
      (isBulkSurface model.surface = true → ∀ item ∈ model.results.getD [], item.isBulk = true)) ∧
    ∀ text, serializeExportCsv model = .ok text → ∃ sanitizedModel body records,
      sanitizeExportDocument model = .ok sanitizedModel ∧ text = 0xfeff :: body ∧
      Csv.read body = some (csvHeaders.map (fun header => units header.name) :: records) ∧
      List.Forall₂ (fun (row : CsvRow) record => record.length = 34 ∧
        List.Forall₂ (fun header cell => CellOk header (row header) cell) csvHeaders record) (createCsvRows sanitizedModel) records := by
  constructor
  · rw [← sanitize_ok_iff, serializeExportCsv_eq]
    cases sanitizeExportDocument model <;> simp [Except.map]
  · intro text htext
    rw [serializeExportCsv_eq] at htext
    cases hmodel : sanitizeExportDocument model with
    | error e =>
      rw [hmodel] at htext
      cases htext
    | ok sanitizedModel =>
      rw [hmodel] at htext
      cases htext
      refine ⟨sanitizedModel, _, _, rfl, rfl, Csv.read_encodeRecords (csvRecords_ne_nil sanitizedModel), ?_⟩
      rw [List.forall₂_map_right_iff]
      apply List.forall₂_same.2
      intro row _
      refine ⟨by rw [List.length_map]; rfl, ?_⟩
      rw [List.forall₂_map_right_iff]
      apply List.forall₂_same.2
      intro header _
      exact cellText_ok header (row header)

/-- A name like a formula, with a quote and a comma in it, and a target that starts with a space and a minus sign. -/
def sampleDocument : ExportDocument where
  surface := .bulkIdToCode
  universityId := units "vnu"
  query := none
  run := none
  identity := some ⟨some (units "20020001"), none, some (units "=1+\"a\",b"), none⟩
  reported := none
  derivedTerms := none
  results := some [.error (units " -20020002") (units "VNU_NOT_FOUND")]

def identityCells : CsvHeader → Text
  | .recordType => units "identity"
  | .surface => units "bulk-id-to-code"
  | .universityId => units "'vnu"
  | .studentCode => units "'20020001"
  | .studentName => units "'=1+\"a\",b"
  | _ => []

def itemCells : CsvHeader → Text
  | .recordType => units "item"
  | .surface => units "bulk-id-to-code"
  | .itemIndex => units "1"
  | .status => units "error"
  | .errorCode => units "VNU_NOT_FOUND"
  | .target => units "' -20020002"
  | .universityId => units "'vnu"
  | _ => []

theorem csv_read_back_sample : ∃ text, serializeExportCsv sampleDocument = .ok text ∧
    Csv.read text.tail = some [csvHeaders.map fun header => units header.name, csvHeaders.map identityCells, csvHeaders.map itemCells] := by
  have hbulk : isBulkSurface sampleDocument.surface = true → ∀ item ∈ sampleDocument.results.getD [], item.isBulk = true := by
    rintro - item hitem
    rw [List.mem_singleton.1 hitem]
    rfl
  have hrows : (sanitizeExportDocument sampleDocument).map
      (fun model => (createCsvRows model).map fun row => csvHeaders.map fun header => cellText header (row header)) =
        .ok [csvHeaders.map identityCells, csvHeaders.map itemCells] := by
    decide +kernel
  obtain ⟨text, htext⟩ := (csv_read_back sampleDocument).1.2 hbulk
  refine ⟨text, htext, ?_⟩
  rw [serializeExportCsv_eq] at htext
  cases hmodel : sanitizeExportDocument sampleDocument with
  | error e =>
    rw [hmodel] at htext
    cases htext
  | ok sanitizedModel =>
    rw [hmodel] at htext
    cases htext
    rw [hmodel, Except.map, Except.ok.injEq] at hrows
    rw [List.tail_cons, Csv.read_encodeRecords (csvRecords_ne_nil sanitizedModel), csvRecords, hrows]

end Hyeboard.Export
