import Hyeboard.Lib.NumberText
/-!
# Export documents

What the web app exports (`lib/export/data-export.ts`): the document, the copy of it that
is written, and the rows of the table that it becomes.
-/

namespace Hyeboard.Export

inductive ExportSurface where
  | classForward
  | classReverse
  | studentIdToCode
  | studentCodeToId
  | gradesTerm
  | gradesPage
  | crossTranscript
  | bulkIdToCode
  | bulkCodeToId
  | bulkIdToTranscript
deriving DecidableEq

def ExportSurface.text : ExportSurface → Text
  | .classForward => units "class-forward"
  | .classReverse => units "class-reverse"
  | .studentIdToCode => units "student-id-to-code"
  | .studentCodeToId => units "student-code-to-id"
  | .gradesTerm => units "grades-term"
  | .gradesPage => units "grades-page"
  | .crossTranscript => units "cross-transcript"
  | .bulkIdToCode => units "bulk-id-to-code"
  | .bulkCodeToId => units "bulk-code-to-id"
  | .bulkIdToTranscript => units "bulk-id-to-transcript"

/-- `complete`, or not all of it. -/
inductive RunStatus where
  | complete
  | incomplete

def RunStatus.text : RunStatus → Text
  | .complete => units "complete"
  | .incomplete => units "partial"

structure ExportQuery where
  mode : Text
  value : Text

structure ExportIdentity where
  studentCode : Option Text
  internalStudentId : Option Text
  studentName : Option Text
  managingClass : Option Text

structure ExportReported where
  cumulativeGpa4 : Option JsNumber
  totalCredits : Option JsNumber
  accumulatedCredits : Option JsNumber

structure ExportCourse where
  courseCode : Text
  courseName : Text
  credits : Option JsNumber
  point10 : Option JsNumber
  letter : Option Text
  point4 : Option JsNumber

/-- Its `estimateKind` is always `derived`. -/
structure ExportDerivedTerm where
  termCode : Text
  termLabel : Text
  listedCredits : JsNumber
  includedCredits : JsNumber
  termGpa4 : Option JsNumber
  derivedCpa4 : Option JsNumber
  courses : List ExportCourse

structure ExportClassResult where
  classCode : Text
  classNumber : Option Text
  classId : Text
  courseName : Option Text

structure ExportResolverResult where
  resolvedStudentCode : Text
  resolvedInternalStudentId : Text
  probes : JsNumber

structure ExportResult where
  identity : Option ExportIdentity
  classResult : Option ExportClassResult
  resolver : Option ExportResolverResult
  reported : Option ExportReported
  derivedTerms : Option (List ExportDerivedTerm)

/-- A result by itself, or one of a bulk run with its target. -/
inductive ExportItem where
  | result (result : ExportResult)
  | ok (target : Text) (result : ExportResult)
  | error (target errorCode : Text)

structure ExportRun where
  status : RunStatus
  mode : Text
  processedCount : JsNumber
  totalCount : JsNumber

structure ExportDocument where
  surface : ExportSurface
  universityId : Text
  query : Option ExportQuery
  run : Option ExportRun
  identity : Option ExportIdentity
  reported : Option ExportReported
  derivedTerms : Option (List ExportDerivedTerm)
  results : Option (List ExportItem)

/-! ## The copy -/

/-- An identity without any field is left out. -/
def copyIdentity (input : Option ExportIdentity) : Option ExportIdentity :=
  input.filter fun value =>
    value.studentCode.isSome || value.internalStudentId.isSome || value.studentName.isSome || value.managingClass.isSome

def copyReported (input : Option ExportReported) : Option ExportReported :=
  input.filter fun value => value.cumulativeGpa4.isSome || value.totalCredits.isSome || value.accumulatedCredits.isSome

/-- All the other fields are taken as they are. -/
def copyResult (input : ExportResult) : ExportResult :=
  { input with identity := copyIdentity input.identity, reported := copyReported input.reported }

/-- Of an item of a bulk run none of the fields is there. -/
def copyNonBulkResult : ExportItem → ExportResult
  | .result result => copyResult result
  | .ok _ _ | .error _ _ => copyResult ⟨none, none, none, none, none⟩

def invalidResult (index : Nat) : Text := units "Invalid bulk export result at index " ++ (JsNumber.ofNat index).text

def copyBulkResult (index : Nat) : ExportItem → Except Text ExportItem
  | .result _ => .error (invalidResult index)
  | .error target errorCode => .ok (.error target errorCode)
  | .ok target result => .ok (.ok target (copyResult result))

def isBulkSurface (surface : ExportSurface) : Bool := surface ∈ [.bulkIdToCode, .bulkCodeToId, .bulkIdToTranscript]

def copyBulkResults (index : Nat) : List ExportItem → Except Text (List ExportItem)
  | [] => .ok []
  | item :: items => do
    let copy ← copyBulkResult index item
    let copies ← copyBulkResults (index + 1) items
    .ok (copy :: copies)

def copyDocumentResults (surface : ExportSurface) : Option (List ExportItem) → Except Text (Option (List ExportItem))
  | none => .ok none
  | some results =>
    if isBulkSurface surface then (copyBulkResults 0 results).map some
    else .ok (some (results.map fun item => .result (copyNonBulkResult item)))

def sanitizeExportDocument (model : ExportDocument) : Except Text ExportDocument := do
  let results ← copyDocumentResults model.surface model.results
  .ok { model with identity := copyIdentity model.identity, reported := copyReported model.reported, results }

/-! ## Rows -/

inductive CsvHeader where
  | recordType | surface | runStatus | itemIndex | status | errorCode | queryMode | queryValue | target | universityId
  | studentCode | internalStudentId | studentName | managingClass | classCode | classNumber | classId | resolvedStudentCode
  | resolvedInternalStudentId | probes | termCode | termLabel | estimateKind | listedCredits | includedCredits | termGpa4
  | derivedCpa4 | reportedCumulativeGpa4 | courseCode | courseName | credits | point10 | letter | point4
deriving DecidableEq

/-- `CSV_HEADERS`. -/
def csvHeaders : List CsvHeader :=
  [.recordType, .surface, .runStatus, .itemIndex, .status, .errorCode, .queryMode, .queryValue, .target, .universityId,
    .studentCode, .internalStudentId, .studentName, .managingClass, .classCode, .classNumber, .classId, .resolvedStudentCode,
    .resolvedInternalStudentId, .probes, .termCode, .termLabel, .estimateKind, .listedCredits, .includedCredits, .termGpa4,
    .derivedCpa4, .reportedCumulativeGpa4, .courseCode, .courseName, .credits, .point10, .letter, .point4]

def CsvHeader.name : CsvHeader → String
  | recordType => "record_type"
  | surface => "surface"
  | runStatus => "run_status"
  | itemIndex => "item_index"
  | status => "status"
  | errorCode => "error_code"
  | queryMode => "query_mode"
  | queryValue => "query_value"
  | target => "target"
  | universityId => "university_id"
  | studentCode => "student_code"
  | internalStudentId => "internal_student_id"
  | studentName => "student_name"
  | managingClass => "managing_class"
  | classCode => "class_code"
  | classNumber => "class_number"
  | classId => "class_id"
  | resolvedStudentCode => "resolved_student_code"
  | resolvedInternalStudentId => "resolved_internal_student_id"
  | probes => "probes"
  | termCode => "term_code"
  | termLabel => "term_label"
  | estimateKind => "estimate_kind"
  | listedCredits => "listed_credits"
  | includedCredits => "included_credits"
  | termGpa4 => "term_gpa4"
  | derivedCpa4 => "derived_cpa4"
  | reportedCumulativeGpa4 => "reported_cumulative_gpa4"
  | courseCode => "course_code"
  | courseName => "course_name"
  | credits => "credits"
  | point10 => "point10"
  | letter => "letter"
  | point4 => "point4"

inductive CsvValue where
  | text (value : Text)
  | number (value : JsNumber)

/-- What a row has under each header, if anything. -/
abbrev CsvRow := CsvHeader → Option CsvValue

def textOf (value : Option Text) : Option CsvValue := value.map .text

def numberOf (value : Option JsNumber) : Option CsvValue := value.map .number

structure CsvContext where
  surface : ExportSurface
  universityId : Text
  runStatus : Option RunStatus
  itemIndex : Option Nat
  status : Option Text
  errorCode : Option Text
  target : Option Text

section
variable (context : CsvContext)

def createBaseRow (recordType : String) : CsvRow
  | .recordType => some (.text (units recordType))
  | .surface => some (.text context.surface.text)
  | .runStatus => textOf (context.runStatus.map RunStatus.text)
  | .itemIndex => numberOf (context.itemIndex.map JsNumber.ofNat)
  | .status => textOf context.status
  | .errorCode => textOf context.errorCode
  | .target => textOf context.target
  | .universityId => some (.text context.universityId)
  | _ => none

def createQueryRow (value : ExportQuery) : CsvRow
  | .queryMode => some (.text value.mode)
  | .queryValue => some (.text value.value)
  | header => createBaseRow context "query" header

def createIdentityRow (value : ExportIdentity) (recordType : String) : CsvRow
  | .studentCode => textOf value.studentCode
  | .internalStudentId => textOf value.internalStudentId
  | .studentName => textOf value.studentName
  | .managingClass => textOf value.managingClass
  | header => createBaseRow context recordType header

def createReportedRow (value : ExportReported) : CsvRow
  | .reportedCumulativeGpa4 => numberOf value.cumulativeGpa4
  | header => createBaseRow context "reported_summary" header

def createTermRow (term : ExportDerivedTerm) : CsvRow
  | .termCode => some (.text term.termCode)
  | .termLabel => some (.text term.termLabel)
  | .estimateKind => some (.text (units "derived"))
  | .listedCredits => some (.number term.listedCredits)
  | .includedCredits => some (.number term.includedCredits)
  | .termGpa4 => numberOf term.termGpa4
  | .derivedCpa4 => numberOf term.derivedCpa4
  | header => createBaseRow context "term_summary" header

def createCourseRow (term : ExportDerivedTerm) (course : ExportCourse) : CsvRow
  | .termCode => some (.text term.termCode)
  | .termLabel => some (.text term.termLabel)
  | .courseCode => some (.text course.courseCode)
  | .courseName => some (.text course.courseName)
  | .credits => numberOf course.credits
  | .point10 => numberOf course.point10
  | .letter => textOf course.letter
  | .point4 => numberOf course.point4
  | header => createBaseRow context "course" header

def createTermRows (terms : List ExportDerivedTerm) : List CsvRow :=
  terms.flatMap fun term => createTermRow context term :: term.courses.map (createCourseRow context term)

def createClassRow (value : ExportClassResult) : CsvRow
  | .classCode => some (.text value.classCode)
  | .classNumber => textOf value.classNumber
  | .classId => some (.text value.classId)
  | .courseName => textOf value.courseName
  | header => createBaseRow context "result" header

def createResolverRow (value : ExportResolverResult) : CsvRow
  | .resolvedStudentCode => some (.text value.resolvedStudentCode)
  | .resolvedInternalStudentId => some (.text value.resolvedInternalStudentId)
  | .probes => some (.number value.probes)
  | header => createBaseRow context "result" header

/-- An identity is the result itself where there are neither terms nor a summary. -/
def createResultRows (value : ExportResult) : List CsvRow :=
  let recordType := if value.derivedTerms.isSome || value.reported.isSome then "identity" else "result"
  value.identity.toList.map (createIdentityRow context · recordType) ++ value.classResult.toList.map (createClassRow context) ++
    value.resolver.toList.map (createResolverRow context) ++ value.reported.toList.map (createReportedRow context) ++
    createTermRows context (value.derivedTerms.getD [])

end

def createItemRows (context : CsvContext) (index : Nat) : ExportItem → List CsvRow
  | .result result => createResultRows context result
  | .ok target result =>
    createResultRows { context with itemIndex := some (index + 1), status := some (units "ok"), target := some target } result
  | .error target errorCode =>
    [createBaseRow { context with itemIndex := some (index + 1), status := some (units "error"), target := some target, errorCode := some errorCode } "item"]

def createCsvRows (model : ExportDocument) : List CsvRow :=
  let context : CsvContext := ⟨model.surface, model.universityId, model.run.map (·.status), none, none, none, none⟩
  model.query.toList.map (createQueryRow context) ++ model.identity.toList.map (createIdentityRow context · "identity") ++
    model.reported.toList.map (createReportedRow context) ++ createTermRows context (model.derivedTerms.getD []) ++
    ((model.results.getD []).zipIdx.flatMap fun (item, index) => createItemRows context index item)

end Hyeboard.Export
