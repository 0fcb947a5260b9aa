import Hyeboard.Lib.Regex
import Hyeboard.Lib.Utf8
/-!
# The rows of a transcript

`parseTranscriptHtml` of the `vnu` adapter, as far as it finds the terms, their rows and
the selectors of the rows. The expressions are those of `parser.ts`.
-/

namespace Hyeboard.Transcript

open Regex

/-! ## Expressions -/

/-- The fold of the flag `i`, for the letters the expressions have. -/
def upperUnit (u : UInt16) : UInt16 :=
  if unit 'a' ≤ u && u ≤ unit 'z' then u - 32
  else if u = unit 'ã' then unit 'Ã' else if u = unit 'ọ' then unit 'Ọ' else if u = unit 'ỳ' then unit 'Ỳ' else u

def caseless (s : String) : Regex := sequence (s.toList.map fun c => .unit fun u => upperUnit u = upperUnit (unit c))

def star (body : Regex) : Regex := .star true body

/-- `/<name\b[^>]*>([\s\S]*?)<\/name>/gi`. -/
def elementRe (name : String) : Regex :=
  sequence [char '<', caseless name, .boundary, star (notOf ">"), char '>', .group 1 (.star false any), char '<', char '/', caseless name,
    char '>']

/-- `/<[^>]+>/g`. -/
def tagRe : Regex := sequence [char '<', plus (notOf ">"), char '>']

/-- `/&(?:nbsp|amp|lt|gt|quot|#[^;&\s]*);/gi`. -/
def htmlEntityRe : Regex :=
  sequence [char '&', .alt (caseless "nbsp") (.alt (caseless "amp") (.alt (caseless "lt") (.alt (caseless "gt") (.alt (caseless "quot")
    (.seq (char '#') (star (.unit fun u => u != unit ';' && u != unit '&' && ! isSpaceUnit u))))))), char ';']

/-- `/^#(?:(x)([0-9a-f]+)|(\d+))$/i`. -/
def numericEntityRe : Regex :=
  sequence [.start, char '#', .alt (.seq (.group 1 (caseless "x")) (.group 2 (plus (.unit fun u => (units "0123456789ABCDEF").contains (upperUnit u)))))
    (.group 3 (plus digit)), .finish]

/-- `/MÃ HỌC KỲ\s*(\d+)/i`. -/
def termHeaderRe : Regex := sequence [caseless "MÃ HỌC KỲ", star space, .group 1 (plus digit)]

/-- `[A-Za-zĐđ]`. -/
def isCourseLetter (u : UInt16) : Bool :=
  (unit 'A' ≤ u && u ≤ unit 'Z') || (unit 'a' ≤ u && u ≤ unit 'z') || u = unit 'Đ' || u = unit 'đ'

def courseLetter : Regex := .unit isCourseLetter

/-- `[A-Za-zĐđ]{2,6} ?\d{3,4}[A-Za-zĐđ]*(?:-[A-Za-zĐđ]+)?`. -/
def vnuCourseCodeTerminal : Regex :=
  sequence [between 2 6 courseLetter, optional (char ' '), between 3 4 digit, star courseLetter, optional (.seq (char '-') (plus courseLetter))]

/-- `^(?:[A-Za-zĐđ0-9]+\.)*` of a terminal, and `[*#]*$`. -/
def vnuCourseCodeRe : Regex :=
  sequence [.start, star (.seq (plus (.unit fun u => isCourseLetter u || isDigitUnit u)) (char '.')), vnuCourseCodeTerminal,
    star (oneOf "*#"), .finish]

/-- `/\bdetailPoint\s*\(/gi`. -/
def lexicalInvocationRe : Regex := sequence [.boundary, caseless "detailPoint", star space, char '(']

/-- `['"]` … `['"]` around a body, with white space before and behind. -/
def quoted (body : Regex) : List Regex := [star space, oneOf "'\"", body, oneOf "'\"", star space]

/-- The call with its four arguments; the first, the third and the fourth are groups. -/
def invocationRe : Regex :=
  sequence ([caseless "detailPoint", star space, char '('] ++ quoted (.group 1 (plus (notOf "'\""))) ++ [char ','] ++
    quoted (star (notOf "'\"")) ++ [char ','] ++ quoted (.group 2 (star (notOf "'\""))) ++ [char ','] ++
    quoted (.group 3 (plus (notOf "'\""))) ++ [char ')'])

/-- `/^\d+$/`. -/
def digitsRe : Regex := allOf digit

/-! ## Texts of cells -/

def collapseVnuCourseCodeDisplay (value : Text) : Text := trim (replaceAll (plus space) (fun _ => units " ") value)

/-- `Number.parseInt(digits, radix)`. -/
def parseInt (radix : Nat) (digits : Text) : Nat :=
  digits.foldl (fun n u => radix * n + (if isDigitUnit u then u.toNat - 48 else (upperUnit u).toNat - 55)) 0

def decodeEntity (entity : Text) : Text :=
  let token := (entity.drop 1).dropLast
  let lower := token.map lowerUnit
  if lower = units "nbsp" then units " "
  else if lower = units "amp" then units "&"
  else if lower = units "lt" then units "<"
  else if lower = units "gt" then units ">"
  else if lower = units "quot" then units "\""
  else
    match exec numericEntityRe token with
    | none => entity
    | some found =>
      let codePoint := match found.group 2 with
        | some digits => parseInt 16 digits
        | none => parseInt 10 ((found.group 3).getD [])
      if codePoint > 0x10ffff || (0xd800 ≤ codePoint && codePoint ≤ 0xdfff) then entity else Utf8.utf16 codePoint

def decodeEntities (text : Text) : Text := collapseVnuCourseCodeDisplay (replaceAll htmlEntityRe (fun m => decodeEntity m.text) text)

def stripTags (html : Text) : Text := decodeEntities (replaceAll tagRe (fun _ => units " ") html)

def tdCells (rowHtml : Text) : List Text := (matchAll (elementRe "td") rowHtml).map fun m => stripTags ((m.group 1).getD [])

/-! ## Rows -/

structure DetailPointInvocation where
  classId : Text
  termOrdinal : Text

def parseUniqueDetailPointInvocation (rowHtml : Text) : Option DetailPointInvocation :=
  if (matchAll lexicalInvocationRe rowHtml).length != 1 then none
  else
    match matchAll invocationRe rowHtml with
    | [invocation] => some ⟨(invocation.group 1).getD [], (invocation.group 3).getD []⟩
    | _ => none

structure TranscriptRow where
  courseCode : Text
  classId : Option Text
  termOrdinal : Option Text
deriving DecidableEq

structure Term where
  maHK : Text
  rows : List TranscriptRow
deriving DecidableEq

/-- A selector that is digits. -/
def digitsOf (selector : Option Text) : Option Text :=
  match selector with
  | some t => if trim t != [] && test digitsRe (trim t) then some (trim t) else none
  | none => none

/-- A row goes to the term that was last begun. -/
def addRow (row : TranscriptRow) : List Term → List Term
  | [] => []
  | [term] => [{ term with rows := term.rows ++ [row] }]
  | term :: terms => term :: addRow row terms

/-- One `tr`: a header begins a term, a row with the code of a course goes to it. -/
def readTr (terms : List Term) (rowHtml : Text) : List Term :=
  let cells := tdCells rowHtml
  if cells.isEmpty then terms
  else
    let joined := (units " ").intercalate cells
    match exec termHeaderRe joined, decide (cells.length ≤ 2) with
    | some header, true => terms ++ [⟨(header.group 1).getD [], []⟩]
    | _, _ =>
      if 7 ≤ cells.length && test vnuCourseCodeRe (cells.getD 1 []) then
        let detailPoint := parseUniqueDetailPointInvocation rowHtml
        addRow ⟨trim (cells.getD 1 []), digitsOf (detailPoint.map (·.classId)), digitsOf (detailPoint.map (·.termOrdinal))⟩ terms
      else terms

/-- The terms of a transcript. -/
def parseTranscriptHtml (html : Text) : List Term :=
  (matchAll (elementRe "tr") html).foldl (fun terms m => readTr terms ((m.group 1).getD [])) []

end Hyeboard.Transcript
