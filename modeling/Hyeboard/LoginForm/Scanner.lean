import Hyeboard.Lib.Regex
import Hyeboard.Lib.Search
/-!
# The scanner for a login form

`hasCompleteLoginForm` of `vnu/parser.ts`. An index into the page is modelled by the
text from there on; the loop reads one tag, or passes over a comment or a script.
-/

namespace Hyeboard.LoginForm

def isHtmlWhitespace (character : UInt16) : Bool := (units " \t\n\r\x0c").contains character

/-- The text starts with a token of lower-case letters. -/
def startsWithAsciiCaseInsensitive (text token : Text) : Bool := token.isPrefixOf (text.map lowerUnit)

def isScriptOpeningAt (html : Text) : Bool :=
  startsWithAsciiCaseInsensitive html (units "<script") &&
    match html[7]? with
    | none => true
    | some boundary => boundary = unit '>' || boundary = unit '/' || isHtmlWhitespace boundary

/-- What is left behind a closing tag that starts here. -/
def scriptClosingTagEndAt (html : Text) : Option Text :=
  if startsWithAsciiCaseInsensitive html (units "</script") then
    match (html.drop 8).dropWhile isHtmlWhitespace with
    | [] => none
    | character :: rest => if character = unit '>' then some rest else none
  else none

/-- What is left behind the first closing tag. -/
def afterScript : Text → Option Text
  | [] => none
  | u :: rest =>
    match scriptClosingTagEndAt (u :: rest) with
    | some left => some left
    | none => afterScript rest

/-! ## One turn of the loop -/

inductive Scanned where
  /-- `return false`. -/
  | finished
  /-- A comment or a script; the cursor is behind it. -/
  | skipped (rest : Text)
  | tag (tag rest : Text)
deriving DecidableEq

def scan (html : Text) : Scanned :=
  match cut (units "<") html with
  | none => .finished
  | some (_, behind) =>
    let fromTag := unit '<' :: behind
    if (units "<!--").isPrefixOf fromTag then
      match cut (units "-->") (fromTag.drop 4) with
      | none => .finished
      | some (_, rest) => .skipped rest
    else if isScriptOpeningAt fromTag then
      match cut (units ">") (fromTag.drop 7) with
      | none => .finished
      | some (_, content) =>
        match afterScript content with
        | none => .finished
        | some rest => .skipped rest
    else
      match cut (units ">") behind with
      | none => .finished
      | some (name, rest) => .tag (unit '<' :: name ++ units ">") rest

/-! ## What is done with a tag -/

/-- `/(?:^|\s)attr\s*=\s*(?:"([^"]*)"|'([^']*)')/i`. -/
def attributeRe (attr : String) : Regex :=
  Regex.sequence [.alt .start Regex.space, Regex.sequence (attr.toList.map fun c => .unit fun u => lowerUnit u = unit c),
    .star true Regex.space, Regex.char '=', .star true Regex.space,
    .alt (Regex.sequence [Regex.char '"', .group 1 (.star true (Regex.notOf "\"")), Regex.char '"'])
      (Regex.sequence [Regex.char '\'', .group 2 (.star true (Regex.notOf "'")), Regex.char '\''])]

def attrOf (tag : Text) (attr : String) : Option Text :=
  (Regex.exec (attributeRe attr) tag).bind fun found => (found.group 1).or (found.group 2)

/-- `toLowerCase`, of the characters that it takes to ASCII: the capital letters and the Kelvin sign. -/
def toLowerCase (t : Text) : Text := t.map fun u => if u = 0x212a then unit 'k' else lowerUnit u

def daotaoLoginPath : Text := units "/dkmh/login.asp"

/-- `/^<form\b/i`. -/
def isFormOpening (tag : Text) : Bool := startsWithAsciiCaseInsensitive tag (units "<form") && !(tag[5]?.any isWordUnit)

/-- `/^<\/form\s*>$/i`. -/
def isFormClosing (tag : Text) : Bool :=
  startsWithAsciiCaseInsensitive tag (units "</form") && (tag.drop 6).dropWhile isSpaceUnit = units ">"

/-- `/^<input\b/i`. -/
def isInput (tag : Text) : Bool := startsWithAsciiCaseInsensitive tag (units "<input") && !(tag[6]?.any isWordUnit)

def hasLoginAction (tag : Text) : Bool := (attrOf tag "action").map toLowerCase = some daotaoLoginPath

def isNamed (name : String) (tag : Text) : Bool := isInput tag && (attrOf tag "name").map toLowerCase = some (units name)

structure LoginFormCandidate where
  hasLoginId : Bool
  hasPassword : Bool
deriving DecidableEq

/-- The variables of the loop. -/
structure Forms where
  candidate : Option LoginFormCandidate
  formDepth : Nat
  formRegionTainted : Bool
deriving DecidableEq

/-- None for `return true`. -/
def Forms.read (forms : Forms) (tag : Text) : Option Forms :=
  if isFormOpening tag then
    let formDepth := forms.formDepth + 1
    if 1 < formDepth then some { candidate := none, formDepth, formRegionTainted := true }
    else
      some { forms with
        formDepth, candidate := if hasLoginAction tag then some { hasLoginId := false, hasPassword := false } else none }
  else if isFormClosing tag then
    if forms.formDepth = 0 then some forms
    else if 0 < forms.formDepth - 1 then some { forms with formDepth := forms.formDepth - 1 }
    else if !forms.formRegionTainted && forms.candidate.any fun candidate => candidate.hasLoginId && candidate.hasPassword then none
    else some { candidate := none, formDepth := forms.formDepth - 1, formRegionTainted := false }
  else
    match forms.candidate with
    | none => some forms
    | some candidate =>
      if forms.formDepth ≠ 1 || forms.formRegionTainted then some forms
      else
        some { forms with
          candidate := some {
            hasLoginId := candidate.hasLoginId || isNamed "txtloginid" tag
            hasPassword := candidate.hasPassword || isNamed "txtpassword" tag } }

/-! ## The loop -/

/-- Where the cursor stands behind a turn. -/
def Scanned.rest : Scanned → Option Text
  | finished => none
  | skipped rest | tag _ rest => some rest

theorem length_lt_of_cut {needle html front back : Text} (hne : needle ≠ []) (h : cut needle html = some (front, back)) :
    back.length < html.length := by
  have hpos := List.length_pos_iff.2 hne
  rw [((cut_eq_some hne).1 h).1, List.length_append, List.length_append]
  omega

theorem length_lt_of_scriptClosing {html rest : Text} (h : scriptClosingTagEndAt html = some rest) : rest.length < html.length := by
  unfold scriptClosingTagEndAt at h
  split at h
  case isFalse => cases h
  case isTrue =>
    split at h
    · cases h
    · rename_i character tail hdrop
      have hle := (List.dropWhile_sublist isHtmlWhitespace (l := html.drop 8)).length_le
      rw [hdrop, List.length_cons, List.length_drop] at hle
      split at h
      · cases h
        omega
      · cases h

theorem length_lt_of_afterScript {html rest : Text} (h : afterScript html = some rest) : rest.length < html.length := by
  induction html with
  | nil => cases h
  | cons u html ih =>
    rw [afterScript] at h
    split at h
    · cases h
      exact length_lt_of_scriptClosing ‹_›
    · exact Nat.lt_succ_of_lt (ih h)

/-- Each turn moves the cursor. -/
theorem scan_shorter {html rest : Text} (h : (scan html).rest = some rest) : rest.length < html.length := by
  unfold scan at h
  cases hopen : cut (units "<") html with
  | none =>
    rw [hopen] at h
    cases h
  | some parts =>
    obtain ⟨gap, behind⟩ := parts
    have hbehind := length_lt_of_cut (by decide) hopen
    simp only [hopen] at h
    split at h
    · split at h
      · cases h
      · rename_i inside left hcut
        have hleft := length_lt_of_cut (by decide) hcut
        rw [List.length_drop, List.length_cons] at hleft
        cases h
        omega
    · split at h
      · split at h
        · cases h
        · rename_i mid content hcut
          have hcontent := length_lt_of_cut (by decide) hcut
          rw [List.length_drop, List.length_cons] at hcontent
          split at h
          · cases h
          · rename_i left hafter
            have hleft := length_lt_of_afterScript hafter
            cases h
            omega
      · split at h
        · cases h
        · rename_i name left hcut
          have hleft := length_lt_of_cut (by decide) hcut
          cases h
          omega

def hasCompleteLoginFormFrom (forms : Forms) (html : Text) : Bool :=
  match _h : scan html with
  | .finished => false
  | .skipped rest => hasCompleteLoginFormFrom forms rest
  | .tag tag rest =>
    match forms.read tag with
    | none => true
    | some forms => hasCompleteLoginFormFrom forms rest
termination_by html.length
decreasing_by
  · exact scan_shorter (by rw [_h]; rfl)
  · exact scan_shorter (by rw [_h]; rfl)

def noForm : Forms := { candidate := none, formDepth := 0, formRegionTainted := false }

def hasCompleteLoginForm (html : Text) : Bool := hasCompleteLoginFormFrom noForm html

end Hyeboard.LoginForm
