import Hyeboard.Lib.CodeUnits
/-!
# The sanitizer of grades pages

`sanitizeGradesHtmlForBrowser` of `app.ts`, with its two scanners. The regular
expression goes on behind the parenthesis it found, whatever was copied by then; the
cursor says what was copied.
-/

namespace Hyeboard.GradesHtml

/-- A quote opens a string. -/
def isQuote (u : UInt16) : Bool := u = unit '\'' || u = unit '"'

/-- The loop of `detailPointClosingParenthesis`, over what is left of the source. -/
def closingFrom (quote : Option UInt16) (depth index : Nat) : Text → Option Nat
  | [] => none
  | character :: rest =>
    match quote with
    | some opened =>
      if character = unit '\\' then
        match rest with
        | [] => none
        | _ :: rest => closingFrom quote depth (index + 2) rest
      else closingFrom (if character = opened then none else quote) depth (index + 1) rest
    | none =>
      if isQuote character then closingFrom (some character) depth (index + 1) rest
      else if character = unit '(' then closingFrom none (depth + 1) (index + 1) rest
      else if character = unit ')' then
        if depth = 1 then some index else closingFrom none (depth - 1) (index + 1) rest
      else closingFrom none depth (index + 1) rest

def detailPointClosingParenthesis (source : Text) (openingParenthesis : Nat) : Option Nat :=
  closingFrom none 1 (openingParenthesis + 1) (source.drop (openingParenthesis + 1))

/-- The index behind white space. -/
def skipSpaces (source : Text) (index : Nat) : Nat := index + ((source.drop index).takeWhile isSpaceUnit).length

/-- The end of a quoted argument, or an index from the closing parenthesis on. -/
def quotedEnd (quote : UInt16) (closingParenthesis index : Nat) : Text → Nat
  | [] => index
  | character :: rest =>
    if index < closingParenthesis then
      if character = unit '\\' then
        match rest with
        | [] => index + 2
        | _ :: rest => quotedEnd quote closingParenthesis (index + 2) rest
      else if character = quote then index
      else quotedEnd quote closingParenthesis (index + 1) rest
    else index

/-- The loop of `thirdQuotedDetailPointArgument`; `left` arguments are to come behind this one. -/
def quotedArgument (source : Text) (closingParenthesis : Nat) (left index : Nat) : Option (Nat × Nat) :=
  let index := skipSpaces source index
  match source[index]? with
  | none => none
  | some quote =>
    if isQuote quote then
      let start := index + 1
      let index := quotedEnd quote closingParenthesis start (source.drop start)
      if closingParenthesis ≤ index then none
      else
        match left with
        | 0 => some (start, index)
        | left + 1 =>
          let index := skipSpaces source (index + 1)
          if source[index]? = some (unit ',') then quotedArgument source closingParenthesis left (index + 1) else none
    else none

def thirdQuotedDetailPointArgument (source : Text) (openingParenthesis closingParenthesis : Nat) : Option (Nat × Nat) :=
  quotedArgument source closingParenthesis 2 (openingParenthesis + 1)

/-- `\bdetailPoint\s*\(` at an index: the index of the parenthesis. -/
def invocationAt (html : Text) (index : Nat) : Option Nat :=
  let boundary := index = 0 || !((html[index - 1]?).any isWordUnit)
  if boundary && (slice html index (index + 11)).map lowerUnit = units "detailpoint" then
    let openingParenthesis := skipSpaces html (index + 11)
    if html[openingParenthesis]? = some (unit '(') then some openingParenthesis else none
  else none

/-- `invocation.exec` with its `lastIndex`: the index of the match, and that of the parenthesis. -/
def nextInvocation (html : Text) (lastIndex : Nat) : Option (Nat × Nat) :=
  (List.range' lastIndex (html.length - lastIndex)).findSome? fun index => (invocationAt html index).map (index, ·)

/-- `html.indexOf(">", openingParenthesis)`, or the end. -/
def handlerEnd (html : Text) (openingParenthesis : Nat) : Nat :=
  openingParenthesis + (html.drop openingParenthesis).findIdx (· = unit '>')

/-- The loop; the fuel lasts, `lastIndex` grows each time. -/
def sanitizeFrom (html : Text) : Nat → Nat → Nat → Text → Text
  | 0, _, cursor, sanitized => sanitized ++ html.drop cursor
  | fuel + 1, lastIndex, cursor, sanitized =>
    match nextInvocation html lastIndex with
    | none => sanitized ++ html.drop cursor
    | some (index, openingParenthesis) =>
      match detailPointClosingParenthesis html openingParenthesis with
      | none =>
        let replacementEnd := handlerEnd html openingParenthesis
        sanitizeFrom html fuel replacementEnd replacementEnd (sanitized ++ slice html cursor index ++ units "void 0")
      | some closingParenthesis =>
        match thirdQuotedDetailPointArgument html openingParenthesis closingParenthesis with
        | none =>
          sanitizeFrom html fuel (openingParenthesis + 1) (closingParenthesis + 1) (sanitized ++ slice html cursor index ++ units "void 0")
        | some (start, stop) =>
          sanitizeFrom html fuel (openingParenthesis + 1) (closingParenthesis + 1)
            (sanitized ++ slice html cursor start ++ slice html stop (closingParenthesis + 1))

def sanitizeGradesHtmlForBrowser (html : Text) : Text := sanitizeFrom html (html.length + 1) 0 0 []

example : sanitizeGradesHtmlForBrowser (units "<i onclick=\"DetailPoint ('123', '8', '00000000001', '42')\">") =
    units "<i onclick=\"DetailPoint ('123', '8', '', '42')\">" := by
  decide +kernel

end Hyeboard.GradesHtml
