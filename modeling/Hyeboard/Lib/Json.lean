import Hyeboard.Lib.Utf8
/-!
# JSON texts

`JSON.stringify` and `JSON.parse` over code units. A number is kept as its literal,
and the fields of an object in the order of its text: `1.0` and `1` are two values
here, and a key such as `"2"` does not move in front of the others. JavaScript reads
and writes the same for numbers in the spelling it writes and for keys that are no
array indices. Strings are quoted so that the text is well-formed whatever they hold:
a surrogate that stands alone is written as an escape.
-/

namespace Hyeboard

inductive Json where
  | null
  | bool (b : Bool)
  | num (literal : Text)
  | str (s : Text)
  | arr (items : List Json)
  | obj (fields : List (Text × Json))

namespace Json

open Utf8

/-! ## Strings -/

/-- A hexadecimal digit. -/
def hexUnit (n : Nat) : UInt16 := (units "0123456789abcdef").getD n 0

def hexValue (u : UInt16) : Option Nat :=
  if unit '0' ≤ u && u ≤ unit '9' then some (u.toNat - 48)
  else if unit 'a' ≤ u && u ≤ unit 'f' then some (u.toNat - 87)
  else if unit 'A' ≤ u && u ≤ unit 'F' then some (u.toNat - 55)
  else none

/-- The characters with an escape of their own. -/
def escapes : List (UInt16 × UInt16) :=
  [(unit '"', unit '"'), (unit '\\', unit '\\'), (8, unit 'b'), (9, unit 't'), (10, unit 'n'), (12, unit 'f'), (13, unit 'r')]

def escapeUnit (u : UInt16) : Text :=
  match escapes.lookup u with
  | some letter => [unit '\\', letter]
  | none =>
    if u < 0x20 || isHigh u || isLow u then
      [unit '\\', unit 'u', hexUnit (u.toNat / 0x1000), hexUnit (u.toNat / 0x100 % 0x10), hexUnit (u.toNat / 0x10 % 0x10),
        hexUnit (u.toNat % 0x10)]
    else [u]

def quoteBody : Text → Text
  | [] => []
  | [u] => escapeUnit u
  | u :: v :: rest => if isHigh u && isLow v then u :: v :: quoteBody rest else escapeUnit u ++ quoteBody (v :: rest)

def quote (s : Text) : Text := unit '"' :: quoteBody s ++ [unit '"']

/-- The letters of escapes, `/` among them. -/
def unescape (letter : UInt16) : Option UInt16 :=
  if letter = unit '/' then some letter else (escapes.find? (·.2 = letter)).map (·.1)

/-- Behind the opening quote: the string, and what is left behind the closing one. -/
def parseString : Text → Option (Text × Text)
  | [] => none
  | u :: rest =>
    if u = unit '"' then some ([], rest)
    else if u = unit '\\' then
      match rest with
      | [] => none
      | letter :: rest =>
        if letter = unit 'u' then
          match rest with
          | a :: b :: c :: d :: rest =>
            match hexValue a, hexValue b, hexValue c, hexValue d with
            | some a, some b, some c, some d =>
              (parseString rest).map fun (s, rest) => (UInt16.ofNat (a * 0x1000 + b * 0x100 + c * 0x10 + d) :: s, rest)
            | _, _, _, _ => none
          | _ => none
        else
          match unescape letter with
          | some v => (parseString rest).map fun (s, rest) => (v :: s, rest)
          | none => none
    else if u < 0x20 then none
    else (parseString rest).map fun (s, rest) => (u :: s, rest)

/-! ## Values -/

mutual

def stringify : Json → Text
  | null => units "null"
  | bool true => units "true"
  | bool false => units "false"
  | num literal => literal
  | str s => quote s
  | arr [] => units "[]"
  | arr (item :: items) => unit '[' :: stringify item ++ stringifyItems items
  | obj [] => [unit '\x7b', unit '\x7d']
  | obj ((key, value) :: fields) => unit '\x7b' :: quote key ++ unit ':' :: stringify value ++ stringifyFields fields

def stringifyItems : List Json → Text
  | [] => [unit ']']
  | item :: items => unit ',' :: stringify item ++ stringifyItems items

def stringifyFields : List (Text × Json) → Text
  | [] => [unit '\x7d']
  | (key, value) :: fields => unit ',' :: quote key ++ unit ':' :: stringify value ++ stringifyFields fields

end

def isSpace (u : UInt16) : Bool := u ∈ [9, 10, 13, 32]

def skipSpace (t : Text) : Text := t.dropWhile isSpace

def isNumberUnit (u : UInt16) : Bool := u ∈ units "0123456789+-.eE"

def isDigit (u : UInt16) : Bool := unit '0' ≤ u && u ≤ unit '9'

/-- `(0|[1-9]\d*)`, and what follows. -/
def dropInteger : Text → Option Text
  | [] => none
  | u :: rest => if u = unit '0' then some rest else if isDigit u then some (rest.dropWhile isDigit) else none

/-- `\d+`, and what follows. -/
def dropDigits : Text → Option Text
  | [] => none
  | u :: rest => if isDigit u then some (rest.dropWhile isDigit) else none

def dropFraction : Text → Option Text
  | [] => some []
  | u :: rest => if u = unit '.' then dropDigits rest else some (u :: rest)

def dropExponent : Text → Option Text
  | [] => some []
  | u :: rest =>
    if u = unit 'e' || u = unit 'E' then
      match rest with
      | [] => none
      | v :: rest => if v = unit '+' || v = unit '-' then dropDigits rest else dropDigits (v :: rest)
    else some (u :: rest)

/-- `-?(0|[1-9]\d*)(\.\d+)?([eE][+-]?\d+)?`. -/
def isNumber (t : Text) : Bool :=
  let t := match t with
    | [] => []
    | u :: rest => if u = unit '-' then rest else u :: rest
  (((dropInteger t).bind dropFraction).bind dropExponent) = some []

/-- A property that is there already is replaced. -/
def setField (fields : List (Text × Json)) (key : Text) (value : Json) : List (Text × Json) :=
  if fields.any (·.1 = key) then fields.map fun field => if field.1 = key then (key, value) else field else fields ++ [(key, value)]

/-- A number, `true`, `false` or `null`. -/
def parseAtom (t : Text) : Option (Json × Text) :=
  if units "null" <+: t then some (null, t.drop 4)
  else if units "true" <+: t then some (bool true, t.drop 4)
  else if units "false" <+: t then some (bool false, t.drop 5)
  else
    let literal := t.takeWhile isNumberUnit
    if isNumber literal then some (num literal, t.drop literal.length) else none

mutual

/-- The value a text begins with, and what is left. -/
def parseValue : Nat → Text → Option (Json × Text)
  | 0, _ => none
  | fuel + 1, t =>
    match skipSpace t with
    | [] => none
    | u :: rest =>
      if u = unit '"' then (parseString rest).map fun (s, rest) => (str s, rest)
      else if u = unit '[' then
        match skipSpace rest with
        | [] => none
        | v :: rest => if v = unit ']' then some (arr [], rest) else parseItems fuel [] (v :: rest)
      else if u = unit '\x7b' then
        match skipSpace rest with
        | [] => none
        | v :: rest => if v = unit '\x7d' then some (obj [], rest) else parseFields fuel [] (v :: rest)
      else parseAtom (u :: rest)

def parseItems : Nat → List Json → Text → Option (Json × Text)
  | 0, _, _ => none
  | fuel + 1, items, t =>
    match parseValue fuel t with
    | none => none
    | some (item, rest) =>
      match skipSpace rest with
      | [] => none
      | u :: rest =>
        if u = unit ',' then parseItems fuel (items ++ [item]) rest
        else if u = unit ']' then some (arr (items ++ [item]), rest)
        else none

def parseFields : Nat → List (Text × Json) → Text → Option (Json × Text)
  | 0, _, _ => none
  | fuel + 1, fields, t =>
    match skipSpace t with
    | [] => none
    | u :: rest =>
      if u = unit '"' then
        match parseString rest with
        | none => none
        | some (key, rest) =>
          match skipSpace rest with
          | [] => none
          | colon :: rest =>
            if colon = unit ':' then
              match parseValue fuel rest with
              | none => none
              | some (value, rest) =>
                match skipSpace rest with
                | [] => none
                | v :: rest =>
                  if v = unit ',' then parseFields fuel (setField fields key value) rest
                  else if v = unit '\x7d' then some (obj (setField fields key value), rest)
                  else none
            else none
      else none

end

/-- `JSON.parse(t)`. -/
def parse (t : Text) : Option Json :=
  match parseValue (2 * t.length + 1) t with
  | some (value, rest) => if skipSpace rest = [] then some value else none
  | none => none

end Json

end Hyeboard
