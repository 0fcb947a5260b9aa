import Mathlib.Algebra.Order.Field.Rat
import Mathlib.Data.Rat.Floor
import Hyeboard.Lib.Json
/-!
# Numbers

The value of a number literal: what it denotes in decimal, rounded to a double.
-/

namespace Hyeboard.Json

def digitsValue (t : Text) : Nat := t.foldl (fun n u => 10 * n + (u.toNat - 48)) 0

/-- An integer with its sign. -/
def signedValue : Text → Int
  | [] => 0
  | u :: rest =>
    if u = unit '-' then -(digitsValue rest : Int) else if u = unit '+' then digitsValue rest else digitsValue (u :: rest)

/-- What a literal denotes. -/
def literalValue (t : Text) : ℚ :=
  let magnitude := t.dropWhile (· = unit '-')
  let integer := magnitude.takeWhile isDigit
  let rest := magnitude.dropWhile isDigit
  let fraction := if rest.head? = some (unit '.') then (rest.drop 1).takeWhile isDigit else []
  let exponent := (rest.dropWhile fun u => u != unit 'e' && u != unit 'E').drop 1
  let value : ℚ := digitsValue (integer ++ fraction) * 10 ^ (signedValue exponent - fraction.length)
  if t.head? = some (unit '-') then -value else value

/-- The power of two below a positive number. -/
def binade (q : ℚ) : Int :=
  let guess : Int := (Nat.log2 q.num.toNat : Int) - Nat.log2 q.den
  if (2 : ℚ) ^ guess ≤ q then guess else guess - 1

/-- To the nearest integer, to the even one of two. -/
def roundHalfEven (q : ℚ) : Int :=
  let below := ⌊q⌋
  if q - below < 1 / 2 then below else if 1 / 2 < q - below then below + 1 else if below % 2 = 0 then below else below + 1

/-- The nearest double; none stands for an infinity. -/
def toDouble (q : ℚ) : Option ℚ :=
  if q = 0 then some 0
  else
    let ulp : ℚ := 2 ^ (max (binade |q|) (-1022) - 52)
    let rounded : ℚ := roundHalfEven (q / ulp) * ulp
    if |rounded| < 2 ^ 1024 then some rounded else none

/-- The number of a literal. -/
def numberOf (literal : Text) : Option ℚ := toDouble (literalValue literal)

example : numberOf (units "-12.5e-1") = some (-5 / 4) := by decide +kernel

end Hyeboard.Json
