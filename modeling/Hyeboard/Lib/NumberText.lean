import Mathlib.Data.Nat.Digits.Lemmas
import Hyeboard.Lib.CodeUnits
/-!
# The text of a number

A number, by the digits of its shortest decimal form, and `String` of it.
-/

namespace Hyeboard

/-- `0.d₁…dₖ · 10ᵖᵒⁱⁿᵗ`. -/
structure Decimal where
  digits : List Nat
  point : Int
  digit : ∀ d ∈ digits, d < 10
  /-- The first digit and the last one are not zero. -/
  head : digits.head?.any (· ≠ 0) = true
  last : digits.getLast?.any (· ≠ 0) = true

inductive JsNumber where
  | nan
  | zero
  | infinite (negative : Bool)
  | finite (negative : Bool) (decimal : Decimal)

namespace JsNumber

def digitUnits (digits : List Nat) : Text := digits.map fun d => UInt16.ofNat (48 + d)

def zeros (n : Nat) : Text := List.replicate n (unit '0')

/-- An integer with its sign, as an exponent has it. -/
def exponentText (e : Int) : Text := (if e < 0 then unit '-' else unit '+') :: digitUnits (Nat.digits 10 e.natAbs).reverse

/-- The digits, with zeros or a point where the number is neither too great nor too small, else with an exponent. -/
def decimalText (decimal : Decimal) : Text :=
  let digits := digitUnits decimal.digits
  if -5 ≤ decimal.point ∧ decimal.point ≤ 21 then
    if digits.length ≤ decimal.point then digits ++ zeros (decimal.point.toNat - digits.length)
    else if 0 < decimal.point then digits.take decimal.point.toNat ++ unit '.' :: digits.drop decimal.point.toNat
    else unit '0' :: unit '.' :: (zeros (-decimal.point).toNat ++ digits)
  else if digits.length = 1 then digits ++ unit 'e' :: exponentText (decimal.point - 1)
  else digits.take 1 ++ unit '.' :: digits.drop 1 ++ unit 'e' :: exponentText (decimal.point - 1)

/-- `String(number)`. -/
def text : JsNumber → Text
  | nan => units "NaN"
  | zero => units "0"
  | infinite false => units "Infinity"
  | infinite true => units "-Infinity"
  | finite false decimal => decimalText decimal
  | finite true decimal => unit '-' :: decimalText decimal

/-! ## Natural numbers -/

section
variable {n : Nat}

theorem getLast_digits (h : n ≠ 0) : ((Nat.digits 10 n).getLast?.any (· ≠ 0)) = true := by
  have hne : Nat.digits 10 n ≠ [] := Nat.digits_ne_nil_iff_ne_zero.2 h
  rw [List.getLast?_eq_some_getLast hne]
  simpa using Nat.getLast_digit_ne_zero 10 h

/-- The last digit stays when zeros are dropped before it. -/
theorem getLast_dropWhile {l : List Nat} (h : (l.getLast?.any (· ≠ 0)) = true) :
    ((l.dropWhile (· = 0)).getLast?.any (· ≠ 0)) = true := by
  induction l with
  | nil => exact h
  | cons d l ih =>
    rw [List.dropWhile_cons]
    split
    case isFalse => exact h
    case isTrue hzero =>
      apply ih
      cases l with
      | nil => simp_all
      | cons e l => simpa using h

theorem head_dropWhile {l : List Nat} (h : l.dropWhile (· = 0) ≠ []) : ((l.dropWhile (· = 0)).head?.any (· ≠ 0)) = true := by
  rw [List.head?_eq_some_head h]
  simpa using List.head_dropWhile_not (fun d => decide (d = 0)) h

/-- The zeros behind the last digit that is none go into the exponent. -/
def ofNat (n : Nat) : JsNumber :=
  if h : n = 0 then zero
  else
    have hlast := getLast_dropWhile (getLast_digits h)
    have hne : (Nat.digits 10 n).dropWhile (· = 0) ≠ [] := by
      intro hnil
      rw [hnil] at hlast
      cases hlast
    finite false
      { digits := ((Nat.digits 10 n).dropWhile (· = 0)).reverse
        point := (Nat.digits 10 n).length
        digit := fun d hd => Nat.digits_lt_base (by decide) ((List.dropWhile_sublist _).mem (List.mem_reverse.1 hd))
        head := by rwa [List.head?_reverse]
        last := by rw [List.getLast?_reverse]; exact head_dropWhile hne }

end

end JsNumber

end Hyeboard
