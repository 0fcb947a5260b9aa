import Mathlib.Algebra.GroupWithZero.Nat
import Mathlib.Data.List.DropRight
/-!
# JavaScript strings

`length` counts UTF-16 code units, `trim` drops white space and line
terminators at both ends, and a canonical integer is written in digits without
a leading zero.
-/

namespace Hyeboard

/-- `s.length`. -/
def jsLength (s : String) : Nat := (s.toList.map fun c => if c.toNat < 0x10000 then 1 else 2).sum

/-- The characters `trim` drops. -/
def isJsSpace (c : Char) : Bool :=
  c.toNat ∈ [0x09, 0x0a, 0x0b, 0x0c, 0x0d, 0x20, 0xa0, 0x1680, 0x2028, 0x2029, 0x202f, 0x205f, 0x3000, 0xfeff] ||
    (0x2000 ≤ c.toNat && c.toNat ≤ 0x200a)

def trimList (l : List Char) : List Char := (l.dropWhile isJsSpace).rdropWhile isJsSpace

/-- `s.trim()`. -/
def jsTrim (s : String) : String := String.ofList (trimList s.toList)

/-- `Number(s)` of a string that matches `^(0|[1-9]\d*)$`. -/
def canonicalInteger (s : String) : Option Nat :=
  match s.toList with
  | [] => none
  | ['0'] => some 0
  | '0' :: _ => none
  | digits => if digits.all (·.isDigit) then some (digits.foldl (fun n c => 10 * n + (c.toNat - 48)) 0) else none

theorem dropWhile_eq_self {l : List Char} (h : ∀ c, l.head? = some c → isJsSpace c = false) : l.dropWhile isJsSpace = l := by
  cases l with
  | nil => rfl
  | cons c rest => exact List.dropWhile_cons_of_neg (by simp [h c rfl])

theorem dropWhile_trimList (l : List Char) : (trimList l).dropWhile isJsSpace = trimList l := by
  apply dropWhile_eq_self
  intro c hc
  have hbegins : trimList l <+: l.dropWhile isJsSpace := List.rdropWhile_prefix _ _
  obtain ⟨rest, hrest⟩ := hbegins
  cases htrimmed : trimList l with
  | nil =>
    rw [htrimmed] at hc
    cases hc
  | cons d tail =>
    rw [htrimmed] at hc hrest
    cases hc
    have hdrop := List.head?_dropWhile_not isJsSpace l
    rw [← hrest] at hdrop
    simpa using hdrop

theorem trimList_trimList (l : List Char) : trimList (trimList l) = trimList l := by
  rw [trimList, dropWhile_trimList]
  exact List.rdropWhile_idempotent _ _

/-- What is left starts and ends with a character that `trim` keeps. -/
theorem trimList_ends (l : List Char) :
    (∀ c, (trimList l).head? = some c → isJsSpace c = false) ∧
      ∀ c, (trimList l).getLast? = some c → isJsSpace c = false := by
  constructor
  · intro c hc
    have hdrop := List.head?_dropWhile_not isJsSpace (trimList l)
    rw [dropWhile_trimList, hc] at hdrop
    exact hdrop
  · intro c hc
    have hne : trimList l ≠ [] := by
      intro hnil
      rw [hnil] at hc
      cases hc
    have hlast := List.rdropWhile_last_not isJsSpace (l.dropWhile isJsSpace) hne
    rw [List.getLast?_eq_some_getLast hne] at hc
    cases hc
    simpa [trimList] using hlast

@[simp] theorem jsTrim_jsTrim (s : String) : jsTrim (jsTrim s) = jsTrim s := by
  simp [jsTrim, trimList_trimList]

theorem length_le_jsLength (s : String) : s.length ≤ jsLength s := by
  have hsum : ∀ l : List Char, l.length ≤ (l.map fun c => if c.toNat < 0x10000 then 1 else 2).sum := by
    intro l
    induction l with
    | nil => exact Nat.le_refl _
    | cons c rest ih =>
      rw [List.length_cons, List.map_cons, List.sum_cons]
      split <;> omega
  exact hsum s.toList

theorem length_pos_of_jsLength {s : String} (h : 1 ≤ jsLength s) : 1 ≤ s.length := by
  by_contra hlt
  have hnil : s.toList = [] := List.length_eq_zero_iff.1 (show s.length = 0 by omega)
  rw [jsLength, hnil] at h
  cases h

end Hyeboard
