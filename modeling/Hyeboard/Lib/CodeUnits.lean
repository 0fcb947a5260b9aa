import Hyeboard.Lib.JsString
/-!
# Strings as code units

A JavaScript string is a sequence of UTF-16 code units, any sequence: indices count
them, and a surrogate may stand alone.
-/

namespace Hyeboard

abbrev Text := List UInt16

instance : LawfulBEq Text := inferInstance

/-- The code units of a character. -/
def unitsOf (c : Char) : Text :=
  if c.toNat < 0x10000 then [UInt16.ofNat c.toNat]
  else [UInt16.ofNat (0xd800 + (c.toNat - 0x10000) / 0x400), UInt16.ofNat (0xdc00 + (c.toNat - 0x10000) % 0x400)]

def units (s : String) : Text := s.toList.flatMap unitsOf

/-- The code unit of a character in the Basic Multilingual Plane. -/
def unit (c : Char) : UInt16 := UInt16.ofNat c.toNat

/-- `/\s/`, which matches what `trim` drops. -/
def isSpaceUnit (u : UInt16) : Bool := isJsSpace (Char.ofNat u.toNat)

/-- `t.trim()`. -/
def trim (t : Text) : Text := (t.dropWhile isSpaceUnit).rdropWhile isSpaceUnit

/-- `/\w/`. -/
def isWordUnit (u : UInt16) : Bool :=
  (unit '0' ≤ u && u ≤ unit '9') || (unit 'A' ≤ u && u ≤ unit 'Z') || (unit 'a' ≤ u && u ≤ unit 'z') || u = unit '_'

/-- The fold of the flag `i`, for letters of a pattern that are ASCII. -/
def lowerUnit (u : UInt16) : UInt16 := if unit 'A' ≤ u && u ≤ unit 'Z' then u + 32 else u

/-- `t.slice(start, stop)`. -/
def slice (t : Text) (start stop : Nat) : Text := (t.drop start).take (stop - start)

section
variable {t : Text} {start middle stop : Nat}

theorem slice_append_drop (h : start ≤ stop) : slice t start stop ++ t.drop stop = t.drop start := by
  have hdrop : t.drop stop = (t.drop start).drop (stop - start) := by
    rw [List.drop_drop, Nat.add_sub_cancel' h]
  rw [slice, hdrop, List.take_append_drop]

theorem slice_append_slice (h : start ≤ middle) (h' : middle ≤ stop) : slice t start middle ++ slice t middle stop = slice t start stop := by
  have hlength : stop - start = (middle - start) + (stop - middle) := by omega
  have hdrop : t.drop middle = (t.drop start).drop (middle - start) := by rw [List.drop_drop, Nat.add_sub_cancel' h]
  rw [slice, slice, slice, hlength, List.take_add, hdrop]

theorem length_slice (h : stop ≤ t.length) : (slice t start stop).length = stop - start := by
  rw [slice, List.length_take, List.length_drop]
  omega

theorem slice_of_drop {inside rest : Text} (h : t.drop start = inside ++ rest) : slice t start (start + inside.length) = inside := by
  rw [slice, h, Nat.add_sub_cancel_left, List.take_left]

theorem getElem?_of_drop {inside rest : Text} {u : UInt16} (h : t.drop start = inside ++ u :: rest) : t[start + inside.length]? = some u := by
  rw [← List.getElem?_drop, h, List.getElem?_append_right (Nat.le_refl _), Nat.sub_self]
  rfl

theorem drop_eq_cons {u : UInt16} (h : t[stop]? = some u) : t.drop stop = u :: t.drop (stop + 1) := by
  obtain ⟨hlt, rfl⟩ := List.getElem?_eq_some_iff.1 h
  exact List.drop_eq_getElem_cons hlt

theorem drop_eq_slice_append {u : UInt16} (hle : start ≤ stop) (h : t[stop]? = some u) :
    t.drop start = slice t start stop ++ u :: t.drop (stop + 1) := by
  rw [← drop_eq_cons h, slice_append_drop hle]

theorem mem_slice {i : Nat} {u : UInt16} (hstart : start ≤ i) (hstop : i < stop) (h : t[i]? = some u) : u ∈ slice t start stop := by
  apply List.mem_of_getElem? (i := i - start)
  rw [slice, List.getElem?_take, if_pos (by omega), List.getElem?_drop, Nat.add_sub_cancel' hstart, h]

end

end Hyeboard
