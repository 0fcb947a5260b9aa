import Mathlib.Data.List.Find
import Mathlib.Data.List.Dedup
/-!
# First occurrences

What `eraseDups` keeps, and that keeping the entries which stand where
`idxOf` finds them is the same.
-/

namespace Hyeboard

universe u

variable {α : Type u} [BEq α]

/-- An induction for a function that goes on with what is left once the
occurrences of the head are gone. -/
theorem eraseDups_induction {motive : List α → Prop} (nil : motive [])
    (cons : ∀ x rest, motive (rest.filter fun y => !y == x) → motive (x :: rest)) (l : List α) : motive l := by
  induction hlength : l.length using Nat.strongRecOn generalizing l with
  | ind n ih =>
    cases l with
    | nil => exact nil
    | cons x rest =>
      have hshort := List.length_filter_le (fun y => !y == x) rest
      rw [List.length_cons] at hlength
      exact cons x rest (ih _ (by omega) _ rfl)

variable [LawfulBEq α]

theorem mem_eraseDups {l : List α} {x : α} : x ∈ l.eraseDups ↔ x ∈ l := by
  induction l using eraseDups_induction with
  | nil => rfl
  | cons y rest ih =>
    rw [List.eraseDups_cons, List.mem_cons, List.mem_cons, ih, List.mem_filter]
    by_cases hxy : x = y <;> simp [hxy]

theorem nodup_eraseDups (l : List α) : l.eraseDups.Nodup := by
  induction l using eraseDups_induction with
  | nil => exact List.nodup_nil
  | cons x rest ih =>
    rw [List.eraseDups_cons, List.nodup_cons]
    refine ⟨fun hmem => ?_, ih⟩
    have hx := List.of_mem_filter (mem_eraseDups.1 hmem)
    simp at hx

/-- The first match does not depend on later occurrences. -/
theorem find?_eraseDups (p : α → Bool) (l : List α) : l.eraseDups.find? p = l.find? p := by
  induction l using eraseDups_induction with
  | nil => rfl
  | cons x rest ih =>
    rw [List.eraseDups_cons, List.find?_cons, List.find?_cons]
    cases hx : p x with
    | true => rfl
    | false =>
      simp only
      rw [ih, List.find?_filter]
      apply List.find?_congr
      intro y _
      by_cases hy : y = x <;> simp [hy, hx]

theorem filter_idxOf_append (q : α → Bool) (rest : List α) : ∀ seen : List α,
    ((rest.zipIdx seen.length).filter fun e => q e.1 && (seen ++ rest).idxOf e.1 == e.2).map Prod.fst =
      (rest.filter fun y => !seen.contains y).eraseDups.filter q := by
  induction rest with
  | nil => exact fun _ => rfl
  | cons x rest ih =>
    intro seen
    have hnext := ih (seen ++ [x])
    rw [List.length_append, List.length_singleton, List.append_assoc, List.singleton_append] at hnext
    have hhead : ((seen ++ x :: rest).idxOf x == seen.length) = !seen.contains x := by
      rw [List.idxOf_append]
      by_cases hx : x ∈ seen
      · have := List.idxOf_lt_length_of_mem hx
        simp [hx]
        omega
      · simp [hx]
    have hrest : (rest.filter fun y => !(seen ++ [x]).contains y) =
        (rest.filter fun y => !seen.contains y).filter fun y => !y == x := by
      rw [List.filter_filter]
      apply List.filter_congr
      intro y _
      by_cases hy : y = x <;> simp [hy]
    rw [hrest] at hnext
    rw [List.zipIdx_cons, List.filter_cons]
    simp only [hhead]
    cases hx : seen.contains x with
    | true =>
      -- every occurrence of `x` is in the filter already
      have hsame : (rest.filter fun y => !seen.contains y).filter (fun y => !y == x) =
          rest.filter fun y => !seen.contains y := by
        rw [List.filter_filter]
        apply List.filter_congr
        intro y _
        by_cases hy : y = x
        · have hmem := List.contains_iff_mem.1 hx
          simp [hy, hmem]
        · simp [hy]
      rw [hsame] at hnext
      simpa only [hx, List.filter_cons, Bool.not_true, Bool.and_false, Bool.false_eq_true, if_false] using hnext
    | false =>
      simp only [hx, List.filter_cons, Bool.not_false, Bool.and_true, if_true, List.eraseDups_cons]
      cases q x with
      | true => simp only [if_true, List.map_cons, hnext]
      | false => simpa only [Bool.false_eq_true, if_false] using hnext

/-- The entries that stand where `idxOf` finds them. -/
theorem filter_idxOf (q : α → Bool) (l : List α) :
    (l.zipIdx.filter fun e => q e.1 && l.idxOf e.1 == e.2).map Prod.fst = l.eraseDups.filter q := by
  have h := filter_idxOf_append q l []
  simpa using h

end Hyeboard
