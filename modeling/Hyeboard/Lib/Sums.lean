import Mathlib.Algebra.GroupWithZero.Nat
import Mathlib.Data.List.Basic
/-!
# Sums over a list whose entries change

What replacing one entry does to a sum over all, and how many entries a partial
map leaves.
-/

namespace Hyeboard

universe u v
variable {α : Type u} {β : Type v}

theorem sum_map_set (f : α → Nat) (l : List α) : ∀ {i : Nat} {x : α} (y : α), l[i]? = some x →
    ((l.set i y).map f).sum + f x = (l.map f).sum + f y := by
  induction l with
  | nil =>
    intro i x y h
    cases h
  | cons z rest ih =>
    intro i x y h
    cases i with
    | zero =>
      obtain rfl := Option.some.inj h
      simp only [List.set_cons_zero, List.map_cons, List.sum_cons]
      omega
    | succ i =>
      have hrest := ih y h
      simp only [List.set_cons_succ, List.map_cons, List.sum_cons]
      omega

/-- An entry that is dropped is missing. -/
theorem length_filterMap_lt {f : α → Option β} {l : List α} {x : α} (hmem : x ∈ l) (hnone : f x = none) :
    (l.filterMap f).length < l.length := by
  induction l with
  | nil => cases hmem
  | cons y rest ih =>
    have hle := List.length_filterMap_le f rest
    rcases List.mem_cons.1 hmem with rfl | hmem
    · rw [List.filterMap_cons_none hnone, List.length_cons]
      omega
    · have hrest := ih hmem
      cases hy : f y with
      | none =>
        rw [List.filterMap_cons_none hy, List.length_cons]
        omega
      | some b =>
        rw [List.filterMap_cons_some hy, List.length_cons, List.length_cons]
        omega

end Hyeboard
