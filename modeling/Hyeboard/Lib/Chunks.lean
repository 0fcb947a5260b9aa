import Mathlib.Data.List.Basic
/-!
# Chunks

`for (let i = 0; i < xs.length; i += size) chunks.push(xs.slice(i, i + size))`:
a list cut into pieces of one size, the last one maybe shorter.
-/

namespace Hyeboard

universe u

variable {α : Type u}

/-- The chunks of a list that has at most `fuel` of them. -/
def chunksUpTo (size : Nat) : Nat → List α → List (List α)
  | 0, _ => []
  | fuel + 1, xs => if xs.isEmpty then [] else xs.take size :: chunksUpTo size fuel (xs.drop size)

def chunks (size : Nat) (xs : List α) : List (List α) := chunksUpTo size xs.length xs

variable {size : Nat}

theorem flatten_chunksUpTo (hsize : 0 < size) : ∀ {fuel : Nat} {xs : List α}, xs.length ≤ fuel →
    (chunksUpTo size fuel xs).flatten = xs := by
  intro fuel
  induction fuel with
  | zero =>
    intro xs hle
    rw [List.eq_nil_of_length_eq_zero (Nat.le_zero.1 hle)]
    rfl
  | succ fuel ih =>
    intro xs hle
    unfold chunksUpTo
    split
    · rename_i hempty
      rw [List.isEmpty_iff.1 hempty]
      rfl
    · have hrest : (xs.drop size).length ≤ fuel := by
        rw [List.length_drop]
        omega
      rw [List.flatten_cons, ih hrest, List.take_append_drop]

/-- No element is lost, repeated or moved. -/
theorem flatten_chunks (hsize : 0 < size) (xs : List α) : (chunks size xs).flatten = xs :=
  flatten_chunksUpTo hsize (Nat.le_refl _)

theorem chunksUpTo_eq (hsize : 0 < size) : ∀ {fuel : Nat} {xs : List α}, xs.length ≤ fuel → chunksUpTo size fuel xs = chunks size xs := by
  have hboth : ∀ (fuel other : Nat) (xs : List α), xs.length ≤ fuel → xs.length ≤ other → chunksUpTo size fuel xs = chunksUpTo size other xs := by
    intro fuel
    induction fuel with
    | zero =>
      intro other xs hle _
      rw [List.eq_nil_of_length_eq_zero (Nat.le_zero.1 hle)]
      cases other <;> rfl
    | succ fuel ih =>
      intro other xs hle hother
      cases xs with
      | nil => cases other <;> rfl
      | cons x rest =>
        cases other with
        | zero => cases hother
        | succ other =>
          have hrest : ((x :: rest).drop size).length ≤ rest.length := by
            rw [List.length_drop, List.length_cons]
            omega
          rw [List.length_cons] at hle hother
          rw [chunksUpTo, chunksUpTo, ih other _ (by omega) (by omega)]
  exact fun {fuel xs} hle => hboth fuel xs.length xs hle (Nat.le_refl _)

theorem chunks_of_ne_nil (hsize : 0 < size) {xs : List α} (h : xs ≠ []) : chunks size xs = xs.take size :: chunks size (xs.drop size) := by
  cases xs with
  | nil => exact absurd rfl h
  | cons x rest =>
    have hrest : ((x :: rest).drop size).length ≤ rest.length := by
      rw [List.length_drop, List.length_cons]
      omega
    rw [← chunksUpTo_eq hsize hrest]
    rfl

/-- What is left behind some of the chunks has the other chunks. -/
theorem chunks_of_suffix (hsize : 0 < size) : ∀ {front back : List (List α)} {xs : List α}, chunks size xs = front ++ back →
    chunks size back.flatten = back := by
  intro front
  induction front with
  | nil =>
    intro back xs h
    rw [List.nil_append] at h
    rw [← h, flatten_chunks hsize]
  | cons chunk front ih =>
    intro back xs h
    cases xs with
    | nil => cases h
    | cons x rest =>
      rw [chunks_of_ne_nil hsize (List.cons_ne_nil x rest), List.cons_append, List.cons.injEq] at h
      exact ih h.2

theorem length_of_mem_chunksUpTo : ∀ {fuel : Nat} {xs chunk : List α}, chunk ∈ chunksUpTo size fuel xs →
    chunk.length ≤ min size xs.length ∧ (0 < size → chunk ≠ []) := by
  intro fuel
  induction fuel with
  | zero =>
    intro xs chunk hmem
    cases hmem
  | succ fuel ih =>
    intro xs chunk hmem
    unfold chunksUpTo at hmem
    split at hmem
    · cases hmem
    · rename_i hempty
      rcases List.mem_cons.1 hmem with rfl | hmem
      · refine ⟨Nat.le_of_eq List.length_take, fun hsize hnil => ?_⟩
        rw [List.take_eq_nil_iff] at hnil
        rcases hnil with hzero | hnil
        · omega
        · exact hempty (List.isEmpty_iff.2 hnil)
      · obtain ⟨hle, hne⟩ := ih hmem
        rw [List.length_drop] at hle
        exact ⟨by omega, hne⟩

theorem length_le_of_mem_chunks {xs chunk : List α} (h : chunk ∈ chunks size xs) : chunk.length ≤ min size xs.length :=
  (length_of_mem_chunksUpTo h).1

theorem ne_nil_of_mem_chunks (hsize : 0 < size) {xs chunk : List α} (h : chunk ∈ chunks size xs) : chunk ≠ [] :=
  (length_of_mem_chunksUpTo h).2 hsize

/-- The first chunk is the longest one. -/
theorem take_mem_chunks {xs : List α} (h : xs ≠ []) : xs.take size ∈ chunks size xs := by
  cases xs with
  | nil => exact absurd rfl h
  | cons x rest => exact List.mem_cons_self

/-- Every chunk satisfies a bound exactly when the longest does. -/
theorem forall_chunks_length_le {xs : List α} (h : xs ≠ []) (bound : Nat) :
    (∀ chunk ∈ chunks size xs, chunk.length ≤ bound) ↔ min size xs.length ≤ bound := by
  constructor
  · intro hall
    have hfirst := hall _ (take_mem_chunks h)
    rwa [List.length_take] at hfirst
  · intro hle chunk hmem
    exact Nat.le_trans (length_le_of_mem_chunks hmem) hle

end Hyeboard
