import Mathlib.Data.List.Infix
/-!
# The first occurrence of a text in another

`indexOf` of lists, and where it looks when the searched text is put together with
separators that do not occur in the needle.
-/

namespace Hyeboard

universe u

variable {α : Type u} {needle front back : List α}

/-- No occurrence reaches over a separator. -/
theorem prefix_append_sep {sep : α} (hsep : sep ∉ needle) : needle <+: front ++ sep :: back ↔ needle <+: front := by
  constructor
  · intro h
    by_cases hle : needle.length ≤ front.length
    · exact List.prefix_of_prefix_length_le h (List.prefix_append _ _) hle
    · exfalso
      apply hsep
      have hshort : front ++ [sep] <+: needle := by
        apply List.prefix_of_prefix_length_le _ h (by simp; omega)
        exact ⟨back, by simp⟩
      exact hshort.subset (by simp)
  · exact fun h => h.trans (List.prefix_append _ _)

variable [DecidableEq α]

/-- `hay.indexOf(needle)`. -/
def indexOf (needle : List α) : List α → Option Nat
  | [] => if needle.isPrefixOf [] then some 0 else none
  | x :: rest => if needle.isPrefixOf (x :: rest) then some 0 else (indexOf needle rest).map (· + 1)

theorem indexOf_cons (x : α) (rest : List α) :
    indexOf needle (x :: rest) = if needle <+: x :: rest then some 0 else (indexOf needle rest).map (· + 1) := by
  simp only [indexOf, List.isPrefixOf_iff_prefix]

/-- What is found is there. -/
theorem prefix_drop_of_indexOf {hay : List α} : ∀ {i : Nat}, indexOf needle hay = some i → needle <+: hay.drop i := by
  induction hay with
  | nil =>
    intro i h
    simp only [indexOf, List.isPrefixOf_iff_prefix] at h
    split at h
    · cases h
      assumption
    · cases h
  | cons x rest ih =>
    intro i h
    rw [indexOf_cons] at h
    split at h
    · cases h
      assumption
    · obtain ⟨j, hj, rfl⟩ := Option.map_eq_some_iff.1 h
      exact ih hj

/-- Nothing is found exactly where nothing is there. -/
theorem indexOf_eq_none {hay : List α} : indexOf needle hay = none ↔ ¬ needle <:+: hay := by
  induction hay with
  | nil => simp [indexOf, List.isPrefixOf_iff_prefix]
  | cons x rest ih =>
    rw [indexOf_cons, List.infix_cons_iff, not_or, ← ih]
    split
    · simp [*]
    · simp [*]

theorem lt_length_of_indexOf (hne : needle ≠ []) {hay : List α} {i : Nat} (h : indexOf needle hay = some i) : i < hay.length := by
  have hle := (prefix_drop_of_indexOf h).length_le
  have hpos := List.length_pos_iff.2 hne
  rw [List.length_drop] at hle
  omega

/-- More text behind an occurrence does not move it. -/
theorem indexOf_append_of_some (hne : needle ≠ []) : ∀ {i : Nat}, indexOf needle front = some i → indexOf needle (front ++ back) = some i := by
  induction front with
  | nil =>
    intro i h
    have hlt := lt_length_of_indexOf hne h
    exact absurd hlt (Nat.not_lt_zero i)
  | cons x rest ih =>
    intro i h
    rw [indexOf_cons] at h
    rw [List.cons_append, indexOf_cons]
    by_cases hprefix : needle <+: x :: rest
    · rw [if_pos hprefix] at h
      have hlong : needle <+: x :: (rest ++ back) := hprefix.trans (List.prefix_append (x :: rest) back)
      rw [if_pos hlong, h]
    · rw [if_neg hprefix] at h
      obtain ⟨j, hj, rfl⟩ := Option.map_eq_some_iff.1 h
      have hnot : ¬ needle <+: x :: (rest ++ back) := by
        intro hlong
        apply hprefix
        -- it would end in front of the occurrence
        have hle := (prefix_drop_of_indexOf hj).length_le
        have hlt := lt_length_of_indexOf hne hj
        rw [List.length_drop] at hle
        apply List.prefix_of_prefix_length_le hlong (List.prefix_append (x :: rest) back)
        rw [List.length_cons]
        omega
      rw [if_neg hnot, ih hj]
      rfl

/-- Behind a text without an occurrence the search goes on at the separator. -/
theorem indexOf_append_sep {sep : α} (hne : needle ≠ []) (hsep : sep ∉ needle) (h : ¬ needle <:+: front) :
    indexOf needle (front ++ sep :: back) = (indexOf needle back).map (· + (front.length + 1)) := by
  induction front with
  | nil =>
    have hnot : ¬ needle <+: sep :: back := by
      rintro ⟨tail, heq⟩
      cases needle with
      | nil => exact hne rfl
      | cons x rest =>
        rw [List.cons_append, List.cons.injEq] at heq
        exact hsep (heq.1 ▸ List.mem_cons_self)
    rw [List.nil_append, indexOf_cons, if_neg hnot]
    rfl
  | cons x rest ih =>
    rw [List.infix_cons_iff, not_or] at h
    have hnot : ¬ needle <+: x :: (rest ++ sep :: back) := by
      intro hlong
      have hshort : needle <+: (x :: rest) ++ sep :: back := hlong
      exact h.1 ((prefix_append_sep hsep).1 hshort)
    rw [List.cons_append, indexOf_cons, if_neg hnot, ih h.2, Option.map_map]
    congr 1

/-! ## Cutting at the first occurrence -/

/-- What is in front of the first occurrence, and what is behind it. -/
def cut (needle hay : List α) : Option (List α × List α) :=
  (indexOf needle hay).map fun i => (hay.take i, hay.drop (i + needle.length))

theorem cut_cons_here {x : α} {rest : List α} (h : needle ++ back = x :: rest) : cut needle (x :: rest) = some ([], back) := by
  have hprefix : needle <+: x :: rest := ⟨back, h⟩
  rw [cut, indexOf_cons, if_pos hprefix, Option.map_some, List.take_zero, Nat.zero_add, ← h, List.drop_left]

theorem cut_cons_later {x : α} {rest : List α} (h : ¬ needle <+: x :: rest) :
    cut needle (x :: rest) = (cut needle rest).map fun parts => (x :: parts.1, parts.2) := by
  rw [cut, indexOf_cons, if_neg h, cut, Option.map_map, Option.map_map]
  congr 1
  funext i
  rw [Function.comp_apply, Function.comp_apply, List.take_succ_cons, Nat.add_right_comm, List.drop_succ_cons]

/-- The parts around an occurrence that none overlaps from before. -/
theorem cut_eq_some (hne : needle ≠ []) {hay : List α} :
    cut needle hay = some (front, back) ↔ hay = front ++ needle ++ back ∧ ¬ needle <:+: front ++ needle.dropLast := by
  induction hay generalizing front with
  | nil =>
    constructor
    · intro h
      have hnil : indexOf needle [] = none := by
        rw [indexOf_eq_none, List.infix_nil]
        exact hne
      rw [cut, hnil] at h
      cases h
    · rintro ⟨h, -⟩
      simp [hne] at h
  | cons x rest ih =>
    by_cases hprefix : needle <+: x :: rest
    · obtain ⟨tail, htail⟩ := hprefix
      rw [cut_cons_here htail, Option.some_inj, Prod.mk.injEq]
      constructor
      · rintro ⟨rfl, rfl⟩
        refine ⟨htail.symm, fun hinside => ?_⟩
        have hle := hinside.length_le
        have hpos := List.length_pos_iff.2 hne
        rw [List.nil_append, List.length_dropLast] at hle
        omega
      · rintro ⟨h, hfirst⟩
        cases front with
        | nil =>
          rw [List.nil_append, ← htail] at h
          exact ⟨rfl, List.append_cancel_left h⟩
        | cons y front =>
          exfalso
          apply hfirst
          -- the text starts with an occurrence, which ends before the one in question does
          apply List.IsPrefix.isInfix
          apply List.prefix_of_prefix_length_le ⟨tail, htail⟩
          · rw [h, List.append_assoc]
            refine ⟨needle.drop (needle.length - 1) ++ back, ?_⟩
            rw [List.append_assoc, ← List.append_assoc _ _ back, List.dropLast_eq_take, List.take_append_drop]
          · rw [List.length_append, List.length_cons, List.length_dropLast]
            omega
    · rw [cut_cons_later hprefix]
      constructor
      · intro h
        obtain ⟨⟨front, back⟩, hparts, hpair⟩ := Option.map_eq_some_iff.1 h
        cases hpair
        obtain ⟨rfl, hfirst⟩ := ih.1 hparts
        refine ⟨rfl, fun hinside => ?_⟩
        rw [List.cons_append, List.infix_cons_iff] at hinside
        rcases hinside with hbegins | hinside
        · apply hprefix
          refine hbegins.trans ⟨needle.drop (needle.length - 1) ++ back, ?_⟩
          rw [List.cons_append, List.append_assoc, ← List.append_assoc _ _ back, List.dropLast_eq_take, List.take_append_drop,
            List.append_assoc]
        · exact hfirst hinside
      · rintro ⟨h, hfirst⟩
        cases front with
        | nil => exact absurd ⟨back, h.symm⟩ hprefix
        | cons y front =>
          rw [List.cons_append, List.cons_append, List.cons.injEq] at h
          obtain ⟨rfl, hrest⟩ := h
          rw [List.cons_append, List.infix_cons_iff, not_or] at hfirst
          rw [ih.2 ⟨hrest, hfirst.2⟩]
          rfl

/-- A single separator is found where it first is. -/
theorem cut_singleton {sep : α} {hay : List α} : cut [sep] hay = some (front, back) ↔ hay = front ++ sep :: back ∧ sep ∉ front := by
  rw [cut_eq_some (List.cons_ne_nil _ _)]
  simp [List.singleton_infix_iff]

end Hyeboard
