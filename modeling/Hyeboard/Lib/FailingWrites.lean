import Mathlib.Logic.Function.Basic
import Mathlib.Data.List.Basic
/-!
# Writes that can fail, and writing back

Several areas of keys and values, each with a quota of its own. A write may throw
and then changes nothing; deleting never throws. A write that needs no more room
than what was there at first, with nothing else in its area grown, goes through:
this is enough to write a single changed key of an area back.
-/

namespace Hyeboard.FailingWrites

universe u v w

variable {α : Type u} {κ : Type v} {β : Type w}

/-- What each area holds. -/
abbrev Stores (α : Type u) (κ : Type v) (β : Type w) := α → κ → Option β

inductive Write (α : Type u) (κ : Type v) (β : Type w) where
  | set (area : α) (key : κ) (value : β)
  | remove (area : α) (key : κ)

/-- Which writes throw: the number of the write, its area, what that holds, the key and the value decide. -/
abbrev Quota (α : Type u) (κ : Type v) (β : Type w) := Nat → α → (κ → Option β) → κ → β → Bool

structure Machine (α : Type u) (κ : Type v) (β : Type w) where
  stores : Stores α κ β
  /-- The writes so far. -/
  writes : Nat

section
variable [DecidableEq α] [DecidableEq κ]

/-- The stores with another value under a key, or none. -/
def put (stores : Stores α κ β) (area : α) (key : κ) (value : Option β) : Stores α κ β :=
  Function.update stores area (Function.update (stores area) key value)

def Write.apply (stores : Stores α κ β) : Write α κ β → Stores α κ β
  | .set area key value => put stores area key (some value)
  | .remove area key => put stores area key none

/-- Whether it went through, and what is left. -/
def Write.run (quota : Quota α κ β) (m : Machine α κ β) : Write α κ β → Bool × Machine α κ β
  | .set area key value =>
    if quota m.writes area (m.stores area) key value then (false, { m with writes := m.writes + 1 })
    else (true, { stores := put m.stores area key (some value), writes := m.writes + 1 })
  | .remove area key => (true, { m with stores := put m.stores area key none })

/-- One write after another, up to the first that throws. -/
def perform (quota : Quota α κ β) : List (Write α κ β) → Machine α κ β → Bool × Machine α κ β
  | [], m => (true, m)
  | write :: writes, m =>
    match write.run quota m with
    | (true, m) => perform quota writes m
    | (false, m) => (false, m)

/-- The write that brings a value back. -/
def restore (area : α) (key : κ) : Option β → Write α κ β
  | none => .remove area key
  | some value => .set area key value

variable {stores other : Stores α κ β} {area : α} {key : κ} {value : Option β} {quota : Quota α κ β} {m : Machine α κ β}

@[simp] theorem put_same : put stores area key value area key = value := by simp [put]

theorem put_of_key_ne {k : κ} (h : k ≠ key) : put stores area key value area k = stores area k := by simp [put, h]

theorem put_of_area_ne {a : α} (h : a ≠ area) (k : κ) : put stores area key value a k = stores a k := by simp [put, h]

theorem put_eq_iff {value : Option β} : put stores area key value = other ↔
    other area key = value ∧ ∀ a k, ¬ (a = area ∧ k = key) → other a k = stores a k := by
  constructor
  · rintro rfl
    refine ⟨put_same, fun a k hne => ?_⟩
    by_cases harea : a = area
    · subst harea
      exact put_of_key_ne fun hkey => hne ⟨rfl, hkey⟩
    · exact put_of_area_ne harea k
  · rintro ⟨hvalue, hother⟩
    funext a k
    by_cases hboth : a = area ∧ k = key
    · obtain ⟨rfl, rfl⟩ := hboth
      rw [put_same, hvalue]
    · rw [hother a k hboth]
      by_cases harea : a = area
      · subst harea
        exact put_of_key_ne fun hkey => hboth ⟨rfl, hkey⟩
      · exact put_of_area_ne harea k

theorem run_restore : (restore area key value).apply stores = put stores area key value := by
  cases value with
  | none => rfl
  | some value => rfl

/-- Where it stopped, the writes before have been made. -/
theorem perform_cases (writes : List (Write α κ β)) (m : Machine α κ β) :
    (∃ n, perform quota writes m = (true, { stores := writes.foldl Write.apply m.stores, writes := n })) ∨
    (∃ done area key value left n, writes = done ++ .set area key value :: left ∧
      perform quota writes m = (false, { stores := done.foldl Write.apply m.stores, writes := n })) := by
  induction writes generalizing m with
  | nil => exact .inl ⟨m.writes, rfl⟩
  | cons write writes ih =>
    cases write with
    | remove area key =>
      rcases ih { m with stores := put m.stores area key none } with
        ⟨n, hrun⟩ | ⟨done, a, k, value, left, n, rfl, hrun⟩
      · exact .inl ⟨n, hrun⟩
      · exact .inr ⟨.remove area key :: done, a, k, value, left, n, rfl, hrun⟩
    | set area key value =>
      by_cases hthrows : quota m.writes area (m.stores area) key value = true
      · refine .inr ⟨[], area, key, value, writes, m.writes + 1, rfl, ?_⟩
        simp only [perform, Write.run, hthrows, if_true]
        rfl
      · have hstep : perform quota (.set area key value :: writes) m =
            perform quota writes { stores := put m.stores area key (some value), writes := m.writes + 1 } := by
          simp only [perform, Write.run, hthrows, Bool.false_eq_true, if_false]
        rw [hstep]
        rcases ih { stores := put m.stores area key (some value), writes := m.writes + 1 } with
          ⟨n, hrun⟩ | ⟨done, a, k, v, left, n, rfl, hrun⟩
        · exact .inl ⟨n, hrun⟩
        · exact .inr ⟨.set area key value :: done, a, k, v, left, n, rfl, hrun⟩

/-- Of writes that end in deletions only, the last one that can throw leaves at most those in front of it. -/
theorem perform_last (quota : Quota α κ β) (writes : List (Write α κ β)) (last : Write α κ β) {removes : List (Write α κ β)}
    (hremoves : ∀ write ∈ removes, ∃ area key, write = .remove area key) (m : Machine α κ β) :
    (∃ n, perform quota (writes ++ last :: removes) m =
      (true, { stores := (writes ++ last :: removes).foldl Write.apply m.stores, writes := n })) ∨
    (∃ done n, done <+: writes ∧
      perform quota (writes ++ last :: removes) m = (false, { stores := done.foldl Write.apply m.stores, writes := n })) := by
  rcases perform_cases (writes ++ last :: removes) m with hdone | ⟨done, area, key, value, left, n, hsplit, hrun⟩
  · exact .inl hdone
  · refine .inr ⟨done, n, ?_, hrun⟩
    rcases List.append_eq_append_iff.1 hsplit with ⟨more, rfl, hmore⟩ | ⟨more, rfl, -⟩
    · cases more with
      | nil => exact ⟨[], by rw [List.append_nil, List.append_nil]⟩
      | cons first more =>
        rw [List.cons_append, List.cons.injEq] at hmore
        obtain ⟨a, k, hremove⟩ := hremoves (.set area key value) (hmore.2 ▸ List.mem_append_right _ List.mem_cons_self)
        cases hremove
    · exact List.prefix_append _ _

def Write.place : Write α κ β → α × κ
  | set area key _ | remove area key => (area, key)

/-- A key that no write touches keeps its value. -/
theorem foldl_apply_of_untouched {writes : List (Write α κ β)} {area : α} {key : κ} (h : ∀ write ∈ writes, write.place ≠ (area, key)) :
    writes.foldl Write.apply stores area key = stores area key := by
  induction writes generalizing stores with
  | nil => rfl
  | cons write writes ih =>
    rw [List.forall_mem_cons] at h
    rw [List.foldl_cons, ih h.2]
    have huntouched : ∀ a k value, (a, k) ≠ (area, key) → put stores a k value area key = stores area key := by
      intro a k value hne
      exact ((put_eq_iff.1 rfl).2 area key fun hboth => hne (by rw [hboth.1, hboth.2])).symm ▸ rfl
    cases write with
    | set a k value => exact huntouched a k _ h.1
    | remove a k => exact huntouched a k _ h.1

end

/-! ## Room -/

section
variable (size : β → Nat) (before : Stores α κ β)

/-- No larger than what was under the key at first. -/
def Fits (area : α) (key : κ) (value : β) : Prop := ∃ old, before area key = some old ∧ size value ≤ size old

/-- What is written where all else fits, and fits itself, goes through. -/
def Fair (quota : Quota α κ β) : Prop :=
  ∀ n area held key value, Fits size before area key value →
    (∀ k, k ≠ key → ∀ v, held k = some v → Fits size before area k v) → quota n area held key value = false

variable {size before}

theorem fits_of_eq {area : α} {key : κ} {value : β} (h : before area key = some value) : Fits size before area key value :=
  ⟨value, h, Nat.le_refl _⟩

/-- Everything that is stored fits. -/
def AllFit (size : β → Nat) (before stores : Stores α κ β) : Prop :=
  ∀ area key value, stores area key = some value → Fits size before area key value

theorem allFit_before : AllFit size before before := fun _ _ _ h => fits_of_eq h

variable [DecidableEq α] [DecidableEq κ] {quota : Quota α κ β} {m : Machine α κ β} {area : α} {key : κ}

/-- Where nothing else of the area has changed, a key is brought back. -/
theorem perform_restore (hfair : Fair size before quota) (hsame : ∀ k, k ≠ key → m.stores area k = before area k)
    (writes : List (Write α κ β)) :
    ∃ n, perform quota (restore area key (before area key) :: writes) m =
      perform quota writes { stores := put m.stores area key (before area key), writes := n } := by
  cases hbefore : before area key with
  | none => exact ⟨m.writes, rfl⟩
  | some value =>
    have hok : quota m.writes area (m.stores area) key value = false := by
      refine hfair _ _ _ _ _ (fits_of_eq hbefore) fun k hk v hv => ?_
      rw [hsame k hk] at hv
      exact fits_of_eq hv
    refine ⟨m.writes + 1, ?_⟩
    simp only [restore, perform, Write.run, hok, Bool.false_eq_true, if_false]

theorem AllFit.put {stores : Stores α κ β} (h : AllFit size before stores) {value : Option β}
    (hvalue : ∀ v, value = some v → Fits size before area key v) : AllFit size before (put stores area key value) := by
  intro a k v hv
  by_cases hboth : a = area ∧ k = key
  · obtain ⟨rfl, rfl⟩ := hboth
    rw [put_same] at hv
    exact hvalue v hv
  · have hother := (put_eq_iff.1 (rfl : FailingWrites.put stores area key value = _)).2 a k hboth
    rw [hother] at hv
    exact h a k v hv

/-- A write that needs no more room. -/
def Write.Fitting (size : β → Nat) (before : Stores α κ β) : Write α κ β → Prop
  | .set area key value => Fits size before area key value
  | .remove _ _ => True

/-- Writes that fit go through. -/
theorem perform_fitting (hfair : Fair size before quota) (writes : List (Write α κ β))
    (hfit : ∀ write ∈ writes, write.Fitting size before) (hm : AllFit size before m.stores) :
    (perform quota writes m).1 = true := by
  induction writes generalizing m with
  | nil => rfl
  | cons write writes ih =>
    rw [List.forall_mem_cons] at hfit
    cases write with
    | remove area key => exact ih hfit.2 (hm.put nofun)
    | set area key value =>
      have hok : quota m.writes area (m.stores area) key value = false :=
        hfair _ _ _ _ _ hfit.1 fun k _ v hv => hm area k v hv
      simp only [perform, Write.run, hok, Bool.false_eq_true, if_false]
      refine ih hfit.2 (hm.put ?_)
      rintro v ⟨⟩
      exact hfit.1

end

/-! ## The strictest quota -/

section
variable (size : β → Nat) (before : Stores α κ β)

open Classical in
/-- Every write throws that may. -/
noncomputable def strictest : Quota α κ β := fun _ area held key value =>
  decide (¬ (Fits size before area key value ∧ ∀ k, k ≠ key → ∀ v, held k = some v → Fits size before area k v))

theorem fair_strictest : Fair size before (strictest size before) := by
  intro n area held key value hfits hheld
  simp only [strictest, decide_eq_false_iff_not, not_not]
  exact ⟨hfits, hheld⟩

variable {size before} [DecidableEq α] [DecidableEq κ] {m : Machine α κ β}

/-- Under it, writes go through only if each of them fits. -/
theorem fitting_of_perform {writes : List (Write α κ β)} (h : (perform (strictest size before) writes m).1 = true) :
    ∀ write ∈ writes, write.Fitting size before := by
  induction writes generalizing m with
  | nil => exact List.forall_mem_nil _
  | cons write writes ih =>
    rw [List.forall_mem_cons]
    cases write with
    | remove area key => exact ⟨trivial, ih h⟩
    | set area key value =>
      by_cases hthrows : strictest size before m.writes area (m.stores area) key value = true
      · simp only [perform, Write.run, hthrows, if_true] at h
        cases h
      · simp only [perform, Write.run, hthrows, Bool.false_eq_true, if_false] at h
        simp only [strictest, decide_eq_true_eq, not_not] at hthrows
        exact ⟨hthrows.1, ih h⟩

end

end Hyeboard.FailingWrites
