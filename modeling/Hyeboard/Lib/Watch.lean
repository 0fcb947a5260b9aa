import Mathlib.Logic.Function.Basic
/-!
# Optimistic transactions over shared connections

A key-value server in the manner of Redis: a connection watches keys, a change
to a watched key marks the connection dirty, and EXEC on a dirty connection is
aborted. Watches belong to the connection, so EXEC and UNWATCH drop all of
them, whoever set them. `Guarded` is what a client holds onto between reading a
key and writing it: as long as its own watch stands, an EXEC that is not
aborted finds the value it read.
-/

namespace Hyeboard.Watch

universe u v w

/-- Connections `C`, keys `K`, values `V`. -/
structure Server (C : Type u) (K : Type v) (V : Type w) where
  value : K → Option V
  watched : C → K → Bool
  dirty : C → Bool

namespace Server

variable {C : Type u} {K : Type v} {V : Type w}

def empty : Server C K V := { value := fun _ => none, watched := fun _ _ => false, dirty := fun _ => false }

/-- The key held `v` when it was read, and connection `c` would know of any
change since, if its watch still stands. -/
def Guarded (s : Server C K V) (c : C) (k : K) (v : Option V) : Prop :=
  s.watched c k = true → s.dirty c = false → s.value k = v

variable {s : Server C K V} {c c' : C} {k k' : K} {v w : Option V}

theorem guarded_of_value (h : s.value k = v) : s.Guarded c k v := fun _ _ => h

/-! ## UNWATCH -/

section
variable [DecidableEq C]

def unwatch (s : Server C K V) (c : C) : Server C K V :=
  { s with
    watched := Function.update s.watched c fun _ => false
    dirty := Function.update s.dirty c false }

@[simp] theorem unwatch_watched_self : (s.unwatch c).watched c k = false := by
  simp [unwatch]

theorem unwatch_watched_of_ne (h : c' ≠ c) : (s.unwatch c).watched c' k' = s.watched c' k' := by
  simp [unwatch, h]

theorem unwatch_dirty_of_ne (h : c' ≠ c) : (s.unwatch c).dirty c' = s.dirty c' := by
  simp [unwatch, h]

/-- UNWATCH on the same connection drops the watch, on another does nothing. -/
theorem Guarded.unwatch (h : s.Guarded c k v) (c' : C) : (s.unwatch c').Guarded c k v := by
  intro hwatched hclean
  by_cases hc : c = c'
  · subst hc
    rw [unwatch_watched_self] at hwatched
    cases hwatched
  · rw [unwatch_watched_of_ne hc] at hwatched
    rw [unwatch_dirty_of_ne hc] at hclean
    exact h hwatched hclean

end

/-! ## Writes -/

section
variable [DecidableEq K]

/-- A key is set, deleted or expires: whoever watches it is dirty. -/
def put (s : Server C K V) (k : K) (v : Option V) : Server C K V :=
  { s with
    value := Function.update s.value k v
    dirty := fun c => s.dirty c || s.watched c k }

@[simp] theorem put_watched : (s.put k v).watched = s.watched := rfl

@[simp] theorem put_value_self : (s.put k v).value k = v := by
  simp [put]

theorem put_value_of_ne (h : k' ≠ k) : (s.put k v).value k' = s.value k' := by
  simp [put, h]

/-- A change of the watched key dirties the connection. -/
theorem Guarded.put (h : s.Guarded c k v) (k' : K) (w : Option V) : (s.put k' w).Guarded c k v := by
  intro hwatched hclean
  have hclean : s.dirty c = false ∧ s.watched c k' = false := Bool.or_eq_false_iff.1 hclean
  have hne : k ≠ k' := by
    rintro rfl
    rw [put_watched, hclean.2] at hwatched
    cases hwatched
  rw [put_value_of_ne hne]
  exact h hwatched hclean.1

end

/-! ## WATCH and EXEC -/

section
variable [DecidableEq C] [DecidableEq K]

def watch (s : Server C K V) (c : C) (k : K) : Server C K V :=
  { s with watched := Function.update s.watched c (Function.update (s.watched c) k true) }

/-- EXEC of a transaction that writes `v` to `k`; `false` when it is aborted. -/
def exec (s : Server C K V) (c : C) (k : K) (v : Option V) : Bool × Server C K V :=
  if s.dirty c then (false, s.unwatch c) else (true, (s.unwatch c).put k v)

@[simp] theorem watch_watched_self : (s.watch c k).watched c k = true := by
  simp [watch]

theorem watch_watched_of_ne (h : (c', k') ≠ (c, k)) : (s.watch c k).watched c' k' = s.watched c' k' := by
  unfold watch
  by_cases hc : c' = c
  · subst hc
    have hk : k' ≠ k := fun hk => h (by rw [hk])
    simp [hk]
  · simp [hc]

/-- Only UNWATCH and EXEC of the connection itself drop a watch. -/
theorem exec_watched_of_ne (h : c' ≠ c) : (s.exec c k v).2.watched c' k' = s.watched c' k' := by
  unfold exec
  split
  · exact unwatch_watched_of_ne h
  · rw [put_watched]
    exact unwatch_watched_of_ne h

/-- Another client's WATCH, on any connection, changes nothing here. -/
theorem Guarded.watch (h : s.Guarded c k v) (hne : (c, k) ≠ (c', k')) : (s.watch c' k').Guarded c k v := by
  intro hwatched hclean
  rw [watch_watched_of_ne hne] at hwatched
  exact h hwatched hclean

theorem Guarded.exec (h : s.Guarded c k v) (c' : C) (k' : K) (w : Option V) :
    (s.exec c' k' w).2.Guarded c k v := by
  unfold Server.exec
  split
  · exact h.unwatch c'
  · exact (h.unwatch c').put k' w

/-- An EXEC that goes through under its own watch finds the value that was read
and leaves the one it writes. -/
theorem Guarded.committed (h : s.Guarded c k v) (hwatched : s.watched c k = true)
    (hexec : (s.exec c k w).1 = true) : s.value k = v ∧ (s.exec c k w).2.value k = w := by
  unfold Server.exec at hexec ⊢
  split at hexec
  · cases hexec
  · rename_i hdirty
    rw [if_neg hdirty]
    exact ⟨h hwatched (by simpa using hdirty), put_value_self⟩

end

end Server

end Hyeboard.Watch
