import Mathlib.Data.List.Nodup
import Mathlib.Data.List.Perm.Basic
/-!
# Records

A JavaScript object used as a map from strings: its own properties in the
order they were created, no key twice. Assigning to a key that is there keeps
its place, assigning to a new key appends it. (Array-index keys, which engines
list first, never occur: every key of the program is a fixed-length identifier.)
`get?` decides everything but the order, so two records with the same `get?`
hold the same entries up to order (`equiv_iff_perm`).
-/

namespace Hyeboard

universe u v

/-- An object as a map: distinct keys, in creation order. -/
structure Record (α : Type u) where
  entries : List (String × α)
  nodup : (entries.map Prod.fst).Nodup
deriving DecidableEq

/-- Assigning to `key` in a list of properties. -/
def assign {α : Type u} (key : String) (value : α) : List (String × α) → List (String × α)
  | [] => [(key, value)]
  | (k, w) :: rest => if k = key then (key, value) :: rest else (k, w) :: assign key value rest

theorem mem_map_fst_assign {α : Type u} {key : String} {value : α} {l : List (String × α)} {k : String} :
    k ∈ (assign key value l).map Prod.fst ↔ k = key ∨ k ∈ l.map Prod.fst := by
  induction l with
  | nil => simp [assign]
  | cons p rest ih =>
    obtain ⟨k', w⟩ := p
    by_cases h : k' = key
    · subst h; simp [assign]
    · simp only [assign, h, if_false, List.map_cons, List.mem_cons, ih]
      tauto

theorem nodup_assign {α : Type u} (key : String) (value : α) {l : List (String × α)}
    (h : (l.map Prod.fst).Nodup) : ((assign key value l).map Prod.fst).Nodup := by
  induction l with
  | nil => simp [assign]
  | cons p rest ih =>
    obtain ⟨k, w⟩ := p
    simp only [List.map_cons, List.nodup_cons] at h
    by_cases hk : k = key
    · subst hk; simpa [assign] using h
    · simp only [assign, hk, if_false, List.map_cons, List.nodup_cons, mem_map_fst_assign]
      exact ⟨by tauto, ih h.2⟩

namespace Record
variable {α : Type u} {β : Type v}

def empty : Record α := ⟨[], by simp⟩

def keys (r : Record α) : List String := r.entries.map Prod.fst

def size (r : Record α) : Nat := r.entries.length

/-- `r[key]`, `none` for `undefined`. -/
def get? (r : Record α) (key : String) : Option α :=
  (r.entries.find? (fun e => e.1 = key)).map Prod.snd

/-- `{ ...r, [key]: value }`. -/
def set (r : Record α) (key : String) (value : α) : Record α :=
  ⟨assign key value r.entries, nodup_assign key value r.nodup⟩

/-- `Object.fromEntries(Object.entries(r).filter(([, value]) => keep(value)))`. -/
def filter (r : Record α) (keep : α → Bool) : Record α :=
  ⟨r.entries.filter (fun e => keep e.2), (List.filter_sublist.map Prod.fst).nodup r.nodup⟩

/-- The entries `keep` accepts, by key and value. -/
def select (r : Record α) (keep : String → α → Bool) : Record α :=
  ⟨r.entries.filter (fun e => keep e.1 e.2), (List.filter_sublist.map Prod.fst).nodup r.nodup⟩

/-- `delete r[key]`. -/
def delete (r : Record α) (key : String) : Record α :=
  ⟨r.entries.filter (fun e => e.1 ≠ key), (List.filter_sublist.map Prod.fst).nodup r.nodup⟩

/-- `Object.fromEntries(Object.entries(r).map(([key, value]) => [key, f(key, value)]))`. -/
def mapValues (r : Record α) (f : String → α → β) : Record β :=
  ⟨r.entries.map (fun e => (e.1, f e.1 e.2)), by simpa [Function.comp_def] using r.nodup⟩

/-- The object a list of assignments builds. -/
def ofList (l : List (String × α)) : Record α := l.foldl (fun r e => r.set e.1 e.2) empty

/-! ## Lookups -/

theorem get?_eq_some {r : Record α} {key : String} {value : α} :
    r.get? key = some value ↔ (key, value) ∈ r.entries := by
  simp only [get?, Option.map_eq_some_iff, Prod.exists]
  constructor
  · rintro ⟨k, w, h, rfl⟩
    have hk : k = key := by simpa using List.find?_some h
    exact hk ▸ List.mem_of_find?_eq_some h
  · intro h
    have hsome : (r.entries.find? (fun e => e.1 = key)).isSome :=
      List.find?_isSome.2 ⟨_, h, by simp⟩
    obtain ⟨⟨k, w⟩, hf⟩ := Option.isSome_iff_exists.1 hsome
    have hk : k = key := by simpa using List.find?_some hf
    have he := List.inj_on_of_nodup_map r.nodup (List.mem_of_find?_eq_some hf) h hk
    exact ⟨k, w, hf, congrArg Prod.snd he⟩

theorem get?_eq_none {r : Record α} {key : String} : r.get? key = none ↔ key ∉ r.keys := by
  constructor
  · intro h hk
    obtain ⟨e, he, rfl⟩ := List.mem_map.1 hk
    rw [get?_eq_some.2 he] at h
    cases h
  · intro h
    cases hg : r.get? key with
    | none => rfl
    | some value => exact absurd (List.mem_map.2 ⟨_, get?_eq_some.1 hg, rfl⟩) h

theorem mem_keys {r : Record α} {key : String} : key ∈ r.keys ↔ ∃ value, r.get? key = some value := by
  rw [← not_iff_not, ← get?_eq_none]
  cases r.get? key <;> simp

@[simp] theorem get?_empty (key : String) : (empty : Record α).get? key = none := rfl

theorem get?_set (r : Record α) (key : String) (value : α) (k : String) :
    (r.set key value).get? k = if k = key then some value else r.get? k := by
  obtain ⟨l, hl⟩ := r
  simp only [get?, set]
  induction l with
  | nil => by_cases h : k = key <;> simp [assign, h, eq_comm]
  | cons p rest ih =>
    obtain ⟨k', w⟩ := p
    have ih' := ih (by simp only [List.map_cons, List.nodup_cons] at hl; exact hl.2)
    by_cases hk : k' = key
    · subst hk
      by_cases h : k = k' <;> simp [assign, h, eq_comm]
    · simp only [assign, hk, if_false, List.find?_cons]
      by_cases hk' : k' = k
      · subst hk'; simp [hk]
      · simpa [hk'] using ih'

@[simp] theorem get?_set_self (r : Record α) (key : String) (value : α) :
    (r.set key value).get? key = some value := by simp [get?_set]

theorem get?_set_of_ne (r : Record α) {key k : String} (value : α) (h : k ≠ key) :
    (r.set key value).get? k = r.get? k := by simp [get?_set, h]

theorem mem_entries_filter {r : Record α} {keep : α → Bool} {e : String × α} :
    e ∈ (r.filter keep).entries ↔ e ∈ r.entries ∧ keep e.2 = true := by simp [filter]

theorem get?_filter (r : Record α) (keep : α → Bool) (key : String) :
    (r.filter keep).get? key = (r.get? key).filter keep := by
  ext value
  rw [get?_eq_some, mem_entries_filter, Option.filter_eq_some_iff, get?_eq_some]

theorem get?_select (r : Record α) (keep : String → α → Bool) (key : String) :
    (r.select keep).get? key = (r.get? key).filter (keep key) := by
  ext value
  rw [get?_eq_some, Option.filter_eq_some_iff, get?_eq_some]
  simp [select]

theorem get?_delete (r : Record α) (key k : String) :
    (r.delete key).get? k = if k = key then none else r.get? k := by
  ext value
  rw [get?_eq_some]
  by_cases h : k = key
  · simp [delete, h]
  · simp [delete, h, get?_eq_some]

theorem get?_mapValues (r : Record α) (f : String → α → β) (key : String) :
    (r.mapValues f).get? key = (r.get? key).map (f key) := by
  ext value
  rw [get?_eq_some, Option.map_eq_some_iff]
  simp only [mapValues, List.mem_map, Prod.mk.injEq, Prod.exists]
  constructor
  · rintro ⟨k, w, hmem, rfl, rfl⟩
    exact ⟨w, get?_eq_some.2 hmem, rfl⟩
  · rintro ⟨w, hget, rfl⟩
    exact ⟨key, w, get?_eq_some.1 hget, rfl, rfl⟩

theorem mem_entries_set {r : Record α} {key : String} {value : α} {e : String × α}
    (h : e ∈ (r.set key value).entries) : e = (key, value) ∨ e ∈ r.entries := by
  obtain ⟨k, w⟩ := e
  have hg := get?_eq_some.2 h
  rw [get?_set] at hg
  split at hg
  · rename_i hk; subst hk; cases hg; exact .inl rfl
  · exact .inr (get?_eq_some.1 hg)

/-! ## Building a record -/

theorem assign_append {key : String} {value : α} {l : List (String × α)} (h : key ∉ l.map Prod.fst) :
    assign key value l = l ++ [(key, value)] := by
  induction l with
  | nil => rfl
  | cons p rest ih =>
    obtain ⟨k, w⟩ := p
    simp only [List.map_cons, List.mem_cons, not_or] at h
    simp only [assign, Ne.symm h.1, if_false, List.cons_append, ih h.2]

theorem length_assign_le (key : String) (value : α) (l : List (String × α)) :
    (assign key value l).length ≤ l.length + 1 := by
  induction l with
  | nil => exact Nat.le_refl _
  | cons e rest ih =>
    unfold assign
    split
    · exact Nat.le_succ _
    · exact Nat.succ_le_succ ih

theorem size_set_le (r : Record α) (key : String) (value : α) : (r.set key value).size ≤ r.size + 1 :=
  length_assign_le key value r.entries

theorem size_set_of_get?_none {r : Record α} {key : String} (h : r.get? key = none) (value : α) :
    (r.set key value).size = r.size + 1 := by
  rw [get?_eq_none] at h
  have hassign : assign key value r.entries = r.entries ++ [(key, value)] := assign_append h
  have hlength := congrArg List.length hassign
  rwa [List.length_append, List.length_singleton] at hlength

theorem length_assign_of_mem {key : String} {value : α} {l : List (String × α)} (h : key ∈ l.map Prod.fst) :
    (assign key value l).length = l.length := by
  induction l with
  | nil => cases h
  | cons e rest ih =>
    obtain ⟨k, w⟩ := e
    rw [assign]
    split
    case isTrue => rfl
    case isFalse hne =>
      rw [List.map_cons, List.mem_cons] at h
      rw [List.length_cons, List.length_cons, ih (h.resolve_left (Ne.symm hne))]

theorem size_set_of_get?_some {r : Record α} {key : String} {old : α} (h : r.get? key = some old) (value : α) :
    (r.set key value).size = r.size :=
  length_assign_of_mem (mem_keys.2 ⟨old, h⟩)

theorem size_delete_le (r : Record α) (key : String) : (r.delete key).size ≤ r.size := List.length_filter_le _ _

theorem mem_entries_foldl_set {l : List (String × α)} {r : Record α} {e : String × α}
    (h : e ∈ (l.foldl (fun r e => r.set e.1 e.2) r).entries) : e ∈ l ∨ e ∈ r.entries := by
  induction l generalizing r with
  | nil => exact .inr h
  | cons p rest ih =>
    rcases ih h with h | h
    · exact .inl (List.mem_cons_of_mem _ h)
    · rcases mem_entries_set h with rfl | h
      · exact .inl List.mem_cons_self
      · exact .inr h

theorem mem_entries_ofList {l : List (String × α)} {e : String × α} (h : e ∈ (ofList l).entries) : e ∈ l := by
  rcases mem_entries_foldl_set h with h | h
  · exact h
  · cases h

theorem entries_foldl_set (l : List (String × α)) (r : Record α)
    (h : ((r.entries ++ l).map Prod.fst).Nodup) :
    (l.foldl (fun r e => r.set e.1 e.2) r).entries = r.entries ++ l := by
  induction l generalizing r with
  | nil => simp
  | cons p rest ih =>
    have hnew : p.1 ∉ r.entries.map Prod.fst := by
      simp only [List.map_append, List.map_cons] at h
      exact fun hm => (List.nodup_append.1 h).2.2 _ hm _ List.mem_cons_self rfl
    have hset : (r.set p.1 p.2).entries = r.entries ++ [p] := assign_append hnew
    rw [List.foldl_cons, ih (r.set p.1 p.2) (by rw [hset]; simpa using h), hset]
    simp

/-- Rebuilding a record from its own entries gives it back. -/
@[simp] theorem ofList_entries (r : Record α) : ofList r.entries = r := by
  have h := entries_foldl_set r.entries empty (by simpa [empty] using r.nodup)
  obtain ⟨l, hl⟩ := r
  simp only [ofList, empty, List.nil_append] at h ⊢
  generalize List.foldl _ _ l = r' at h
  obtain ⟨l', hl'⟩ := r'
  simp only at h
  subst h
  rfl

theorem get?_ofList {l : List (String × α)} (h : (l.map Prod.fst).Nodup) (key : String) :
    (ofList l).get? key = (l.find? (fun e => e.1 = key)).map Prod.snd := by
  have hentries : (ofList l).entries = l := entries_foldl_set l empty (by simpa [empty] using h)
  rw [get?, hentries]

/-- An object whose undefined properties are left out. -/
def ofDefined (l : List (String × Option α)) : Record α := ofList (l.filterMap fun e => e.2.map (e.1, ·))

theorem get?_ofDefined {l : List (String × Option α)} (h : (l.map Prod.fst).Nodup) (key : String) :
    (ofDefined l).get? key = (l.find? (fun e => e.1 = key)).bind Prod.snd := by
  have hdefined : ∀ l : List (String × Option α),
      ((l.filterMap fun e => e.2.map (e.1, ·)).map Prod.fst).Sublist (l.map Prod.fst) := by
    intro l
    induction l with
    | nil => exact .slnil
    | cons e rest ih =>
      obtain ⟨k, value⟩ := e
      cases value with
      | none => exact ih.cons k
      | some value => exact ih.cons_cons k
  rw [ofDefined, get?_ofList ((hdefined l).nodup h)]
  induction l with
  | nil => rfl
  | cons e rest ih =>
    obtain ⟨k, value⟩ := e
    rw [List.map_cons, List.nodup_cons] at h
    have ih := ih h.2
    by_cases hk : k = key
    · subst hk
      cases value with
      | some value => simp
      | none =>
        -- no later entry has the key
        have hnone : rest.find? (fun e => e.1 = k) = none := by
          rw [List.find?_eq_none]
          intro e hmem heq
          exact h.1 (List.mem_map.2 ⟨e, hmem, by simpa using heq⟩)
        rw [hnone] at ih
        simpa using ih
    · cases value <;> simpa [hk] using ih

/-! ## Records up to order -/

/-- The same entries, maybe in another order. -/
def Equiv (r r' : Record α) : Prop := ∀ key, r.get? key = r'.get? key

@[refl] theorem Equiv.refl (r : Record α) : r.Equiv r := fun _ => rfl

@[symm] theorem Equiv.symm {r r' : Record α} (h : r.Equiv r') : r'.Equiv r := fun key => (h key).symm

theorem Equiv.trans {r r' r'' : Record α} (h : r.Equiv r') (h' : r'.Equiv r'') : r.Equiv r'' :=
  fun key => (h key).trans (h' key)

theorem nodup_entries (r : Record α) : r.entries.Nodup := List.Nodup.of_map _ r.nodup

theorem equiv_iff_perm {r r' : Record α} : r.Equiv r' ↔ r.entries.Perm r'.entries := by
  rw [List.perm_ext_iff_of_nodup r.nodup_entries r'.nodup_entries]
  constructor
  · rintro h ⟨key, value⟩
    rw [← get?_eq_some, ← get?_eq_some, h key]
  · intro h key
    ext value
    rw [get?_eq_some, get?_eq_some, h]

theorem Equiv.set {r r' : Record α} (h : r.Equiv r') (key : String) (value : α) :
    (r.set key value).Equiv (r'.set key value) := by
  intro k
  rw [get?_set, get?_set, h k]

theorem Equiv.filter {r r' : Record α} (h : r.Equiv r') (keep : α → Bool) :
    (r.filter keep).Equiv (r'.filter keep) := by
  intro k
  rw [get?_filter, get?_filter, h k]

theorem Equiv.size_eq {r r' : Record α} (h : r.Equiv r') : r.size = r'.size :=
  (equiv_iff_perm.1 h).length_eq

theorem ext_entries {r r' : Record α} (h : r.entries = r'.entries) : r = r' := by
  cases r; cases r'; cases h; rfl

/-- A filter that drops nothing is the identity; up to order it drops nothing
from equivalent records alike. -/
theorem filter_eq_self {r : Record α} {keep : α → Bool} :
    r.filter keep = r ↔ ∀ e ∈ r.entries, keep e.2 = true := by
  constructor
  · intro h e he
    rw [← h, mem_entries_filter] at he
    exact he.2
  · intro h
    exact ext_entries (List.filter_eq_self.2 h)

end Record

end Hyeboard
