import Mathlib.Data.List.Infix
/-!
# The files a self-hosted server gives out

`apps/worker/src/serve-static.ts`: which file a request path names. The path
loses its leading slashes and every `..` before a separator or the end, and
`join` resolves what is left below the directory. A removal can leave a new
`..` behind, but only in a path with three dots in a row.
-/

namespace Hyeboard.StaticAssets

/-- A file by the names from the root of the file system down to it. -/
abbrev Location := List (List Char)

def isSeparator (c : Char) : Bool := c == '/' || c == '\\'

/-- `replace(/\.\.(\/|\\|$)/g, "")`. -/
def removeParents : List Char → List Char
  | [] => []
  | '.' :: '.' :: [] => []
  | '.' :: '.' :: c :: rest =>
    if isSeparator c then removeParents rest else '.' :: removeParents ('.' :: c :: rest)
  | c :: rest => c :: removeParents rest

/-- `normalize` of an absolute path, name by name. -/
def resolve (location : Location) : List (List Char) → Location
  | [] => location
  | name :: rest =>
    if name = [] ∨ name = ['.'] then resolve location rest
    else if name = ['.', '.'] then resolve location.dropLast rest
    else resolve (location ++ [name]) rest

def safeRelative (path : List Char) : List Char := removeParents (path.dropWhile (· = '/'))

/-- The file that is read. A slash at the end, which no file can be read with, is
dropped. -/
def candidate (root : Location) (path : List Char) : Location :=
  if safeRelative path = [] then root ++ ["index.html".toList]
  else resolve root ((safeRelative path).splitOn '/')

/-! ## Without three dots in a row -/

/-- Without a `..` among them the names only lead down. -/
theorem isPrefix_resolve {names : List (List Char)} (h : ['.', '.'] ∉ names) (location : Location) :
    location <+: resolve location names := by
  induction names generalizing location with
  | nil => exact List.prefix_rfl
  | cons name rest ih =>
    rw [List.mem_cons, not_or] at h
    unfold resolve
    split
    · exact ih h.2 location
    · rw [if_neg (Ne.symm h.1)]
      exact (List.prefix_append _ _).trans (ih h.2 _)

/-- A name of a path is followed by a slash, or by nothing. -/
theorem mem_intercalate {names : List (List Char)} {name : List Char} (h : name ∈ names) :
    ∃ before after, ['/'].intercalate names = before ++ name ++ after ∧ (after = [] ∨ ∃ rest, after = '/' :: rest) := by
  induction names with
  | nil => cases h
  | cons first rest ih =>
    cases rest with
    | nil =>
      rw [List.mem_singleton] at h
      exact ⟨[], [], by simp [h], .inl rfl⟩
    | cons second rest =>
      rw [List.intercalate_cons_cons]
      rcases List.mem_cons.1 h with rfl | h
      · exact ⟨[], '/' :: ['/'].intercalate (second :: rest), by simp, .inr ⟨_, rfl⟩⟩
      · obtain ⟨before, after, heq, hafter⟩ := ih h
        exact ⟨first ++ '/' :: before, after, by simp [heq], hafter⟩

theorem removeParents_dots (c : Char) (rest : List Char) : removeParents ('.' :: '.' :: c :: rest) =
    if isSeparator c then removeParents rest else '.' :: removeParents ('.' :: c :: rest) := rfl

theorem removeParents_kept {c : Char} {rest : List Char} (hlast : c = '.' → rest = ['.'] → False)
    (hmore : ∀ d more, c = '.' → rest = '.' :: d :: more → False) : removeParents (c :: rest) = c :: removeParents rest := by
  rw [removeParents.eq_def]
  split
  · rename_i heq
    cases heq
  · rename_i heq
    cases heq
    exact absurd rfl (hlast rfl)
  · rename_i heq
    cases heq
    exact absurd rfl (hmore _ _ rfl)
  · rename_i heq
    cases heq
    rfl

theorem removeParents_cons {c : Char} (h : c ≠ '.') (rest : List Char) : removeParents (c :: rest) = c :: removeParents rest := by
  rw [removeParents_kept]
  · exact fun hdot => absurd hdot h
  · exact fun _ _ hdot => absurd hdot h

/-- Where two dots stand before a slash or the end after the removal, there were
three in a row: of the last two one would have gone. -/
theorem dots_of_removeParents (path : List Char) : ∀ {before after : List Char},
    removeParents path = before ++ ['.', '.'] ++ after → (after = [] ∨ ∃ rest, after = '/' :: rest) →
      ['.', '.', '.'] <:+: path := by
  induction path using removeParents.induct with
  | case1 =>
    intro before after h _
    change [] = _ at h
    simp at h
  | case2 =>
    intro before after h _
    change [] = _ at h
    simp at h
  | case3 c rest hsep ih =>
    intro before after h hafter
    rw [removeParents_dots, if_pos hsep] at h
    exact (ih h hafter).trans ⟨['.', '.', c], [], by simp⟩
  | case4 c rest hsep ih =>
    intro before after h hafter
    rw [removeParents_dots, if_neg hsep] at h
    cases before with
    | nil =>
      by_cases hc : c = '.'
      · exact ⟨[], rest, by simp [hc]⟩
      · -- the second dot is kept too, so what comes next is no slash
        have hkept : removeParents ('.' :: c :: rest) = '.' :: c :: removeParents rest := by
          rw [removeParents_kept, removeParents_cons hc]
          · exact fun _ hlone => hc (List.cons.inj hlone).1
          · exact fun _ _ _ hdot => absurd (List.cons.inj hdot).1 hc
        simp only [hkept, List.nil_append, List.cons_append, List.cons.injEq, true_and] at h
        rcases hafter with rfl | ⟨after, rfl⟩
        · cases h
        · rw [(List.cons.inj h).1] at hsep
          exact absurd (by decide) hsep
    | cons b before =>
      have htail : removeParents ('.' :: c :: rest) = before ++ ['.', '.'] ++ after := (List.cons.inj h).2
      exact (ih htail hafter).trans (List.suffix_cons _ _).isInfix
  | case5 c rest hlast hmore ih =>
    intro before after h hafter
    rw [removeParents] at h
    cases before with
    | nil =>
      obtain ⟨rfl, htail⟩ : c = '.' ∧ removeParents rest = '.' :: after := List.cons.inj h
      cases rest with
      | nil => cases htail
      | cons d rest =>
        by_cases hd : d = '.'
        · subst hd
          cases rest with
          | nil => exact (hlast rfl rfl).elim
          | cons e rest => exact (hmore e rest rfl rfl).elim
        · rw [removeParents_cons hd] at htail
          exact absurd (List.cons.inj htail).1 hd
    | cons b before =>
      have htail : removeParents rest = before ++ ['.', '.'] ++ after := (List.cons.inj h).2
      exact (ih htail hafter).trans (List.suffix_cons _ _).isInfix
    · exact hlast
    · exact hmore

theorem not_mem_splitOn {path : List Char} (h : ¬ ['.', '.', '.'] <:+: path) :
    ['.', '.'] ∉ (removeParents path).splitOn '/' := by
  intro hmem
  obtain ⟨before, after, heq, hafter⟩ := mem_intercalate hmem
  rw [List.intercalate_splitOn] at heq
  exact h (dots_of_removeParents path heq hafter)

/-! ## Out of the directory -/

/-- `....//`, `count` times. -/
def climb : Nat → List Char
  | 0 => []
  | count + 1 => "....//".toList ++ climb count

def up (root : Location) : Nat → Location
  | 0 => root
  | count + 1 => up root.dropLast count

theorem climb_zero : climb 0 = [] := rfl

theorem removeParents_climb (count : Nat) (target : List Char) :
    removeParents (climb (count + 1) ++ target) = '.' :: '.' :: '/' :: removeParents (climb count ++ target) := by
  have hclimb : climb (count + 1) ++ target = '.' :: '.' :: '.' :: '.' :: '/' :: '/' :: (climb count ++ target) := rfl
  -- the first two dots stand before a dot, the next two before a slash
  rw [hclimb, removeParents_dots, if_neg (by decide), removeParents_dots, if_neg (by decide), removeParents_dots, if_pos (by decide),
    removeParents_cons (by decide)]

/-- A path without `..` is kept as it is. -/
theorem removeParents_eq_self {path : List Char} (h : ¬ ['.', '.'] <:+: path) : removeParents path = path := by
  induction path using removeParents.induct with
  | case1 => rfl
  | case2 => exact absurd List.infix_rfl h
  | case3 c rest _ _ => exact absurd ⟨[], c :: rest, rfl⟩ h
  | case4 c rest _ _ => exact absurd ⟨[], c :: rest, rfl⟩ h
  | case5 c rest hlast hmore ih =>
    rw [removeParents_kept, ih fun hinside => h (hinside.trans (List.suffix_cons _ _).isInfix)]
    · exact hlast
    · exact hmore

theorem resolve_climb (root : Location) (count : Nat) (target : List Char) :
    resolve root ((removeParents (climb count ++ target)).splitOn '/') =
      resolve (up root count) ((removeParents target).splitOn '/') := by
  induction count generalizing root with
  | zero => rfl
  | succ count ih =>
    have hsplit : (removeParents (climb (count + 1) ++ target)).splitOn '/' =
        ['.', '.'] :: (removeParents (climb count ++ target)).splitOn '/' := by
      rw [removeParents_climb]
      have hdots : '/' ∉ ['.', '.'] := by decide
      exact List.splitOn_append_cons_self_of_not_mem hdots _
    rw [hsplit, resolve, if_neg (by decide), if_pos rfl, ih]
    rfl

/-- The directory is not left by a path without three dots in a row; with
`....//` in front, any number of times, a path names what it would from as many
directories further up. -/
theorem candidate_contained_or_climbs (root : Location) :
    (∀ path, ¬ ['.', '.', '.'] <:+: path → root <+: candidate root path) ∧
      ∀ count target, target ≠ [] → ¬ ['.', '.'] <:+: target → target.head? ≠ some '/' →
        candidate root ('/' :: (climb count ++ target)) = resolve (up root count) (target.splitOn '/') := by
  constructor
  · intro path h
    have hstripped : ¬ ['.', '.', '.'] <:+: path.dropWhile (· = '/') :=
      fun hinside => h (hinside.trans (List.dropWhile_suffix _).isInfix)
    unfold candidate
    split
    · exact List.prefix_append _ _
    · exact isPrefix_resolve (not_mem_splitOn hstripped) root
  · intro count target hne hdots hhead
    have hstripped : ('/' :: (climb count ++ target)).dropWhile (· = '/') = climb count ++ target := by
      cases count with
      | zero =>
        cases target with
        | nil => exact absurd rfl hne
        | cons c rest =>
          have hc : c ≠ '/' := fun heq => hhead (congrArg some heq)
          simp [climb_zero, hc]
      | succ count => rfl
    have hkept : removeParents (climb count ++ target) ≠ [] := by
      cases count with
      | zero =>
        rw [climb_zero, List.nil_append, removeParents_eq_self hdots]
        exact hne
      | succ count =>
        rw [removeParents_climb]
        exact List.cons_ne_nil _ _
    rw [candidate, safeRelative, hstripped, if_neg hkept, resolve_climb, removeParents_eq_self hdots]

theorem candidate_contained_or_climbs_keys :
    let root : Location := ["srv".toList, "app".toList, "dist".toList]
    root <+: candidate root "/assets/../../main.js".toList ∧
      candidate root "/....//....//keys.txt".toList = ["srv".toList, "keys.txt".toList] := by
  intro root
  obtain ⟨hcontained, hclimbs⟩ := candidate_contained_or_climbs root
  refine ⟨hcontained _ (by decide), ?_⟩
  exact (hclimbs 2 "keys.txt".toList (by decide) (by decide) (by decide)).trans (by decide)

end Hyeboard.StaticAssets
