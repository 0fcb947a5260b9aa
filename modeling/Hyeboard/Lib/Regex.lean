import Hyeboard.Lib.CodeUnits
/-!
# Regular expressions

A backtracking matcher: the ends of an expression at a place, in the order in which
they are tried. A group's last text is kept.
-/

namespace Hyeboard

inductive Regex where
  | unit (test : UInt16 → Bool)
  | nothing
  | seq (first second : Regex)
  | alt (first second : Regex)
  | star (greedy : Bool) (body : Regex)
  | group (index : Nat) (body : Regex)
  | boundary
  | start
  | finish

namespace Regex

/-- A place in a text: the unit before it, what follows, and the groups so far. -/
structure Cursor where
  before : Option UInt16
  rest : Text
  groups : List (Nat × Text)

/-- As often as it goes, or as rarely; an iteration that matches nothing is the last one. -/
def starFrom (greedy : Bool) (step : Cursor → List Cursor) : Nat → Cursor → List Cursor
  | 0, c => [c]
  | fuel + 1, c =>
    let more := (step c).flatMap fun next => if next.rest.length < c.rest.length then starFrom greedy step fuel next else []
    if greedy then more ++ [c] else c :: more

def isWordAt (u : Option UInt16) : Bool := u.any isWordUnit

/-- Where a match that begins here can end. -/
def ends : Regex → Cursor → List Cursor
  | .unit test, c =>
    match c.rest with
    | u :: rest => if test u then [{ c with before := some u, rest := rest }] else []
    | [] => []
  | .nothing, c => [c]
  | .seq first second, c => (ends first c).flatMap (ends second)
  | .alt first second, c => ends first c ++ ends second c
  | .star greedy body, c => starFrom greedy (ends body) c.rest.length c
  | .group index body, c =>
    (ends body c).map fun stop => { stop with groups := (index, c.rest.take (c.rest.length - stop.rest.length)) :: stop.groups }
  | .boundary, c => if isWordAt c.before != isWordAt c.rest.head? then [c] else []
  | .start, c => if c.before.isNone then [c] else []
  | .finish, c => if c.rest.isEmpty then [c] else []

/-! ## Searching -/

/-- A match: what was passed over before it, its text, and its groups. -/
structure Found where
  skipped : Text
  text : Text
  groups : List (Nat × Text)
  before : Option UInt16
  rest : Text

/-- The first match. -/
def find (r : Regex) (before : Option UInt16) : Text → Option Found
  | [] => (ends r ⟨before, [], []⟩).head?.map fun stop => ⟨[], [], stop.groups, stop.before, stop.rest⟩
  | u :: rest =>
    match (ends r ⟨before, u :: rest, []⟩).head? with
    | some stop => some ⟨[], (u :: rest).take (rest.length + 1 - stop.rest.length), stop.groups, stop.before, stop.rest⟩
    | none => (find r (some u) rest).map fun found => { found with skipped := u :: found.skipped }

/-- `exec`, from the beginning of the text. -/
def exec (r : Regex) (t : Text) : Option Found := find r none t

def test (r : Regex) (t : Text) : Bool := (exec r t).isSome

/-- The text of a group. -/
def Found.group (found : Found) (index : Nat) : Option Text := found.groups.lookup index

/-- The matches of an expression that matches no empty text, and what is left behind the last one. -/
def splitFrom (r : Regex) : Nat → Option UInt16 → Text → List Found × Text
  | 0, _, t => ([], t)
  | fuel + 1, before, t =>
    match find r before t with
    | none => ([], t)
    | some found =>
      let (others, tail) := splitFrom r fuel found.before found.rest
      (found :: others, tail)

def matchAll (r : Regex) (t : Text) : List Found := (splitFrom r (t.length + 1) none t).1

/-- `t.replace(r, f)`, where `r` has the flag `g`. -/
def replaceAll (r : Regex) (f : Found → Text) (t : Text) : Text :=
  let (found, tail) := splitFrom r (t.length + 1) none t
  found.flatMap (fun m => m.skipped ++ f m) ++ tail

/-! ## Notation -/

def sequence (parts : List Regex) : Regex := parts.foldr .seq .nothing

def plus (body : Regex) : Regex := .seq body (.star true body)

def optional (body : Regex) : Regex := .alt body .nothing

def times (n : Nat) (body : Regex) : Regex := sequence (List.replicate n body)

def upTo : Nat → Regex → Regex
  | 0, _ => .nothing
  | n + 1, body => .alt (.seq body (upTo n body)) .nothing

/-- `body{low,high}`. -/
def between (low high : Nat) (body : Regex) : Regex := .seq (times low body) (upTo (high - low) body)

def char (c : Char) : Regex := .unit (· = Hyeboard.unit c)

def word (s : String) : Regex := sequence (s.toList.map char)

/-- `[^...]`. -/
def notOf (s : String) : Regex := .unit fun u => ! (units s).contains u

/-- `[...]`, of single characters. -/
def oneOf (s : String) : Regex := .unit fun u => (units s).contains u

/-- `[\s\S]`. -/
def any : Regex := .unit fun _ => true

def space : Regex := .unit isSpaceUnit

def isDigitUnit (u : UInt16) : Bool := Hyeboard.unit '0' ≤ u && u ≤ Hyeboard.unit '9'

def digit : Regex := .unit isDigitUnit

/-! ## Classes of characters -/

section
variable {greedy : Bool} {accepts : UInt16 → Bool} {c stop : Cursor}

theorem starFrom_zero (step : Cursor → List Cursor) (c : Cursor) : starFrom greedy step 0 c = [c] := rfl

theorem starFrom_succ (step : Cursor → List Cursor) (fuel : Nat) (c : Cursor) : starFrom greedy step (fuel + 1) c =
    if greedy then ((step c).flatMap fun next => if next.rest.length < c.rest.length then starFrom greedy step fuel next else []) ++ [c]
    else c :: (step c).flatMap fun next => if next.rest.length < c.rest.length then starFrom greedy step fuel next else [] := rfl

theorem ends_unit (c : Cursor) : ends (.unit accepts) c = match c.rest with
    | u :: rest => if accepts u then [{ c with before := some u, rest := rest }] else []
    | [] => [] := rfl

theorem ends_nothing (c : Cursor) : ends .nothing c = [c] := rfl

theorem ends_seq (first second : Regex) (c : Cursor) : ends (.seq first second) c = (ends first c).flatMap (ends second) := rfl

theorem ends_alt (first second : Regex) (c : Cursor) : ends (.alt first second) c = ends first c ++ ends second c := rfl

theorem ends_star (body : Regex) (c : Cursor) : ends (.star greedy body) c = starFrom greedy (ends body) c.rest.length c := rfl

theorem ends_group (index : Nat) (body : Regex) (c : Cursor) : ends (.group index body) c =
    (ends body c).map fun stop => { stop with groups := (index, c.rest.take (c.rest.length - stop.rest.length)) :: stop.groups } := rfl

theorem ends_start (c : Cursor) : ends .start c = if c.before.isNone then [c] else [] := rfl

theorem ends_finish (c : Cursor) : ends .finish c = if c.rest.isEmpty then [c] else [] := rfl

theorem mem_ends_unit : stop ∈ ends (.unit accepts) c ↔ ∃ u rest, c.rest = u :: rest ∧ accepts u = true ∧ stop = { c with before := some u, rest := rest } := by
  obtain ⟨before, rest, groups⟩ := c
  cases rest with
  | nil => simp [ends_unit]
  | cons u rest =>
    by_cases haccepts : accepts u = true
    · simp [ends_unit, haccepts]
    · simp [ends_unit, haccepts]

/-- A repeated class passes over characters of the class. -/
theorem mem_starFrom_unit {fuel : Nat} (h : stop ∈ starFrom greedy (ends (.unit accepts)) fuel c) :
    ∃ passed, (∀ u ∈ passed, accepts u = true) ∧ c.rest = passed ++ stop.rest ∧ stop.groups = c.groups := by
  induction fuel generalizing c with
  | zero =>
    rw [starFrom_zero, List.mem_singleton] at h
    subst h
    exact ⟨[], List.forall_mem_nil _, rfl, rfl⟩
  | succ fuel ih =>
    have hcases : stop = c ∨ ∃ next ∈ ends (.unit accepts) c, stop ∈ starFrom greedy (ends (.unit accepts)) fuel next := by
      rw [starFrom_succ] at h
      have hmore : stop = c ∨ stop ∈ (ends (.unit accepts) c).flatMap fun next =>
          if next.rest.length < c.rest.length then starFrom greedy (ends (.unit accepts)) fuel next else [] := by
        split at h
        · rw [List.mem_append, List.mem_singleton] at h
          exact h.symm
        · rw [List.mem_cons] at h
          exact h
      rcases hmore with hstop | hmore
      · exact .inl hstop
      · obtain ⟨next, hnext, hmem⟩ := List.mem_flatMap.1 hmore
        split at hmem
        · exact .inr ⟨next, hnext, hmem⟩
        · cases hmem
    rcases hcases with rfl | ⟨next, hnext, hmem⟩
    · exact ⟨[], List.forall_mem_nil _, rfl, rfl⟩
    · obtain ⟨u, rest, hrest, haccepts, rfl⟩ := mem_ends_unit.1 hnext
      obtain ⟨passed, hpassed, heq, hgroups⟩ := ih hmem
      simp only at heq
      exact ⟨u :: passed, List.forall_mem_cons.2 ⟨haccepts, hpassed⟩, by rw [hrest, heq, List.cons_append], hgroups⟩

/-- `^[class]+$`. -/
def allOf (body : Regex) : Regex := sequence [.start, plus body, .finish]

theorem ends_allOf (h : stop ∈ ends (allOf (.unit accepts)) c) : c.before = none ∧ c.rest ≠ [] ∧ ∀ u ∈ c.rest, accepts u = true := by
  simp only [allOf, sequence, plus, List.foldr_cons, List.foldr_nil, ends_seq, ends_start, ends_finish, ends_nothing, ends_star, List.mem_flatMap] at h
  obtain ⟨c₁, hstart, c₂, ⟨c₃, hfirst, hmore⟩, c₄, hfinish, -⟩ := h
  split at hstart
  case isFalse => cases hstart
  case isTrue hbefore =>
    rw [List.mem_singleton] at hstart
    subst hstart
    obtain ⟨u, rest, hrest, haccepts, rfl⟩ := mem_ends_unit.1 hfirst
    obtain ⟨passed, hpassed, heq, -⟩ := mem_starFrom_unit hmore
    split at hfinish
    case isFalse => cases hfinish
    case isTrue hempty =>
      rw [List.isEmpty_iff] at hempty
      simp only [hempty, List.append_nil] at heq
      subst heq
      rw [hrest]
      exact ⟨Option.isNone_iff_eq_none.1 hbefore, List.cons_ne_nil _ _, List.forall_mem_cons.2 ⟨haccepts, hpassed⟩⟩

/-- Behind the first unit, nothing begins. -/
theorem find_allOf_some (u : UInt16) (t : Text) : find (allOf (.unit accepts)) (some u) t = none := by
  have hnone : ∀ v rest groups, (ends (allOf (.unit accepts)) ⟨some v, rest, groups⟩).head? = none := by
    intro v rest groups
    rw [List.head?_eq_none_iff, List.eq_nil_iff_forall_not_mem]
    intro stop hstop
    have hbefore := (ends_allOf hstop).1
    cases hbefore
  induction t generalizing u with
  | nil => rw [find, hnone]; rfl
  | cons v rest ih => rw [find, hnone, ih]; rfl

theorem all_of_test {t : Text} (h : test (allOf (.unit accepts)) t = true) : t ≠ [] ∧ ∀ u ∈ t, accepts u = true := by
  rw [test, exec] at h
  cases hends : ends (allOf (.unit accepts)) ⟨none, t, []⟩ with
  | nil =>
    cases t with
    | nil => simp [find, hends] at h
    | cons u rest => simp [find, hends, find_allOf_some] at h
  | cons stop stops => exact (ends_allOf (hends ▸ List.mem_cons_self : stop ∈ _)).2

end

/-! ## What an expression reads -/

/-- What is ahead of a cursor, and the groups so far. -/
def Cursor.ahead (c : Cursor) : Text × List (Nat × Text) := (c.rest, c.groups)

/-- The expression does not look back: what is ahead tells where it can end. -/
def Reads (r : Regex) (relation : Text × List (Nat × Text) → Text × List (Nat × Text) → Prop) : Prop :=
  ∀ c there, (∃ stop ∈ ends r c, stop.ahead = there) ↔ relation c.ahead there

section
variable {accepts : UInt16 → Bool} {first second : Regex} {R S : Text × List (Nat × Text) → Text × List (Nat × Text) → Prop}

theorem Reads.congr (h : Reads first R) (hiff : ∀ here there, R here there ↔ S here there) : Reads first S := by
  intro c there
  rw [h c there, hiff]

theorem reads_nothing : Reads .nothing (· = ·) := by
  intro c there
  simp [ends_nothing]

theorem reads_unit : Reads (.unit accepts) fun here there => ∃ u, here.1 = u :: there.1 ∧ accepts u = true ∧ there.2 = here.2 := by
  intro c there
  constructor
  · rintro ⟨stop, hstop, rfl⟩
    obtain ⟨u, rest, hrest, haccepts, rfl⟩ := mem_ends_unit.1 hstop
    exact ⟨u, hrest, haccepts, rfl⟩
  · rintro ⟨u, hrest, haccepts, hgroups⟩
    exact ⟨_, mem_ends_unit.2 ⟨u, there.1, hrest, haccepts, rfl⟩, Prod.ext rfl hgroups.symm⟩

theorem Reads.seq (h : Reads first R) (h' : Reads second S) :
    Reads (.seq first second) fun here there => ∃ mid, R here mid ∧ S mid there := by
  intro c there
  rw [ends_seq]
  constructor
  · rintro ⟨stop, hstop, rfl⟩
    obtain ⟨mid, hmid, hstop⟩ := List.mem_flatMap.1 hstop
    exact ⟨mid.ahead, (h c mid.ahead).1 ⟨mid, hmid, rfl⟩, (h' mid stop.ahead).1 ⟨stop, hstop, rfl⟩⟩
  · rintro ⟨ahead, hfirst, hsecond⟩
    obtain ⟨mid, hmid, rfl⟩ := (h c ahead).2 hfirst
    obtain ⟨stop, hstop, rfl⟩ := (h' mid there).2 hsecond
    exact ⟨stop, List.mem_flatMap.2 ⟨mid, hmid, hstop⟩, rfl⟩

theorem Reads.alt (h : Reads first R) (h' : Reads second S) :
    Reads (.alt first second) fun here there => R here there ∨ S here there := by
  intro c there
  rw [ends_alt]
  simp only [List.mem_append, or_and_right, exists_or]
  rw [h c there, h' c there]

theorem Reads.group {index : Nat} (h : Reads first R) :
    Reads (.group index first) fun here there =>
      ∃ mid, R here mid ∧ there = (mid.1, (index, here.1.take (here.1.length - mid.1.length)) :: mid.2) := by
  intro c there
  rw [ends_group]
  constructor
  · rintro ⟨stop, hstop, rfl⟩
    obtain ⟨mid, hmid, rfl⟩ := List.mem_map.1 hstop
    exact ⟨mid.ahead, (h c mid.ahead).1 ⟨mid, hmid, rfl⟩, rfl⟩
  · rintro ⟨ahead, hfirst, rfl⟩
    obtain ⟨mid, hmid, rfl⟩ := (h c ahead).2 hfirst
    exact ⟨_, List.mem_map.2 ⟨mid, hmid, rfl⟩, rfl⟩

/-- A repeated class stops behind any beginning of characters of the class. -/
theorem starFrom_unit_reaches {greedy : Bool} {passed rest : Text} (h : ∀ u ∈ passed, accepts u = true) :
    ∀ {fuel : Nat} {c : Cursor}, c.rest = passed ++ rest → passed.length ≤ fuel →
      ∃ stop ∈ starFrom greedy (ends (.unit accepts)) fuel c, stop.ahead = (rest, c.groups) := by
  induction passed with
  | nil =>
    intro fuel c hrest _
    refine ⟨c, ?_, Prod.ext hrest rfl⟩
    cases fuel with
    | zero => exact List.mem_singleton_self c
    | succ fuel =>
      rw [starFrom_succ]
      split
      · exact List.mem_append_right _ (List.mem_singleton_self c)
      · exact List.mem_cons_self
  | cons u passed ih =>
    intro fuel c hrest hfuel
    rw [List.forall_mem_cons] at h
    cases fuel with
    | zero => cases hfuel
    | succ fuel =>
      let next : Cursor := { c with before := some u, rest := passed ++ rest }
      have hreached : ∃ stop ∈ starFrom greedy (ends (.unit accepts)) fuel next, stop.ahead = (rest, next.groups) :=
        ih h.2 rfl (Nat.le_of_succ_le_succ hfuel)
      obtain ⟨stop, hstop, hahead⟩ := hreached
      refine ⟨stop, ?_, hahead⟩
      -- one turn passes over `u`, the induction over the others
      have hnext : next ∈ ends (.unit accepts) c := mem_ends_unit.2 ⟨u, passed ++ rest, hrest, h.1, rfl⟩
      have hmore : stop ∈ (ends (.unit accepts) c).flatMap fun next =>
          if next.rest.length < c.rest.length then starFrom greedy (ends (.unit accepts)) fuel next else [] := by
        refine List.mem_flatMap.2 ⟨next, hnext, ?_⟩
        have hshorter : next.rest.length < c.rest.length := by
          rw [hrest, List.cons_append, List.length_cons]
          exact Nat.lt_succ_self _
        rw [if_pos hshorter]
        exact hstop
      rw [starFrom_succ]
      split
      · exact List.mem_append_left _ hmore
      · exact List.mem_cons_of_mem _ hmore

theorem reads_star_unit {greedy : Bool} : Reads (.star greedy (.unit accepts)) fun here there =>
    ∃ passed, (∀ u ∈ passed, accepts u = true) ∧ here.1 = passed ++ there.1 ∧ there.2 = here.2 := by
  intro c there
  rw [ends_star]
  constructor
  · rintro ⟨stop, hstop, rfl⟩
    exact mem_starFrom_unit hstop
  · rintro ⟨passed, hpassed, hrest, hgroups⟩
    have hfuel : passed.length ≤ c.rest.length := by
      change c.rest = _ at hrest
      rw [hrest, List.length_append]
      exact Nat.le_add_right _ _
    have hreached : ∃ stop ∈ starFrom greedy (ends (.unit accepts)) c.rest.length c, stop.ahead = (there.1, c.groups) :=
      starFrom_unit_reaches hpassed hrest hfuel
    obtain ⟨stop, hstop, hahead⟩ := hreached
    exact ⟨stop, hstop, hahead.trans (Prod.ext rfl hgroups.symm)⟩

/-- A word in any case. -/
theorem reads_lower (word : List Char) : Reads (sequence (word.map fun c => .unit fun u => lowerUnit u = Hyeboard.unit c)) fun here there =>
    ∃ name, here.1 = name ++ there.1 ∧ name.map lowerUnit = word.map Hyeboard.unit ∧ there.2 = here.2 := by
  induction word with
  | nil =>
    refine reads_nothing.congr fun here there => ?_
    simp [Prod.ext_iff, eq_comm]
  | cons c word ih =>
    refine (reads_unit.seq ih).congr fun here there => ?_
    constructor
    · rintro ⟨mid, ⟨u, hhere, hu, hmid⟩, name, hrest, hname, hthere⟩
      refine ⟨u :: name, ?_, ?_, hthere.trans hmid⟩
      · rw [hhere, hrest, List.cons_append]
      · rw [List.map_cons, List.map_cons, of_decide_eq_true hu, hname]
    · rintro ⟨name, hhere, hname, hthere⟩
      cases name with
      | nil => cases hname
      | cons u name =>
        rw [List.map_cons, List.map_cons, List.cons.injEq] at hname
        exact ⟨(name ++ there.1, here.2), ⟨u, hhere, decide_eq_true hname.1, rfl⟩, name, rfl, hname.2, hthere⟩

end

end Regex

end Hyeboard
