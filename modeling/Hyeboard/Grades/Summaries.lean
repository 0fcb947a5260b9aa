import Mathlib.Algebra.BigOperators.Group.List.Basic
import Mathlib.Algebra.Order.Field.Rat
import Mathlib.Data.List.Nodup
import Mathlib.Tactic.Linarith
import Hyeboard.Lib.CodeUnits
/-!
# Summaries of terms

`calculateTermAcademicSummaries` (`lib/grades/term-academic-summary.ts`): rows are grouped
by term, the groups with numeric keys are put in order among the places they have, and the
CPA is a running quotient over that order. Numbers that are finite are rationals here.
-/

namespace Hyeboard.Grades

inductive Number where
  | finite (q : ℚ)
  | nan
  | infinite (negative : Bool)
deriving DecidableEq

/-- A row. Values that are `null` or `undefined` are missing. -/
structure AcademicCourseInput (T : Type) where
  termKey : Text
  credits : Option Number
  point4 : Option Number
  course : T
  isSummer : Option Bool

structure AcademicTermSummary (T : Type) where
  termKey : Text
  courses : List T
  includesSummer : Bool
  listedCredits : ℚ
  includedCredits : ℚ
  termGpa4 : Option ℚ
  cpa4 : Option ℚ

structure Group (T : Type) where
  termKey : Text
  courses : List T
  includesSummer : Bool
  listedCredits : ℚ
  includedCredits : ℚ
  weightedPoints : ℚ
  sourceIndex : Nat

def isDigit (u : UInt16) : Bool := unit '0' ≤ u && u ≤ unit '9'

/-- `/^\d+$/`. -/
def isNumeric (termKey : Text) : Bool := ! termKey.isEmpty && termKey.all isDigit

/-- `/^\d+3$/`. -/
def isSummerKey (termKey : Text) : Bool := isNumeric termKey.dropLast && termKey.getLast? == some (unit '3')

/-- `Number` of digits. -/
def numberOf (termKey : Text) : Nat := termKey.foldl (fun n u => 10 * n + (u.toNat - (unit '0').toNat)) 0

def usesUetSummerRule (universityId : Text) : Bool := universityId == units "uet" || universityId == units "mock"

def groupedTermKey (termKey universityId : Text) : Text :=
  if usesUetSummerRule universityId && isSummerKey termKey then termKey.dropLast ++ [unit '2'] else termKey

/-- The value, where it is a positive finite number. -/
def positiveFinite : Option Number → Option ℚ
  | some (.finite q) => if 0 < q then some q else none
  | _ => none

/-- The value, where it is a finite number. -/
def finiteGrade : Option Number → Option ℚ
  | some (.finite q) => some q
  | _ => none

section
variable {T : Type}

def compareGroups (left right : Group T) : Int :=
  let difference : Int := numberOf left.termKey - numberOf right.termKey
  if difference ≠ 0 then difference else left.sourceIndex - right.sourceIndex

/-- The numeric groups take the places of the numeric groups. -/
def reinsert : List (Group T) → List (Group T) → List (Group T)
  | [], _ => []
  | group :: groups, numericGroups =>
    if isNumeric group.termKey then numericGroups.headD group :: reinsert groups numericGroups.tail
    else group :: reinsert groups numericGroups

def chronologicalGroups (groups : List (Group T)) : List (Group T) :=
  reinsert groups ((groups.filter (isNumeric ·.termKey)).mergeSort fun left right => compareGroups left right ≤ 0)

/-- `groups.set(termKey, group)`. -/
def setGroup (groups : List (Group T)) (group : Group T) : List (Group T) :=
  if groups.any (·.termKey == group.termKey) then groups.map fun other => if other.termKey == group.termKey then group else other
  else groups ++ [group]

def Group.add (group : Group T) (universityId : Text) (row : AcademicCourseInput T) : Group T :=
  let group := { group with
    courses := group.courses ++ [row.course]
    includesSummer := group.includesSummer || row.isSummer == some true ||
      (usesUetSummerRule universityId && row.termKey != group.termKey && row.termKey.getLast? == some (unit '3')) }
  match positiveFinite row.credits with
  | none => group
  | some credits =>
    let group := { group with listedCredits := group.listedCredits + credits }
    match finiteGrade row.point4 with
    | none => group
    | some point4 =>
      { group with
        includedCredits := group.includedCredits + credits
        weightedPoints := group.weightedPoints + credits * point4 }

/-- One row. -/
def addRow (universityId : Text) (groups : List (Group T)) (row : AcademicCourseInput T × Nat) : List (Group T) :=
  let termKey := groupedTermKey row.1.termKey universityId
  let group := (groups.find? (·.termKey == termKey)).getD ⟨termKey, [], false, 0, 0, 0, row.2⟩
  setGroup groups (group.add universityId row.1)

def groupRows (rows : List (AcademicCourseInput T)) (universityId : Text) : List (Group T) :=
  rows.zipIdx.foldl (addRow universityId) []

/-- `undefined` where there are no credits. -/
def quotient (points credits : ℚ) : Option ℚ := if 0 < credits then some (points / credits) else none

/-- The last `map`, with the running sums. -/
def summarize : (runningCredits runningPoints : ℚ) → List (Group T) → List (AcademicTermSummary T)
  | _, _, [] => []
  | runningCredits, runningPoints, group :: groups =>
    let runningCredits := runningCredits + group.includedCredits
    let runningPoints := runningPoints + group.weightedPoints
    { termKey := group.termKey
      courses := group.courses
      includesSummer := group.includesSummer
      listedCredits := group.listedCredits
      includedCredits := group.includedCredits
      termGpa4 := quotient group.weightedPoints group.includedCredits
      cpa4 := quotient runningPoints runningCredits } :: summarize runningCredits runningPoints groups

def calculateTermAcademicSummaries (rows : List (AcademicCourseInput T)) (universityId : Text) : List (AcademicTermSummary T) :=
  summarize 0 0 (chronologicalGroups (groupRows rows universityId))

/-! ## What a term comes to -/

/-- The credits of a row that are listed. -/
def AcademicCourseInput.listed (row : AcademicCourseInput T) : ℚ := (positiveFinite row.credits).getD 0

/-- The credits and the grade of a row that is included. -/
def AcademicCourseInput.graded (row : AcademicCourseInput T) : Option (ℚ × ℚ) :=
  (positiveFinite row.credits).bind fun credits => (finiteGrade row.point4).map fun point4 => (credits, point4)

def includedSum (rows : List (AcademicCourseInput T)) : ℚ := ((rows.filterMap (·.graded)).map Prod.fst).sum

def pointsSum (rows : List (AcademicCourseInput T)) : ℚ := ((rows.filterMap (·.graded)).map fun graded => graded.1 * graded.2).sum

def listedSum (rows : List (AcademicCourseInput T)) : ℚ := (rows.map (·.listed)).sum

/-- The row makes its term one with summer courses. -/
def AcademicCourseInput.summer (universityId : Text) (row : AcademicCourseInput T) : Bool :=
  row.isSummer == some true || (usesUetSummerRule universityId && row.termKey != groupedTermKey row.termKey universityId &&
    row.termKey.getLast? == some (unit '3'))

def termRows (universityId : Text) (rows : List (AcademicCourseInput T)) (termKey : Text) : List (AcademicCourseInput T) :=
  rows.filter fun row => groupedTermKey row.termKey universityId == termKey

/-- A group is that of the rows of its term. -/
structure Group.Of (universityId : Text) (rows : List (AcademicCourseInput T)) (group : Group T) : Prop where
  courses : group.courses = (termRows universityId rows group.termKey).map (·.course)
  includesSummer : group.includesSummer = (termRows universityId rows group.termKey).any (·.summer universityId)
  listed : group.listedCredits = listedSum (termRows universityId rows group.termKey)
  included : group.includedCredits = includedSum (termRows universityId rows group.termKey)
  points : group.weightedPoints = pointsSum (termRows universityId rows group.termKey)

section
variable {universityId : Text} {rows more : List (AcademicCourseInput T)} {row : AcademicCourseInput T} {group : Group T}
  {groups : List (Group T)}

theorem sums_append : listedSum (rows ++ more) = listedSum rows + listedSum more ∧
    includedSum (rows ++ more) = includedSum rows + includedSum more ∧ pointsSum (rows ++ more) = pointsSum rows + pointsSum more := by
  simp only [listedSum, includedSum, pointsSum, List.filterMap_append, List.map_append, List.sum_append, and_self]

/-- What one row adds to a group. -/
theorem Group.add_eq (group : Group T) (universityId : Text) (row : AcademicCourseInput T) :
    group.add universityId row =
      { termKey := group.termKey
        courses := group.courses ++ [row.course]
        includesSummer := group.includesSummer || row.isSummer == some true ||
          (usesUetSummerRule universityId && row.termKey != group.termKey && row.termKey.getLast? == some (unit '3'))
        listedCredits := group.listedCredits + listedSum [row]
        includedCredits := group.includedCredits + includedSum [row]
        weightedPoints := group.weightedPoints + pointsSum [row]
        sourceIndex := group.sourceIndex } := by
  rw [Group.add]
  cases hcredits : positiveFinite row.credits with
  | none => simp [listedSum, includedSum, pointsSum, AcademicCourseInput.listed, AcademicCourseInput.graded, hcredits]
  | some credits =>
    cases hpoint4 : finiteGrade row.point4 with
    | none => simp [listedSum, includedSum, pointsSum, AcademicCourseInput.listed, AcademicCourseInput.graded, hcredits, hpoint4]
    | some point4 => simp [listedSum, includedSum, pointsSum, AcademicCourseInput.listed, AcademicCourseInput.graded, hcredits, hpoint4]

/-- A row starts a group, or is put into the one that is there. -/
theorem addRow_cases (hnodup : (groups.map (·.termKey)).Nodup) (index : Nat) :
    (groupedTermKey row.termKey universityId ∉ groups.map (·.termKey) ∧ addRow universityId groups (row, index) =
      groups ++ [Group.add ⟨groupedTermKey row.termKey universityId, [], false, 0, 0, 0, index⟩ universityId row]) ∨
    ∃ front group back, groups = front ++ group :: back ∧ group.termKey = groupedTermKey row.termKey universityId ∧
      addRow universityId groups (row, index) = front ++ group.add universityId row :: back := by
  cases hfind : groups.find? (·.termKey == groupedTermKey row.termKey universityId) with
  | none =>
    left
    have habsent : ∀ group ∈ groups, group.termKey ≠ groupedTermKey row.termKey universityId := by simpa using List.find?_eq_none.1 hfind
    refine ⟨by simpa using habsent, ?_⟩
    rw [addRow, hfind, Option.getD_none, setGroup, if_neg]
    simpa [Group.add_eq] using habsent
  | some group =>
    right
    obtain ⟨hkey, front, back, rfl, hfront⟩ := List.find?_eq_some_iff_append.1 hfind
    rw [beq_iff_eq] at hkey
    refine ⟨front, group, back, rfl, hkey, ?_⟩
    rw [List.map_append, List.map_cons, List.nodup_append, List.nodup_cons] at hnodup
    have hother : ∀ others : List (Group T), (∀ other ∈ others, other.termKey ≠ group.termKey) →
        (others.map fun other => if other.termKey == group.termKey then group.add universityId row else other) = others := by
      intro others hne
      conv_rhs => rw [← List.map_id others]
      apply List.map_congr_left
      intro other hmem
      rw [if_neg (by simpa using hne other hmem)]
      rfl
    have hfront' : ∀ other ∈ front, other.termKey ≠ group.termKey := by
      intro other hmem heq
      have hnot := hfront other hmem
      rw [heq, hkey] at hnot
      simp at hnot
    have hback : ∀ other ∈ back, other.termKey ≠ group.termKey :=
      fun other hmem heq => hnodup.2.1.1 (heq ▸ List.mem_map_of_mem hmem)
    have hadded : (group.add universityId row).termKey = group.termKey := by rw [Group.add_eq]
    rw [addRow, hfind, Option.getD_some, setGroup]
    simp only [hadded]
    rw [if_pos (by simp), List.map_append, List.map_cons, hother front hfront', hother back hback, if_pos (by simp)]

/-- What the groups are, behind any number of rows. -/
structure GroupsOk (universityId : Text) (rows : List (AcademicCourseInput T)) (groups : List (Group T)) : Prop where
  nodup : (groups.map (·.termKey)).Nodup
  keys : ∀ termKey, termKey ∈ groups.map (·.termKey) ↔ ∃ row ∈ rows, groupedTermKey row.termKey universityId = termKey
  each : ∀ group ∈ groups, group.Of universityId rows
  listed : (groups.map (·.listedCredits)).sum = listedSum rows
  included : (groups.map (·.includedCredits)).sum = includedSum rows
  points : (groups.map (·.weightedPoints)).sum = pointsSum rows

theorem termRows_append (termKey : Text) : termRows universityId (rows ++ [row]) termKey =
    termRows universityId rows termKey ++ if groupedTermKey row.termKey universityId = termKey then [row] else [] := by
  rw [termRows, List.filter_append, ← termRows]
  by_cases hkey : groupedTermKey row.termKey universityId = termKey
  · simp [hkey]
  · simp [hkey]

theorem Group.Of.add (h : group.Of universityId rows) (hkey : group.termKey = groupedTermKey row.termKey universityId) :
    (group.add universityId row).Of universityId (rows ++ [row]) := by
  rw [Group.add_eq]
  obtain ⟨hcourses, hsummer, hlisted, hincluded, hpoints⟩ := h
  have hrows : termRows universityId (rows ++ [row]) group.termKey = termRows universityId rows group.termKey ++ [row] := by
    rw [termRows_append, if_pos hkey.symm]
  constructor
  · rw [hrows, List.map_append, ← hcourses]
    rfl
  · rw [hrows, List.any_append, ← hsummer]
    simp only [List.any_cons, List.any_nil, Bool.or_false, AcademicCourseInput.summer, hkey, Bool.or_assoc]
  · rw [hrows, sums_append.1, ← hlisted]
  · rw [hrows, sums_append.2.1, ← hincluded]
  · rw [hrows, sums_append.2.2, ← hpoints]

theorem Group.Of.other (h : group.Of universityId rows) (hkey : group.termKey ≠ groupedTermKey row.termKey universityId) :
    group.Of universityId (rows ++ [row]) := by
  have hrows : termRows universityId (rows ++ [row]) group.termKey = termRows universityId rows group.termKey := by
    rw [termRows_append, if_neg hkey.symm, List.append_nil]
  constructor
  · rw [hrows, h.courses]
  · rw [hrows, h.includesSummer]
  · rw [hrows, h.listed]
  · rw [hrows, h.included]
  · rw [hrows, h.points]

theorem GroupsOk.addRow (h : GroupsOk universityId rows groups) (row : AcademicCourseInput T) (index : Nat) :
    GroupsOk universityId (rows ++ [row]) (addRow universityId groups (row, index)) := by
  obtain ⟨hlistedSum, hincludedSum, hpointsSum⟩ := @sums_append T rows [row]
  rcases @addRow_cases T universityId row groups h.nodup index with ⟨habsent, heq⟩ | ⟨front, group, back, rfl, hkey, heq⟩
  · have hnone : termRows universityId rows (groupedTermKey row.termKey universityId) = [] := by
      rw [termRows, List.filter_eq_nil_iff]
      intro other hother hsame
      exact habsent ((h.keys _).2 ⟨other, hother, by simpa using hsame⟩)
    have hfresh : (Group.mk (groupedTermKey row.termKey universityId) ([] : List T) false 0 0 0 index).Of universityId rows := by
      constructor <;> simp [hnone, listedSum, includedSum, pointsSum]
    have hadded := @Group.Of.add T universityId rows row _ hfresh rfl
    rw [heq]
    rw [Group.add_eq] at hadded ⊢
    constructor
    · rw [List.map_append, List.nodup_append]
      refine ⟨h.nodup, List.nodup_singleton _, ?_⟩
      intro termKey hmem other hother hsame
      rw [List.map_singleton, List.mem_singleton] at hother
      rw [hsame, hother] at hmem
      exact habsent hmem
    · intro termKey
      simp only [List.map_append, List.mem_append, h.keys, List.map_cons, List.map_nil, List.mem_singleton]
      constructor
      · rintro (⟨other, hother, hsame⟩ | rfl)
        · exact ⟨other, .inl hother, hsame⟩
        · exact ⟨row, .inr rfl, rfl⟩
      · rintro ⟨other, hother | rfl, hsame⟩
        · exact .inl ⟨other, hother, hsame⟩
        · exact .inr hsame.symm
    · rw [List.forall_mem_append, List.forall_mem_singleton]
      refine ⟨fun group hgroup => (h.each group hgroup).other fun hsame => ?_, hadded⟩
      exact habsent (hsame ▸ List.mem_map_of_mem hgroup)
    · simp [h.listed, hlistedSum]
    · simp [h.included, hincludedSum]
    · simp [h.points, hpointsSum]
  · have hnodup := h.nodup
    have hkeys : ((front ++ group.add universityId row :: back).map (·.termKey)) = (front ++ group :: back).map (·.termKey) := by
      simp [Group.add_eq]
    rw [heq]
    rw [List.map_append, List.map_cons, List.nodup_append, List.nodup_cons] at hnodup
    have hlisted := h.listed
    have hincluded := h.included
    have hpoints := h.points
    have heach := h.each
    rw [List.forall_mem_append, List.forall_mem_cons] at heach
    simp only [List.map_append, List.map_cons, List.sum_append, List.sum_cons] at hlisted hincluded hpoints
    constructor
    · rw [hkeys]
      exact h.nodup
    · intro termKey
      rw [hkeys, h.keys]
      constructor
      · rintro ⟨other, hother, hsame⟩
        exact ⟨other, List.mem_append_left _ hother, hsame⟩
      · rintro ⟨other, hother, hsame⟩
        rcases List.mem_append.1 hother with hold | hnew
        · exact ⟨other, hold, hsame⟩
        · rw [List.mem_singleton.1 hnew] at hsame
          rw [← h.keys, ← hsame, ← hkey]
          simp
    · rw [List.forall_mem_append, List.forall_mem_cons]
      refine ⟨fun other hother => ?_, heach.2.1.add hkey, fun other hother => ?_⟩
      · apply (heach.1 other hother).other
        rw [← hkey]
        exact fun hsame => hnodup.2.2 _ (List.mem_map_of_mem hother) _ List.mem_cons_self hsame
      · apply (heach.2.2 other hother).other
        rw [← hkey]
        exact fun hsame => hnodup.2.1.1 (hsame ▸ List.mem_map_of_mem hother)
    · simp only [List.map_append, List.map_cons, List.sum_append, List.sum_cons, Group.add_eq, hlistedSum]
      linarith
    · simp only [List.map_append, List.map_cons, List.sum_append, List.sum_cons, Group.add_eq, hincludedSum]
      linarith
    · simp only [List.map_append, List.map_cons, List.sum_append, List.sum_cons, Group.add_eq, hpointsSum]
      linarith

theorem groupRows_ok (rows : List (AcademicCourseInput T)) (universityId : Text) :
    GroupsOk universityId rows (groupRows rows universityId) := by
  have hfold : ∀ (rest front : List (AcademicCourseInput T)) (groups : List (Group T)) (index : Nat), GroupsOk universityId front groups →
      GroupsOk universityId (front ++ rest) ((rest.zipIdx index).foldl (Grades.addRow universityId) groups) := by
    intro rest
    induction rest with
    | nil =>
      intro front groups index h
      rw [List.append_nil]
      exact h
    | cons row rest ih =>
      intro front groups index h
      have hnext := ih (front ++ [row]) _ (index + 1) (h.addRow row index)
      rw [List.append_assoc] at hnext
      exact hnext
  have hstart : GroupsOk universityId ([] : List (AcademicCourseInput T)) [] := by
    constructor <;> simp [listedSum, includedSum, pointsSum]
  exact hfold rows [] [] 0 hstart

end

end

end Hyeboard.Grades
