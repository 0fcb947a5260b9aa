import Mathlib.Data.Finset.Max
import Mathlib.Data.List.Sort
import Mathlib.Tactic.FieldSimp
import Hyeboard.Grades.Summaries
/-!
# Summaries conserve credits

The summaries are the groups in another order, with quotients of what the groups add up
to. With numeric keys of distinct numbers that order is that of the terms, and nothing in
the figures of a term depends on the order of the rows.
-/

namespace Hyeboard.Grades

section
variable {T : Type} {universityId : Text} {rows : List (AcademicCourseInput T)} {groups numericGroups : List (Group T)}

/-! ## The order of the groups -/

/-- The places of the numeric groups are filled, the others stay. -/
theorem reinsert_perm (h : numericGroups.length = (groups.filter (isNumeric ·.termKey)).length) :
    (reinsert groups numericGroups).Perm (numericGroups ++ groups.filter fun group => ! isNumeric group.termKey) := by
  induction groups generalizing numericGroups with
  | nil =>
    rw [List.filter_nil, List.length_nil, List.length_eq_zero_iff] at h
    rw [h]
    exact List.Perm.refl _
  | cons group groups ih =>
    rw [reinsert]
    cases hnumeric : isNumeric group.termKey with
    | true =>
      simp only [List.filter_cons, hnumeric, if_true, List.length_cons] at h
      simp only [List.filter_cons, hnumeric, if_true, Bool.not_true, Bool.false_eq_true, if_false]
      cases numericGroups with
      | nil => cases h
      | cons first rest => exact (ih (by simpa using h)).cons first
    | false =>
      simp only [List.filter_cons, hnumeric, Bool.false_eq_true, if_false] at h
      simp only [List.filter_cons, hnumeric, Bool.not_false, if_true, Bool.false_eq_true, if_false]
      exact ((ih h).cons group).trans List.perm_middle.symm

theorem chronologicalGroups_perm (groups : List (Group T)) : (chronologicalGroups groups).Perm groups := by
  have hsorted := List.mergeSort_perm (groups.filter (isNumeric ·.termKey)) fun left right => decide (compareGroups left right ≤ 0)
  refine (reinsert_perm hsorted.length_eq).trans ?_
  refine (hsorted.append_right _).trans ?_
  exact List.filter_append_perm _ groups

/-- Where every key is numeric, the groups are just sorted. -/
theorem chronologicalGroups_numeric (h : ∀ group ∈ groups, isNumeric group.termKey = true) :
    chronologicalGroups groups = groups.mergeSort fun left right => compareGroups left right ≤ 0 := by
  have hreinsert : ∀ (places : List (Group T)) (sorted : List (Group T)), (∀ group ∈ places, isNumeric group.termKey = true) →
      sorted.length = places.length → reinsert places sorted = sorted := by
    intro places
    induction places with
    | nil =>
      intro sorted _ hlength
      rw [List.eq_nil_of_length_eq_zero hlength]
      rfl
    | cons group places ih =>
      intro sorted hnumeric hlength
      rw [List.forall_mem_cons] at hnumeric
      cases sorted with
      | nil => cases hlength
      | cons first sorted =>
        rw [reinsert, if_pos hnumeric.1, List.headD_cons, List.tail_cons, ih sorted hnumeric.2 (by simpa using hlength)]
  have hfilter : groups.filter (isNumeric ·.termKey) = groups := List.filter_eq_self.2 h
  rw [chronologicalGroups, hfilter]
  exact hreinsert groups _ h (List.length_mergeSort _)

theorem compareGroups_le {left right : Group T} : compareGroups left right ≤ 0 ↔
    numberOf left.termKey < numberOf right.termKey ∨
      (numberOf left.termKey = numberOf right.termKey ∧ left.sourceIndex ≤ right.sourceIndex) := by
  unfold compareGroups
  dsimp only
  split <;> omega

/-- The sorted groups have ascending numbers. -/
theorem sorted_pairwise (groups : List (Group T)) :
    (groups.mergeSort fun left right => compareGroups left right ≤ 0).Pairwise fun left right =>
      numberOf left.termKey ≤ numberOf right.termKey := by
  have htrans : ∀ a b c : Group T, decide (compareGroups a b ≤ 0) = true → decide (compareGroups b c ≤ 0) = true →
      decide (compareGroups a c ≤ 0) = true := by
    intro a b c
    simp only [decide_eq_true_eq, compareGroups_le]
    omega
  have htotal : ∀ a b : Group T, (decide (compareGroups a b ≤ 0) || decide (compareGroups b a ≤ 0)) = true := by
    intro a b
    simp only [Bool.or_eq_true, decide_eq_true_eq, compareGroups_le]
    omega
  refine (List.pairwise_mergeSort htrans htotal groups).imp ?_
  intro left right h
  rw [decide_eq_true_eq, compareGroups_le] at h
  omega

/-! ## The figures of a term -/

/-- What of a group goes into its summary, but its courses. -/
structure Totals where
  termKey : Text
  includesSummer : Bool
  listedCredits : ℚ
  includedCredits : ℚ
  weightedPoints : ℚ

def Group.totals (group : Group T) : Totals :=
  ⟨group.termKey, group.includesSummer, group.listedCredits, group.includedCredits, group.weightedPoints⟩

/-- The figures of a summary. -/
structure Figures where
  termKey : Text
  includesSummer : Bool
  listedCredits : ℚ
  includedCredits : ℚ
  termGpa4 : Option ℚ
  cpa4 : Option ℚ
deriving DecidableEq

def AcademicTermSummary.figures (summary : AcademicTermSummary T) : Figures :=
  ⟨summary.termKey, summary.includesSummer, summary.listedCredits, summary.includedCredits, summary.termGpa4, summary.cpa4⟩

def summarizeTotals : (runningCredits runningPoints : ℚ) → List Totals → List Figures
  | _, _, [] => []
  | runningCredits, runningPoints, totals :: rest =>
    ⟨totals.termKey, totals.includesSummer, totals.listedCredits, totals.includedCredits,
      quotient totals.weightedPoints totals.includedCredits,
      quotient (runningPoints + totals.weightedPoints) (runningCredits + totals.includedCredits)⟩ ::
        summarizeTotals (runningCredits + totals.includedCredits) (runningPoints + totals.weightedPoints) rest

theorem figures_summarize (runningCredits runningPoints : ℚ) (groups : List (Group T)) :
    (summarize runningCredits runningPoints groups).map (·.figures) =
      summarizeTotals runningCredits runningPoints (groups.map (·.totals)) := by
  induction groups generalizing runningCredits runningPoints with
  | nil => rfl
  | cons group groups ih =>
    rw [summarize, List.map_cons, ih, List.map_cons, summarizeTotals]
    rfl

/-- What the rows of a term come to. -/
def totalsOf (universityId : Text) (rows : List (AcademicCourseInput T)) (termKey : Text) : Totals :=
  ⟨termKey, (termRows universityId rows termKey).any (·.summer universityId), listedSum (termRows universityId rows termKey),
    includedSum (termRows universityId rows termKey), pointsSum (termRows universityId rows termKey)⟩

theorem Group.Of.totals_eq {group : Group T} (h : group.Of universityId rows) : group.totals = totalsOf universityId rows group.termKey := by
  rw [Group.totals, totalsOf, h.includesSummer, h.listed, h.included, h.points]

theorem totalsOf_perm {others : List (AcademicCourseInput T)} (h : rows.Perm others) (termKey : Text) :
    totalsOf universityId rows termKey = totalsOf universityId others termKey := by
  have hrows : (termRows universityId rows termKey).Perm (termRows universityId others termKey) := h.filter _
  have hgraded := hrows.filterMap (·.graded)
  rw [totalsOf, totalsOf, listedSum, listedSum, includedSum, includedSum, pointsSum, pointsSum, (hrows.map _).sum_eq,
    (hgraded.map _).sum_eq, (hgraded.map _).sum_eq, hrows.any_eq]

/-! ## Means -/

/-- A weighted sum lies between the bounds of its values, times the weights. -/
theorem weighted_between {l : List (ℚ × ℚ)} {least greatest : ℚ} (hpos : ∀ x ∈ l, 0 < x.1)
    (hbounds : ∀ x ∈ l, least ≤ x.2 ∧ x.2 ≤ greatest) :
    least * (l.map Prod.fst).sum ≤ (l.map fun x => x.1 * x.2).sum ∧ (l.map fun x => x.1 * x.2).sum ≤ greatest * (l.map Prod.fst).sum := by
  induction l with
  | nil => simp
  | cons x rest ih =>
    rw [List.forall_mem_cons] at hpos hbounds
    obtain ⟨hleast, hgreatest⟩ := ih hpos.2 hbounds.2
    have hlow := mul_le_mul_of_nonneg_left hbounds.1.1 hpos.1.le
    have hhigh := mul_le_mul_of_nonneg_left hbounds.1.2 hpos.1.le
    simp only [List.map_cons, List.sum_cons]
    constructor
    · linarith
    · linarith

theorem exists_least {l : List ℚ} (h : l ≠ []) : (∃ least ∈ l, ∀ x ∈ l, least ≤ x) ∧ ∃ greatest ∈ l, ∀ x ∈ l, x ≤ greatest := by
  have hnonempty : l.toFinset.Nonempty := List.toFinset_nonempty_iff l |>.2 h
  obtain ⟨least, hleast, hmin⟩ := l.toFinset.exists_min_image id hnonempty
  obtain ⟨greatest, hgreatest, hmax⟩ := l.toFinset.exists_max_image id hnonempty
  simp only [List.mem_toFinset, id_eq] at hleast hmin hgreatest hmax
  exact ⟨⟨least, hleast, hmin⟩, greatest, hgreatest, hmax⟩

/-- The grades of the rows that are included. -/
def gradesOf (rows : List (AcademicCourseInput T)) : List ℚ := (rows.filterMap (·.graded)).map Prod.snd

theorem quotient_between {gpa : ℚ} (h : quotient (pointsSum rows) (includedSum rows) = some gpa) :
    ∃ least ∈ gradesOf rows, ∃ greatest ∈ gradesOf rows, (∀ grade ∈ gradesOf rows, least ≤ grade ∧ grade ≤ greatest) ∧
      least ≤ gpa ∧ gpa ≤ greatest := by
  unfold quotient at h
  split at h
  · rename_i hincluded
    cases h
    have hpos : ∀ x ∈ rows.filterMap (·.graded), 0 < x.1 := by
      intro x hx
      obtain ⟨row, -, hgraded⟩ := List.mem_filterMap.1 hx
      simp only [AcademicCourseInput.graded, Option.bind_eq_some_iff, Option.map_eq_some_iff] at hgraded
      obtain ⟨credits, hcredits, point4, -, rfl⟩ := hgraded
      unfold positiveFinite at hcredits
      split at hcredits
      · split at hcredits
        · cases hcredits
          assumption
        · cases hcredits
      · cases hcredits
    have hne : gradesOf rows ≠ [] := by
      intro hnil
      rw [gradesOf, List.map_eq_nil_iff] at hnil
      rw [includedSum, hnil] at hincluded
      exact absurd hincluded (lt_irrefl 0)
    obtain ⟨⟨least, hleast, hmin⟩, greatest, hgreatest, hmax⟩ := exists_least hne
    have hbounds : ∀ x ∈ rows.filterMap (·.graded), least ≤ x.2 ∧ x.2 ≤ greatest :=
      fun x hx => ⟨hmin _ (List.mem_map_of_mem hx), hmax _ (List.mem_map_of_mem hx)⟩
    obtain ⟨hlow, hhigh⟩ := weighted_between hpos hbounds
    refine ⟨least, hleast, greatest, hgreatest, fun grade hgrade => ⟨hmin grade hgrade, hmax grade hgrade⟩, ?_, ?_⟩
    · rw [le_div_iff₀ hincluded]
      exact hlow
    · rw [div_le_iff₀ hincluded]
      exact hhigh
  · cases h

/-! ## The summaries -/

theorem mem_summarize {runningCredits runningPoints : ℚ} {summary : AcademicTermSummary T}
    (h : summary ∈ summarize runningCredits runningPoints groups) :
    ∃ group ∈ groups, summary.termKey = group.termKey ∧ summary.courses = group.courses ∧
      summary.termGpa4 = quotient group.weightedPoints group.includedCredits := by
  induction groups generalizing runningCredits runningPoints with
  | nil => cases h
  | cons group groups ih =>
    rw [summarize, List.mem_cons] at h
    rcases h with rfl | hmem
    · exact ⟨group, List.mem_cons_self, rfl, rfl, rfl⟩
    · obtain ⟨other, hother, hfields⟩ := ih hmem
      exact ⟨other, List.mem_cons_of_mem _ hother, hfields⟩

theorem map_summarize (runningCredits runningPoints : ℚ) (groups : List (Group T)) :
    (summarize runningCredits runningPoints groups).map (·.termKey) = groups.map (·.termKey) ∧
      (summarize runningCredits runningPoints groups).map (·.listedCredits) = groups.map (·.listedCredits) ∧
      (summarize runningCredits runningPoints groups).map (·.includedCredits) = groups.map (·.includedCredits) := by
  induction groups generalizing runningCredits runningPoints with
  | nil => exact ⟨rfl, rfl, rfl⟩
  | cons group groups ih =>
    obtain ⟨hkeys, hlisted, hincluded⟩ := ih (runningCredits + group.includedCredits) (runningPoints + group.weightedPoints)
    simp only [summarize, List.map_cons, hkeys, hlisted, hincluded, and_self]

/-- The CPA of the last term is that of everything so far. -/
theorem last_summarize {runningCredits runningPoints : ℚ} {last : AcademicTermSummary T}
    (h : (summarize runningCredits runningPoints groups).getLast? = some last) :
    last.cpa4 = quotient (runningPoints + (groups.map (·.weightedPoints)).sum) (runningCredits + (groups.map (·.includedCredits)).sum) := by
  induction groups generalizing runningCredits runningPoints with
  | nil => cases h
  | cons group groups ih =>
    rw [List.map_cons, List.sum_cons, List.map_cons, List.sum_cons, ← add_assoc, ← add_assoc]
    cases groups with
    | nil =>
      cases h
      simp [summarize]
    | cons other groups =>
      apply ih
      rw [summarize, summarize, List.getLast?_cons_cons] at h
      exact h

theorem GroupsOk.perm {others : List (Group T)} (h : GroupsOk universityId rows groups) (hperm : others.Perm groups) :
    GroupsOk universityId rows others where
  nodup := (hperm.map _).nodup_iff.2 h.nodup
  keys := fun termKey => ((hperm.map _).mem_iff).trans (h.keys termKey)
  each := fun group hgroup => h.each group (hperm.mem_iff.1 hgroup)
  listed := ((hperm.map _).sum_eq).trans h.listed
  included := ((hperm.map _).sum_eq).trans h.included
  points := ((hperm.map _).sum_eq).trans h.points

theorem ordered_ok (rows : List (AcademicCourseInput T)) (universityId : Text) :
    GroupsOk universityId rows (chronologicalGroups (groupRows rows universityId)) :=
  (groupRows_ok rows universityId).perm (chronologicalGroups_perm _)

/-- Every grouped key is numeric, and no two of them denote one number. -/
def Numbered (universityId : Text) (rows : List (AcademicCourseInput T)) : Prop :=
  (∀ row ∈ rows, isNumeric (groupedTermKey row.termKey universityId) = true) ∧
    ∀ row ∈ rows, ∀ other ∈ rows, numberOf (groupedTermKey row.termKey universityId) = numberOf (groupedTermKey other.termKey universityId) →
      groupedTermKey row.termKey universityId = groupedTermKey other.termKey universityId

/-- Numbered terms come in the order of their numbers. -/
theorem Numbered.ascending (h : Numbered universityId rows) :
    ((chronologicalGroups (groupRows rows universityId)).map (·.termKey)).Pairwise fun left right => numberOf left < numberOf right := by
  have hok := groupRows_ok rows universityId
  have hordered := ordered_ok rows universityId
  have hnumeric : ∀ group ∈ groupRows rows universityId, isNumeric group.termKey = true := by
    intro group hgroup
    obtain ⟨row, hrow, hkey⟩ := (hok.keys _).1 (List.mem_map_of_mem hgroup)
    rw [← hkey]
    exact h.1 row hrow
  have hkey : ∀ termKey ∈ (chronologicalGroups (groupRows rows universityId)).map (·.termKey),
      ∃ row ∈ rows, groupedTermKey row.termKey universityId = termKey := fun termKey hmem => (hordered.keys termKey).1 hmem
  have hle : ((chronologicalGroups (groupRows rows universityId)).map (·.termKey)).Pairwise fun left right =>
      numberOf left ≤ numberOf right := by
    rw [chronologicalGroups_numeric hnumeric, List.pairwise_map]
    exact sorted_pairwise _
  refine (hle.and hordered.nodup).imp_of_mem ?_
  rintro left right hleft hright ⟨hnumber, hne⟩
  obtain ⟨row, hrow, rfl⟩ := hkey left hleft
  obtain ⟨other, hother, rfl⟩ := hkey right hright
  exact lt_of_le_of_ne hnumber fun heq => hne (h.2 row hrow other hother heq)

theorem Numbered.perm {others : List (AcademicCourseInput T)} (h : Numbered universityId rows) (hperm : rows.Perm others) :
    Numbered universityId others :=
  ⟨fun row hrow => h.1 row (hperm.mem_iff.2 hrow),
    fun row hrow other hother => h.2 row (hperm.mem_iff.2 hrow) other (hperm.mem_iff.2 hother)⟩

/-- The rows of numbered terms may come in any order. -/
theorem Numbered.figures_perm {others : List (AcademicCourseInput T)} (h : Numbered universityId rows) (hperm : rows.Perm others) :
    (calculateTermAcademicSummaries others universityId).map (·.figures) =
      (calculateTermAcademicSummaries rows universityId).map (·.figures) := by
  have hok := ordered_ok rows universityId
  have hokOthers := ordered_ok others universityId
  have hsame : (chronologicalGroups (groupRows others universityId)).map (·.termKey) =
      (chronologicalGroups (groupRows rows universityId)).map (·.termKey) := by
    have hkeys : ((chronologicalGroups (groupRows others universityId)).map (·.termKey)).Perm
        ((chronologicalGroups (groupRows rows universityId)).map (·.termKey)) := by
      rw [List.perm_ext_iff_of_nodup hokOthers.nodup hok.nodup]
      intro termKey
      rw [hok.keys, hokOthers.keys]
      exact exists_congr fun row => and_congr_left fun _ => hperm.symm.mem_iff
    exact hkeys.eq_of_pairwise (fun left right _ _ hlt hgt => absurd hlt (Nat.lt_asymm hgt)) (h.perm hperm).ascending h.ascending
  have htotals : ∀ (courses : List (AcademicCourseInput T)) (groups : List (Group T)), GroupsOk universityId courses groups →
      groups.map (·.totals) = (groups.map (·.termKey)).map (totalsOf universityId courses) := by
    intro courses groups hgroups
    rw [List.map_map]
    exact List.map_congr_left fun group hgroup => (hgroups.each group hgroup).totals_eq
  rw [calculateTermAcademicSummaries, calculateTermAcademicSummaries, figures_summarize, figures_summarize, htotals others _ hokOthers,
    htotals rows _ hok, hsame]
  congr 1
  exact List.map_congr_left fun termKey _ => (totalsOf_perm hperm termKey).symm

end

/-- The summaries have every course once and conserve the credits; a GPA lies between the grades it is of, and the last CPA is that of
all grades; and numbered terms come in their order, with figures that do not depend on the order of the rows. -/
theorem summaries_conserve {T : Type} (rows : List (AcademicCourseInput T)) (universityId : Text) :
    let summaries := calculateTermAcademicSummaries rows universityId
    ((summaries.map (·.termKey)).Nodup ∧ (∀ row ∈ rows, groupedTermKey row.termKey universityId ∈ summaries.map (·.termKey)) ∧
      ∀ summary ∈ summaries, summary.courses = (termRows universityId rows summary.termKey).map (·.course)) ∧
    ((summaries.map (·.listedCredits)).sum = listedSum rows ∧ (summaries.map (·.includedCredits)).sum = includedSum rows) ∧
    (∀ summary ∈ summaries, ∀ gpa, summary.termGpa4 = some gpa →
      ∃ least ∈ gradesOf (termRows universityId rows summary.termKey), ∃ greatest ∈ gradesOf (termRows universityId rows summary.termKey),
        (∀ grade ∈ gradesOf (termRows universityId rows summary.termKey), least ≤ grade ∧ grade ≤ greatest) ∧
        least ≤ gpa ∧ gpa ≤ greatest) ∧
    (∀ last, summaries.getLast? = some last →
      last.cpa4 = if 0 < includedSum rows then some (pointsSum rows / includedSum rows) else none) ∧
    ((∀ row ∈ rows, isNumeric (groupedTermKey row.termKey universityId) = true) →
      (∀ row ∈ rows, ∀ other ∈ rows,
        numberOf (groupedTermKey row.termKey universityId) = numberOf (groupedTermKey other.termKey universityId) →
        groupedTermKey row.termKey universityId = groupedTermKey other.termKey universityId) →
      ((summaries.map (·.termKey)).Pairwise fun left right => numberOf left < numberOf right) ∧
      ∀ others, rows.Perm others → (calculateTermAcademicSummaries others universityId).map (·.figures) = summaries.map (·.figures)) := by
  intro summaries
  have hok := ordered_ok rows universityId
  obtain ⟨hkeys, hlisted, hincluded⟩ := map_summarize 0 0 (chronologicalGroups (groupRows rows universityId))
  have hkeys' : summaries.map (·.termKey) = (chronologicalGroups (groupRows rows universityId)).map (·.termKey) := hkeys
  refine ⟨⟨?_, ?_, ?_⟩, ⟨?_, ?_⟩, ?_, ?_, ?_⟩
  · rw [hkeys']
    exact hok.nodup
  · intro row hrow
    rw [hkeys', hok.keys]
    exact ⟨row, hrow, rfl⟩
  · intro summary hsummary
    obtain ⟨group, hgroup, hkey, hcourses, -⟩ := mem_summarize hsummary
    rw [hcourses, hkey, (hok.each group hgroup).courses]
  · exact (congrArg List.sum hlisted).trans hok.listed
  · exact (congrArg List.sum hincluded).trans hok.included
  · intro summary hsummary gpa hgpa
    obtain ⟨group, hgroup, hkey, -, hquotient⟩ := mem_summarize hsummary
    have hof := hok.each group hgroup
    rw [hquotient, hof.points, hof.included, ← hkey] at hgpa
    exact quotient_between hgpa
  · intro last hlast
    rw [last_summarize hlast, hok.points, hok.included, zero_add, zero_add]
    rfl
  · intro hnumeric hdistinct
    have hnumbered : Numbered universityId rows := ⟨hnumeric, hdistinct⟩
    refine ⟨?_, fun others hperm => hnumbered.figures_perm hperm⟩
    rw [hkeys']
    exact hnumbered.ascending

/-- A summer course, the term it counts for, and the term after that. -/
def summerRows : List (AcademicCourseInput Nat) :=
  [⟨units "20243", some (.finite 2), some (.finite (7 / 2)), 1, none⟩, ⟨units "20242", some (.finite 4), some (.finite 2), 2, none⟩,
    ⟨units "20251", some (.finite 3), some (.finite 4), 3, none⟩, ⟨units "20251", some (.finite 1), none, 4, none⟩]

theorem figures_summerRows : (calculateTermAcademicSummaries summerRows (units "uet")).map (·.figures) =
    [⟨units "20242", true, 6, 6, some (5 / 2), some (5 / 2)⟩, ⟨units "20251", false, 4, 3, some 4, some 3⟩] := by
  have hsorted : ((groupRows summerRows (units "uet")).filter (isNumeric ·.termKey)).mergeSort (fun left right => compareGroups left right ≤ 0) =
      (groupRows summerRows (units "uet")).filter (isNumeric ·.termKey) :=
    List.mergeSort_of_pairwise (by decide +kernel)
  rw [calculateTermAcademicSummaries, chronologicalGroups, hsorted]
  decide +kernel

/-- The rows the other way round: the terms are put in order, and their figures are the same. -/
theorem summaries_conserve_sample :
    let summaries := calculateTermAcademicSummaries summerRows.reverse (units "uet")
    summaries.map (·.figures) =
        [⟨units "20242", true, 6, 6, some (5 / 2), some (5 / 2)⟩, ⟨units "20251", false, 4, 3, some 4, some 3⟩] ∧
      (summaries.map (·.listedCredits)).sum = 10 ∧
      (summaries.map (·.termKey)).Pairwise fun left right => numberOf left < numberOf right := by
  obtain ⟨-, hsums, -, -, hnumbered⟩ := summaries_conserve summerRows.reverse (units "uet")
  obtain ⟨hascending, hperm⟩ := hnumbered (by decide +kernel) (by decide +kernel)
  have hlisted : listedSum summerRows.reverse = 10 := by decide +kernel
  refine ⟨?_, hsums.1.trans hlisted, hascending⟩
  rw [← hperm summerRows (List.reverse_perm _), figures_summerRows]

end Hyeboard.Grades
