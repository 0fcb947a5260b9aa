import Hyeboard.CrossDetail.Batch
/-!
# The groups of a batch

Every permit is in one group.
-/

namespace Hyeboard.CrossDetail

section
variable {opens : String → Except OpenError Selector}

theorem count_addPermit (permit other : String) (groups : List Group) :
    ((addPermit opens permit groups).flatMap (·.permits)).count other =
      (groups.flatMap (·.permits)).count other + [permit].count other := by
  induction groups with
  | nil => simp [addPermit]
  | cons first rest ih =>
    rw [addPermit]
    split
    · simp only [List.flatMap_cons, List.count_append]
      omega
    · simp only [List.flatMap_cons, List.count_append, ih]
      omega

/-- Every permit is in one group. -/
theorem count_groupsOf (permits : List String) (permit : String) :
    ((groupsOf opens permits).flatMap (·.permits)).count permit = permits.count permit := by
  induction permits using List.reverseRecOn with
  | nil => rfl
  | append_singleton permits other ih =>
    rw [groupsOf, List.foldl_append, List.count_append, ← ih]
    exact count_addPermit other permit _

end

end Hyeboard.CrossDetail
