/-! The longest common beginning and end of two lists. -/

namespace Redline.LineDiff

variable {α : Type} [DecidableEq α]

def commonPrefix : List α → List α → List α
  | a :: as, b :: bs => if a = b then a :: commonPrefix as bs else []
  | _, _ => []

def commonSuffix (first second : List α) : List α :=
  (commonPrefix first.reverse second.reverse).reverse

theorem commonPrefix_append_drop_left (first second : List α) :
    commonPrefix first second ++ first.drop (commonPrefix first second).length = first := by
  fun_induction commonPrefix first second <;> simp_all

theorem commonPrefix_append_drop_right (first second : List α) :
    commonPrefix first second ++ second.drop (commonPrefix first second).length = second := by
  fun_induction commonPrefix first second <;> simp_all

theorem length_commonPrefix_le_left (first second : List α) :
    (commonPrefix first second).length ≤ first.length := by
  fun_induction commonPrefix first second <;> simp_all

theorem length_commonPrefix_le_right (first second : List α) :
    (commonPrefix first second).length ≤ second.length := by
  fun_induction commonPrefix first second <;> simp_all

theorem length_commonSuffix_le_left (first second : List α) :
    (commonSuffix first second).length ≤ first.length := by
  simpa [commonSuffix] using length_commonPrefix_le_left first.reverse second.reverse

theorem length_commonSuffix_le_right (first second : List α) :
    (commonSuffix first second).length ≤ second.length := by
  simpa [commonSuffix] using length_commonPrefix_le_right first.reverse second.reverse

theorem take_append_commonSuffix_left (first second : List α) :
    first.take (first.length - (commonSuffix first second).length) ++ commonSuffix first second =
      first := by
  have spelled := congrArg List.reverse (commonPrefix_append_drop_left first.reverse second.reverse)
  simpa [commonSuffix, List.drop_reverse] using spelled

theorem take_append_commonSuffix_right (first second : List α) :
    second.take (second.length - (commonSuffix first second).length) ++ commonSuffix first second =
      second := by
  have spelled := congrArg List.reverse (commonPrefix_append_drop_right first.reverse second.reverse)
  simpa [commonSuffix, List.drop_reverse] using spelled

end Redline.LineDiff
