import Redline.Proofs.Block.OnePass

/-! Texts put together where a directive opens the lower one. Each is resolved as if it stood alone,
and their results put together differ from the whole only by newlines that end lone lines. -/

namespace Redline.Block

theorem survivors_append {above below : List Char} (opened : Opened (below.splitOn '\n')) :
    survivors (above ++ '\n' :: below) = survivors above ++ survivors below := by
  rw [survivors_eq_onePass, List.splitOn_append_cons_self, onePass_append opened,
    ← survivors_eq_onePass, ← survivors_eq_onePass]

theorem closed_append_iff {above below : List Line} (unbrokenAbove : ∀ line ∈ above, '\n' ∉ line)
    (unbrokenBelow : ∀ line ∈ below, '\n' ∉ line) :
    closed (above ++ below) = closed above ++ '\n' :: closed below ↔
      2 ≤ above.length ∧ 2 ≤ below.length := by
  constructor
  · intro same
    have unbroken : ∀ line ∈ above ++ below, '\n' ∉ line :=
      List.forall_mem_append.mpr ⟨unbrokenAbove, unbrokenBelow⟩
    -- The text of fewer than two lines has one line more, so the sums agree only without such a text.
    have whole := length_splitOn_closed unbroken
    rw [same, List.splitOn_append_cons_self, List.length_append, List.length_append,
      length_splitOn_closed unbrokenAbove, length_splitOn_closed unbrokenBelow] at whole
    split at whole <;> split at whole <;> split at whole <;> omega
  · rintro ⟨severalAbove, severalBelow⟩
    have some : above ≠ [] := by
      rintro rfl
      simp at severalAbove
    have more : below ≠ [] := by
      rintro rfl
      simp at severalBelow
    have several : 2 ≤ (above ++ below).length := by
      rw [List.length_append]
      omega
    rw [closed_of_several several, closed_of_several severalAbove, closed_of_several severalBelow,
      Text.joinLines_append some more]

/-- What stands above a directive changes nothing below it. The results of both texts make up the
result of the whole exactly if two lines or more are left of each. -/
theorem resolveText_append (above below : String)
    (opened : ∃ line ∈ (below.toList.splitOn '\n').head?,
      ∃ directive : Directive, Text.trim line = directive.word) :
    survivors (above ++ "\n" ++ below).toList =
        survivors above.toList ++ survivors below.toList ∧
      (resolveText (above ++ "\n" ++ below) = resolveText above ++ "\n" ++ resolveText below ↔
        2 ≤ (survivors above.toList).length ∧ 2 ≤ (survivors below.toList).length) := by
  have opens : Opened (below.toList.splitOn '\n') := by
    intro line isFirst
    obtain ⟨first, isFirst', word⟩ := opened
    obtain rfl := Option.mem_unique isFirst' isFirst
    exact isData_eq_false_iff.mpr word
  have apart (upper lower : String) :
      (upper ++ "\n" ++ lower).toList = upper.toList ++ '\n' :: lower.toList := by simp
  have composed : survivors (above.toList ++ '\n' :: below.toList) =
      survivors above.toList ++ survivors below.toList := survivors_append opens
  rw [apart, composed]
  refine ⟨rfl, ?_⟩
  rw [← closed_append_iff (newline_not_mem_survivors _) (newline_not_mem_survivors _), ← composed,
    ← String.toList_inj, apart, toList_resolveText, toList_resolveText, toList_resolveText, apart]
  simp only [resolveChars_eq, survivors_eq_onePass]

theorem resolveText_append_twoEach :
    (survivors "one\napply\n+two".toList = ["one".toList, "two".toList] ∧
      survivors " reject\n-three\nfour".toList = ["three".toList, "four".toList] ∧
      survivors "one\napply\n+two\n reject\n-three\nfour".toList =
        ["one".toList, "two".toList, "three".toList, "four".toList]) ∧
      resolveText "one\napply\n+two" = "one\ntwo" ∧ resolveText " reject\n-three\nfour" = "three\nfour" ∧
      resolveText "one\napply\n+two\n reject\n-three\nfour" = "one\ntwo\nthree\nfour" := by
  have leftAbove : survivors "one\napply\n+two".toList = ["one".toList, "two".toList] := by
    rw [survivors_eq_onePass]
    decide
  have leftBelow : survivors " reject\n-three\nfour".toList = ["three".toList, "four".toList] := by
    rw [survivors_eq_onePass]
    decide
  have resolvedAbove : resolveText "one\napply\n+two" = "one\ntwo" := by
    rw [← String.toList_inj, toList_resolveText, resolveChars_eq]
    decide
  have resolvedBelow : resolveText " reject\n-three\nfour" = "three\nfour" := by
    rw [← String.toList_inj, toList_resolveText, resolveChars_eq]
    decide
  obtain ⟨composed, iff⟩ := resolveText_append "one\napply\n+two" " reject\n-three\nfour"
    ⟨" reject".toList, by decide, .reject, by decide⟩
  rw [leftAbove, leftBelow] at composed iff
  rw [resolvedAbove, resolvedBelow] at iff
  exact ⟨⟨leftAbove, leftBelow, composed⟩, resolvedAbove, resolvedBelow, iff.mpr (by decide)⟩

end Redline.Block
