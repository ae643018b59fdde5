import Mathlib.Data.List.Forall2
import Redline.Proofs.Block.OnePass

/-! Texts with their sides exchanged. Where `apply` and `reject` change places below the first
directive, and plus and minus with them, the same lines are left. -/

namespace Redline

def Directive.opposite : Directive → Directive
  | .apply => .reject
  | .reject => .apply

namespace Block

/-- A line that some directive governs, or a directive, and what it is with the sides exchanged. The
blanks around a directive do not matter. -/
inductive Opposite : Line → Line → Prop
  | directive {line other : Line} (directive : Directive) :
      Text.trim line = directive.word → Text.trim other = directive.opposite.word →
      Opposite line other
  | added (content : Line) : Opposite ('+' :: content) ('-' :: content)
  | removed (content : Line) : Opposite ('-' :: content) ('+' :: content)
  | unsided {line : Line} : isData line = true → line.head? ≠ some '+' → line.head? ≠ some '-' →
      Opposite line line

def Mirrored (text mirror : String) : Prop :=
  ∃ below, List.Forall₂ Opposite ((text.toList.splitOn '\n').dropWhile isData) below ∧
    mirror.toList.splitOn '\n' = (text.toList.splitOn '\n').takeWhile isData ++ below

theorem Opposite.isData_eq {line other : Line} (opposite : Opposite line other) :
    isData other = isData line := by
  cases opposite with
  | directive directive word otherWord =>
      rw [isData_eq_false_iff.mpr ⟨_, word⟩, isData_eq_false_iff.mpr ⟨_, otherWord⟩]
  | added content => rw [isData_added, isData_removed]
  | removed content => rw [isData_added, isData_removed]
  | unsided _ _ _ => rfl

theorem yielded_unsided {line : Line} (noPlus : line.head? ≠ some '+') (noMinus : line.head? ≠ some '-')
    (first second : Directive) : yielded (some first) line = yielded (some second) line := by
  cases line with
  | nil => cases first <;> cases second <;> rfl
  | cons mark content =>
      have notAdded : mark ≠ '+' := by simpa using noPlus
      have notRemoved : mark ≠ '-' := by simpa using noMinus
      by_cases blank : mark = ' '
      · subst blank
        cases first <;> cases second <;> rfl
      · cases first <;> cases second <;> simp [yielded, notAdded, notRemoved, blank]

theorem onePass_opposite {lines mirror : List Line} (opposite : List.Forall₂ Opposite lines mirror)
    (current : Directive) : onePass (some current) lines = onePass (some current.opposite) mirror := by
  induction opposite generalizing current with
  | nil => rfl
  | cons here _ ih =>
      cases here with
      | directive directive word otherWord =>
          rw [onePass_directive (Directive.ofLine?_eq_some_iff.mpr word),
            onePass_directive (Directive.ofLine?_eq_some_iff.mpr otherWord), ih]
      | added content =>
          rw [onePass_data (isData_added content), onePass_data (isData_removed content), ih]
          cases current <;> rfl
      | removed content =>
          rw [onePass_data (isData_removed content), onePass_data (isData_added content), ih]
          cases current <;> rfl
      | unsided data noPlus noMinus =>
          rw [onePass_data data, onePass_data data, ih,
            yielded_unsided noPlus noMinus current current.opposite]

theorem opened_opposite {lines mirror : List Line} (opposite : List.Forall₂ Opposite lines mirror)
    (opened : Opened lines) : Opened mirror := by
  cases opposite with
  | nil => exact opened
  | cons here _ =>
      intro other isFirst
      obtain rfl := Option.some.inj isFirst
      rw [here.isData_eq]
      exact opened _ rfl

theorem exists_opposite {line : Line} (unbroken : '\n' ∉ line) :
    ∃ other, Opposite line other ∧ '\n' ∉ other := by
  cases data : isData line with
  | false =>
      obtain ⟨directive, word⟩ := isData_eq_false_iff.mp data
      refine ⟨directive.opposite.word, .directive directive word ?_, ?_⟩
      · cases directive <;> decide
      · cases directive <;> decide
  | true =>
      by_cases plus : line.head? = some '+'
      · obtain ⟨content, rfl⟩ := List.head?_eq_some_iff.mp plus
        exact ⟨'-' :: content, .added content, by simpa using unbroken⟩
      · by_cases minus : line.head? = some '-'
        · obtain ⟨content, rfl⟩ := List.head?_eq_some_iff.mp minus
          exact ⟨'+' :: content, .removed content, by simpa using unbroken⟩
        · exact ⟨line, .unsided data plus minus, unbroken⟩

theorem exists_opposites {lines : List Line} (unbroken : ∀ line ∈ lines, '\n' ∉ line) :
    ∃ mirror, List.Forall₂ Opposite lines mirror ∧ ∀ line ∈ mirror, '\n' ∉ line := by
  induction lines with
  | nil => exact ⟨[], .nil, by simp⟩
  | cons line lines ih =>
      obtain ⟨other, here, hereUnbroken⟩ := exists_opposite (unbroken line (by simp))
      obtain ⟨mirror, later, laterUnbroken⟩ := ih fun line member => unbroken line (by simp [member])
      exact ⟨other :: mirror, .cons here later, List.forall_mem_cons.mpr ⟨hereUnbroken, laterUnbroken⟩⟩

theorem exists_mirrored (text : String) : ∃ mirror, Mirrored text mirror := by
  let lines := text.toList.splitOn '\n'
  have unbroken : ∀ line ∈ lines, '\n' ∉ line := Text.newline_not_mem_splitOn text.toList
  have whole : lines.takeWhile isData ++ lines.dropWhile isData = lines :=
    List.takeWhile_append_dropWhile
  have aboveUnbroken : ∀ line ∈ lines.takeWhile isData, '\n' ∉ line := by
    intro line member
    exact unbroken line ((List.takeWhile_sublist isData).subset member)
  have governedUnbroken : ∀ line ∈ lines.dropWhile isData, '\n' ∉ line := by
    intro line member
    exact unbroken line ((List.dropWhile_sublist isData).subset member)
  obtain ⟨below, opposite, belowUnbroken⟩ := exists_opposites governedUnbroken
  have some : lines.takeWhile isData ++ below ≠ [] := by
    intro nothing
    obtain ⟨noneAbove, rfl⟩ := List.append_eq_nil_iff.mp nothing
    rw [noneAbove, List.forall₂_nil_right_iff.mp opposite] at whole
    exact List.splitOn_ne_nil _ _ whole.symm
  refine ⟨String.ofList (Text.joinLines (lines.takeWhile isData ++ below)), below, opposite, ?_⟩
  rw [String.toList_ofList]
  exact Text.splitOn_joinLines some (List.forall_mem_append.mpr ⟨aboveUnbroken, belowUnbroken⟩)

theorem onePass_mirrored {text mirror : String} (mirrored : Mirrored text mirror) :
    onePass none (mirror.toList.splitOn '\n') = onePass none (text.toList.splitOn '\n') := by
  obtain ⟨below, opposite, lines⟩ := mirrored
  let above := (text.toList.splitOn '\n').takeWhile isData
  let governed := (text.toList.splitOn '\n').dropWhile isData
  have opened : Opened governed := opened_dropWhile _
  have openedBelow := opened_opposite opposite opened
  calc onePass none (mirror.toList.splitOn '\n')
      = onePass none above ++ onePass none below := by rw [lines, onePass_append openedBelow]
    _ = onePass none above ++ onePass (some Directive.apply.opposite) below := by
        rw [onePass_opened openedBelow (some _)]
    _ = onePass none above ++ onePass (some .apply) governed := by rw [onePass_opposite opposite]
    _ = onePass none above ++ onePass none governed := by rw [onePass_opened opened]
    _ = onePass none (above ++ governed) := by rw [onePass_append opened]
    _ = onePass none (text.toList.splitOn '\n') := by rw [List.takeWhile_append_dropWhile]

/-- Exchanging the sides of a text is always possible, and does not change what is left of it. -/
theorem resolveText_mirrored (text : String) :
    (∃ mirror, Mirrored text mirror) ∧
      ∀ mirror, Mirrored text mirror → resolveText mirror = resolveText text := by
  refine ⟨exists_mirrored text, ?_⟩
  intro mirror mirrored
  rw [← String.toList_inj, toList_resolveText, toList_resolveText, resolveChars_eq, resolveChars_eq,
    onePass_mirrored mirrored]

theorem resolveText_mirrored_respelled :
    resolveText "-one\n reject\n-two\n+three\n four" = "-one\ntwo\nfour" ∧
      resolveText "-one\napply \n+two\n-three\n four" = "-one\ntwo\nfour" := by
  have mirrored : Mirrored "-one\n reject\n-two\n+three\n four" "-one\napply \n+two\n-three\n four" := by
    refine ⟨["apply ".toList, "+two".toList, "-three".toList, " four".toList], ?_, by decide⟩
    exact .cons (.directive .reject (by decide) (by decide)) <|
      .cons (.removed "two".toList) <| .cons (.added "three".toList) <|
      .cons (.unsided (by decide) (by decide) (by decide)) .nil
  have same := (resolveText_mirrored _).2 _ mirrored
  have resolved : resolveText "-one\n reject\n-two\n+three\n four" = "-one\ntwo\nfour" := by
    rw [← String.toList_inj, toList_resolveText, resolveChars_eq]
    decide
  exact ⟨resolved, same.trans resolved⟩

end Block

end Redline
