import Redline.Proofs.LineDiff.Reading

/-! The lines that are marked in what is shown. They are what a longest common sublist leaves of both
texts, and no text that reads back as both marks fewer. -/

namespace Redline.LineDiff

def countMark (mark : Char) (lines : List (List Char)) : Nat :=
  lines.countP fun line => line.head? = some mark

def markedCount (diff : List Char) : Nat :=
  countMark '-' (Text.cutLines diff) + countMark '+' (Text.cutLines diff)

theorem countMark_cons (mark : Char) (line : List Char) (lines : List (List Char)) :
    countMark mark (line :: lines) = countMark mark lines + if line.head? = some mark then 1 else 0 := by
  simp [countMark, List.countP_cons]

theorem countMark_printedPieces {mark : Char} (noHint : mark ≠ '\\') (line : Char × List Char) :
    countMark mark (printedPieces line) = if line.1 = mark then 1 else 0 := by
  unfold printedPieces
  split
  · simp [countMark]
  · have hint : (hintText ++ ['\n']).head? ≠ some mark := by
      rw [hintText_eq]
      simpa using noHint.symm
    rw [countMark_cons, countMark_cons, if_neg hint]
    simp [countMark]

theorem countMark_printed {mark : Char} (noHint : mark ≠ '\\') (lines : List (Char × List Char)) :
    countMark mark (lines.flatMap printedPieces) = lines.countP (·.1 = mark) := by
  induction lines with
  | nil => rfl
  | cons line lines ih =>
      have both : countMark mark (printedPieces line ++ lines.flatMap printedPieces) =
          countMark mark (printedPieces line) + countMark mark (lines.flatMap printedPieces) :=
        List.countP_append
      rw [List.flatMap_cons, both, countMark_printedPieces noHint, ih, List.countP_cons]
      simp only [decide_eq_true_eq]
      omega

theorem markedCount_shownChange (old new : List Char) :
    markedCount (shownChange old new) =
      regionCount ((hunks Engine.context (regions .anyEnding old new)).flatMap Hunk.regions) := by
  rw [markedCount, cutLines_shownChange, countMark_printed (by decide), countMark_printed (by decide),
    countP_taggedLines]

theorem head?_withoutNewline {mark : Char} (noNewline : mark ≠ '\n') (piece : List Char) :
    (Text.withoutNewline piece).head? = some mark ↔ piece.head? = some mark := by
  match piece with
  | [] => simp [Text.withoutNewline]
  | [c] =>
      by_cases newline : c = '\n'
      · simp [Text.withoutNewline, newline, noNewline.symm]
      · simp [Text.withoutNewline, newline]
  | c :: d :: rest => unfold Text.withoutNewline; split <;> simp

theorem countMark_unhinted (mark : Char) (noNewline : mark ≠ '\n') (pieces : List (List Char)) :
    countMark mark (unhinted pieces) = countMark mark pieces := by
  fun_induction unhinted pieces with
  | case1 piece next pieces ih =>
      have keeps := head?_withoutNewline noNewline piece
      rw [countMark_cons, countMark_cons mark piece, ih]
      split <;> simp [keeps]
  | case2 => rfl

theorem length_sideLines (side : Side) (lines : List (List Char)) :
    (sideLines side lines).length = countMark ' ' lines + countMark side.tag lines := by
  induction lines with
  | nil => rfl
  | cons line lines ih =>
      rw [countMark_cons, countMark_cons]
      cases line with
      | nil => simpa [sideLines] using ih
      | cons tag text =>
          rw [sideLines_cons, List.length_append, ih]
          have apart : side.tag ≠ ' ' := by cases side <;> decide
          by_cases same : tag = ' '
          · simp [onSide, same, apart.symm]
            omega
          · by_cases mine : tag = side.tag <;> simp [onSide, same, mine, apart]
            omega

theorem unmarked_sublist_sideLines (side : Side) (lines : List (List Char)) :
    ((lines.filter fun line => line.head? = some ' ').map List.tail).Sublist (sideLines side lines) := by
  apply List.Sublist.map
  induction lines with
  | nil => exact List.nil_sublist _
  | cons line lines ih =>
      by_cases same : line.head? = some ' '
      · simpa [same] using ih
      · rw [List.filter_cons_of_neg (by simpa using same)]
        by_cases mine : line.head? = some side.tag
        · simpa [mine] using ih.cons line
        · simpa [same, mine] using ih

/-- A text that reads back as two lists of lines marks no fewer than a longest common sublist of them
leaves. -/
theorem length_le_markedCount (diff : List Char) :
    let lines := unhinted (Text.cutLines diff)
    (sideLines .old lines).length + (sideLines .new lines).length ≤
      markedCount diff + 2 * commonLength (sideLines .old lines) (sideLines .new lines) := by
  intro lines
  have removed := countMark_unhinted '-' (by decide) (Text.cutLines diff)
  have added := countMark_unhinted '+' (by decide) (Text.cutLines diff)
  have common := length_le_commonLength (unmarked_sublist_sideLines .old lines)
    (unmarked_sublist_sideLines .new lines)
  rw [List.length_map, ← List.countP_eq_length_filter] at common
  have unmarked : countMark ' ' lines ≤ commonLength (sideLines .old lines) (sideLines .new lines) :=
    common
  rw [length_sideLines .old, length_sideLines .new, markedCount, ← removed, ← added]
  simp only [Side.tag, lines] at unmarked ⊢
  omega

structure IsDiff (diff old new : List Char) : Prop where
  readsOld : sideLines .old (unhinted (Text.cutLines diff)) = Text.cutLines old
  readsNew : sideLines .new (unhinted (Text.cutLines diff)) = Text.cutLines new

/-- What is shown of a change marks as few lines as any diff of both texts, which is what a longest
common sublist of their lines leaves. Settling, joining changes to gaps and grouping these in hunks add
none to those first found. -/
theorem render_minimal (before after : String) :
    ∃ diff common, Engine.render Engine.builtin before after = .ok diff ∧
      LongestCommon (Text.cutLines before.toList) (Text.cutLines after.toList) common ∧
      markedCount diff.toList + 2 * common.length =
        (Text.cutLines before.toList).length + (Text.cutLines after.toList).length ∧
      (∀ other : List Char, IsDiff other before.toList after.toList →
        markedCount diff.toList ≤ markedCount other) ∧
      (∀ other : List (Edit (List Char)), spell .old other = Text.cutLines before.toList →
        spell .new other = Text.cutLines after.toList → markedCount diff.toList ≤ changeCount other) ∧
      markedCount diff.toList =
        regionCount ((hunks Engine.context (regions .anyEnding before.toList after.toList)).flatMap
          Hunk.regions) ∧
      regionCount ((hunks Engine.context (regions .anyEnding before.toList after.toList)).flatMap
          Hunk.regions) =
        regionCount (regions .anyEnding before.toList after.toList) ∧
      regionCount (regions .anyEnding before.toList after.toList) =
        changeCount (Style.anyEnding.align (Text.cutLines before.toList) (Text.cutLines after.toList)) ∧
      changeCount (Style.anyEnding.align (Text.cutLines before.toList) (Text.cutLines after.toList)) =
        changeCount (script .fromLow (Text.cutLines before.toList) (Text.cutLines after.toList)) := by
  obtain ⟨common, longest, length⟩ :=
    exists_longestCommon (Text.cutLines before.toList) (Text.cutLines after.toList)
  have found := changeCount_script .fromLow (Text.cutLines before.toList) (Text.cutLines after.toList)
  have settled := changeCount_align (Text.cutLines before.toList) (Text.cutLines after.toList)
  have joined : regionCount (regions .anyEnding before.toList after.toList) =
      changeCount (Style.anyEnding.align (Text.cutLines before.toList) (Text.cutLines after.toList)) :=
    regionCount_ofScript _
  have grouped := regionCount_hunks Engine.context (regions .anyEnding before.toList after.toList)
  have marked := markedCount_shownChange before.toList after.toList
  refine ⟨_, common, render_builtin before after, longest, ?_, ?_, ?_, ?_, grouped, joined, settled⟩
  all_goals rw [String.toList_ofList]
  · omega
  · rintro other ⟨readsOld, readsNew⟩
    have fewest := length_le_markedCount other
    simp only [readsOld, readsNew] at fewest
    omega
  · intro other spellsOld spellsNew
    have fewest := length_le_changeCount other
    rw [spellsOld, spellsNew] at fewest
    omega
  · exact marked

end Redline.LineDiff
