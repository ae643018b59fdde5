import Redline.Proofs.LineDiff.Rendering

/-! Reading both texts back from what is shown of their change. A hint takes the newline off the
piece in front of it; then the pieces tagged for a side are the lines of that side. -/

namespace Redline.LineDiff

def sideLines (side : Side) (lines : List (List Char)) : List (List Char) :=
  (lines.filter fun line => line.head? = some ' ' ∨ line.head? = some side.tag).map List.tail

/-- The pieces after every hint has taken away the newline in front of it. -/
def unhinted : List (List Char) → List (List Char)
  | piece :: next :: pieces =>
    (if next.head? = some '\\' then Text.withoutNewline piece else piece) :: unhinted (next :: pieces)
  | pieces => pieces

theorem unhinted_cons (piece : List Char) {pieces : List (List Char)}
    (noHint : ∀ next, pieces.head? = some next → next.head? ≠ some '\\') :
    unhinted (piece :: pieces) = piece :: unhinted pieces := by
  cases pieces with
  | nil => rfl
  | cons next pieces =>
      have keeps : next.head? ≠ some '\\' := noHint next rfl
      simp [unhinted, keeps]

theorem sideLines_cons (side : Side) (tag : Char) (text : List Char) (lines : List (List Char)) :
    sideLines side ((tag :: text) :: lines) =
      (if onSide side (tag, text) then [text] else []) ++ sideLines side lines := by
  by_cases on : tag = ' ' ∨ tag = side.tag <;> simp [sideLines, onSide, on]

theorem sideLines_hint (side : Side) (lines : List (List Char)) :
    sideLines side ((hintText ++ ['\n']) :: lines) = sideLines side lines := by
  rw [hintText_eq, List.cons_append, sideLines_cons]
  cases side <;> simp [onSide, Side.tag]

theorem sideLines_unhinted_printedPieces {line : Char × List Char} (printable : Printable line)
    {pieces : List (List Char)}
    (noHint : ∀ next, pieces.head? = some next → next.head? ≠ some '\\') (side : Side) :
    sideLines side (unhinted (printedPieces line ++ pieces)) =
      (if onSide side line then [line.2] else []) ++ sideLines side (unhinted pieces) := by
  rcases line with ⟨tag, text⟩
  cases printable.piece with
  | ended plain ends =>
      rw [List.append_eq, printedPieces_ended ends, List.singleton_append, unhinted_cons _ noHint,
        sideLines_cons]
  | unended plain _ =>
      have hinted : unhinted (printedPieces (tag, text) ++ pieces) =
          (tag :: text) :: (hintText ++ ['\n']) :: unhinted pieces := by
        have startsHint : (hintText ++ ['\n']).head? = some '\\' := rfl
        rw [printedPieces_unended plain, List.cons_append, List.singleton_append, unhinted,
          unhinted_cons _ noHint, if_pos startsHint, Text.withoutNewline_append]
      rw [hinted, sideLines_cons, sideLines_hint]

theorem mark_of_mem_printedPieces {line : Char × List Char} {piece : List Char}
    (member : piece ∈ printedPieces line) :
    piece.head? = some line.1 ∨ piece.head? = some '\\' := by
  unfold printedPieces at member
  split at member
  · obtain rfl := List.mem_singleton.mp member
    exact Or.inl rfl
  · simp only [List.mem_cons, List.not_mem_nil, or_false] at member
    rcases member with rfl | rfl
    · exact Or.inl rfl
    · exact Or.inr rfl

theorem head?_flatMap_printedPieces {lines : List (Char × List Char)}
    (printable : ∀ line ∈ lines, Printable line) (next : List Char)
    (first : (lines.flatMap printedPieces).head? = some next) : next.head? ≠ some '\\' := by
  cases lines with
  | nil => simp at first
  | cons line lines =>
      have noHint : line.1 ≠ '\\' := (printable line (by simp)).tag_ne (by decide)
      rw [List.flatMap_cons] at first
      unfold printedPieces at first
      split at first
      · obtain rfl : line.1 :: line.2 = next := by simpa using first
        simpa using noHint
      · obtain rfl : line.1 :: line.2 ++ ['\n'] = next := by simpa using first
        simpa using noHint

theorem sideLines_unhinted_printed {lines : List (Char × List Char)}
    (printable : ∀ line ∈ lines, Printable line) (side : Side) :
    sideLines side (unhinted (lines.flatMap printedPieces)) =
      (lines.filter (onSide side)).map Prod.snd := by
  induction lines with
  | nil => rfl
  | cons line lines ih =>
      have later : ∀ line ∈ lines, Printable line := fun line member => printable line (by simp [member])
      rw [List.flatMap_cons, sideLines_unhinted_printedPieces (printable line (by simp))
        (head?_flatMap_printedPieces later), ih later]
      by_cases on : onSide side line = true <;> simp [on]

theorem sideLines_shownChange (side : Side) {old new : List Char} (differ : old ≠ new)
    (short : min (Text.cutLines old).length (Text.cutLines new).length ≤ Engine.context) :
    sideLines side (unhinted (Text.cutLines (shownChange old new))) =
      side.of (Text.cutLines old) (Text.cutLines new) := by
  rw [cutLines_shownChange, sideLines_unhinted_printed printable_taggedLines,
    side_taggedLines side differ short]

theorem mark_of_mem_shownChange {old new piece : List Char} (differ : old ≠ new)
    (short : min (Text.cutLines old).length (Text.cutLines new).length ≤ Engine.context)
    (member : piece ∈ Text.cutLines (shownChange old new)) :
    piece.head? ∈ [some ' ', some '-', some '+', some '\\'] := by
  rw [cutLines_shownChange] at member
  obtain ⟨line, tagged, within⟩ := List.mem_flatMap.mp member
  rcases mark_of_mem_printedPieces within with tag | hint
  · rw [tag]
    rcases tag_of_mem_taggedLines differ short tagged with same | removed | added
    · simp [same]
    · simp [removed]
    · simp [added]
  · simp [hint]

/-- What is shown of a change is empty only when there is none. Where one of the texts has no more lines
than the context of a change, nothing is lost, and both can be read back. -/
theorem render_readBack (before after : String) :
    ∃ diff, Engine.render Engine.builtin before after = .ok diff ∧
      (diff = "" ↔ before = after) ∧
      (before ≠ after →
        min (Text.cutLines before.toList).length (Text.cutLines after.toList).length ≤ Engine.context →
        (∀ piece ∈ Text.cutLines diff.toList,
          piece.head? ∈ [some ' ', some '-', some '+', some '\\']) ∧
        (sideLines .old (unhinted (Text.cutLines diff.toList))).flatten = before.toList ∧
        (sideLines .new (unhinted (Text.cutLines diff.toList))).flatten = after.toList) := by
  refine ⟨_, render_builtin before after, ?_, ?_⟩
  · rw [String.ofList_eq_empty_iff, shownChange_eq_nil_iff, String.toList_inj]
  · intro differ short
    have apart : before.toList ≠ after.toList := mt String.toList_inj.mp differ
    rw [String.toList_ofList, sideLines_shownChange .old apart short, sideLines_shownChange .new apart short]
    exact ⟨fun piece member => mark_of_mem_shownChange apart short member, Text.flatten_cutLines _,
      Text.flatten_cutLines _⟩

end Redline.LineDiff
