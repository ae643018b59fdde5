import Redline.Engine.Basic
import Redline.Proofs.LineDiff.Hunk

/-! What the builtin engine shows of two texts: the tagged lines of their hunks, without the header of
the first one. No line of a header holds a newline, and so taking off three lines takes off the names
and the first header. -/

namespace Redline.LineDiff

theorem toList_unified (oldName newName : String) (hunk : Hunk (List Char))
    (later : List (Hunk (List Char))) :
    (unified oldName newName ['\n', '\r'] (hunk :: later)).toList =
      Text.endLines ["--- ".toList ++ oldName.toList, "+++ ".toList ++ newName.toList, hunk.header.toList] ++
        (((hunk :: later).flatMap Hunk.tagLines).tail.flatMap printedPieces).flatten := by
  have headed : printedPieces ('@', hunk.ranges ++ ['\n']) = [hunk.header.toList ++ ['\n']] := by
    simp [printedPieces, hunk.toList_header]
  have printed := print_hunks (hunk :: later)
  simp only [List.flatMap_cons, Hunk.tagLines, List.cons_append, headed] at printed
  simp [unified, Text.endLines, toString, printed, Hunk.tagLines]

theorem stripHeader_unified {oldName newName : String} (oldUnbroken : '\n' ∉ oldName.toList)
    (newUnbroken : '\n' ∉ newName.toList) (hunks : List (Hunk (List Char))) :
    stripHeader (unified oldName newName ['\n', '\r'] hunks).toList =
      ((hunks.flatMap Hunk.tagLines).tail.flatMap printedPieces).flatten := by
  cases hunks with
  | nil => rfl
  | cons hunk later =>
      have unbroken : ∀ line ∈ ["--- ".toList ++ oldName.toList, "+++ ".toList ++ newName.toList,
          hunk.header.toList], '\n' ∉ line := by
        simp [oldUnbroken, newUnbroken, hunk.plain_header.1]
      rw [toList_unified, stripHeader, Text.splitLines_endLines_append unbroken]
      simp [opens, hunk.prefix_header]

/-- The tagged lines below the first header. -/
def taggedLines (old new : List Char) : List (Char × List Char) :=
  ((hunks Engine.context (regions .anyEnding old new)).flatMap Hunk.tagLines).tail

def shownChange (old new : List Char) : List Char :=
  ((taggedLines old new).flatMap printedPieces).flatten

theorem render_builtin (before after : String) :
    Engine.render Engine.builtin before after =
      .ok (String.ofList (shownChange before.toList after.toList)) := by
  have stripped := stripHeader_unified (by decide : '\n' ∉ "input".toList)
    (by decide : '\n' ∉ "result".toList)
    (hunks Engine.context (regions .anyEnding before.toList after.toList))
  exact congrArg (fun shown => Except.ok (String.ofList shown)) stripped

section

variable {old new : List Char}

theorem lines_anyEnding (side : Side) (old new : List Char) :
    (regions .anyEnding old new).flatMap (Region.lines side) =
      side.of (Text.cutLines old) (Text.cutLines new) :=
  flatMap_lines_regions .anyEnding side old new

theorem tag_of_mem_flatMap {regions : List (Region (List Char))} {line : Char × List Char}
    (member : line ∈ regions.flatMap Region.tagLines) : line.1 = ' ' ∨ line.1 = '-' ∨ line.1 = '+' := by
  obtain ⟨region, _, within⟩ := List.mem_flatMap.mp member
  exact tag_of_mem_tagLines within

theorem header_or_onSide {line : Char × List Char} (member : line ∈ taggedLines old new) :
    (∃ hunk : Hunk (List Char), line = ('@', hunk.ranges ++ ['\n'])) ∨
      ∃ side, onSide side line = true := by
  obtain ⟨hunk, _, within⟩ := List.mem_flatMap.mp (List.mem_of_mem_tail member)
  rcases List.mem_cons.mp within with header | inHunk
  · exact .inl ⟨hunk, header⟩
  · rcases tag_of_mem_flatMap inHunk with same | removed | added
    · exact .inr ⟨.old, by simp [onSide, same]⟩
    · exact .inr ⟨.old, by simp [onSide, removed, Side.tag]⟩
    · exact .inr ⟨.new, by simp [onSide, added, Side.tag]⟩

theorem mem_cutLines_of_onSide (side : Side) {line : Char × List Char}
    (member : line ∈ taggedLines old new) (on : onSide side line = true) :
    line.2 ∈ side.of (Text.cutLines old) (Text.cutLines new) := by
  obtain ⟨hunk, among, within⟩ := List.mem_flatMap.mp (List.mem_of_mem_tail member)
  rcases List.mem_cons.mp within with rfl | inHunk
  · cases side <;> simp [onSide, Side.tag] at on
  · have lies := lies_hunks side Engine.context (regions .anyEnding old new) hunk among
    rw [lines_anyEnding] at lies
    apply lies.mem
    rw [Hunk.lines, ← filter_onSide]
    exact List.mem_map.mpr ⟨line, List.mem_filter.mpr ⟨inHunk, on⟩, rfl⟩

theorem printable_taggedLines : ∀ line ∈ taggedLines old new, Printable line := by
  intro line member
  rcases header_or_onSide member with ⟨hunk, rfl⟩ | ⟨side, on⟩
  · exact ⟨by simp, .ended hunk.plain_ranges .newline⟩
  · have inText := mem_cutLines_of_onSide side member on
    have tag : line.1 = ' ' ∨ line.1 = side.tag := of_decide_eq_true on
    cases side with
    | old =>
        refine ⟨?_, Text.piece_of_mem_cutLines inText⟩
        rcases tag with tag | tag <;> simp [tag, Side.tag]
    | new =>
        refine ⟨?_, Text.piece_of_mem_cutLines inText⟩
        rcases tag with tag | tag <;> simp [tag, Side.tag]

theorem cutLines_shownChange (old new : List Char) :
    Text.cutLines (shownChange old new) = (taggedLines old new).flatMap printedPieces :=
  cutLines_printed printable_taggedLines

theorem ended_of_tidy (tidyOld : Text.Tidy old) (tidyNew : Text.Tidy new) :
    ∀ line ∈ taggedLines old new, Text.Ended line.2 := by
  intro line member
  rcases header_or_onSide member with ⟨hunk, rfl⟩ | ⟨side, on⟩
  · exact ⟨hunk.ranges, rfl, hunk.plain_ranges.1⟩
  · have inText := mem_cutLines_of_onSide side member on
    cases side with
    | old => exact tidyOld.ended_of_mem inText
    | new => exact tidyNew.ended_of_mem inText

theorem countP_taggedLines (old new : List Char) :
    (taggedLines old new).countP (·.1 = '-') + (taggedLines old new).countP (·.1 = '+') =
      regionCount ((hunks Engine.context (regions .anyEnding old new)).flatMap Hunk.regions) := by
  have removed := countP_tagLines_hunks (by decide : '@' ≠ '-')
    (hunks Engine.context (regions .anyEnding old new))
  have added := countP_tagLines_hunks (by decide : '@' ≠ '+')
    (hunks Engine.context (regions .anyEnding old new))
  rw [← countP_flatMap_tagLines, ← removed, ← added, taggedLines]
  -- the first header is no change
  cases hunks Engine.context (regions .anyEnding old new) with
  | nil => rfl
  | cons hunk later => simp [Hunk.tagLines]

theorem regionCount_regions (old new : List Char) :
    regionCount (regions .anyEnding old new) =
      changeCount (script .fromLow (Text.cutLines old) (Text.cutLines new)) :=
  (regionCount_ofScript _).trans (changeCount_align _ _)

theorem eq_of_gaps_eq_nil (style : Style) (none : gaps (regions style old new) = []) : old = new := by
  have spelled := lines_eq_of_gaps_eq_nil none
  rw [flatMap_lines_regions, flatMap_lines_regions] at spelled
  rw [← style.flatten_cut old, ← style.flatten_cut new]
  exact congrArg List.flatten spelled

theorem gaps_regions_eq_nil_iff (old new : List Char) :
    gaps (regions .anyEnding old new) = [] ↔ old = new := by
  refine ⟨eq_of_gaps_eq_nil .anyEnding, ?_⟩
  rintro rfl
  have found := changeCount_script_of_sublist .fromLow (List.Sublist.refl (Text.cutLines old))
  rw [← regionCount_regions] at found
  exact (alternating_regions old old).regionCount_eq_zero_iff.mp (by omega)

theorem hunks_eq_nil_iff (old new : List Char) :
    hunks Engine.context (regions .anyEnding old new) = [] ↔ old = new := by
  rw [(alternating_regions old new).hunks_eq_nil_iff, gaps_regions_eq_nil_iff]

theorem shownChange_eq_nil_iff (old new : List Char) : shownChange old new = [] ↔ old = new := by
  constructor
  · intro empty
    have none : taggedLines old new = [] := by
      have pieces := cutLines_shownChange old new
      rw [empty] at pieces
      cases lines : taggedLines old new with
      | nil => rfl
      | cons line later =>
          rw [lines, List.flatMap_cons] at pieces
          unfold printedPieces at pieces
          split at pieces <;> cases pieces
    have counted := countP_taggedLines old new
    rw [none, regionCount_hunks] at counted
    rw [← gaps_regions_eq_nil_iff]
    exact (alternating_regions old new).regionCount_eq_zero_iff.mp counted.symm
  · intro same
    rw [shownChange, taggedLines, (hunks_eq_nil_iff old new).mpr same]
    rfl

theorem runsWithin_regions {bound : Nat}
    (short : min (Text.cutLines old).length (Text.cutLines new).length ≤ bound) :
    RunsWithin bound (regions .anyEnding old new) := by
  have one : (Text.cutLines old).length ≤ bound ∨ (Text.cutLines new).length ≤ bound := by omega
  rcases one with shortOld | shortNew
  · exact runsWithin_of_length .old (by rwa [lines_anyEnding])
  · exact runsWithin_of_length .new (by rwa [lines_anyEnding])

/-- All lines of both texts are shown where one of them has no more lines than the context. -/
theorem taggedLines_of_short (differ : old ≠ new)
    (short : min (Text.cutLines old).length (Text.cutLines new).length ≤ Engine.context) :
    taggedLines old new = (regions .anyEnding old new).flatMap Region.tagLines := by
  have change : gaps (regions .anyEnding old new) ≠ [] := mt (gaps_regions_eq_nil_iff old new).mp differ
  rw [taggedLines, hunks_of_runsWithin (runsWithin_regions short) change]
  simp [Hunk.tagLines]

theorem tag_of_mem_taggedLines (differ : old ≠ new)
    (short : min (Text.cutLines old).length (Text.cutLines new).length ≤ Engine.context)
    {line : Char × List Char} (member : line ∈ taggedLines old new) :
    line.1 = ' ' ∨ line.1 = '-' ∨ line.1 = '+' := by
  rw [taggedLines_of_short differ short] at member
  exact tag_of_mem_flatMap member

theorem side_taggedLines (side : Side) (differ : old ≠ new)
    (short : min (Text.cutLines old).length (Text.cutLines new).length ≤ Engine.context) :
    ((taggedLines old new).filter (onSide side)).map Prod.snd =
      side.of (Text.cutLines old) (Text.cutLines new) := by
  rw [taggedLines_of_short differ short, filter_onSide, lines_anyEnding]

end

end Redline.LineDiff
