import Mathlib
import Redline.Proofs.Block.OnePass
import Redline.Proofs.LineDiff.Reading

/-! Directives put into a shown change. Wherever its lines are cut, every directive selects the lines
of its side from those below it, down to the next directive, and nothing else comes out. -/

namespace Redline

def Directive.side : Directive → LineDiff.Side
  | .apply => .new
  | .reject => .old

namespace Block

open LineDiff

structure Segment where
  opening : Line
  directive : Directive
  lines : List Line
  opens : Text.trim opening = directive.word
  unbroken : '\n' ∉ opening

namespace Segment

def whole (segment : Segment) : List Line :=
  segment.opening :: segment.lines

def text (segment : Segment) : List Char :=
  Text.endLines segment.whole

def selected (segment : Segment) : List Line :=
  sideLines segment.directive.side segment.lines

end Segment

/-- A line of a shown change that no machine takes for a directive. -/
structure Selectable (line : Line) : Prop where
  data : isData line = true
  mark : ∃ tag content, line = tag :: content ∧ (tag = ' ' ∨ tag = '-' ∨ tag = '+')

theorem yielded_eq_sideLines {line : Line} (selectable : Selectable line) (directive : Directive) :
    yielded (some directive) line = sideLines directive.side [line] := by
  obtain ⟨_, tag, content, rfl, mark⟩ := selectable
  rw [sideLines_cons]
  rcases mark with rfl | rfl | rfl <;> cases directive <;>
    simp [yielded, onSide, Directive.side, Side.tag, sideLines]

theorem sideLines_append (side : Side) (first second : List Line) :
    sideLines side (first ++ second) = sideLines side first ++ sideLines side second := by
  simp [sideLines]

theorem onePass_selectable {lines : List Line} (selectable : ∀ line ∈ lines, Selectable line)
    (directive : Directive) (rest : List Line) :
    onePass (some directive) (lines ++ rest) =
      sideLines directive.side lines ++ onePass (some directive) rest := by
  induction lines with
  | nil => rfl
  | cons line lines ih =>
      have here := selectable line (by simp)
      rw [List.cons_append, onePass_data here.data, yielded_eq_sideLines here,
        ih fun line member => selectable line (by simp [member]), ← List.append_assoc,
        ← sideLines_append, List.singleton_append]

theorem onePass_segments {segments : List Segment}
    (selectable : ∀ segment ∈ segments, ∀ line ∈ segment.lines, Selectable line)
    (current : Option Directive) :
    onePass current (segments.flatMap Segment.whole ++ [[]]) =
      segments.flatMap Segment.selected ++ [[]] := by
  induction segments generalizing current with
  | nil =>
      have data : isData [] = true := rfl
      rw [List.flatMap_nil, List.nil_append, onePass_data data]
      cases current with
      | none => rfl
      | some directive => cases directive <;> rfl
  | cons segment segments ih =>
      have opens := Directive.ofLine?_eq_some_iff.mpr segment.opens
      have here := selectable segment (by simp)
      have later := ih (fun segment member => selectable segment (by simp [member]))
        (some segment.directive)
      rw [List.flatMap_cons, Segment.whole, List.append_assoc, List.cons_append,
        onePass_directive opens, onePass_selectable here, later, List.flatMap_cons,
        Segment.selected, List.append_assoc]

theorem closed_append_nil (lines : List Line) :
    closed (lines ++ [[]]) = if lines = [] then ['\n'] else Text.endLines lines := by
  match lines with
  | [] => rfl
  | [line] => simp [closed, Text.endLines]
  | line :: next :: lines =>
      rw [← joinLines_padded, if_neg (by simp), ← Text.joinLines_append_nil]
      rfl

theorem resolveChars_segments {segments : List Segment}
    (selectable : ∀ segment ∈ segments, ∀ line ∈ segment.lines, Selectable line)
    (unbroken : ∀ segment ∈ segments, ∀ line ∈ segment.lines, '\n' ∉ line) :
    resolveChars (segments.flatMap Segment.text) =
      if segments.flatMap Segment.selected = [] then ['\n']
      else Text.endLines (segments.flatMap Segment.selected) := by
  have wholeText : segments.flatMap Segment.text = Text.endLines (segments.flatMap Segment.whole) := by
    rw [Text.endLines, List.flatMap_assoc]
    rfl
  have wholeUnbroken : ∀ line ∈ segments.flatMap Segment.whole, '\n' ∉ line := by
    intro line member
    obtain ⟨segment, among, within⟩ := List.mem_flatMap.mp member
    rcases List.mem_cons.mp within with rfl | below
    · exact segment.unbroken
    · exact unbroken segment among line below
  rw [resolveChars_eq, wholeText, Text.splitOn_endLines wholeUnbroken, onePass_segments selectable,
    closed_append_nil]

theorem selectable_shownLine {old new : List Char}
    (data : ∀ line ∈ Text.cutLines old, line ∈ Text.cutLines new →
      ∀ directive : Directive, Text.trim line ≠ directive.word)
    {line : Char × List Char} (member : line ∈ taggedLines old new)
    (tag : line.1 = ' ' ∨ line.1 = '-' ∨ line.1 = '+') (ended : Text.Ended line.2) :
    Selectable (shownLine line) := by
  refine ⟨?_, line.1, Text.withoutNewline line.2, rfl, tag⟩
  rcases tag with same | removed | added
  · have shared := data line.2 (mem_cutLines_of_onSide .old member (by simp [onSide, same]))
      (mem_cutLines_of_onSide .new member (by simp [onSide, same]))
    apply isData_of_trim
    rw [← ended.append_newline, Text.trim_append_blank (by decide)] at shared
    rwa [shownLine, same, Text.trim_cons_blank (by decide)]
  · rw [shownLine, removed]
    exact isData_removed _
  · rw [shownLine, added]
    exact isData_added _

theorem sideLines_map_shownLine (side : Side) (lines : List (Char × List Char)) :
    sideLines side (lines.map shownLine) =
      ((lines.filter (onSide side)).map Prod.snd).map Text.withoutNewline := by
  induction lines with
  | nil => rfl
  | cons line lines ih =>
      have tagOnly : onSide side (line.1, Text.withoutNewline line.2) = onSide side line := rfl
      rw [List.map_cons, shownLine, sideLines_cons, ih, tagOnly]
      by_cases on : onSide side line = true <;> simp [on]

theorem flatMap_selected {segments : List Segment} {directive : Directive}
    (all : ∀ segment ∈ segments, segment.directive = directive) :
    segments.flatMap Segment.selected =
      sideLines directive.side (segments.flatMap Segment.lines) := by
  induction segments with
  | nil => rfl
  | cons segment segments ih =>
      rw [List.flatMap_cons, List.flatMap_cons, sideLines_append, Segment.selected,
        all segment (by simp), ih fun segment member => all segment (by simp [member])]

theorem endLines_selected {old new : List Char} (differ : old ≠ new)
    (short : min (Text.cutLines old).length (Text.cutLines new).length ≤ Engine.context)
    (tidyOld : Text.Tidy old) (tidyNew : Text.Tidy new) {segments : List Segment}
    (cut : segments.flatMap Segment.lines = (taggedLines old new).map shownLine)
    {directive : Directive} (all : ∀ segment ∈ segments, segment.directive = directive) :
    Text.endLines (segments.flatMap Segment.selected) = directive.side.of old new := by
  rw [flatMap_selected all, cut, sideLines_map_shownLine, side_taggedLines _ differ short]
  cases directive with
  | apply => exact tidyNew.endLines_cutLines
  | reject => exact tidyOld.endLines_cutLines

def resolveSegments (segments : List Segment) : String :=
  resolveText (String.ofList (segments.flatMap Segment.text))

/-- Directives between the lines of a shown change select exactly the lines of their sides. -/
theorem resolveText_segments (before after : String) (differ : before ≠ after)
    (short : min (Text.cutLines before.toList).length (Text.cutLines after.toList).length ≤ Engine.context)
    (tidyBefore : Text.Tidy before.toList) (tidyAfter : Text.Tidy after.toList)
    (data : ∀ line ∈ Text.cutLines before.toList, line ∈ Text.cutLines after.toList →
      ∀ directive : Directive, Text.trim line ≠ directive.word) :
    ∃ diff lines, Engine.render Engine.builtin before after = .ok diff ∧
      diff.toList = Text.endLines lines ∧ (∀ line ∈ lines, '\n' ∉ line) ∧
      ∀ segments : List Segment, segments.flatMap Segment.lines = lines →
        (resolveSegments segments).toList =
          (if segments.flatMap Segment.selected = [] then ['\n']
            else Text.endLines (segments.flatMap Segment.selected)) ∧
        ((∀ segment ∈ segments, segment.directive = .apply) → after ≠ "" →
          resolveSegments segments = after) ∧
        ((∀ segment ∈ segments, segment.directive = .reject) → before ≠ "" →
          resolveSegments segments = before) := by
  have apart : before.toList ≠ after.toList := mt String.toList_inj.mp differ
  let tagged := taggedLines before.toList after.toList
  have ended := ended_of_tidy tidyBefore tidyAfter
  refine ⟨_, tagged.map shownLine, render_builtin before after, ?_, ?_, ?_⟩
  · rw [String.toList_ofList]
    exact flatten_printed_ended ended
  · intro line member
    obtain ⟨source, among, rfl⟩ := List.mem_map.mp member
    exact newline_not_mem_shownLine (printable_taggedLines source among) (ended source among)
  · intro segments cut
    have shown : ∀ segment ∈ segments, ∀ line ∈ segment.lines,
        ∃ source ∈ tagged, shownLine source = line := by
      intro segment among line within
      exact List.mem_map.mp (cut ▸ List.mem_flatMap.mpr ⟨segment, among, within⟩)
    have result : (resolveSegments segments).toList =
        if segments.flatMap Segment.selected = [] then ['\n']
        else Text.endLines (segments.flatMap Segment.selected) := by
      rw [resolveSegments, toList_resolveText, String.toList_ofList]
      apply resolveChars_segments
      · intro segment among line within
        obtain ⟨source, member, rfl⟩ := shown segment among line within
        exact selectable_shownLine data member (tag_of_mem_taggedLines apart short member)
          (ended source member)
      · intro segment among line within
        obtain ⟨source, member, rfl⟩ := shown segment among line within
        exact newline_not_mem_shownLine (printable_taggedLines source member) (ended source member)
    have restored {text : String} (some : text ≠ "")
        (whole : Text.endLines (segments.flatMap Segment.selected) = text.toList) :
        resolveSegments segments = text := by
      have picked : segments.flatMap Segment.selected ≠ [] := by
        intro nothing
        rw [nothing] at whole
        exact some (String.toList_eq_nil_iff.mp whole.symm)
      rw [if_neg picked, whole] at result
      exact String.toList_inj.mp result
    refine ⟨result, ?_, ?_⟩
    · intro all filled
      exact restored filled (endLines_selected apart short tidyBefore tidyAfter cut all)
    · intro all filled
      exact restored filled (endLines_selected apart short tidyBefore tidyAfter cut all)

theorem resolveText_segments_oneByOne :
    Engine.render Engine.builtin "one\ntwo\n" "one\n2\n" = .ok " one\n-two\n+2\n" ∧
      resolveText "reject\n one\n-two\n apply\n+2\n" = "one\ntwo\n2\n" := by
  have rendered : Engine.render Engine.builtin "one\ntwo\n" "one\n2\n" = .ok " one\n-two\n+2\n" := by
    cbv
  refine ⟨rendered, ?_⟩
  let rejected : Segment :=
    { opening := "reject".toList, directive := .reject, lines := [" one".toList, "-two".toList],
      opens := by decide, unbroken := by decide }
  let applied : Segment :=
    { opening := " apply".toList, directive := .apply, lines := ["+2".toList],
      opens := by decide, unbroken := by decide }
  obtain ⟨diff, lines, shown, cut, unbroken, resolves⟩ := resolveText_segments "one\ntwo\n" "one\n2\n"
    (by decide) (by decide) (Text.tidy_of_noCarriage (by decide) (by decide))
    (Text.tidy_of_noCarriage (by decide) (by decide)) (by
      intro line ofBefore ofAfter directive
      revert line
      cases directive <;> decide)
  obtain rfl := Except.ok.inj (shown.symm.trans rendered)
  have ofSegments : [rejected, applied].flatMap Segment.lines = lines :=
    Text.endLines_inj (by decide) unbroken (by rw [← cut]; rfl)
  obtain ⟨result, _, _⟩ := resolves [rejected, applied] ofSegments
  exact String.toList_inj.mp result

end Block

end Redline
