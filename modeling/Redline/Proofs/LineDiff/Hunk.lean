import Redline.LineDiff.Unified
import Redline.Proofs.LineDiff.Grouping
import Redline.Proofs.Text.Lines

/-! The lines of a hunk with their tags. A hunk is its tagged lines one behind the other, its header in
front of them, the lines tagged for a side are the lines of that side, and cutting the hunk gives its
tagged lines back, with a hint behind those that had no ending. -/

namespace Redline.LineDiff

def Side.tag : Side → Char
  | .old => '-'
  | .new => '+'

def Region.tagLines : Region (List Char) → List (Char × List Char)
  | .same lines => lines.map (' ', ·)
  | .changed gap => gap.removed.map ('-', ·) ++ gap.added.map ('+', ·)

def Hunk.ranges {α : Type} (hunk : Hunk α) : List Char :=
  hunk.header.toList.tail

/-- The lines of a hunk. Its header counts as a line with the tag `@`. -/
def Hunk.tagLines (hunk : Hunk (List Char)) : List (Char × List Char) :=
  ('@', hunk.ranges ++ ['\n']) :: hunk.regions.flatMap Region.tagLines

def onSide (side : Side) (line : Char × List Char) : Bool :=
  line.1 = ' ' ∨ line.1 = side.tag

def hintText : List Char :=
  "\\ No newline at end of file".toList

def printedPieces (line : Char × List Char) : List (List Char) :=
  if line.2.getLast? = some '\n' ∨ line.2.getLast? = some '\r' then [line.1 :: line.2]
  else [line.1 :: line.2 ++ ['\n'], hintText ++ ['\n']]

theorem body_eq_tagLines (ends : List Char) (region : Region (List Char)) :
    region.body ends = region.tagLines.flatMap fun line => tagged ends line.1 line.2 := by
  cases region with
  | same lines => simp [Region.body, Region.tagLines, List.flatMap_map]
  | changed gap => simp [Region.body, Region.tagLines, List.flatMap_map, List.flatMap_append]

theorem not_mem_toDigits {c : Char} (noDigit : c.isDigit = false) (n : Nat) : c ∉ Nat.toDigits 10 n := by
  intro member
  have digit := Nat.isDigit_of_mem_toDigits (by decide) (by decide) member
  simp [noDigit] at digit

theorem plain_rangeText (first last : Nat) : Text.Plain (rangeText first last).toList := by
  have newline := not_mem_toDigits (by decide : '\n'.isDigit = false)
  have carriage := not_mem_toDigits (by decide : '\r'.isDigit = false)
  unfold Text.Plain rangeText
  split <;> simp [toString, newline, carriage]

theorem Hunk.toList_header {α : Type} (hunk : Hunk α) : hunk.header.toList = '@' :: hunk.ranges := by
  simp [ranges, header, toString]

theorem Hunk.prefix_header {α : Type} (hunk : Hunk α) : ['@', '@'] <+: hunk.header.toList := by
  simp [header, toString]

theorem Hunk.plain_header {α : Type} (hunk : Hunk α) : Text.Plain hunk.header.toList := by
  have range := fun side : Side => plain_rangeText (hunk.span side).1 (hunk.span side).2
  unfold Text.Plain at *
  simp [header, toString, range]

theorem Hunk.plain_ranges {α : Type} (hunk : Hunk α) : Text.Plain hunk.ranges := by
  have plain := hunk.plain_header
  rw [hunk.toList_header] at plain
  exact ⟨fun member => plain.1 (List.mem_cons_of_mem _ member),
    fun member => plain.2 (List.mem_cons_of_mem _ member)⟩

theorem print_eq_tagLines (hunk : Hunk (List Char)) :
    hunk.print ['\n', '\r'] = hunk.tagLines.flatMap fun line => tagged ['\n', '\r'] line.1 line.2 := by
  have bodies : hunk.regions.flatMap (Region.body ['\n', '\r']) =
      (hunk.regions.flatMap Region.tagLines).flatMap fun line => tagged ['\n', '\r'] line.1 line.2 := by
    rw [List.flatMap_assoc]
    congr 1
    funext region
    exact body_eq_tagLines _ region
  rw [Hunk.print, bodies, Hunk.tagLines, List.flatMap_cons, hunk.toList_header]
  simp [tagged]

theorem filter_onSide_tagLines (side : Side) (region : Region (List Char)) :
    (region.tagLines.filter (onSide side)).map Prod.snd = region.lines side := by
  cases region with
  | same lines => simp [Region.tagLines, Region.lines, onSide, List.filter_map, Function.comp_def]
  | changed gap =>
      have all (lines : List (List Char)) : lines.filter (fun _ => true) = lines :=
        List.filter_eq_self.mpr fun _ _ => rfl
      cases side <;>
        simp [Region.tagLines, Region.lines, onSide, List.filter_map, Function.comp_def, Side.tag, Side.of,
          all]

theorem filter_onSide (side : Side) (regions : List (Region (List Char))) :
    ((regions.flatMap Region.tagLines).filter (onSide side)).map Prod.snd =
      regions.flatMap (Region.lines side) := by
  induction regions with
  | nil => rfl
  | cons region regions ih =>
      rw [List.flatMap_cons, List.filter_append, List.map_append, ih, filter_onSide_tagLines,
        List.flatMap_cons]

theorem tag_of_mem_tagLines {region : Region (List Char)} {line : Char × List Char}
    (member : line ∈ region.tagLines) : line.1 = ' ' ∨ line.1 = '-' ∨ line.1 = '+' := by
  cases region with
  | same lines =>
      obtain ⟨text, _, rfl⟩ := List.mem_map.mp member
      exact Or.inl rfl
  | changed gap =>
      rcases List.mem_append.mp member with removed | added
      · obtain ⟨text, _, rfl⟩ := List.mem_map.mp removed
        exact Or.inr (Or.inl rfl)
      · obtain ⟨text, _, rfl⟩ := List.mem_map.mp added
        exact Or.inr (Or.inr rfl)

theorem countP_tagLines (region : Region (List Char)) :
    region.tagLines.countP (·.1 = '-') + region.tagLines.countP (·.1 = '+') = region.changeCount := by
  cases region with
  | same lines => simp [Region.tagLines, Region.changeCount, List.countP_map, Function.comp_def]
  | changed gap => simp [Region.tagLines, Region.changeCount, List.countP_map, Function.comp_def]

theorem countP_flatMap_tagLines (regions : List (Region (List Char))) :
    (regions.flatMap Region.tagLines).countP (·.1 = '-') +
        (regions.flatMap Region.tagLines).countP (·.1 = '+') =
      regionCount regions := by
  induction regions with
  | nil => rfl
  | cons region regions ih =>
      have counted := countP_tagLines region
      simp only [List.flatMap_cons, List.countP_append, regionCount]
      omega

theorem countP_tagLines_hunks {tag : Char} (noHeader : '@' ≠ tag) (hunks : List (Hunk (List Char))) :
    (hunks.flatMap Hunk.tagLines).countP (·.1 = tag) =
      ((hunks.flatMap Hunk.regions).flatMap Region.tagLines).countP (·.1 = tag) := by
  induction hunks with
  | nil => rfl
  | cons hunk hunks ih =>
      simp only [List.flatMap_cons, List.flatMap_append, List.countP_append, ih, Hunk.tagLines]
      simp [noHeader]

theorem unendedHint_eq : unendedHint = '\n' :: (hintText ++ ['\n']) :=
  rfl

theorem hintText_eq : hintText = '\\' :: hintText.tail :=
  rfl

theorem plain_hintText : Text.Plain hintText := by
  unfold Text.Plain hintText
  constructor <;> simp

theorem tagged_eq_flatten (line : Char × List Char) :
    tagged ['\n', '\r'] line.1 line.2 = (printedPieces line).flatten := by
  rcases line with ⟨tag, text⟩
  unfold tagged printedPieces
  cases last : text.getLast? with
  | none => simp [unendedHint_eq]
  | some c => by_cases ends : c = '\n' ∨ c = '\r' <;> simp [ends, unendedHint_eq]

theorem print_hunks (hunks : List (Hunk (List Char))) :
    hunks.flatMap (Hunk.print ['\n', '\r']) =
      ((hunks.flatMap Hunk.tagLines).flatMap printedPieces).flatten := by
  rw [List.flatten_eq_flatMap, List.flatMap_assoc, List.flatMap_assoc]
  congr 1
  funext hunk
  rw [print_eq_tagLines]
  congr 1
  funext line
  rw [tagged_eq_flatten, List.flatten_eq_flatMap]

structure Printable (line : Char × List Char) : Prop where
  tag : line.1 ∈ [' ', '-', '+', '@']
  piece : Text.Piece line.2

theorem Printable.tag_ne {line : Char × List Char} (printable : Printable line) {c : Char}
    (noTag : c ∉ [' ', '-', '+', '@']) : line.1 ≠ c := by
  rintro rfl
  exact noTag printable.tag

theorem printedPieces_ended {content ending : List Char} (ends : Text.Ending ending) (tag : Char) :
    printedPieces (tag, content ++ ending) = [tag :: (content ++ ending)] := by
  cases ends <;> simp [printedPieces]

theorem printedPieces_unended {content : List Char} (plain : Text.Plain content) (tag : Char) :
    printedPieces (tag, content) = [tag :: content ++ ['\n'], hintText ++ ['\n']] := by
  have noNewline : content.getLast? ≠ some '\n' := fun last => plain.1 (List.mem_of_getLast? last)
  have noCarriage : content.getLast? ≠ some '\r' := fun last => plain.2 (List.mem_of_getLast? last)
  simp [printedPieces, noNewline, noCarriage]

/-- Cutting takes the pieces of a tagged line off a text that does not go on with a newline. -/
theorem cutLines_printedPieces_append {line : Char × List Char} (printable : Printable line)
    {rest : List Char} (apart : rest.head? ≠ some '\n') :
    Text.cutLines ((printedPieces line).flatten ++ rest) = printedPieces line ++ Text.cutLines rest := by
  have noNewline : line.1 ≠ '\n' := printable.tag_ne (by decide)
  have noCarriage : line.1 ≠ '\r' := printable.tag_ne (by decide)
  rcases line with ⟨tag, text⟩
  cases printable.piece with
  | @ended content ending plain ends =>
      have cut := Text.cutLines_ended_append (plain.cons noNewline noCarriage) ends fun _ => apart
      rw [List.append_eq, printedPieces_ended ends]
      simpa using cut
  | unended plain _ =>
      have cutHint := Text.cutLines_ended_append plain_hintText .newline fun _ => apart
      have hintApart : (hintText ++ ['\n'] ++ rest).head? ≠ some '\n' := by
        rw [hintText_eq]
        simp
      have cut := Text.cutLines_ended_append (plain.cons noNewline noCarriage) .newline fun _ => hintApart
      rw [cutHint] at cut
      rw [printedPieces_unended plain]
      simpa using cut

theorem head?_printed {lines : List (Char × List Char)} (printable : ∀ line ∈ lines, Printable line) :
    (lines.flatMap printedPieces).flatten.head? ≠ some '\n' := by
  cases lines with
  | nil => simp
  | cons line lines =>
      have noNewline : line.1 ≠ '\n' := (printable line (by simp)).tag_ne (by decide)
      rw [List.flatMap_cons]
      unfold printedPieces
      split <;> simpa using noNewline

theorem cutLines_printed {lines : List (Char × List Char)}
    (printable : ∀ line ∈ lines, Printable line) :
    Text.cutLines (lines.flatMap printedPieces).flatten = lines.flatMap printedPieces := by
  induction lines with
  | nil => rfl
  | cons line lines ih =>
      have later : ∀ line ∈ lines, Printable line := fun line member => printable line (by simp [member])
      rw [List.flatMap_cons, List.flatten_append,
        cutLines_printedPieces_append (printable line (by simp)) (head?_printed later), ih later]

def shownLine (line : Char × List Char) : List Char :=
  line.1 :: Text.withoutNewline line.2

theorem newline_not_mem_shownLine {line : Char × List Char} (printable : Printable line)
    (ended : Text.Ended line.2) : '\n' ∉ shownLine line := by
  have noNewline : line.1 ≠ '\n' := printable.tag_ne (by decide)
  simp [shownLine, noNewline.symm, ended.newline_not_mem]

theorem flatten_printedPieces_ended {line : Char × List Char} (ended : Text.Ended line.2) :
    (printedPieces line).flatten = shownLine line ++ ['\n'] := by
  obtain ⟨content, same, _⟩ := ended
  simp [printedPieces, shownLine, same]

theorem flatten_printed_ended {lines : List (Char × List Char)}
    (ended : ∀ line ∈ lines, Text.Ended line.2) :
    (lines.flatMap printedPieces).flatten = Text.endLines (lines.map shownLine) := by
  induction lines with
  | nil => rfl
  | cons line lines ih =>
      have here := ended line (by simp)
      rw [List.flatMap_cons, List.flatten_append, ih fun line member => ended line (by simp [member]),
        List.map_cons, Text.endLines_cons, List.append_cons, flatten_printedPieces_ended here]

end Redline.LineDiff
