import Redline.Proofs.LineDiff.Rendering

/-! Headers taken off diffs. Only a text that starts with the three lines of a header loses them, and
what the builtin engine shows of one hunk does not start so: the marks leave no line to begin like a
hunk. The headers of further hunks stay. -/

namespace Redline.LineDiff

structure Opening (old new hunk : List Char) : Prop where
  oldMark : ['-', '-', '-'] <+: old
  newMark : ['+', '+', '+'] <+: new
  hunkMark : ['@', '@'] <+: hunk
  oldUnbroken : '\n' ∉ old
  newUnbroken : '\n' ∉ new
  hunkUnbroken : '\n' ∉ hunk

/-- A text that opens with three header lines, and what stands below the third of them. -/
inductive Headed : List Char → List Char → Prop
  | followed {old new hunk : List Char} (body : List Char) : Opening old new hunk →
      Headed (old ++ '\n' :: (new ++ '\n' :: (hunk ++ '\n' :: body))) body
  | alone {old new hunk : List Char} : Opening old new hunk →
      Headed (old ++ '\n' :: (new ++ '\n' :: hunk)) []

theorem opens_iff {old new hunk : List Char} : opens old new hunk = true ↔
    ['-', '-', '-'] <+: old ∧ ['+', '+', '+'] <+: new ∧ ['@', '@'] <+: hunk := by
  simp only [opens, Bool.and_eq_true, List.isPrefixOf_iff_prefix, and_assoc]

theorem Opening.opens_eq {old new hunk : List Char} (opening : Opening old new hunk) :
    opens old new hunk = true :=
  opens_iff.mpr ⟨opening.oldMark, opening.newMark, opening.hunkMark⟩

theorem headed_iff {raw body : List Char} : Headed raw body ↔
    ∃ old new hunk rest, raw.splitOn '\n' = old :: new :: hunk :: rest ∧
      opens old new hunk = true ∧ Text.joinLines rest = body := by
  constructor
  · intro headed
    cases headed with
    | @followed old new hunk _ opening =>
        refine ⟨old, new, hunk, body.splitOn '\n', ?_, opening.opens_eq, ?_⟩
        · rw [List.splitOn_append_cons_self_of_not_mem opening.oldUnbroken,
            List.splitOn_append_cons_self_of_not_mem opening.newUnbroken,
            List.splitOn_append_cons_self_of_not_mem opening.hunkUnbroken]
        · exact Text.joinLines_splitOn body
    | @alone old new hunk opening =>
        refine ⟨old, new, hunk, [], ?_, opening.opens_eq, rfl⟩
        rw [List.splitOn_append_cons_self_of_not_mem opening.oldUnbroken,
          List.splitOn_append_cons_self_of_not_mem opening.newUnbroken,
          List.splitOn_eq_singleton opening.hunkUnbroken]
  · rintro ⟨old, new, hunk, rest, lines, opened, rfl⟩
    have unbroken := Text.newline_not_mem_splitOn raw
    rw [lines] at unbroken
    obtain ⟨oldMark, newMark, hunkMark⟩ := opens_iff.mp opened
    have opening : Opening old new hunk :=
      ⟨oldMark, newMark, hunkMark, unbroken old (by simp), unbroken new (by simp),
        unbroken hunk (by simp)⟩
    have whole : raw = Text.joinLines (old :: new :: hunk :: rest) := by
      rw [← lines, Text.joinLines_splitOn]
    subst whole
    cases rest with
    | nil => exact .alone opening
    | cons line rest => exact .followed _ opening

theorem stripHeader_of_headed {raw body : List Char} (headed : Headed raw body) :
    stripHeader raw = body := by
  obtain ⟨old, new, hunk, rest, lines, opened, rfl⟩ := headed_iff.mp headed
  simp [stripHeader, Text.splitLines_eq_splitOn, lines, opened]

theorem stripHeader_of_not_headed {raw : List Char} (whole : ∀ body, ¬ Headed raw body) :
    stripHeader raw = raw := by
  rw [stripHeader, Text.splitLines_eq_splitOn]
  split
  next old new hunk rest lines =>
    split
    next opened => exact absurd (headed_iff.mpr ⟨old, new, hunk, rest, lines, opened, rfl⟩) (whole _)
    next => rfl
  next => rfl

theorem stripHeader_eq_iff {raw result : List Char} :
    stripHeader raw = result ↔
      Headed raw result ∨ (∀ body, ¬ Headed raw body) ∧ result = raw := by
  constructor
  · rintro rfl
    by_cases headed : ∃ body, Headed raw body
    · obtain ⟨body, headed⟩ := headed
      left
      rwa [stripHeader_of_headed headed]
    · right
      have whole : ∀ body, ¬ Headed raw body := fun body here => headed ⟨body, here⟩
      exact ⟨whole, stripHeader_of_not_headed whole⟩
  · rintro (headed | ⟨whole, rfl⟩)
    · exact stripHeader_of_headed headed
    · exact stripHeader_of_not_headed whole

def MarkedBy (marks text : List Char) : Prop :=
  ∀ line ∈ text.splitOn '\n', ∀ mark ∈ line.head?, mark ∈ marks

def Marked (text : List Char) : Prop :=
  MarkedBy [' ', '-', '+', '\\'] text

theorem not_headed_of_marked {raw : List Char} (marked : Marked raw) (body : List Char) :
    ¬ Headed raw body := by
  intro headed
  obtain ⟨old, new, hunk, rest, lines, opened, _⟩ := headed_iff.mp headed
  obtain ⟨_, _, content, rfl⟩ := opens_iff.mp opened
  have mark := marked ('@' :: '@' :: content) (by simp [lines]) '@' rfl
  simp at mark

section

variable {marks : List Char}

theorem MarkedBy.newline_cons {rest : List Char} (marked : MarkedBy marks rest) :
    MarkedBy marks ('\n' :: rest) := by
  intro line member mark isFirst
  rw [List.splitOn_cons_eq_if_modifyHead] at member
  rcases List.mem_cons.mp member with rfl | later
  · cases isFirst
  · exact marked line later mark isFirst

theorem MarkedBy.append {rest : List Char} (marked : MarkedBy marks rest) {mark : Char}
    (isMark : mark ∈ marks) (content : List Char) (unbroken : '\n' ∉ mark :: content) :
    MarkedBy marks (mark :: content ++ rest) := by
  obtain ⟨first, lines, ofRest, ofWhole⟩ := Text.splitOn_unbroken_append unbroken rest
  intro line member other isFirst
  rw [ofWhole] at member
  rcases List.mem_cons.mp member with rfl | later
  · obtain rfl := Option.some.inj isFirst
    exact isMark
  · exact marked line (by simp [ofRest, later]) other isFirst

theorem marked_printedPieces (hints : '\\' ∈ marks) {line : Char × List Char}
    (printable : Printable line) (isMark : line.1 ∈ marks) {rest : List Char}
    (marked : MarkedBy marks rest) : MarkedBy marks ((printedPieces line).flatten ++ rest) := by
  have noNewline : '\n' ≠ line.1 := (printable.tag_ne (by decide)).symm
  rcases line with ⟨tag, text⟩
  cases printable.piece with
  | @ended content ending plain ends =>
      have unbroken : '\n' ∉ tag :: content := by simp [noNewline, plain.1]
      have returned : '\n' ∉ tag :: (content ++ ['\r']) := by simp [noNewline, plain.1]
      rw [List.append_eq, printedPieces_ended ends]
      cases ends with
      | newline => simpa using marked.newline_cons.append isMark content unbroken
      | carriage => simpa using marked.append isMark (content ++ ['\r']) returned
      | both => simpa using marked.newline_cons.append isMark (content ++ ['\r']) returned
  | unended plain _ =>
      have unbroken : '\n' ∉ tag :: text := by simp [noNewline, plain.1]
      have hinted : MarkedBy marks (hintText ++ '\n' :: rest) := by
        rw [hintText_eq]
        exact marked.newline_cons.append hints _ (by decide)
      rw [printedPieces_unended plain]
      simpa using hinted.newline_cons.append isMark text unbroken

theorem marked_printed (hints : '\\' ∈ marks) {lines : List (Char × List Char)}
    (printable : ∀ line ∈ lines, Printable line) (isMark : ∀ line ∈ lines, line.1 ∈ marks) :
    MarkedBy marks (lines.flatMap printedPieces).flatten := by
  induction lines with
  | nil => simp [MarkedBy]
  | cons line lines ih =>
      rw [List.flatMap_cons, List.flatten_append]
      apply marked_printedPieces hints (printable line (by simp)) (isMark line (by simp))
      exact ih (fun line member => printable line (by simp [member]))
        fun line member => isMark line (by simp [member])

end

theorem markedBy_shownChange (old new : List Char) :
    MarkedBy [' ', '-', '+', '\\', '@'] (shownChange old new) := by
  apply marked_printed (by simp) printable_taggedLines
  intro line member
  have tag := (printable_taggedLines line member).tag
  simp only [List.mem_cons, List.not_mem_nil, or_false] at tag ⊢
  tauto

theorem marked_of_oneHunk {old new : List Char}
    (one : (hunks Engine.context (regions .anyEnding old new)).length ≤ 1) :
    Marked (shownChange old new) := by
  apply marked_printed (by simp) printable_taggedLines
  intro line member
  rw [taggedLines] at member
  generalize hunks Engine.context (regions .anyEnding old new) = found at one member
  rcases found with _ | ⟨hunk, _ | ⟨second, later⟩⟩
  · cases member
  · have within : line ∈ hunk.regions.flatMap Region.tagLines := by simpa [Hunk.tagLines] using member
    rcases tag_of_mem_flatMap within with tag | tag | tag <;> simp [tag]
  · simp at one

theorem toList_builtin {before after : String} (differ : before ≠ after) :
    ∃ header : List (List Char), header.length = 3 ∧ (∀ line ∈ header, '\n' ∉ line) ∧
      (compare .anyEnding Engine.context "input" "result" before after).toList =
        Text.endLines header ++ shownChange before.toList after.toList := by
  have apart : before.toList ≠ after.toList := mt String.toList_inj.mp differ
  cases found : hunks Engine.context (regions .anyEnding before.toList after.toList) with
  | nil => exact absurd ((hunks_eq_nil_iff _ _).mp found) apart
  | cons hunk later =>
      refine ⟨["--- ".toList ++ "input".toList, "+++ ".toList ++ "result".toList, hunk.header.toList],
        rfl, ?_, ?_⟩
      · simp [hunk.plain_header.1]
      · rw [compare, shownChange, taggedLines, found]
        exact toList_unified "input" "result" hunk later

/-- A text loses a header exactly where it opens with one. The builtin engine's answer loses its first
three lines. What is left of it are marked lines and headers of further hunks, and where no run of same
lines between two changes is longer than the context of both, marked lines alone, which stay whole when
they are shown again. -/
theorem shown_withoutHeader (raw before after : String) :
    (∀ result : String, Engine.shown raw = result ↔
      Headed raw.toList result.toList ∨ (∀ body, ¬ Headed raw.toList body) ∧ result = raw) ∧
    ∃ diff result : String,
      Engine.builtin before after = .ok diff ∧
      Engine.render Engine.builtin before after = .ok result ∧
      (before = after → diff = "" ∧ result = "") ∧
      (before ≠ after → ∃ header : List (List Char), header.length = 3 ∧
        (∀ line ∈ header, '\n' ∉ line) ∧
        diff.toList = Text.endLines header ++ result.toList) ∧
      MarkedBy [' ', '-', '+', '\\', '@'] result.toList ∧
      (RunsWithin (2 * Engine.context) (regions .anyEnding before.toList after.toList).tail.dropLast →
        Marked result.toList ∧ Engine.shown result = result) ∧
      (min (Text.cutLines before.toList).length (Text.cutLines after.toList).length ≤ 2 * Engine.context →
        Marked result.toList ∧ Engine.shown result = result) := by
  constructor
  · intro result
    rw [Engine.shown, ← String.toList_inj, String.toList_ofList, stripHeader_eq_iff, String.toList_inj]
  · have whole (runs : RunsWithin (2 * Engine.context)
        (regions .anyEnding before.toList after.toList).tail.dropLast) :
        Marked (String.ofList (shownChange before.toList after.toList)).toList ∧
          Engine.shown (String.ofList (shownChange before.toList after.toList)) =
            String.ofList (shownChange before.toList after.toList) := by
      have marked := marked_of_oneHunk (length_hunks_le_one_iff.mpr runs)
      rw [Engine.shown, String.toList_ofList, stripHeader_of_not_headed (not_headed_of_marked marked)]
      exact ⟨marked, rfl⟩
    refine ⟨_, _, rfl, render_builtin before after, ?_, ?_, ?_, whole, ?_⟩
    · rintro rfl
      rw [compare, (hunks_eq_nil_iff _ _).mpr rfl, (shownChange_eq_nil_iff _ _).mpr rfl]
      exact ⟨rfl, rfl⟩
    · intro differ
      rw [String.toList_ofList]
      exact toList_builtin differ
    · rw [String.toList_ofList]
      exact markedBy_shownChange _ _
    · intro short
      exact whole ((runsWithin_regions short).subset fun region member =>
        List.mem_of_mem_tail (List.mem_of_mem_dropLast member))

/-- The header of a second hunk is a line of its own where no line ends without a newline. -/
theorem marked_iff_of_tidy {old new : List Char} (tidyOld : Text.Tidy old) (tidyNew : Text.Tidy new) :
    Marked (shownChange old new) ↔ (hunks Engine.context (regions .anyEnding old new)).length ≤ 1 := by
  refine ⟨fun marked => Nat.le_of_not_lt fun several => ?_, marked_of_oneHunk⟩
  have ended := ended_of_tidy tidyOld tidyNew
  have unbroken : ∀ line ∈ (taggedLines old new).map shownLine, '\n' ∉ line := by
    intro line member
    obtain ⟨source, among, rfl⟩ := List.mem_map.mp member
    exact newline_not_mem_shownLine (printable_taggedLines source among) (ended source among)
  rw [shownChange, flatten_printed_ended ended, Marked, MarkedBy, Text.splitOn_endLines unbroken] at marked
  rcases found : hunks Engine.context (regions .anyEnding old new) with _ | ⟨first, _ | ⟨second, later⟩⟩
  · simp [found] at several
  · simp [found] at several
  · have header : ('@', second.ranges ++ ['\n']) ∈ taggedLines old new := by
      simp [taggedLines, found, Hunk.tagLines]
    have mark := marked _ (List.mem_append_left _ (List.mem_map.mpr ⟨_, header, rfl⟩)) '@' rfl
    simp at mark

theorem regions_surrounded {lines : List (List Char)} {first last : List Char}
    (plain : ∀ line ∈ first :: lines ++ [last], Text.Plain line) (newFirst : first ∉ lines)
    (newLast : last ∉ lines) (some : lines ≠ []) :
    ∃ front back, regions .anyEnding (Text.endLines lines) (Text.endLines (first :: lines ++ [last])) =
      [.changed front, .same (lines.map (· ++ ['\n'])), .changed back] := by
  have cutOld : Text.cutLines (Text.endLines lines) = lines.map (· ++ ['\n']) :=
    Text.cutLines_endLines fun line member => plain line (by simp [member])
  have cutNew : Text.cutLines (Text.endLines (first :: lines ++ [last])) =
      (first ++ ['\n']) :: lines.map (· ++ ['\n']) ++ [last ++ ['\n']] := by
    rw [Text.cutLines_endLines plain]
    simp
  have within : (lines.map (· ++ ['\n'])).Sublist
      ((first ++ ['\n']) :: lines.map (· ++ ['\n']) ++ [last ++ ['\n']]) :=
    (List.sublist_append_left _ _).cons _
  have count : regionCount (regions .anyEnding (Text.endLines lines)
      (Text.endLines (first :: lines ++ [last]))) = 2 := by
    have found := changeCount_script_of_sublist .fromLow within
    rw [regionCount_regions, cutOld, cutNew]
    simp only [List.length_append, List.length_cons, List.length_nil] at found ⊢
    omega
  exact (alternating_regions _ _).eq_surrounded (by simpa using some)
    ((lines_anyEnding .old _ _).trans cutOld) ((lines_anyEnding .new _ _).trans cutNew)
    (by simpa using newFirst) (by simpa using newLast) count

theorem not_marked_of_surrounded {lines : List (List Char)} {first last : List Char}
    (plain : ∀ line ∈ first :: lines ++ [last], Text.Plain line) (newFirst : first ∉ lines)
    (newLast : last ∉ lines) (long : 2 * Engine.context < lines.length) :
    ¬ Marked (shownChange (Text.endLines lines) (Text.endLines (first :: lines ++ [last]))) := by
  have plainLines : ∀ line ∈ lines, Text.Plain line := fun line member => plain line (by simp [member])
  have some : lines ≠ [] := List.ne_nil_of_length_pos (Nat.zero_lt_of_lt long)
  obtain ⟨front, back, surrounded⟩ := regions_surrounded plain newFirst newLast some
  rw [marked_iff_of_tidy (Text.tidy_endLines plainLines) (Text.tidy_endLines plain), Nat.not_le,
    surrounded]
  exact two_le_length_hunks (List.cons_ne_nil _ []) (List.cons_ne_nil _ _) (by rwa [List.length_map])

def blankText (count : Nat) : String :=
  String.ofList (List.replicate count '\n')

theorem toList_blankText (count : Nat) :
    (blankText count).toList = Text.endLines (List.replicate count []) := by
  simp [blankText, Text.endLines, List.flatMap_replicate]

theorem render_blankText {count : Nat} (long : 2 * Engine.context < count) :
    ∃ result, Engine.render Engine.builtin (blankText count)
        ("c\n" ++ blankText count ++ "d\n") = .ok result ∧
      ¬ Marked result.toList := by
  have plain : ∀ line ∈ ['c'] :: List.replicate count [] ++ [['d']], Text.Plain line := by
    intro line member
    simp only [List.cons_append, List.mem_cons, List.mem_append, List.mem_replicate, List.not_mem_nil,
      or_false] at member
    rcases member with rfl | ⟨_, rfl⟩ | rfl <;> simp [Text.Plain]
  have split := not_marked_of_surrounded plain (by simp) (by simp) (by rwa [List.length_replicate])
  have after : ("c\n" ++ blankText count ++ "d\n").toList =
      Text.endLines (['c'] :: List.replicate count [] ++ [['d']]) := by
    rw [String.toList_append, String.toList_append, toList_blankText]
    simp [Text.endLines]
  refine ⟨_, render_builtin _ _, ?_⟩
  rwa [String.toList_ofList, toList_blankText, after]

theorem shown_secondHunk :
    ∃ result, Engine.render Engine.builtin (blankText 20000001)
        ("c\n" ++ blankText 20000001 ++ "d\n") = .ok result ∧
      ¬ Marked result.toList :=
  render_blankText (by decide)

end Redline.LineDiff
