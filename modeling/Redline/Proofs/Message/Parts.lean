import Redline.Proofs.Message.Prompt

/-! The parts of a message. The first separator line of a text stands between prompt and input, and
taking a message apart undoes putting it together. -/

namespace Redline.Message

def Unseparated (text : String) : Prop :=
  ∀ line ∈ lines text, Text.trim line ≠ separator

structure Mark (mark : String) : Prop where
  unbroken : '\n' ∉ mark.toList
  word : Text.trim mark.toList = separator

/-- How a text is made of a prompt, a separator line and an input. The prompt holds no separator
line; the input may. -/
inductive MadeOf : String → Message → Prop
  | whole {input : String} : Unseparated input → MadeOf input ⟨"", input⟩
  | both {prompt mark input : String} : Unseparated prompt → Mark mark →
      MadeOf (prompt ++ "\n" ++ mark ++ "\n" ++ input) ⟨prompt, input⟩
  | below {mark input : String} : Mark mark → MadeOf (mark ++ "\n" ++ input) ⟨"", input⟩
  | above {prompt mark : String} : Unseparated prompt → Mark mark →
      MadeOf (prompt ++ "\n" ++ mark) ⟨prompt, ""⟩
  | alone {mark : String} : Mark mark → MadeOf mark ⟨"", ""⟩

theorem lines_append (front back : String) :
    lines (front ++ "\n" ++ back) = lines front ++ lines back := by
  simp [lines, List.splitOn_append_cons_self]

theorem Mark.lines_eq {mark : String} (isMark : Mark mark) : lines mark = [mark.toList] :=
  List.splitOn_eq_singleton isMark.unbroken

theorem ofList_joinLines_lines (text : String) :
    String.ofList (Text.joinLines (lines text)) = text := by
  rw [lines, Text.joinLines_splitOn, String.ofList_toList]

theorem lines_ofList_joinLines {above : List (List Char)} (some : above ≠ [])
    (unbroken : ∀ line ∈ above, '\n' ∉ line) :
    lines (String.ofList (Text.joinLines above)) = above := by
  rw [lines, String.toList_ofList, Text.splitOn_joinLines some unbroken]

theorem ofText_of_unseparated {text : String} (unseparated : Unseparated text) :
    ofText text = ⟨"", text⟩ := by
  apply ofText_unseparated
  rw [firstSeparator, List.findIdx?_eq_none_iff]
  intro line member
  exact decide_eq_false (unseparated line member)

theorem ofText_of_lines {text : String} {above below : List (List Char)} {mark : List Char}
    (cut : lines text = above ++ mark :: below) (plain : ∀ line ∈ above, Text.trim line ≠ separator)
    (separates : Text.trim mark = separator) :
    ofText text =
      ⟨String.ofList (Text.joinLines above), String.ofList (Text.joinLines below)⟩ := by
  have found : firstSeparator text = some above.length := by
    have nothing : (above.findIdx? fun line => Text.trim line = separator) = none := by
      rw [List.findIdx?_eq_none_iff]
      intro line member
      exact decide_eq_false (plain line member)
    rw [firstSeparator, cut, List.findIdx?_append, nothing, List.findIdx?_cons, decide_eq_true separates]
    simp
  rw [ofText_separated found, cut]
  simp

theorem ofText_of_madeOf {text : String} {message : Message} (made : MadeOf text message) :
    ofText text = message := by
  cases made with
  | whole unseparated => exact ofText_of_unseparated unseparated
  | @both prompt mark input unseparated isMark =>
      have cut : lines (prompt ++ "\n" ++ mark ++ "\n" ++ input) =
          lines prompt ++ mark.toList :: lines input := by
        rw [lines_append, lines_append, isMark.lines_eq, List.append_assoc, List.singleton_append]
      rw [ofText_of_lines cut unseparated isMark.word, ofList_joinLines_lines,
        ofList_joinLines_lines]
  | @below mark input isMark =>
      have cut : lines (mark ++ "\n" ++ input) = [] ++ mark.toList :: lines input := by
        rw [lines_append, isMark.lines_eq, List.singleton_append, List.nil_append]
      rw [ofText_of_lines cut (by simp) isMark.word, ofList_joinLines_lines]
      rfl
  | @above prompt mark unseparated isMark =>
      have cut : lines (prompt ++ "\n" ++ mark) = lines prompt ++ mark.toList :: [] := by
        rw [lines_append, isMark.lines_eq]
      rw [ofText_of_lines cut unseparated isMark.word, ofList_joinLines_lines]
      rfl
  | alone isMark =>
      have cut : lines text = [] ++ text.toList :: [] := isMark.lines_eq
      rw [ofText_of_lines cut (by simp) isMark.word]
      rfl

theorem exists_cut {text : String} (separated : ¬ Unseparated text) :
    ∃ above mark below, lines text = above ++ mark :: below ∧
      (∀ line ∈ above, Text.trim line ≠ separator) ∧ Text.trim mark = separator := by
  cases found : (lines text).find? fun line => Text.trim line = separator with
  | none =>
      rw [List.find?_eq_none] at found
      refine absurd (fun line member => ?_) separated
      simpa using found line member
  | some mark =>
      obtain ⟨word, above, below, cut, plain⟩ := List.find?_eq_some_iff_append.mp found
      exact ⟨above, mark, below, cut, by simpa using plain, by simpa using word⟩

theorem ofList_joinLines_append {above below : List (List Char)} (some : above ≠ [])
    (more : below ≠ []) : String.ofList (Text.joinLines (above ++ below)) =
      String.ofList (Text.joinLines above) ++ "\n" ++ String.ofList (Text.joinLines below) := by
  rw [Text.joinLines_append some more]
  apply String.toList_injective
  simp

theorem madeOf_ofText (text : String) : MadeOf text (ofText text) := by
  by_cases unseparated : Unseparated text
  · rw [ofText_of_unseparated unseparated]
    exact .whole unseparated
  · obtain ⟨above, mark, below, cut, plain, word⟩ := exists_cut unseparated
    have unbroken := Text.newline_not_mem_splitOn text.toList
    rw [← lines, cut] at unbroken
    have isMark : Mark (String.ofList (Text.joinLines [mark])) := by
      constructor
      · simpa [Text.joinLines] using unbroken mark (by simp)
      · simpa [Text.joinLines] using word
    have plainPrompt (some : above ≠ []) : Unseparated (String.ofList (Text.joinLines above)) := by
      have own := lines_ofList_joinLines some fun line member => unbroken line (by simp [member])
      rwa [Unseparated, own]
    have whole := ofList_joinLines_lines text
    rw [cut, ← List.singleton_append] at whole
    rw [ofText_of_lines cut plain word, ← whole]
    -- Where nothing is above the mark, or nothing below it, no newline is there either.
    by_cases top : above = [] <;> by_cases bottom : below = []
    · subst top bottom
      exact .alone isMark
    · subst top
      rw [List.nil_append, ofList_joinLines_append (by simp) bottom]
      exact .below isMark
    · subst bottom
      rw [List.append_nil, ofList_joinLines_append top (by simp)]
      exact .above (plainPrompt top) isMark
    · rw [ofList_joinLines_append top (by simp), ofList_joinLines_append (by simp) bottom,
        ← String.append_assoc, ← String.append_assoc]
      exact .both (plainPrompt top) isMark

/-- Taking a text apart gives the prompt and the input that it is made of, and every text is made of
one message only. It has a prompt unless its first separator line has nothing above it. -/
theorem ofText_eq_iff_madeOf (text : String) :
    (∀ message, ofText text = message ↔ MadeOf text message) ∧
      ((ofText text).hasPrompt = false ↔ AsksNothing text) := by
  refine ⟨fun message => ?_, hasPrompt_ofText text⟩
  constructor
  · rintro rfl
    exact madeOf_ofText text
  · exact ofText_of_madeOf

end Redline.Message
