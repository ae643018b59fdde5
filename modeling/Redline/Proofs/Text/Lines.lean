import Redline.Text.Lines

/-! Lines against the library's lists, and cut lines by their endings. Splitting and joining lines is
splitting and joining lists at newlines; a cut line is plain content with one ending, or at the end
of a text with none, and cutting such lines put together gives them back. -/

namespace Redline.Text

theorem splitLines_eq_splitOn (text : List Char) : splitLines text = text.splitOn '\n' := by
  induction text with
  | nil => rfl
  | cons c rest ih =>
      rw [splitLines, List.splitOn_cons_eq_if_modifyHead, ih]
      by_cases newline : c = '\n'
      · simp [newline]
      · cases parts : rest.splitOn '\n' with
        | nil => exact absurd parts (List.splitOn_ne_nil _ _)
        | cons line lines => simp [newline, extendFirst]

theorem joinLines_eq_intercalate (lines : List (List Char)) :
    joinLines lines = ['\n'].intercalate lines := by
  fun_induction joinLines lines with
  | case1 => simp
  | case2 line => simp
  | case3 line next lines ih => rw [ih, List.intercalate_cons_cons]; simp

theorem joinLines_splitOn (text : List Char) : joinLines (text.splitOn '\n') = text := by
  rw [← splitLines_eq_splitOn, joinLines_splitLines]

theorem splitOn_joinLines {lines : List (List Char)} (some : lines ≠ [])
    (unbroken : ∀ line ∈ lines, '\n' ∉ line) : (joinLines lines).splitOn '\n' = lines := by
  rw [joinLines_eq_intercalate, List.splitOn_intercalate '\n' unbroken some]

theorem two_le_length_splitOn {text : List Char} (newline : '\n' ∈ text) :
    2 ≤ (text.splitOn '\n').length := by
  obtain ⟨above, below, rfl⟩ := List.append_of_mem newline
  have someAbove := List.length_pos_iff.mpr (List.splitOn_ne_nil '\n' above)
  have someBelow := List.length_pos_iff.mpr (List.splitOn_ne_nil '\n' below)
  rw [List.splitOn_append_cons_self, List.length_append]
  omega

theorem joinLines_eq_nil_iff {lines : List (List Char)} :
    joinLines lines = [] ↔ lines = [] ∨ lines = [[]] := by
  match lines with
  | [] => simp [joinLines]
  | [line] => simp [joinLines]
  | line :: next :: lines => simp [joinLines]

theorem joinLines_append {above below : List (List Char)} (some : above ≠ []) (more : below ≠ []) :
    joinLines (above ++ below) = joinLines above ++ '\n' :: joinLines below := by
  induction above with
  | nil => exact absurd rfl some
  | cons line above ih =>
      cases above with
      | nil => exact joinLines_cons line below more
      | cons next above =>
          rw [List.cons_append, joinLines_cons line _ (by simp), ih (by simp),
            joinLines_cons line _ (by simp), List.append_assoc, List.cons_append]

theorem splitLines_append_newline {line : List Char} (unbroken : '\n' ∉ line) (rest : List Char) :
    splitLines (line ++ '\n' :: rest) = line :: splitLines rest := by
  rw [splitLines_eq_splitOn, splitLines_eq_splitOn,
    List.splitOn_append_cons_self_of_not_mem unbroken]

theorem newline_not_mem_splitOn (text : List Char) : ∀ line ∈ text.splitOn '\n', '\n' ∉ line := by
  induction text with
  | nil => simp
  | cons c rest ih =>
      rw [List.splitOn_cons_eq_if_modifyHead]
      by_cases newline : c = '\n'
      · simpa [newline] using ih
      · cases parts : rest.splitOn '\n' with
        | nil => exact absurd parts (List.splitOn_ne_nil _ _)
        | cons line lines =>
            rw [parts] at ih
            have others : '\n' ≠ c := fun same => newline same.symm
            simp_all

theorem splitOn_unbroken_append {start : List Char} (unbroken : '\n' ∉ start) (rest : List Char) :
    ∃ line lines, rest.splitOn '\n' = line :: lines ∧
      (start ++ rest).splitOn '\n' = (start ++ line) :: lines := by
  induction start with
  | nil =>
      obtain ⟨line, lines, parts⟩ := List.exists_cons_of_ne_nil (List.splitOn_ne_nil '\n' rest)
      exact ⟨line, lines, parts, parts⟩
  | cons c start ih =>
      obtain ⟨line, lines, ofRest, ofWhole⟩ := ih fun member => unbroken (by simp [member])
      have noNewline : c ≠ '\n' := fun same => unbroken (by simp [same])
      refine ⟨line, lines, ofRest, ?_⟩
      rw [List.cons_append, List.splitOn_cons_eq_if_modifyHead, ofWhole]
      simp [noNewline]

def endLines (lines : List (List Char)) : List Char :=
  lines.flatMap (· ++ ['\n'])

@[simp] theorem endLines_cons (line : List Char) (lines : List (List Char)) :
    endLines (line :: lines) = line ++ '\n' :: endLines lines := by
  simp [endLines]

theorem splitLines_endLines_append {lines : List (List Char)} (unbroken : ∀ line ∈ lines, '\n' ∉ line)
    (rest : List Char) : splitLines (endLines lines ++ rest) = lines ++ splitLines rest := by
  induction lines with
  | nil => rfl
  | cons line lines ih =>
      rw [endLines_cons, List.append_assoc, List.cons_append,
        splitLines_append_newline (unbroken line (by simp)),
        ih fun later member => unbroken later (by simp [member]), List.cons_append]

theorem joinLines_append_nil (lines : List (List Char)) :
    joinLines (lines ++ [[]]) = endLines lines := by
  induction lines with
  | nil => rfl
  | cons line lines ih =>
      rw [List.cons_append, joinLines_cons line _ (by simp), ih, endLines_cons]

theorem endLines_inj {first second : List (List Char)} (unbrokenFirst : ∀ line ∈ first, '\n' ∉ line)
    (unbrokenSecond : ∀ line ∈ second, '\n' ∉ line) (same : endLines first = endLines second) :
    first = second := by
  have splitFirst := splitLines_endLines_append unbrokenFirst []
  have splitSecond := splitLines_endLines_append unbrokenSecond []
  rw [same, splitSecond] at splitFirst
  exact (List.append_cancel_right splitFirst).symm

def withoutNewline (line : List Char) : List Char :=
  if line.getLast? = some '\n' then line.dropLast else line

def Ended (line : List Char) : Prop :=
  ∃ content, line = content ++ ['\n'] ∧ '\n' ∉ content

@[simp] theorem withoutNewline_append (line : List Char) : withoutNewline (line ++ ['\n']) = line := by
  simp [withoutNewline]

theorem Ended.append_newline {line : List Char} (ended : Ended line) :
    withoutNewline line ++ ['\n'] = line := by
  obtain ⟨content, rfl, _⟩ := ended
  rw [withoutNewline_append]

theorem Ended.newline_not_mem {line : List Char} (ended : Ended line) : '\n' ∉ withoutNewline line := by
  obtain ⟨content, rfl, unbroken⟩ := ended
  rwa [withoutNewline_append]

theorem splitOn_endLines {lines : List (List Char)} (unbroken : ∀ line ∈ lines, '\n' ∉ line) :
    (endLines lines).splitOn '\n' = lines ++ [[]] := by
  have split := splitLines_endLines_append unbroken []
  rwa [List.append_nil, splitLines_eq_splitOn] at split

def Plain (text : List Char) : Prop :=
  '\n' ∉ text ∧ '\r' ∉ text

inductive Ending : List Char → Prop
  | newline : Ending ['\n']
  | carriage : Ending ['\r']
  | both : Ending ['\r', '\n']

inductive Piece : List Char → Prop
  | ended {content ending : List Char} : Plain content → Ending ending → Piece (content ++ ending)
  | unended {content : List Char} : Plain content → content ≠ [] → Piece content

theorem plain_nil : Plain [] :=
  ⟨by simp, by simp⟩

theorem Plain.cons {c : Char} {content : List Char} (plain : Plain content) (noNewline : c ≠ '\n')
    (noCarriage : c ≠ '\r') : Plain (c :: content) :=
  ⟨by simp [noNewline.symm, plain.1], by simp [noCarriage.symm, plain.2]⟩

theorem Piece.cons {c : Char} {line : List Char} (piece : Piece line) (noNewline : c ≠ '\n')
    (noCarriage : c ≠ '\r') : Piece (c :: line) := by
  cases piece with
  | ended plain ending => exact .ended (plain.cons noNewline noCarriage) ending
  | unended plain some => exact .unended (plain.cons noNewline noCarriage) (by simp)

theorem piece_of_mem_cutLines {text line : List Char} (member : line ∈ cutLines text) : Piece line := by
  fun_induction cutLines text generalizing line with
  | case1 => simp at member
  | case2 rest ih =>
      rcases List.mem_cons.mp member with rfl | later
      · exact .ended plain_nil .both
      · exact ih later
  | case3 c rest _ ends ih =>
      rcases List.mem_cons.mp member with rfl | later
      · rcases ends with rfl | rfl
        · exact .ended plain_nil .newline
        · exact .ended plain_nil .carriage
      · exact ih later
  | case4 c rest _ ends ih =>
      have noNewline : c ≠ '\n' := fun same => ends (Or.inl same)
      have noCarriage : c ≠ '\r' := fun same => ends (Or.inr same)
      cases lines : cutLines rest with
      | nil =>
          rw [lines] at member
          obtain rfl := List.mem_singleton.mp member
          exact .unended (plain_nil.cons noNewline noCarriage) (by simp)
      | cons first later =>
          rw [lines] at member ih
          rcases List.mem_cons.mp member with rfl | within
          · exact (ih (by simp)).cons noNewline noCarriage
          · exact ih (by simp [within])

theorem cutLines_cons {c : Char} (noNewline : c ≠ '\n') (noCarriage : c ≠ '\r') (rest : List Char) :
    cutLines (c :: rest) = extendFirst c (cutLines rest) := by
  rw [cutLines]
  · simp [noNewline, noCarriage]
  · intro _ same
    exact absurd same noCarriage

theorem cutLines_ended_append {content ending : List Char} (plain : Plain content)
    (ends : Ending ending) {rest : List Char} (apart : ending = ['\r'] → rest.head? ≠ some '\n') :
    cutLines (content ++ ending ++ rest) = (content ++ ending) :: cutLines rest := by
  induction content with
  | nil =>
      cases ends with
      | newline => simp [cutLines]
      | both => simp [cutLines]
      | carriage =>
          cases rest with
          | nil => simp [cutLines]
          | cons c rest =>
              have other : c ≠ '\n' := by simpa using apart
              simp [cutLines, other]
  | cons c content ih =>
      have noNewline : c ≠ '\n' := fun same => plain.1 (by simp [same])
      have noCarriage : c ≠ '\r' := fun same => plain.2 (by simp [same])
      have later : Plain content :=
        ⟨fun member => plain.1 (by simp [member]), fun member => plain.2 (by simp [member])⟩
      rw [List.cons_append, List.cons_append, cutLines_cons noNewline noCarriage, ih later]
      rfl

theorem cutLines_endLines {lines : List (List Char)} (plain : ∀ line ∈ lines, Plain line) :
    cutLines (endLines lines) = lines.map (· ++ ['\n']) := by
  induction lines with
  | nil => rfl
  | cons line lines ih =>
      have cut := cutLines_ended_append (plain line (by simp)) .newline
        (fun same => by simp at same : ['\n'] = ['\r'] → (endLines lines).head? ≠ some '\n')
      rw [ih fun line member => plain line (by simp [member])] at cut
      simpa using cut

/-- A text whose lines all end with a newline, which no other line ending stands without. -/
structure Tidy (text : List Char) : Prop where
  ended : text ≠ [] → text.getLast? = some '\n'
  returned : ∀ i, text[i]? = some '\r' → text[i + 1]? = some '\n'

theorem tidy_of_noCarriage {text : List Char} (ended : text.getLast? = some '\n')
    (noCarriage : '\r' ∉ text) : Tidy text :=
  ⟨fun _ => ended, fun _ carriage => absurd (List.mem_of_getElem? carriage) noCarriage⟩

theorem tidy_endLines {lines : List (List Char)} (plain : ∀ line ∈ lines, Plain line) :
    Tidy (endLines lines) := by
  have noCarriage : '\r' ∉ endLines lines := by
    intro member
    obtain ⟨line, among, within⟩ := List.mem_flatMap.mp member
    rcases List.mem_append.mp within with inside | ending
    · exact (plain line among).2 inside
    · simp at ending
  rcases List.eq_nil_or_concat lines with rfl | ⟨above, line, rfl⟩
  · exact ⟨fun some => absurd rfl some, fun _ carriage => by simp [endLines] at carriage⟩
  · exact tidy_of_noCarriage (by simp [endLines]) noCarriage

theorem Tidy.tail {c : Char} {rest : List Char} (tidy : Tidy (c :: rest)) : Tidy rest := by
  refine ⟨?_, ?_⟩
  · intro more
    have last := tidy.ended (by simp)
    cases rest with
    | nil => exact absurd rfl more
    | cons d rest => simpa using last
  · intro i carriage
    simpa using tidy.returned (i + 1) (by simpa using carriage)

theorem Tidy.ended_of_mem {text line : List Char} (tidy : Tidy text) (member : line ∈ cutLines text) :
    Ended line := by
  fun_induction cutLines text generalizing line with
  | case1 => simp at member
  | case2 rest ih =>
      rcases List.mem_cons.mp member with rfl | later
      · exact ⟨['\r'], rfl, by simp⟩
      · exact ih tidy.tail.tail later
  | case3 c rest alone ends ih =>
      have newline : c = '\n' := by
        rcases ends with newline | carriage
        · exact newline
        · have next := tidy.returned 0 (by simp [carriage])
          cases rest with
          | nil => simp at next
          | cons d rest => exact absurd (by simpa using next) (alone rest carriage)
      rcases List.mem_cons.mp member with rfl | later
      · exact ⟨[], by simp [newline], by simp⟩
      · exact ih tidy.tail later
  | case4 c rest _ ends ih =>
      have noNewline : c ≠ '\n' := fun same => ends (Or.inl same)
      cases lines : cutLines rest with
      | nil =>
          have nothing : rest = [] := by
            rw [← flatten_cutLines rest, lines, List.flatten_nil]
          have last := tidy.ended (by simp)
          rw [nothing] at last
          exact absurd (by simpa using last) noNewline
      | cons first later =>
          rw [lines] at member ih
          rcases List.mem_cons.mp member with rfl | within
          · obtain ⟨content, ended, unbroken⟩ := ih tidy.tail (show first ∈ first :: later by simp)
            exact ⟨c :: content, by simp [ended], by simp [noNewline.symm, unbroken]⟩
          · exact ih tidy.tail (by simp [within])

theorem endLines_map_withoutNewline {lines : List (List Char)} (ended : ∀ line ∈ lines, Ended line) :
    endLines (lines.map withoutNewline) = lines.flatten := by
  induction lines with
  | nil => rfl
  | cons line lines ih =>
      have here := ended line (by simp)
      rw [List.map_cons, endLines_cons, ih fun line member => ended line (by simp [member]),
        List.append_cons, here.append_newline, List.flatten_cons]

theorem Tidy.endLines_cutLines {text : List Char} (tidy : Tidy text) :
    endLines ((cutLines text).map withoutNewline) = text := by
  rw [endLines_map_withoutNewline fun _ member => tidy.ended_of_mem member, flatten_cutLines]

end Redline.Text
