import Redline.Proofs.Block.OnePass

/-! Texts that resolve to themselves. A directive costs its line, which only the line that ends a
lone one can make up for; so a text with a directive in it never comes back. -/

namespace Redline.Block

def Undirected (lines : List Line) : Prop :=
  ∀ line ∈ lines, ∀ directive : Directive, Text.trim line ≠ directive.word

theorem undirected_iff {lines : List Line} :
    Undirected lines ↔ ¬ ∃ line ∈ lines, isData line = false := by
  constructor
  · rintro undirected ⟨line, member, noData⟩
    obtain ⟨directive, word⟩ := isData_eq_false_iff.mp noData
    exact undirected line member directive word
  · intro settled line member directive word
    exact settled ⟨line, member, isData_eq_false_iff.mpr ⟨directive, word⟩⟩

theorem onePass_of_data {lines : List Line} (data : ∀ line ∈ lines, isData line = true) :
    onePass none lines = lines := by
  induction lines with
  | nil => rfl
  | cons line lines ih =>
      rw [onePass_data (data line (by simp)), ih fun later member => data later (by simp [member])]
      rfl

theorem length_onePass_lt {lines : List Line} (directed : ∃ line ∈ lines, isData line = false)
    (current : Option Directive) : (onePass current lines).length < lines.length := by
  induction lines generalizing current with
  | nil => simp at directed
  | cons line lines ih =>
      cases data : isData line with
      | true =>
          have later : ∃ line ∈ lines, isData line = false := by simpa [data] using directed
          have single := length_yielded_le current line
          have fewer := ih later current
          rw [onePass_data data, List.length_append, List.length_cons]
          omega
      | false =>
          obtain ⟨directive, opens⟩ := exists_directive data
          rw [onePass_directive opens]
          exact Nat.lt_succ_of_le (length_onePass_le _ _)

theorem splitOn_closed {lines : List Line} (unbroken : ∀ line ∈ lines, '\n' ∉ line) (some : lines ≠ []) :
    (closed lines).splitOn '\n' = padded lines := by
  match lines with
  | [line] =>
      rw [closed, List.splitOn_append_cons_self_of_not_mem (unbroken line (by simp)), List.splitOn_nil,
        padded]
  | line :: next :: lines =>
      rw [← joinLines_padded, padded]
      · exact Text.splitOn_joinLines (by simp) unbroken
      · simp

theorem exists_single {lines : List Line} (longer : lines.length < (padded lines).length) :
    ∃ line, lines = [line] := by
  match lines with
  | [] => simp [padded] at longer
  | [line] => exact ⟨line, rfl⟩
  | line :: next :: lines => simp [padded] at longer

theorem closed_onePass_ne {lines : List Line} (unbroken : ∀ line ∈ lines, '\n' ∉ line)
    (directed : ∃ line ∈ lines, isData line = false) :
    closed (onePass none lines) ≠ closed lines := by
  intro same
  have shorter := length_onePass_lt directed none
  have some : lines ≠ [] := by
    rintro rfl
    simp at shorter
  have left : onePass none lines ≠ [] := by
    rwa [← newline_mem_closed, same, newline_mem_closed]
  have rejoined : padded (onePass none lines) = padded lines := by
    rw [← splitOn_closed (newline_not_mem_onePass unbroken none) left, same,
      splitOn_closed unbroken some]
  match lines with
  | [line] => exact left (List.eq_nil_of_length_eq_zero (by simpa using shorter))
  | first :: next :: rest =>
      -- The pass takes a line, and only padding can make up for it: so a single line is left of two.
      change padded _ = first :: next :: rest at rejoined
      obtain ⟨result, single⟩ := exists_single (by rw [rejoined]; exact shorter)
      rw [single, padded] at rejoined
      rw [← rejoined] at single directed
      have noData : isData result = false := by simpa using directed
      obtain ⟨directive, opens⟩ := exists_directive noData
      have kept : onePass (Option.some directive) [[]] = [[]] := by cases directive <;> rfl
      rw [onePass_directive opens, kept, List.singleton_inj] at single
      subst single
      cases noData

theorem closed_onePass_iff {lines : List Line} (unbroken : ∀ line ∈ lines, '\n' ∉ line) :
    closed (onePass none lines) = closed lines ↔ Undirected lines := by
  rw [undirected_iff]
  constructor
  · intro same directed
    exact closed_onePass_ne unbroken directed same
  · intro settled
    rw [onePass_of_data (by simpa using settled)]

theorem closed_splitOn {text : List Char} (newline : '\n' ∈ text) : closed (text.splitOn '\n') = text := by
  rw [closed_of_several (Text.two_le_length_splitOn newline), Text.joinLines_splitOn]

theorem closed_splitOn_of_not_mem {text : List Char} (unbroken : '\n' ∉ text) :
    closed (text.splitOn '\n') = text ++ ['\n'] := by
  rw [List.splitOn_eq_singleton unbroken, closed]

theorem resolveChars_eq_self_iff (text : List Char) :
    resolveChars text = text ↔ '\n' ∈ text ∧ Undirected (text.splitOn '\n') := by
  have settles := closed_onePass_iff (Text.newline_not_mem_splitOn text)
  rw [← resolveChars_eq] at settles
  by_cases newline : '\n' ∈ text
  · rw [closed_splitOn newline] at settles
    rw [settles]
    exact ⟨fun undirected => ⟨newline, undirected⟩, And.right⟩
  · constructor
    · intro same
      rw [resolveChars_eq] at same
      -- Without a newline in it, what is left is the text of no lines, and that does not stay empty.
      have nothing : onePass none (text.splitOn '\n') = [] := by
        rwa [← same, newline_mem_closed, Decidable.not_not] at newline
      rw [nothing, closed] at same
      subst same
      cases nothing
    · rintro ⟨has, _⟩
      exact absurd has newline

theorem resolveChars_eq_ended_iff (text : List Char) :
    resolveChars text = text ++ ['\n'] ↔ '\n' ∉ text ∧ Undirected (text.splitOn '\n') := by
  have unbroken := Text.newline_not_mem_splitOn text
  have settles := closed_onePass_iff unbroken
  rw [← resolveChars_eq] at settles
  by_cases newline : '\n' ∈ text
  · constructor
    · intro ended
      rw [resolveChars_eq] at ended
      have fewer := length_onePass_le none (text.splitOn '\n')
      have most := length_splitOn_closed_le (newline_not_mem_onePass unbroken none)
      have several := Text.two_le_length_splitOn newline
      rw [ended, List.splitOn_append_cons_self, List.splitOn_nil, List.length_append,
        List.length_singleton] at most
      omega
    · rintro ⟨hasNone, _⟩
      exact absurd newline hasNone
  · rw [closed_splitOn_of_not_mem newline] at settles
    rw [settles]
    exact ⟨fun undirected => ⟨newline, undirected⟩, And.right⟩

/-- A text comes back as it was exactly if it has a newline and no directive, and it comes back with a
newline behind it exactly if it has neither. -/
theorem resolveText_eq_self_iff (text : String) :
    (resolveText text = text ↔
      '\n' ∈ text.toList ∧ Undirected (text.toList.splitOn '\n')) ∧
    (resolveText text = text ++ "\n" ↔
      '\n' ∉ text.toList ∧ Undirected (text.toList.splitOn '\n')) := by
  rw [← String.toList_inj, ← String.toList_inj, toList_resolveText, String.toList_append]
  exact ⟨resolveChars_eq_self_iff text.toList, resolveChars_eq_ended_iff text.toList⟩

end Redline.Block
