import Redline.Block.Text
import Redline.Proofs.Block.Data
import Redline.Proofs.Text.Lines

/-! Blocks against one pass over the lines. A machine that remembers the last directive and looks at
every line once leaves the same lines as cutting a text into blocks and resolving each of them. -/

namespace Redline.Block

def yielded : Option Directive → Line → List Line
  | none, line => [line]
  | some .apply, '+' :: content => [content]
  | some .apply, '-' :: _ => []
  | some .reject, '+' :: _ => []
  | some .reject, '-' :: content => [content]
  | some _, ' ' :: content => [content]
  | some _, line => [line]

/-- The machine. A line that is nothing but a directive's word and blanks sets the directive. -/
def onePass : Option Directive → List Line → List Line
  | _, [] => []
  | current, line :: lines =>
    if Text.trim line = Directive.apply.word then onePass (some .apply) lines
    else if Text.trim line = Directive.reject.word then onePass (some .reject) lines
    else yielded current line ++ onePass current lines

def closed : List Line → List Char
  | [] => []
  | [line] => line ++ ['\n']
  | lines => ['\n'].intercalate lines

theorem closed_of_several {lines : List Line} (several : 2 ≤ lines.length) :
    closed lines = Text.joinLines lines := by
  match lines with
  | [] => simp at several
  | [line] => simp at several
  | line :: next :: lines => simp [closed, Text.joinLines_eq_intercalate]

theorem toList_resolveLine (current : Option Directive) (line : Line) :
    (resolveLine current line).toList = yielded current line := by
  fun_cases yielded current line with
  | case1 => simp
  | case2 content => rfl
  | case3 content => rfl
  | case4 content => rfl
  | case5 content => rfl
  | case6 directive content => cases directive <;> rfl
  | case7 directive =>
      have unmarked : Marker.ofLine line = (.unmarked, line) := by
        fun_cases Marker.ofLine line <;> cases directive <;> simp_all
      cases directive <;> simp [resolveLine, unmarked]

theorem filterMap_resolveLine_cons (current : Option Directive) (line : Line) (lines : List Line) :
    (line :: lines).filterMap (resolveLine current) =
      yielded current line ++ lines.filterMap (resolveLine current) := by
  rw [← toList_resolveLine, List.filterMap_cons]
  cases resolveLine current line <;> rfl

theorem onePass_directive {line : Line} {directive : Directive}
    (opens : Directive.ofLine? line = some directive) (current : Option Directive)
    (lines : List Line) : onePass current (line :: lines) = onePass (some directive) lines := by
  rw [Directive.ofLine?_eq_some_iff] at opens
  cases directive <;> simp [onePass, opens, Directive.word]

theorem onePass_data {line : Line} (data : isData line = true) (current : Option Directive)
    (lines : List Line) :
    onePass current (line :: lines) = yielded current line ++ onePass current lines := by
  rw [isData, Option.isNone_iff_eq_none] at data
  have other (directive : Directive) : Text.trim line ≠ directive.word := by
    intro opens
    rw [Directive.ofLine?_eq_some_iff.mpr opens] at data
    cases data
  rw [onePass, if_neg (other .apply), if_neg (other .reject)]

theorem onePass_eq (current : Option Directive) (lines : List Line) :
    onePass current lines = (lines.takeWhile isData).filterMap (resolveLine current) ++
      onePass none (lines.dropWhile isData) := by
  induction lines with
  | nil => rfl
  | cons line lines ih =>
      cases data : isData line with
      | true =>
          rw [onePass_data data, ih, List.takeWhile_cons_of_pos data, List.dropWhile_cons_of_pos data,
            filterMap_resolveLine_cons, List.append_assoc]
      | false =>
          obtain ⟨directive, opens⟩ := exists_directive data
          rw [List.takeWhile_cons_of_neg (by simp [data]), List.dropWhile_cons_of_neg (by simp [data]),
            onePass_directive opens, onePass_directive opens]
          rfl

theorem onePass_opened {lines : List Line} (opened : Opened lines) (current : Option Directive) :
    onePass current lines = onePass none lines := by
  cases lines with
  | nil => rfl
  | cons line lines =>
      obtain ⟨directive, opens⟩ := exists_directive (opened line rfl)
      rw [onePass_directive opens, onePass_directive opens]

theorem onePass_append {below : List Line} (opened : Opened below) (current : Option Directive)
    (above : List Line) :
    onePass current (above ++ below) = onePass current above ++ onePass none below := by
  induction above generalizing current with
  | nil => exact onePass_opened opened current
  | cons line above ih =>
      cases data : isData line with
      | true =>
          rw [List.cons_append, onePass_data data, ih, onePass_data data, List.append_assoc]
      | false =>
          obtain ⟨directive, opens⟩ := exists_directive data
          rw [List.cons_append, onePass_directive opens, ih, onePass_directive opens]

theorem flatMap_resolve_ofLines (lines : List Line) :
    (ofLines lines).flatMap resolve = onePass none lines := by
  fun_induction ofLines lines with
  | case1 => rfl
  | case2 first rest block ih =>
      rw [List.flatMap_cons, ih]
      cases opens : Directive.ofLine? first with
      | some directive =>
          simp only [block, opens, resolve]
          rw [onePass_directive opens, onePass_eq (some directive)]
      | none =>
          have data : isData first = true := by simp [isData, opens]
          simp only [block, opens, resolve]
          rw [filterMap_resolveLine_cons, onePass_data data, onePass_eq none rest, List.append_assoc]

theorem survivors_eq_onePass (text : List Char) :
    survivors text = onePass none (text.splitOn '\n') := by
  rw [survivors, flatMap_resolve_ofLines, Text.splitLines_eq_splitOn]

theorem joinLines_padded (lines : List Line) : Text.joinLines (padded lines) = closed lines := by
  fun_cases closed lines with
  | case1 => rfl
  | case2 line => simp [padded, Text.joinLines]
  | case3 =>
      rw [padded, Text.joinLines_eq_intercalate]
      assumption

theorem resolveChars_eq (text : List Char) :
    resolveChars text = closed (onePass none (text.splitOn '\n')) := by
  rw [resolveChars, joinLines_padded, survivors_eq_onePass]

theorem sublist_of_mem_yielded {current : Option Directive} {line result : Line}
    (member : result ∈ yielded current line) : result.Sublist line := by
  revert member
  fun_cases yielded current line <;> simp_all

theorem length_yielded_le (current : Option Directive) (line : Line) :
    (yielded current line).length ≤ 1 := by
  fun_cases yielded current line <;> simp

theorem length_onePass_le (current : Option Directive) (lines : List Line) :
    (onePass current lines).length ≤ lines.length := by
  fun_induction onePass current lines with
  | case1 => simp
  | case2 current line lines opens ih => exact Nat.le_succ_of_le ih
  | case3 current line lines other opens ih => exact Nat.le_succ_of_le ih
  | case4 current line lines noApply noReject ih =>
      have single := length_yielded_le current line
      simp only [List.length_append, List.length_cons]
      omega

theorem newline_not_mem_onePass {lines : List Line} (unbroken : ∀ line ∈ lines, '\n' ∉ line)
    (current : Option Directive) : ∀ line ∈ onePass current lines, '\n' ∉ line := by
  fun_induction onePass current lines with
  | case1 => simp
  | case2 current line lines opens ih => exact ih fun later member => unbroken later (by simp [member])
  | case3 current line lines other opens ih =>
      exact ih fun later member => unbroken later (by simp [member])
  | case4 current line lines noApply noReject ih =>
      intro result member newline
      rcases List.mem_append.mp member with here | later
      · exact unbroken line (by simp) ((sublist_of_mem_yielded here).subset newline)
      · exact ih (fun line member => unbroken line (by simp [member])) result later newline

theorem newline_not_mem_survivors (text : List Char) : ∀ line ∈ survivors text, '\n' ∉ line := by
  rw [survivors_eq_onePass]
  exact newline_not_mem_onePass (Text.newline_not_mem_splitOn text) none

theorem newline_mem_closed {lines : List Line} : '\n' ∈ closed lines ↔ lines ≠ [] := by
  match lines with
  | [] => simp [closed]
  | [line] => simp [closed]
  | line :: next :: lines => simp [closed, List.intercalate_cons_cons]

theorem length_splitOn_closed {lines : List Line} (unbroken : ∀ line ∈ lines, '\n' ∉ line) :
    ((closed lines).splitOn '\n').length =
      if lines.length < 2 then lines.length + 1 else lines.length := by
  match lines with
  | [] => simp [closed]
  | [line] =>
      rw [closed, List.splitOn_append_cons_self_of_not_mem (unbroken line (by simp))]
      simp
  | line :: next :: lines =>
      rw [closed_of_several (by simp), Text.splitOn_joinLines (by simp) unbroken, if_neg (by simp)]

theorem length_splitOn_closed_le {lines : List Line} (unbroken : ∀ line ∈ lines, '\n' ∉ line) :
    ((closed lines).splitOn '\n').length ≤ max 2 lines.length := by
  rw [length_splitOn_closed unbroken]
  split <;> omega

/-- Resolving a text is one pass over its lines. -/
theorem resolveText_onePass (text : String) :
    (resolveText text).toList = closed (onePass none (text.toList.splitOn '\n')) ∧
      ('\n' ∉ (resolveText text).toList ↔ onePass none (text.toList.splitOn '\n') = []) ∧
      ((resolveText text).toList.splitOn '\n').length ≤ max 2 (text.toList.splitOn '\n').length := by
  have unbroken := Text.newline_not_mem_splitOn text.toList
  have most := length_splitOn_closed_le (newline_not_mem_onePass unbroken none)
  have fewer := length_onePass_le none (text.toList.splitOn '\n')
  rw [toList_resolveText, resolveChars_eq]
  refine ⟨rfl, ?_, by omega⟩
  rw [newline_mem_closed, Decidable.not_not]

end Redline.Block
