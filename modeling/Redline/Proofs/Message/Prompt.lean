import Mathlib.Data.List.TakeWhile
import Redline.Message
import Redline.Proofs.Text.Lines

/-! When a message asks for something: only what stands above its first separator line counts, and
a lone empty line there is nothing. -/

namespace Redline.Message

def lines (text : String) : List (List Char) :=
  text.toList.splitOn '\n'

def firstSeparator (text : String) : Option Nat :=
  (lines text).findIdx? fun line => Text.trim line = separator

/-- No line is a separator, or the first one is at the top, or only an empty line is above it. -/
def AsksNothing (text : String) : Prop :=
  firstSeparator text = none ∨ firstSeparator text = some 0 ∨
    firstSeparator text = some 1 ∧ (lines text).head? = some []

instance (text : String) : Decidable (AsksNothing text) :=
  inferInstanceAs (Decidable (_ ∨ _ ∨ _ ∧ _))

theorem ofText_unseparated {text : String} (none : firstSeparator text = none) :
    ofText text = ⟨"", text⟩ := by
  have nothing : (lines text).dropWhile (fun line => !isSeparator line) = [] := by
    rw [List.dropWhile_eq_nil_iff]
    simpa [firstSeparator, isSeparator] using none
  rw [lines, ← Text.splitLines_eq_splitOn] at nothing
  rw [ofText, nothing]

theorem ofText_separated {text : String} {above : Nat} (found : firstSeparator text = some above) :
    ofText text = ⟨String.ofList (Text.joinLines ((lines text).take above)),
      String.ofList (Text.joinLines ((lines text).drop (above + 1)))⟩ := by
  obtain ⟨bound, index⟩ := List.findIdx?_eq_some_iff_findIdx_eq.mp found
  have taken : (lines text).takeWhile (fun line => !isSeparator line) = (lines text).take above := by
    rw [List.takeWhile_eq_take_findIdx_not]
    simp [isSeparator, index]
  have dropped : (lines text).dropWhile (fun line => !isSeparator line) = (lines text).drop above := by
    rw [List.dropWhile_eq_drop_findIdx_not]
    simp [isSeparator, index]
  rw [lines, ← Text.splitLines_eq_splitOn] at taken dropped bound ⊢
  rw [ofText, taken, dropped, List.drop_eq_getElem_cons bound]

theorem hasPrompt_ofText (text : String) : (ofText text).hasPrompt = false ↔ AsksNothing text := by
  cases found : firstSeparator text with
  | none => simp [ofText_unseparated found, hasPrompt, AsksNothing, found]
  | some above =>
      rw [ofText_separated found, hasPrompt, Bool.not_eq_false', String.isEmpty_iff,
        String.ofList_eq_empty_iff, Text.joinLines_eq_nil_iff, AsksNothing, found]
      have bound : above < (lines text).length :=
        (List.findIdx?_eq_some_iff_findIdx_eq.mp found).1
      cases all : lines text with
      | nil => simp [all] at bound
      | cons line later =>
          rw [all] at bound
          match above, later with
          | 0, _ => simp
          | 1, _ => simp
          | above + 2, [] => simp at bound
          | above + 2, next :: later => simp

end Redline.Message
