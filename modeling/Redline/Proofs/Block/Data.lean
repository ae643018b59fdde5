import Redline.Block.Basic
import Redline.Proofs.Text.Blank

/-! Lines that are no directives. A blank in front makes no difference to that, and a line that
starts with another character than the directives' words do is none of them. -/

namespace Redline.Block

@[simp] theorem isData_nil : isData [] = true := rfl

theorem isData_iff {line : Line} : isData line = true ↔ Directive.ofLine? line = none := by
  rw [isData, Option.isNone_iff_eq_none]

theorem exists_directive {line : Line} (noData : isData line = false) :
    ∃ directive, Directive.ofLine? line = some directive := by
  apply Option.ne_none_iff_exists'.mp
  intro none
  simp [isData_iff.mpr none] at noData

theorem isData_eq_false_iff {line : Line} :
    isData line = false ↔ ∃ directive : Directive, Text.trim line = directive.word := by
  constructor
  · intro noData
    obtain ⟨directive, opens⟩ := exists_directive noData
    exact ⟨directive, Directive.ofLine?_eq_some_iff.mp opens⟩
  · rintro ⟨directive, word⟩
    rw [isData, Directive.ofLine?_eq_some_iff.mpr word]
    rfl

theorem isData_of_trim {line : Line} (other : ∀ directive : Directive, Text.trim line ≠ directive.word) :
    isData line = true := by
  rw [isData_iff, Option.eq_none_iff_forall_ne_some]
  intro directive opens
  exact other directive (Directive.ofLine?_eq_some_iff.mp opens)

theorem isData_of_solid {c : Char} (solid : Text.isBlank c = false)
    (other : ∀ directive : Directive, directive.word.head? ≠ some c) (content : Line) :
    isData (c :: content) = true := by
  apply isData_of_trim
  intro directive word
  exact other directive (word ▸ Text.head?_trim solid content)

theorem isData_added (content : Line) : isData ('+' :: content) = true :=
  isData_of_solid (by decide) (by intro directive; cases directive <;> decide) content

theorem isData_removed (content : Line) : isData ('-' :: content) = true :=
  isData_of_solid (by decide) (by intro directive; cases directive <;> decide) content

theorem isData_context (content : Line) : isData (' ' :: content) = isData content := by
  rw [isData, isData, Directive.ofLine?, Directive.ofLine?, Text.trim_cons_blank (by decide)]

def Opened (lines : List Line) : Prop :=
  ∀ line ∈ lines.head?, isData line = false

theorem opened_dropWhile (lines : List Line) : Opened (lines.dropWhile isData) := by
  intro line isFirst
  have noData := List.head?_dropWhile_not isData lines
  rwa [Option.mem_def.mp isFirst] at noData

end Redline.Block
