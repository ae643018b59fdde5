import Redline.LineDiff.Spelling
import Redline.LineDiff.Unified
import Redline.Text.Lines

/-! Two texts compared line by line. -/

namespace Redline.LineDiff

/-- How lines are told apart, how a script is found, and which characters end a line in print. Cutting
loses nothing, and a script spells the lines of both texts. -/
structure Style where
  cut : List Char → List (List Char)
  align : List (List Char) → List (List Char) → List (Edit (List Char))
  ends : List Char
  flatten_cut : ∀ text, (cut text).flatten = text
  spell_align : ∀ (side : Side) (old new : List (List Char)), spell side (align old new) = side.of old new

namespace Style

def anyEnding : Style :=
  let motion : Motion := { slides := fun side => side = .new, gathers := false }
  { cut := Text.cutLines
    align := fun old new => settleBoth motion (script .fromLow old new)
    ends := ['\n', '\r']
    flatten_cut := Text.flatten_cutLines
    spell_align := by simp }

/-- Lines end at `\n` alone. Lines that say little about where the texts agree are set apart at
first. All changes slide, and they gather, after what is between the same lines has been joined. -/
def newlines : Style :=
  let motion : Motion := { slides := fun _ => true, gathers := true }
  { cut := Text.cutNewlines
    align := fun old new =>
      anchored 0 0 (settleBoth motion (joined (throughShared (script .fromHigh) old new)))
    ends := ['\n']
    flatten_cut := Text.flatten_cutNewlines
    spell_align := by simp [spell_throughShared] }

end Style

def regions (style : Style) (old new : List Char) : List (Region (List Char)) :=
  Region.ofScript (style.align (style.cut old) (style.cut new))

theorem flatMap_lines_regions (style : Style) (side : Side) (old new : List Char) :
    (regions style old new).flatMap (Region.lines side) = side.of (style.cut old) (style.cut new) := by
  rw [regions, flatMap_lines_ofScript, style.spell_align]

def compare (style : Style) (radius : Nat) (oldName newName : String) (old new : String) : String :=
  unified oldName newName style.ends (hunks radius (regions style old.toList new.toList))

end Redline.LineDiff
