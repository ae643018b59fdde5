import Redline.Block.Basic
import Redline.Text.Lines

/-! Whole texts resolved by the blocks in them. -/

namespace Redline.Block

def survivors (text : List Char) : List Line :=
  (ofLines (Text.splitLines text)).flatMap resolve

/-- A single line gets an empty one after it, so that only a text without lines has no newline. -/
def padded : List Line → List Line
  | [line] => [line, []]
  | lines => lines

def resolveChars (text : List Char) : List Char :=
  Text.joinLines (padded (survivors text))

def resolveText (text : String) : String :=
  String.ofList (resolveChars text.toList)

theorem toList_resolveText (text : String) : (resolveText text).toList = resolveChars text.toList := by
  simp [resolveText]

end Redline.Block
