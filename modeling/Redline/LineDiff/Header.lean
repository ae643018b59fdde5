import Redline.Text.Lines

/-! The three lines that open a unified diff. -/

namespace Redline.LineDiff

def opens (old new hunk : List Char) : Bool :=
  ['-', '-', '-'].isPrefixOf old && ['+', '+', '+'].isPrefixOf new && ['@', '@'].isPrefixOf hunk

/-- A diff without its three opening lines. A text that does not open like a diff stays whole. -/
def stripHeader (raw : List Char) : List Char :=
  match Text.splitLines raw with
  | old :: new :: hunk :: body => if opens old new hunk then Text.joinLines body else raw
  | _ => raw

end Redline.LineDiff
