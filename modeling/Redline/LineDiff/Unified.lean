import Redline.LineDiff.Hunk

/-! Hunks written as a unified diff. -/

namespace Redline.LineDiff

/-- A range of line numbers as a hunk's header writes it: the first line, counted from 1, and the
number of lines unless it is 1. A range without lines names the line before it. -/
def rangeText (first last : Nat) : String :=
  match last - first with
  | 0 => s!"{first},0"
  | 1 => s!"{first + 1}"
  | count => s!"{first + 1},{count}"

def Hunk.header {α : Type} (hunk : Hunk α) : String :=
  let old := hunk.span .old
  let new := hunk.span .new
  s!"@@ -{rangeText old.1 old.2} +{rangeText new.1 new.2} @@"

def unendedHint : List Char :=
  "\n\\ No newline at end of file\n".toList

/-- A line of a hunk: its tag, the line, and the hint if no character of `ends` ends it. -/
def tagged (ends : List Char) (tag : Char) (line : List Char) : List Char :=
  let ended := match line.getLast? with
    | some last => ends.contains last
    | none => false
  tag :: line ++ (if ended then [] else unendedHint)

def Region.body (ends : List Char) : Region (List Char) → List Char
  | .same lines => lines.flatMap (tagged ends ' ')
  | .changed gap => gap.removed.flatMap (tagged ends '-') ++ gap.added.flatMap (tagged ends '+')

def Hunk.print (ends : List Char) (hunk : Hunk (List Char)) : List Char :=
  hunk.header.toList ++ '\n' :: hunk.regions.flatMap (Region.body ends)

def unified (oldName newName : String) (ends : List Char) : List (Hunk (List Char)) → String
  | [] => ""
  | hunks => s!"--- {oldName}\n+++ {newName}\n" ++ String.ofList (hunks.flatMap (Hunk.print ends))

end Redline.LineDiff
