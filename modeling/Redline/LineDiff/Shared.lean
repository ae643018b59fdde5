import Redline.LineDiff.Edit
import Redline.LineDiff.Standing

/-! Scripts that are made without the lines that are set apart, which are put back afterwards. -/

namespace Redline.LineDiff

variable {α : Type}

def Edit.atoms : Edit α → List (Edit α)
  | .keep lines => lines.map fun line => .keep [line]
  | .change part => part.lines.map fun line => .change { part with lines := [line] }

def sharedLines (lines : List (α × Bool)) : List α :=
  (lines.filter fun line => !line.2).map Prod.fst

/-- The lines set apart in front of the next one that is not, and the lines behind that one. An edit
that has no line for a side passes none there. -/
def passLine (mine : List α) (lines : List (α × Bool)) : List (α × Bool) × List (α × Bool) :=
  if mine.isEmpty then ([], lines) else (lines.takeWhile Prod.snd, (lines.dropWhile Prod.snd).drop 1)

/-- Puts lines that are set apart back into a script that has one line in every edit. -/
def restoreApart : List (Edit α) → List (α × Bool) → List (α × Bool) → List (Edit α)
  | [], old, new => changeAll .old (old.map Prod.fst) ++ changeAll .new (new.map Prod.fst)
  | atom :: atoms, old, new =>
    let passedOld := passLine (atom.lines .old) old
    let passedNew := passLine (atom.lines .new) new
    changeAll .old (passedOld.1.map Prod.fst) ++ changeAll .new (passedNew.1.map Prod.fst) ++
      atom :: restoreApart atoms passedOld.2 passedNew.2

def throughShared [DecidableEq α] (make : List α → List α → List (Edit α)) (old new : List α) :
    List (Edit α) :=
  let old' := setApart old new
  let new' := setApart new old
  restoreApart ((make (sharedLines old') (sharedLines new')).flatMap Edit.atoms) old' new'

end Redline.LineDiff
