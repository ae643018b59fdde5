import Redline.LineDiff.Edit

/-! Scripts as regions: the changes between kept lines are taken together, removed lines before
added ones. -/

namespace Redline.LineDiff

variable {α : Type}

structure Gap (α : Type) where
  removed : List α
  added : List α
  removedAt : Nat
  addedAt : Nat
  deriving DecidableEq, Repr

inductive Region (α : Type) where
  | same (lines : List α)
  | changed (gap : Gap α)
  deriving DecidableEq, Repr

def Gap.cons (part : Change α) (gap : Gap α) : Gap α :=
  match part.side with
  | .old => { gap with removed := part.lines ++ gap.removed, removedAt := part.anchor }
  | .new => { gap with added := part.lines ++ gap.added, addedAt := part.anchor }

def Gap.empty : Gap α :=
  ⟨[], [], 0, 0⟩

namespace Region

def ofScript : List (Edit α) → List (Region α)
  | [] => []
  | .keep lines :: rest =>
    match ofScript rest with
    | .same more :: regions => .same (lines ++ more) :: regions
    | regions => .same lines :: regions
  | .change part :: rest =>
    match ofScript rest with
    | .changed gap :: regions => .changed (gap.cons part) :: regions
    | regions => .changed (Gap.empty.cons part) :: regions

def lines (side : Side) : Region α → List α
  | .same lines => lines
  | .changed gap => side.of gap.removed gap.added

/-- The indices that a region takes up on a side, given where it starts there. A gap that has no
lines on the side takes up none, and lies where the anchor of its first change says. -/
def span (side : Side) (first : Nat) : Region α → Nat × Nat
  | .same lines => (first, first + lines.length)
  | .changed gap =>
    let lines := Region.lines side (.changed gap)
    let anchor := side.of gap.addedAt gap.removedAt
    if lines.isEmpty then (anchor, anchor) else (first, first + lines.length)

def edits : Region α → List (Edit α)
  | .same lines => keepAll lines
  | .changed gap => changeAll .old gap.removed ++ changeAll .new gap.added

end Region

def joined (script : List (Edit α)) : List (Edit α) :=
  (Region.ofScript script).flatMap Region.edits

end Redline.LineDiff
