/-! Edit scripts that carry their lines. Read for its old side a script spells the old lines,
read for its new side the new ones. -/

namespace Redline.LineDiff

inductive Side where
  | old
  | new
  deriving DecidableEq, Repr

def Side.of {β : Type} (side : Side) (old new : β) : β :=
  match side with
  | .old => old
  | .new => new

structure Change (α : Type) where
  side : Side
  lines : List α
  /-- An index on the other side, where the change was first placed. It moves with the change
  when lines slide past it, but not when a change of the other side does. -/
  anchor : Nat
  deriving DecidableEq, Repr

inductive Edit (α : Type) where
  | keep (lines : List α)
  | change (part : Change α)
  deriving DecidableEq, Repr

variable {α : Type}

namespace Edit

def lines (side : Side) : Edit α → List α
  | .keep lines => lines
  | .change part => if part.side = side then part.lines else []

def allLines : Edit α → List α
  | .keep lines => lines
  | .change part => part.lines

def weight (edit : Edit α) : Nat :=
  edit.allLines.length + 1

end Edit

def spell (side : Side) (script : List (Edit α)) : List α :=
  script.flatMap (Edit.lines side)

def weight : List (Edit α) → Nat
  | [] => 0
  | edit :: rest => edit.weight + weight rest

def keepAll : List α → List (Edit α)
  | [] => []
  | lines => [.keep lines]

def changeAll (side : Side) : List α → List (Edit α)
  | [] => []
  | lines => [.change ⟨side, lines, 0⟩]

/-- Anchors every change of a script at the index where it stands on the other side. The script
starts at old index `i` and new index `j`. -/
def anchored (i j : Nat) : List (Edit α) → List (Edit α)
  | [] => []
  | .keep lines :: rest => .keep lines :: anchored (i + lines.length) (j + lines.length) rest
  | .change part :: rest =>
    match part.side with
    | .old => .change { part with anchor := j } :: anchored (i + part.lines.length) j rest
    | .new => .change { part with anchor := i } :: anchored i (j + part.lines.length) rest

@[simp] theorem spell_nil (side : Side) : spell side ([] : List (Edit α)) = [] := rfl

@[simp] theorem spell_cons (side : Side) (edit : Edit α) (script : List (Edit α)) :
    spell side (edit :: script) = edit.lines side ++ spell side script := by
  simp [spell]

@[simp] theorem spell_append (side : Side) (first second : List (Edit α)) :
    spell side (first ++ second) = spell side first ++ spell side second := by
  simp [spell]

@[simp] theorem spell_keepAll (side : Side) (lines : List α) : spell side (keepAll lines) = lines := by
  cases lines <;> simp [keepAll, Edit.lines]

@[simp] theorem weight_cons (edit : Edit α) (script : List (Edit α)) :
    weight (edit :: script) = edit.weight + weight script := rfl

@[simp] theorem weight_append (first second : List (Edit α)) :
    weight (first ++ second) = weight first + weight second := by
  induction first with
  | nil => simp [weight]
  | cons edit first ih => rw [List.cons_append, weight_cons, weight_cons, ih, Nat.add_assoc]

@[simp] theorem reverse_keepAll (lines : List α) : (keepAll lines).reverse = keepAll lines := by
  cases lines <;> rfl

@[simp] theorem spell_changeAll (side mine : Side) (lines : List α) :
    spell side (changeAll mine lines) = if mine = side then lines else [] := by
  cases lines <;> simp [changeAll, Edit.lines]

@[simp] theorem spell_anchored (side : Side) (i j : Nat) (script : List (Edit α)) :
    spell side (anchored i j script) = spell side script := by
  fun_induction anchored i j script <;> simp_all [Edit.lines]

theorem weight_keepAll_le (lines : List α) : weight (keepAll lines) ≤ lines.length + 1 := by
  cases lines <;> simp [keepAll, weight, Edit.weight, Edit.allLines]

end Redline.LineDiff
