import Redline.LineDiff.Affix
import Redline.LineDiff.Edit
import Redline.LineDiff.Frontier

/-! A shortest script by divide and conquer: what is common at both ends is kept, and the box in
between is divided where paths from its corners meet. -/

namespace Redline.LineDiff

variable {α : Type}

structure Box (α : Type) where
  head : List α
  old : List α
  new : List α
  tail : List α

def Box.ofLists [DecidableEq α] (old new : List α) : Box α :=
  let head := commonPrefix old new
  let old' := old.drop head.length
  let new' := new.drop head.length
  let tail := commonSuffix old' new'
  { head := head
    old := old'.take (old'.length - tail.length)
    new := new'.take (new'.length - tail.length)
    tail := tail }

def Divides (n m : Nat) (point : Nat × Nat) : Prop :=
  point.1 ≤ n ∧ point.2 ≤ m ∧ 0 < point.1 + point.2 ∧ point.1 + point.2 < n + m

instance (n m : Nat) (point : Nat × Nat) : Decidable (Divides n m point) := by
  unfold Divides; infer_instance

def replaceAll (i j : Nat) (old new : List α) : List (Edit α) :=
  [.change ⟨.old, old, j⟩, .change ⟨.new, new, i + old.length⟩]

@[simp] theorem spell_replaceAll (side : Side) (i j : Nat) (old new : List α) :
    spell side (replaceAll i j old new) = side.of old new := by
  cases side <;> simp [replaceAll, Edit.lines, Side.of]

variable [DecidableEq α]

theorem Box.ofLists_old_eq (old new : List α) :
    (ofLists old new).head ++ (ofLists old new).old ++ (ofLists old new).tail = old := by
  simp only [ofLists, List.append_assoc, take_append_commonSuffix_left]
  exact commonPrefix_append_drop_left old new

theorem Box.ofLists_new_eq (old new : List α) :
    (ofLists old new).head ++ (ofLists old new).new ++ (ofLists old new).tail = new := by
  simp only [ofLists, List.append_assoc, take_append_commonSuffix_right]
  exact commonPrefix_append_drop_right old new

theorem Box.length_ofLists_le (old new : List α) :
    (ofLists old new).old.length + (ofLists old new).new.length ≤ old.length + new.length := by
  have left := congrArg List.length (ofLists_old_eq old new)
  have right := congrArg List.length (ofLists_new_eq old new)
  simp only [List.length_append] at left right
  omega

def division? (sweep : Sweep) (old new : List α) :
    Option { point // Divides old.length new.length point } :=
  match splitPoint? sweep old new with
  | none => none
  | some point => if inside : Divides old.length new.length point then some ⟨point, inside⟩ else none

/-- The script from `old` to `new`, whose first lines have the indices `i` and `j`. -/
def divide (sweep : Sweep) (i j : Nat) (old new : List α) : List (Edit α) :=
  let box := Box.ofLists old new
  let i' := i + box.head.length
  let j' := j + box.head.length
  let middle :=
    match box.old, box.new with
    | [], [] => []
    | removed, [] => [.change ⟨.old, removed, j'⟩]
    | [], added => [.change ⟨.new, added, i'⟩]
    | _, _ =>
      match division? sweep box.old box.new with
      | none => replaceAll i' j' box.old box.new
      | some division =>
        let point := division.val
        divide sweep i' j' (box.old.take point.1) (box.new.take point.2) ++
          divide sweep (i' + point.1) (j' + point.2) (box.old.drop point.1) (box.new.drop point.2)
  keepAll box.head ++ middle ++ keepAll box.tail
termination_by old.length + new.length
decreasing_by
  all_goals
    have smaller := Box.length_ofLists_le old new
    obtain ⟨_, _, _, _⟩ : Divides (Box.ofLists old new).old.length (Box.ofLists old new).new.length
      division.val := division.property
    simp only [List.length_take, List.length_drop]
    omega

def script (sweep : Sweep) (old new : List α) : List (Edit α) :=
  divide sweep 0 0 old new

theorem spell_divide (side : Side) (sweep : Sweep) (i j : Nat) (old new : List α) :
    spell side (divide sweep i j old new) = side.of old new := by
  fun_induction divide sweep i j old new with
  | case1 i j old new box i' j' middle second first =>
    have inner : spell side middle = side.of box.old box.new := by
      simp only [middle]
      split
      · next noOld noNew => cases side <;> simp [Side.of, noOld, noNew]
      · next noNew _ => cases side <;> simp [Side.of, noNew, Edit.lines]
      · next noOld _ => cases side <;> simp [Side.of, noOld, Edit.lines]
      · split
        · exact spell_replaceAll side i' j' box.old box.new
        · next division _ =>
            rw [spell_append, second division, first division]
            cases side <;> simp [Side.of]
    rw [spell_append, spell_append, spell_keepAll, spell_keepAll, inner]
    cases side
    · exact Box.ofLists_old_eq old new
    · exact Box.ofLists_new_eq old new

@[simp] theorem spell_script (side : Side) (sweep : Sweep) (old new : List α) :
    spell side (script sweep old new) = side.of old new :=
  spell_divide side sweep 0 0 old new

end Redline.LineDiff
