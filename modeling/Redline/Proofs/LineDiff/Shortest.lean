import Redline.LineDiff.Script
import Redline.Proofs.LineDiff.CommonSublist
import Redline.Proofs.LineDiff.Meeting

/-! Scripts with the fewest changed lines. Divide and conquer leaves as many lines kept as a longest
common sublist has, and no script that spells the same sides keeps more. -/

namespace Redline.LineDiff

variable {α : Type}

def Edit.changeCount : Edit α → Nat
  | .keep _ => 0
  | .change part => part.lines.length

def changeCount : List (Edit α) → Nat
  | [] => 0
  | edit :: rest => edit.changeCount + changeCount rest

@[simp] theorem changeCount_nil : changeCount ([] : List (Edit α)) = 0 := rfl

@[simp] theorem changeCount_cons (edit : Edit α) (script : List (Edit α)) :
    changeCount (edit :: script) = edit.changeCount + changeCount script := rfl

@[simp] theorem changeCount_append (first second : List (Edit α)) :
    changeCount (first ++ second) = changeCount first + changeCount second := by
  induction first with
  | nil => simp
  | cons edit first ih => rw [List.cons_append, changeCount_cons, changeCount_cons, ih, Nat.add_assoc]

@[simp] theorem changeCount_reverse (script : List (Edit α)) :
    changeCount script.reverse = changeCount script := by
  induction script with
  | nil => rfl
  | cons edit script ih => simp [ih, Nat.add_comm]

@[simp] theorem changeCount_keepAll (lines : List α) : changeCount (keepAll lines) = 0 := by
  cases lines <;> simp [keepAll, Edit.changeCount]

def keptLines : List (Edit α) → List α
  | [] => []
  | .keep lines :: rest => lines ++ keptLines rest
  | .change _ :: rest => keptLines rest

theorem keptLines_sublist_spell (side : Side) (script : List (Edit α)) :
    (keptLines script).Sublist (spell side script) := by
  fun_induction keptLines script with
  | case1 => exact List.nil_sublist _
  | case2 lines rest ih => exact (List.Sublist.refl lines).append ih
  | case3 part rest ih => exact ih.trans (List.sublist_append_right _ _)

theorem length_spell (script : List (Edit α)) :
    (spell .old script).length + (spell .new script).length =
      changeCount script + 2 * (keptLines script).length := by
  fun_induction keptLines script with
  | case1 => rfl
  | case2 lines rest ih =>
      simp only [spell_cons, Edit.lines, changeCount_cons, Edit.changeCount, List.length_append]
      omega
  | case3 part rest ih =>
      rcases part with ⟨side, lines, anchor⟩
      simp only [spell_cons, Edit.lines, changeCount_cons, Edit.changeCount, List.length_append]
      cases side <;> simp <;> omega

variable [DecidableEq α]

theorem length_le_changeCount (script : List (Edit α)) :
    (spell .old script).length + (spell .new script).length ≤
      changeCount script + 2 * commonLength (spell .old script) (spell .new script) := by
  have counted := length_spell script
  have short := length_le_commonLength (keptLines_sublist_spell .old script)
    (keptLines_sublist_spell .new script)
  omega

theorem commonPrefix_drop (first second : List α) :
    commonPrefix (first.drop (commonPrefix first second).length)
      (second.drop (commonPrefix first second).length) = [] := by
  fun_induction commonPrefix first second <;> simp_all [commonPrefix]

theorem commonPrefix_take {first second : List α} (differ : commonPrefix first second = []) (i j : Nat) :
    commonPrefix (first.take i) (second.take j) = [] := by
  cases first <;> cases second <;> cases i <;> cases j <;> simp_all [commonPrefix]

theorem Box.commonPrefix_ofLists (old new : List α) :
    commonPrefix (ofLists old new).old (ofLists old new).new = [] :=
  commonPrefix_take (commonPrefix_drop old new) _ _

theorem Box.commonPrefix_reverse_ofLists (old new : List α) :
    commonPrefix (ofLists old new).old.reverse (ofLists old new).new.reverse = [] := by
  have differ := commonPrefix_drop (old.drop (commonPrefix old new).length).reverse
    (new.drop (commonPrefix old new).length).reverse
  have shortOld := length_commonSuffix_le_left (old.drop (commonPrefix old new).length)
    (new.drop (commonPrefix old new).length)
  have shortNew := length_commonSuffix_le_right (old.drop (commonPrefix old new).length)
    (new.drop (commonPrefix old new).length)
  simp only [ofLists, List.reverse_take, Nat.sub_sub_self shortOld, Nat.sub_sub_self shortNew]
  simpa only [commonSuffix, List.length_reverse] using differ

theorem not_agrees_of_commonPrefix {old new : List α} (differ : commonPrefix old new = []) :
    ¬Agrees old.toArray new.toArray 0 0 := by
  cases old <;> cases new <;> simp_all [Agrees, commonPrefix]

theorem agrees_of_distance_zero {old new : Array α} {i j : Nat} (zero : distance old new i j = 0)
    (positive : 0 < i + j) : Agrees old new 0 0 := by
  apply Decidable.byContradiction
  intro differ
  have low := le_add_distance old new i j
  have high := le_add_distance new old j i
  rw [distance_comm] at high
  have along := distance_le_diagonal_steps old new 1 1 (i - 1)
  rw [show 1 + (i - 1) = i by omega, show i = j by omega, distance_of_not_agrees differ] at along
  rw [show i = j by omega] at zero
  simp at along
  omega

/-- Lists without common ends are two steps apart at least: a single step would leave equal lists,
which begin alike. -/
theorem two_le_apart {old new : List α} (someOld : old ≠ []) (someNew : new ≠ [])
    (begins : commonPrefix old new = []) (ends : commonPrefix old.reverse new.reverse = []) :
    2 ≤ apart old new := by
  have first := not_agrees_of_commonPrefix begins
  have last := not_agrees_of_commonPrefix ends
  obtain ⟨n, sizeOld⟩ := Nat.exists_eq_succ_of_ne_zero (mt List.length_eq_zero_iff.mp someOld)
  obtain ⟨m, sizeNew⟩ := Nat.exists_eq_succ_of_ne_zero (mt List.length_eq_zero_iff.mp someNew)
  rw [← List.reverse_toArray, ← List.reverse_toArray, agrees_reverse (i := n) (j := m)
    (by simp [sizeOld]) (by simp [sizeNew])] at last
  have right := mt (agrees_of_distance_zero (i := n) (j := m + 1) · (by omega)) first
  have down := mt (agrees_of_distance_zero (i := n + 1) (j := m) · (by omega)) first
  unfold apart
  rw [sizeOld, sizeNew, distance_of_not_agrees last]
  omega

theorem exists_division (sweep : Sweep) {old new : List α} (someOld : old ≠ []) (someNew : new ≠ [])
    (begins : commonPrefix old new = []) (ends : commonPrefix old.reverse new.reverse = []) :
    ∃ division, division? sweep old new = some division ∧
      commonLength (old.take division.val.1) (new.take division.val.2) +
        commonLength (old.drop division.val.1) (new.drop division.val.2) = commonLength old new := by
  obtain ⟨point, found, midway⟩ := exists_splitPoint sweep old new
  have far := two_le_apart someOld someNew begins ends
  have half := midway.half
  have between := midway.between
  have divides : Divides old.length new.length point := by
    have ahead := distance_le_add old.toArray new.toArray point.1 point.2
    have behind := distance_le_add old.toArray.reverse new.toArray.reverse
      (old.length - point.1) (new.length - point.2)
    obtain ⟨acrossOld, acrossNew, shortest⟩ := between
    simp only [List.size_toArray] at acrossOld acrossNew shortest half
    unfold apart at far
    exact ⟨by omega, by omega, by omega, by omega⟩
  refine ⟨⟨point, divides⟩, ?_, between.commonLength_divided⟩
  simp [division?, found, divides]

/-- Divide and conquer keeps as many lines as a longest common sublist has. -/
theorem changeCount_divide (sweep : Sweep) (i j : Nat) (old new : List α) :
    changeCount (divide sweep i j old new) + 2 * commonLength old new = old.length + new.length := by
  fun_induction divide sweep i j old new with
  | case1 i j old new box i' j' middle second first =>
    have inner : changeCount middle + 2 * commonLength box.old box.new =
        box.old.length + box.new.length := by
      simp only [middle]
      split
      · next noOld noNew => simp [noOld, noNew]
      · next noNew _ => simp [noNew, Edit.changeCount]
      · next noOld _ => simp [noOld, Edit.changeCount, commonLength]
      · next someOld someNew _ =>
          obtain ⟨division, found, divided⟩ := exists_division sweep someOld someNew
            (Box.commonPrefix_ofLists old new) (Box.commonPrefix_reverse_ofLists old new)
          rw [found]
          have before := first division
          have after := second division
          simp only [changeCount_append, List.length_take, List.length_drop] at before after ⊢
          obtain ⟨_, _, _, _⟩ := division.property
          omega
    -- the common ends are kept, and lengthen every common sublist by as much
    have wholeOld : box.head ++ box.old ++ box.tail = old := Box.ofLists_old_eq old new
    have wholeNew : box.head ++ box.new ++ box.tail = new := Box.ofLists_new_eq old new
    rw [changeCount_append, changeCount_append, changeCount_keepAll, changeCount_keepAll, ← wholeOld,
      ← wholeNew, commonLength_append_right, commonLength_append_left]
    simp only [List.length_append]
    omega

theorem changeCount_script (sweep : Sweep) (old new : List α) :
    changeCount (script sweep old new) + 2 * commonLength old new = old.length + new.length :=
  changeCount_divide sweep 0 0 old new

/-- Where no line is lost, only what comes in is a change. -/
theorem changeCount_script_of_sublist (sweep : Sweep) {old new : List α} (within : old.Sublist new) :
    changeCount (script sweep old new) + old.length = new.length := by
  have found := changeCount_script sweep old new
  rw [commonLength_of_sublist within] at found
  omega

end Redline.LineDiff
