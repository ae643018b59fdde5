import Redline.Proofs.LineDiff.Corners

/-! Longest common sublists. What one leaves of two lists is exactly the distance between the corners
of their grid, so that lists can be divided at a point of a shortest way without loss. -/

namespace Redline.LineDiff

variable {α : Type}

structure LongestCommon (old new common : List α) : Prop where
  inOld : common.Sublist old
  inNew : common.Sublist new
  longest : ∀ other : List α, other.Sublist old → other.Sublist new → other.length ≤ common.length

variable [DecidableEq α]

def commonLength : List α → List α → Nat
  | [], _ => 0
  | _ :: _, [] => 0
  | a :: as, b :: bs =>
    if a = b then commonLength as bs + 1
    else max (commonLength as (b :: bs)) (commonLength (a :: as) bs)
termination_by old new => old.length + new.length

theorem length_le_commonLength {old new common : List α} (inOld : common.Sublist old)
    (inNew : common.Sublist new) : common.length ≤ commonLength old new := by
  fun_induction commonLength old new generalizing common with
  | case1 new => simp [List.sublist_nil.mp inOld]
  | case2 a as => simp [List.sublist_nil.mp inNew]
  | case3 as b bs ih =>
      have rest := ih inOld.tail inNew.tail
      rw [List.length_tail] at rest
      omega
  | case4 a as b bs differ ihOld ihNew =>
      rcases List.sublist_cons_iff.mp inOld with later | ⟨rest, rfl, later⟩
      · exact Nat.le_trans (ihOld later inNew) (Nat.le_max_left _ _)
      · rcases List.sublist_cons_iff.mp inNew with laterNew | ⟨restNew, same, laterNew⟩
        · exact Nat.le_trans (ihNew inOld laterNew) (Nat.le_max_right _ _)
        · exact absurd (List.cons.inj same).1 differ

theorem exists_commonLength (old new : List α) :
    ∃ common : List α, common.Sublist old ∧ common.Sublist new ∧
      common.length = commonLength old new := by
  fun_induction commonLength old new with
  | case1 new => exact ⟨[], List.nil_sublist _, List.nil_sublist _, rfl⟩
  | case2 a as => exact ⟨[], List.nil_sublist _, List.nil_sublist _, rfl⟩
  | case3 as b bs ih =>
      obtain ⟨common, inOld, inNew, length⟩ := ih
      exact ⟨b :: common, inOld.cons_cons b, inNew.cons_cons b, by simp [length]⟩
  | case4 a as b bs differ ihOld ihNew =>
      rcases Nat.le_total (commonLength (a :: as) bs) (commonLength as (b :: bs)) with less | less
      · obtain ⟨common, inOld, inNew, length⟩ := ihOld
        exact ⟨common, inOld.cons a, inNew, by rw [length, Nat.max_eq_left less]⟩
      · obtain ⟨common, inOld, inNew, length⟩ := ihNew
        exact ⟨common, inOld, inNew.cons b, by rw [length, Nat.max_eq_right less]⟩

theorem commonLength_of_sublist {old new : List α} (within : old.Sublist new) :
    commonLength old new = old.length := by
  obtain ⟨common, inOld, _, length⟩ := exists_commonLength old new
  have atLeast := length_le_commonLength (List.Sublist.refl old) within
  have atMost := inOld.length_le
  omega

theorem exists_longestCommon (old new : List α) :
    ∃ common, LongestCommon old new common ∧ common.length = commonLength old new := by
  obtain ⟨common, inOld, inNew, length⟩ := exists_commonLength old new
  refine ⟨common, ⟨inOld, inNew, ?_⟩, length⟩
  intro other otherOld otherNew
  rw [length]
  exact length_le_commonLength otherOld otherNew

def apart (old new : List α) : Nat :=
  distance old.toArray new.toArray old.length new.length

theorem apart_reverse (old new : List α) : apart old.reverse new.reverse = apart old new := by
  simpa [apart] using distance_reverse old.toArray new.toArray

theorem distance_congr {old new old' new' : Array α} {i j : Nat}
    (same : ∀ i' < i, ∀ j' < j, Agrees old new i' j' ↔ Agrees old' new' i' j') :
    distance old new i j = distance old' new' i j := by
  fun_induction distance old new i j with
  | case1 j => simp
  | case2 i => simp
  | case3 i j agrees ih =>
      rw [distance_of_agrees ((same i (by omega) j (by omega)).mp agrees)]
      exact ih fun i' before j' above => same i' (by omega) j' (by omega)
  | case4 i j differ ihDown ihRight =>
      rw [distance_of_not_agrees (mt (same i (by omega) j (by omega)).mpr differ),
        ihDown fun i' before j' above => same i' (by omega) j' (by omega),
        ihRight fun i' before j' above => same i' (by omega) j' (by omega)]

theorem apart_take (old new : List α) {i j : Nat} (insideOld : i ≤ old.length)
    (insideNew : j ≤ new.length) :
    apart (old.take i) (new.take j) = distance old.toArray new.toArray i j := by
  unfold apart
  rw [List.length_take_of_le insideOld, List.length_take_of_le insideNew]
  apply distance_congr
  intro i' before j' above
  simp only [Agrees, List.size_toArray, List.getElem?_toArray, List.getElem?_take_of_lt before,
    List.getElem?_take_of_lt above, List.length_take_of_le insideOld]
  exact ⟨fun agrees => ⟨by omega, agrees.2⟩, fun agrees => ⟨by omega, agrees.2⟩⟩

theorem apart_drop (old new : List α) (i j : Nat) :
    apart (old.drop i) (new.drop j) =
      distance old.toArray.reverse new.toArray.reverse (old.length - i) (new.length - j) := by
  have mirrored := apart_take old.reverse new.reverse (i := old.length - i) (j := new.length - j)
    (by simp) (by simp)
  rw [← apart_reverse, List.reverse_drop, List.reverse_drop, mirrored, List.reverse_toArray,
    List.reverse_toArray]

theorem apart_cons (a b : α) (as bs : List α) :
    apart (a :: as) (b :: bs) =
      if a = b then apart as bs else min (apart as (b :: bs)) (apart (a :: as) bs) + 1 := by
  have agrees : Agrees (a :: as).toArray.reverse (b :: bs).toArray.reverse as.length bs.length ↔
      Agrees (a :: as).toArray (b :: bs).toArray 0 0 := agrees_reverse (by simp) (by simp)
  -- `distance` takes entries off the end, so that the heads are met in the lists reversed
  have whole := apart_drop (a :: as) (b :: bs) 0 0
  have diagonal := apart_drop (a :: as) (b :: bs) 1 1
  have right := apart_drop (a :: as) (b :: bs) 1 0
  have down := apart_drop (a :: as) (b :: bs) 0 1
  simp only [List.drop_zero, List.drop_succ_cons, List.length_cons, Nat.sub_zero,
    Nat.add_sub_cancel] at whole diagonal right down
  rw [whole, diagonal, right, down]
  by_cases same : a = b
  · rw [if_pos same, distance_of_agrees (agrees.mpr (by simp [Agrees, same]))]
  · rw [if_neg same, distance_of_not_agrees (mt agrees.mp (by simp [Agrees, same]))]

/-- What a longest common sublist leaves of both lists is their distance. -/
theorem apart_add_commonLength (old new : List α) :
    apart old new + 2 * commonLength old new = old.length + new.length := by
  fun_induction commonLength old new with
  | case1 new => simp [apart]
  | case2 a as => simp [apart]
  | case3 as b bs ih =>
      rw [apart_cons, if_pos rfl, List.length_cons, List.length_cons]
      omega
  | case4 a as b bs differ ihOld ihNew =>
      rw [apart_cons, if_neg differ]
      simp only [List.length_cons] at ihOld ihNew ⊢
      omega

theorem commonLength_reverse (old new : List α) :
    commonLength old.reverse new.reverse = commonLength old new := by
  have mirrored := apart_add_commonLength old.reverse new.reverse
  rw [apart_reverse, List.length_reverse, List.length_reverse] at mirrored
  have straight := apart_add_commonLength old new
  omega

@[simp] theorem commonLength_nil_right (old : List α) : commonLength old [] = 0 := by
  cases old <;> simp [commonLength]

theorem commonLength_append_left (head old new : List α) :
    commonLength (head ++ old) (head ++ new) = head.length + commonLength old new := by
  induction head with
  | nil => simp
  | cons a head ih =>
      rw [List.cons_append, List.cons_append, commonLength, if_pos rfl, ih, List.length_cons]
      omega

theorem commonLength_append_right (old new tail : List α) :
    commonLength (old ++ tail) (new ++ tail) = commonLength old new + tail.length := by
  rw [← commonLength_reverse, List.reverse_append, List.reverse_append, commonLength_append_left,
    commonLength_reverse, List.length_reverse, Nat.add_comm]

theorem Between.commonLength_divided {old new : List α} {i j s t : Nat}
    (between : Between old.toArray new.toArray i j s t) :
    commonLength (old.take i) (new.take j) + commonLength (old.drop i) (new.drop j) =
      commonLength old new := by
  obtain ⟨acrossOld, acrossNew, shortest⟩ := between
  rw [List.size_toArray] at acrossOld acrossNew
  have first := apart_add_commonLength (old.take i) (new.take j)
  have second := apart_add_commonLength (old.drop i) (new.drop j)
  have whole := apart_add_commonLength old new
  rw [apart_take old new (by omega) (by omega)] at first
  rw [apart_drop, show old.length - i = s by omega, show new.length - j = t by omega] at second
  simp only [List.length_take, List.length_drop] at first second
  unfold apart at whole
  rw [List.size_toArray, List.size_toArray] at shortest
  omega

end Redline.LineDiff
