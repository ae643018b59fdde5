import Redline.LineDiff.Frontier

/-! Straight steps in the grid of two lists. `distance` counts the fewest of them on a path from
the first corner to a point, in a grid that goes on without entries beyond the lists. It changes by
one with every straight step, never falls along a diagonal, and grows steadily outside the grid. -/

namespace Redline.LineDiff

variable {α : Type}

def Agrees (old new : Array α) (i j : Nat) : Prop :=
  i < old.size ∧ old[i]? = new[j]?

theorem Agrees.lt_old {old new : Array α} {i j : Nat} (agrees : Agrees old new i j) :
    i < old.size :=
  agrees.1

theorem Agrees.lt_new {old new : Array α} {i j : Nat} (agrees : Agrees old new i j) :
    j < new.size := by
  obtain ⟨inside, same⟩ := agrees
  rw [Array.getElem?_eq_getElem inside] at same
  exact (Array.getElem?_eq_some_iff.mp same.symm).1

theorem agrees_comm {old new : Array α} {i j : Nat} :
    Agrees old new i j ↔ Agrees new old j i :=
  ⟨fun agrees => ⟨agrees.lt_new, agrees.2.symm⟩, fun agrees => ⟨agrees.lt_new, agrees.2.symm⟩⟩

variable [DecidableEq α]

instance (old new : Array α) (i j : Nat) : Decidable (Agrees old new i j) := by
  unfold Agrees; infer_instance

def distance (old new : Array α) : Nat → Nat → Nat
  | 0, j => j
  | i + 1, 0 => i + 1
  | i + 1, j + 1 =>
    if Agrees old new i j then distance old new i j
    else min (distance old new i (j + 1)) (distance old new (i + 1) j) + 1
termination_by i j => i + j

@[simp] theorem distance_zero_left (old new : Array α) (j : Nat) : distance old new 0 j = j := by
  simp [distance]

@[simp] theorem distance_zero_right (old new : Array α) (i : Nat) : distance old new i 0 = i := by
  cases i <;> simp [distance]

theorem distance_of_agrees {old new : Array α} {i j : Nat} (agrees : Agrees old new i j) :
    distance old new (i + 1) (j + 1) = distance old new i j := by
  rw [distance, if_pos agrees]

theorem distance_of_not_agrees {old new : Array α} {i j : Nat} (differ : ¬Agrees old new i j) :
    distance old new (i + 1) (j + 1) =
      min (distance old new i (j + 1)) (distance old new (i + 1) j) + 1 := by
  rw [distance, if_neg differ]

theorem distance_comm (old new : Array α) (i j : Nat) :
    distance old new i j = distance new old j i := by
  fun_induction distance old new i j with
  | case1 j => simp
  | case2 i => simp
  | case3 i j agrees ih => rw [distance_of_agrees (agrees_comm.mp agrees), ih]
  | case4 i j differ ihDown ihRight =>
      rw [distance_of_not_agrees (mt agrees_comm.mpr differ), ihDown, ihRight, Nat.min_comm]

theorem distance_mod_two (old new : Array α) (i j : Nat) :
    distance old new i j % 2 = (i + j) % 2 := by
  fun_induction distance old new i j with
  | case1 j => omega
  | case2 i => omega
  | case3 i j agrees ih => omega
  | case4 i j differ ihDown ihRight => omega

theorem le_add_distance (old new : Array α) (i j : Nat) : i ≤ j + distance old new i j := by
  fun_induction distance old new i j with
  | case1 j => omega
  | case2 i => omega
  | case3 i j agrees ih => omega
  | case4 i j differ ihDown ihRight => omega

theorem distance_le_add (old new : Array α) (i j : Nat) : distance old new i j ≤ i + j := by
  fun_induction distance old new i j with
  | case1 j => omega
  | case2 i => omega
  | case3 i j agrees ih => omega
  | case4 i j differ ihDown ihRight => omega

/-- A step to the right changes the distance by no more than one. With the lists exchanged it is a
step down, so that the induction on the place of the point serves both. -/
theorem distance_right (old new : Array α) (i j : Nat) :
    distance old new (i + 1) j ≤ distance old new i j + 1 ∧
      distance old new i j ≤ distance old new (i + 1) j + 1 := by
  cases j with
  | zero =>
      rw [distance_zero_right, distance_zero_right]
      omega
  | succ j =>
      have down := distance_right new old j i
      rw [distance_comm new old (j + 1), distance_comm new old j] at down
      by_cases agrees : Agrees old new i j
      · rw [distance_of_agrees agrees]
        omega
      · rw [distance_of_not_agrees agrees]
        have right := distance_right old new i j
        omega
termination_by i + j

theorem distance_down (old new : Array α) (i j : Nat) :
    distance old new i (j + 1) ≤ distance old new i j + 1 ∧
      distance old new i j ≤ distance old new i (j + 1) + 1 := by
  have right := distance_right new old j i
  rwa [distance_comm new old (j + 1), distance_comm new old j] at right

theorem distance_le_down_steps (old new : Array α) (i j steps : Nat) :
    distance old new i (j + steps) ≤ distance old new i j + steps ∧
      distance old new i j ≤ distance old new i (j + steps) + steps := by
  induction steps with
  | zero => simp
  | succ steps ih =>
      have next := distance_down old new i (j + steps)
      simp only [Nat.add_assoc] at next
      omega

theorem distance_le_diagonal (old new : Array α) (i j : Nat) :
    distance old new i j ≤ distance old new (i + 1) (j + 1) := by
  by_cases agrees : Agrees old new i j
  · exact Nat.le_of_eq (distance_of_agrees agrees).symm
  · rw [distance_of_not_agrees agrees]
    have right := distance_right old new i j
    have down := distance_down old new i j
    omega

theorem distance_le_diagonal_steps (old new : Array α) (i j steps : Nat) :
    distance old new i j ≤ distance old new (i + steps) (j + steps) := by
  induction steps with
  | zero => simp
  | succ steps ih => exact Nat.le_trans ih (distance_le_diagonal old new (i + steps) (j + steps))

theorem distance_beyond_old (old new : Array α) (i j : Nat) (outside : old.size ≤ i) :
    distance old new (i + 1) j = distance old new i j + 1 := by
  induction j with
  | zero => simp
  | succ j ih =>
      have differ : ¬Agrees old new i j := fun agrees => Nat.not_lt.mpr outside agrees.lt_old
      rw [distance_of_not_agrees differ, ih]
      have down := distance_down old new i j
      omega

theorem distance_beyond_old_steps (old new : Array α) (j steps : Nat) :
    distance old new (old.size + steps) j = distance old new old.size j + steps := by
  induction steps with
  | zero => rfl
  | succ steps ih =>
      rw [← Nat.add_assoc, distance_beyond_old old new _ j (Nat.le_add_right _ _), ih, Nat.add_assoc]

theorem distance_beyond_new_steps (old new : Array α) (i steps : Nat) :
    distance old new i (new.size + steps) = distance old new i new.size + steps := by
  rw [distance_comm, distance_beyond_old_steps, distance_comm]

end Redline.LineDiff
