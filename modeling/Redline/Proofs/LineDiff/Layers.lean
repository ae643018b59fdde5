import Redline.Proofs.LineDiff.Distance

/-! Layers of furthest-reaching paths. Every entry of a layer is the furthest point of its diagonal
within the layer's distance, and advancing a layer keeps this. The diagonal at position `p` of the
layer of depth `d` holds the points `i`, `i + 2 * p - d`. -/

namespace Redline.LineDiff

variable {α : Type} [DecidableEq α]

/-- On the diagonal at position `p`, `d` straight steps reach old index `i` and no further. -/
structure Furthest (old new : Array α) (d p i : Nat) : Prop where
  onGrid : d ≤ i + 2 * p
  reached : distance old new i (i + 2 * p - d) ≤ d
  beyond : d < distance old new (i + 1) (i + 1 + 2 * p - d)

def IsLayer (old new : Array α) (layer : Array Nat) : Prop :=
  ∀ p < layer.size, Furthest old new (layer.size - 1) p (layer.getD p 0)

theorem Furthest.distance_le_iff {old new : Array α} {d p x i : Nat} (furthest : Furthest old new d p x)
    (onGrid : d ≤ i + 2 * p) : distance old new i (i + 2 * p - d) ≤ d ↔ i ≤ x := by
  obtain ⟨xOnGrid, reached, beyond⟩ := furthest
  constructor
  · intro near
    apply Nat.not_lt.mp
    intro after
    have along := distance_le_diagonal_steps old new (x + 1) (x + 1 + 2 * p - d) (i - (x + 1))
    rw [show x + 1 + (i - (x + 1)) = i by omega,
      show x + 1 + 2 * p - d + (i - (x + 1)) = i + 2 * p - d by omega] at along
    omega
  · intro before
    have along := distance_le_diagonal_steps old new i (i + 2 * p - d) (x - i)
    rw [show i + (x - i) = x by omega,
      show i + 2 * p - d + (x - i) = x + 2 * p - d by omega] at along
    exact Nat.le_trans along reached

theorem matchRun_eq (old new : Array α) (i j : Nat) :
    matchRun old new i j = if Agrees old new i j then matchRun old new (i + 1) (j + 1) + 1 else 0 := by
  rw [matchRun]
  by_cases inside : i < old.size ∧ j < new.size
  · simp [Agrees, inside]
  · have differ : ¬Agrees old new i j := fun agrees => inside ⟨agrees.lt_old, agrees.lt_new⟩
    rw [dif_neg inside, if_neg differ]

theorem agrees_of_lt_matchRun {old new : Array α} {i j step : Nat}
    (within : step < matchRun old new i j) : Agrees old new (i + step) (j + step) := by
  induction step generalizing i j with
  | zero =>
      rw [matchRun_eq] at within
      split at within
      · assumption
      · omega
  | succ step ih =>
      rw [matchRun_eq] at within
      split at within
      · have next := ih (i := i + 1) (j := j + 1) (by omega)
        rwa [Nat.add_right_comm, Nat.add_right_comm j] at next
      · omega

theorem not_agrees_matchRun (old new : Array α) (i j : Nat) :
    ¬Agrees old new (i + matchRun old new i j) (j + matchRun old new i j) := by
  generalize length : matchRun old new i j = run
  induction run generalizing i j with
  | zero =>
      rw [matchRun_eq] at length
      split at length
      · omega
      · assumption
  | succ run ih =>
      rw [matchRun_eq] at length
      split at length
      · have next := ih (i + 1) (j + 1) (by omega)
        rwa [Nat.add_right_comm, Nat.add_right_comm j] at next
      · omega

theorem distance_of_run {old new : Array α} {i j : Nat} (run : Nat)
    (agree : ∀ step < run, Agrees old new (i + step) (j + step)) :
    distance old new (i + run) (j + run) = distance old new i j := by
  induction run with
  | zero => rfl
  | succ run ih =>
      rw [← Nat.add_assoc, ← Nat.add_assoc, distance_of_agrees (agree run (Nat.lt_succ_self run))]
      exact ih fun step within => agree step (Nat.lt_succ_of_lt within)

/-- A path of the next layer starts a step right or down of the layer before. -/
theorem start_cases (layer : Array Nat) (p : Nat) (inside : p ≤ layer.size) :
    (0 < p ∧ start layer p = layer.getD (p - 1) 0) ∨
      (p < layer.size ∧ start layer p = layer.getD p 0 + 1) ∨
      (layer.size = 0 ∧ start layer p = 0) := by
  unfold start
  by_cases last : p = layer.size
  · rw [if_pos last]
    by_cases empty : layer.size = 0
    · exact Or.inr (Or.inr ⟨empty, by simp [empty, last]⟩)
    · exact Or.inl ⟨by omega, rfl⟩
  · rw [if_neg last]
    by_cases first : p = 0
    · rw [if_pos first, first]
      exact Or.inr (Or.inl ⟨by omega, rfl⟩)
    · rw [if_neg first]
      by_cases further : layer.getD p 0 < layer.getD (p - 1) 0
      · exact Or.inl ⟨by omega, by rw [if_pos further]⟩
      · exact Or.inr (Or.inl ⟨by omega, by rw [if_neg further]⟩)

theorem le_start (layer : Array Nat) (p : Nat) :
    (0 < p → layer.getD (p - 1) 0 ≤ start layer p) ∧
      (p < layer.size → layer.getD p 0 < start layer p) := by
  unfold start
  by_cases last : p = layer.size
  · rw [if_pos last]
    exact ⟨fun _ => Nat.le_refl _, fun inside => by omega⟩
  · rw [if_neg last]
    by_cases first : p = 0
    · rw [if_pos first, first]
      exact ⟨fun positive => by omega, fun _ => Nat.lt_succ_self _⟩
    · rw [if_neg first]
      by_cases further : layer.getD p 0 < layer.getD (p - 1) 0
      · rw [if_pos further]
        exact ⟨fun _ => Nat.le_refl _, fun _ => further⟩
      · rw [if_neg further]
        exact ⟨fun _ => by omega, fun _ => Nat.lt_succ_self _⟩

theorem IsLayer.start_reached {old new : Array α} {layer : Array Nat} (isLayer : IsLayer old new layer)
    (p : Nat) (inside : p ≤ layer.size) :
    layer.size ≤ start layer p + 2 * p ∧
      distance old new (start layer p) (start layer p + 2 * p - layer.size) ≤ layer.size := by
  obtain ⟨positive, fromAbove⟩ | ⟨within, fromBelow⟩ | ⟨empty, atCorner⟩ :=
    start_cases layer p inside
  · obtain ⟨onGrid, reached, -⟩ := isLayer (p - 1) (by omega)
    rw [fromAbove]
    have down := (distance_down old new (layer.getD (p - 1) 0)
      (layer.getD (p - 1) 0 + 2 * (p - 1) - (layer.size - 1))).1
    rw [show layer.getD (p - 1) 0 + 2 * (p - 1) - (layer.size - 1) + 1 =
      layer.getD (p - 1) 0 + 2 * p - layer.size by omega] at down
    omega
  · obtain ⟨onGrid, reached, -⟩ := isLayer p within
    rw [fromBelow]
    have right := (distance_right old new (layer.getD p 0)
      (layer.getD p 0 + 2 * p - (layer.size - 1))).1
    rw [show layer.getD p 0 + 2 * p - (layer.size - 1) =
      layer.getD p 0 + 1 + 2 * p - layer.size by omega] at right reached
    omega
  · obtain rfl : p = 0 := by omega
    rw [atCorner, empty]
    simp

theorem IsLayer.start_beyond {old new : Array α} {layer : Array Nat} (isLayer : IsLayer old new layer)
    (p i : Nat) (inside : p ≤ layer.size) (onGrid : layer.size ≤ i + 2 * p)
    (started : start layer p ≤ i) (differ : ¬Agrees old new i (i + 2 * p - layer.size)) :
    layer.size < distance old new (i + 1) (i + 1 + 2 * p - layer.size) := by
  -- the point behind is a straight step from both neighbours, and both are too far away already
  have overRight : layer.size ≤ distance old new (i + 1) (i + 2 * p - layer.size) := by
    by_cases first : p = 0
    · have far := le_add_distance old new (i + 1) (i + 2 * p - layer.size)
      omega
    · have furthest := isLayer (p - 1) (by omega)
      have above := (le_start layer p).1 (by omega)
      have far := mt (furthest.distance_le_iff (i := i + 1) (by omega)).mp (by omega)
      rw [show i + 1 + 2 * (p - 1) - (layer.size - 1) = i + 2 * p - layer.size by omega] at far
      omega
  have overDown : layer.size ≤ distance old new i (i + 2 * p - layer.size + 1) := by
    by_cases last : p = layer.size
    · have far := le_add_distance new old (i + 2 * p - layer.size + 1) i
      rw [distance_comm] at far
      omega
    · have furthest := isLayer p (by omega)
      have below := (le_start layer p).2 (by omega)
      have far := mt (furthest.distance_le_iff (i := i) (by omega)).mp (by omega)
      rw [show i + 2 * p - (layer.size - 1) = i + 2 * p - layer.size + 1 by omega] at far
      omega
  rw [show i + 1 + 2 * p - layer.size = i + 2 * p - layer.size + 1 by omega,
    distance_of_not_agrees differ]
  omega

theorem toNat_sub_diagonal (x d p : Nat) : ((x : Int) - diagonal d p).toNat = x + 2 * p - d := by
  unfold diagonal
  omega

theorem getD_advance (old new : Array α) (layer : Array Nat) (p : Nat) (inside : p ≤ layer.size)
    (onGrid : layer.size ≤ start layer p + 2 * p) :
    (advance old new layer).getD p 0 = start layer p +
      matchRun old new (start layer p) (start layer p + 2 * p - layer.size) := by
  have bound : p < (advance old new layer).size := by rw [size_advance]; omega
  have inGrid : ¬(start layer p : Int) < diagonal layer.size p := by unfold diagonal; omega
  rw [Array.getD, dif_pos bound]
  simp [advance, follow, inGrid, toNat_sub_diagonal]

theorem IsLayer.advance {old new : Array α} {layer : Array Nat} (isLayer : IsLayer old new layer) :
    IsLayer old new (advance old new layer) := by
  intro p within
  rw [size_advance] at within ⊢
  have inside : p ≤ layer.size := by omega
  obtain ⟨onGrid, reached⟩ := isLayer.start_reached p inside
  rw [getD_advance old new layer p inside onGrid, Nat.add_sub_cancel]
  have along := distance_of_run (matchRun old new (start layer p)
    (start layer p + 2 * p - layer.size)) fun step within => agrees_of_lt_matchRun within
  have stops := not_agrees_matchRun old new (start layer p) (start layer p + 2 * p - layer.size)
  generalize matchRun old new (start layer p) (start layer p + 2 * p - layer.size) = run at *
  have row : start layer p + run + 2 * p - layer.size =
      start layer p + 2 * p - layer.size + run := by omega
  refine ⟨by omega, ?_, ?_⟩
  · rwa [row, along]
  · exact isLayer.start_beyond p (start layer p + run) inside (by omega) (by omega) (by rwa [row])

end Redline.LineDiff
