import Redline.Proofs.LineDiff.Corners
import Redline.Proofs.LineDiff.Layers

/-! Where the paths from both corners meet. Two layers whose depths add up to the distance of the
corners meet on some diagonal, layers of less depth on none, and the point where they meet lies in
the grid, halfway between the corners. -/

namespace Redline.LineDiff

theorem natAbs_diagonal_le_iff (n m a b p : Nat) (even : (a + b + n + m) % 2 = 0) :
    (diagonal a p - ((n : Int) - m)).natAbs ≤ b ↔ ∃ q ≤ b, 2 * p + 2 * q + n = a + b + m := by
  unfold diagonal
  constructor
  · intro near
    exact ⟨(a + b + m - n - 2 * p) / 2, by omega, by omega⟩
  · rintro ⟨q, inside, opposite⟩
    omega

theorem reachOn_opposite {layer : Array Nat} {n m a b p q : Nat} (size : layer.size = b + 1)
    (opposite : 2 * p + 2 * q + n = a + b + m) :
    reachOn layer ((n : Int) - m - diagonal a p) = layer.getD q 0 := by
  unfold reachOn diagonal
  congr 1
  omega

theorem toNat_sub_sub_diagonal (m : Nat) {y d q : Nat} (onGrid : d ≤ y + 2 * q) :
    ((m : Int) - (y - diagonal d q)).toNat = m - (y + 2 * q - d) := by
  unfold diagonal
  omega

variable {α : Type} [DecidableEq α]

structure Midway (old new : Array α) (point : Nat × Nat) : Prop where
  between : Between old new point.1 point.2 (old.size - point.1) (new.size - point.2)
  half : distance old new point.1 point.2 = (distance old new old.size new.size + 1) / 2

theorem inside_of_near {old new : Array α} {a b i j : Nat} (near : distance old new i j ≤ a)
    (apart : distance old new old.size new.size = a + b)
    (low : old.size + j ≤ new.size + i + b) (high : new.size + i ≤ old.size + j + b) :
    i ≤ old.size ∧ j ≤ new.size := by
  constructor
  · apply Nat.not_lt.mp
    intro outside
    obtain ⟨right, rfl⟩ := Nat.exists_eq_add_of_le (Nat.le_of_lt outside)
    rw [distance_beyond_old_steps] at near
    by_cases below : j ≤ new.size
    · have across := (distance_le_down_steps old new old.size j (new.size - j)).1
      rw [Nat.add_sub_cancel' below] at across
      omega
    · obtain ⟨down, rfl⟩ := Nat.exists_eq_add_of_le (Nat.le_of_not_le below)
      rw [distance_beyond_new_steps] at near
      omega
  · apply Nat.not_lt.mp
    intro outside
    obtain ⟨down, rfl⟩ := Nat.exists_eq_add_of_le (Nat.le_of_lt outside)
    rw [distance_beyond_new_steps] at near
    by_cases before : i ≤ old.size
    · have across := (distance_le_down_steps new old new.size i (old.size - i)).1
      rw [Nat.add_sub_cancel' before, distance_comm, distance_comm new old] at across
      omega
    · obtain ⟨right, rfl⟩ := Nat.exists_eq_add_of_le (Nat.le_of_not_le before)
      rw [distance_beyond_old_steps] at near
      omega

section Opposite

/-! Two diagonals are opposite when one is that of position `p` at depth `a` from the first corner,
the other that of position `q` at depth `b` from the last, and both hold the same points. -/

variable {old new : Array α} {a b p q : Nat}

theorem distance_le_of_met {x y : Nat} (far : Furthest old new a p x)
    (back : Furthest old.reverse new.reverse b q y)
    (opposite : 2 * p + 2 * q + old.size = a + b + new.size) (insideA : p ≤ a) (insideB : q ≤ b)
    (met : old.size ≤ x + y) : distance old new old.size new.size ≤ a + b := by
  have trivial := distance_le_add old new old.size new.size
  by_cases deep : old.size + new.size ≤ a + b
  · omega
  · have xOnGrid := far.onGrid
    have yOnGrid := back.onGrid
    -- the first point of the diagonal in the grid that the paths from the last corner reach
    obtain ⟨i, reached, onGrid, within, inside, row⟩ : ∃ i, old.size ≤ i + y ∧ a ≤ i + 2 * p ∧ i ≤ x ∧
        i ≤ old.size ∧ b + i ≤ old.size + 2 * q := by
      by_cases early : old.size ≤ a - 2 * p + y
      · exact ⟨a - 2 * p, early, by omega, by omega, by omega, by omega⟩
      · exact ⟨old.size - y, by omega, by omega, by omega, by omega, by omega⟩
    have near := (far.distance_le_iff onGrid).mpr within
    have rest := (back.distance_le_iff (i := old.size - i) (by omega)).mpr (by omega)
    have through := distance_le_through old new i (i + 2 * p - a) (old.size - i)
      (old.size - i + 2 * q - b) (by omega) (by omega)
    omega

theorem exists_met (apart : distance old new old.size new.size = a + b) :
    ∃ p q, p ≤ a ∧ q ≤ b ∧ 2 * p + 2 * q + old.size = a + b + new.size ∧
      ∀ x y, Furthest old new a p x → Furthest old.reverse new.reverse b q y →
        old.size ≤ x + y := by
  obtain ⟨i, j, s, t, ⟨acrossOld, acrossNew, shortest⟩, near⟩ := exists_between old new a (by omega)
  have parity := distance_mod_two old new i j
  have lowNear := le_add_distance old new i j
  have highNear := le_add_distance new old j i
  have parityBack := distance_mod_two old.reverse new.reverse s t
  have lowBack := le_add_distance old.reverse new.reverse s t
  have highBack := le_add_distance new.reverse old.reverse t s
  rw [distance_comm] at highNear highBack
  -- the diagonal of a point of a shortest way, seen from either corner
  refine ⟨(a + j - i) / 2, (b + t - s) / 2, by omega, by omega, by omega, ?_⟩
  intro x y far back
  have reached := (far.distance_le_iff (i := i) (by omega)).mp
    (by rw [show i + 2 * ((a + j - i) / 2) - a = j by omega]; omega)
  have reachedBack := (back.distance_le_iff (i := s) (by omega)).mp
    (by rw [show s + 2 * ((b + t - s) / 2) - b = t by omega]; omega)
  omega

theorem between_of_near {i y : Nat} (near : distance old new i (i + 2 * p - a) ≤ a)
    (back : Furthest old.reverse new.reverse b q y)
    (opposite : 2 * p + 2 * q + old.size = a + b + new.size) (insideB : q ≤ b)
    (apart : distance old new old.size new.size = a + b) (onGrid : a ≤ i + 2 * p)
    (met : old.size ≤ i + y) :
    Between old new i (i + 2 * p - a) (old.size - i) (new.size - (i + 2 * p - a)) ∧
      distance old new i (i + 2 * p - a) = a := by
  obtain ⟨insideOld, insideNew⟩ := inside_of_near near apart (by omega) (by omega)
  have row : old.size - i + 2 * q - b = new.size - (i + 2 * p - a) := by omega
  have rest := (back.distance_le_iff (i := old.size - i) (by omega)).mpr (by omega)
  rw [row] at rest
  have between : Between old new i (i + 2 * p - a) (old.size - i) (new.size - (i + 2 * p - a)) :=
    .of_le (by omega) (by omega) (by omega)
  refine ⟨between, ?_⟩
  have shortest := between.shortest
  omega

theorem met_at_start {i run y : Nat}
    (agree : ∀ step < run, Agrees old new (i + step) (i + 2 * p - a + step))
    (back : Furthest old.reverse new.reverse b q y)
    (opposite : 2 * p + 2 * q + old.size = a + b + new.size) (onGrid : a ≤ i + 2 * p)
    (met : old.size ≤ i + run + y) : old.size ≤ i + y := by
  apply Nat.not_lt.mp
  intro short
  have agrees := agree (old.size - y - 1 - i) (by omega)
  have insideOld := agrees.lt_old
  have insideNew := agrees.lt_new
  have yOnGrid := back.onGrid
  have agreesBack := (agrees_reverse (s := y) (t := y + 2 * q - b) (by omega) (by omega)).mpr agrees
  have further := distance_of_agrees agreesBack
  have reached := back.reached
  have beyond := back.beyond
  rw [show y + 1 + 2 * q - b = y + 2 * q - b + 1 by omega] at beyond
  omega

end Opposite

theorem IsLayer.furthest {old new : Array α} {layer : Array Nat} (isLayer : IsLayer old new layer)
    {d p : Nat} (size : layer.size = d + 1) (inside : p ≤ d) :
    Furthest old new d p (layer.getD p 0) := by
  have furthest := isLayer p (by omega)
  rwa [size, Nat.add_sub_cancel] at furthest

section Layers

variable {old new : Array α} {before forward backward : Array Nat} {point : Nat × Nat}

theorem midway_of_meetForward (isBefore : IsLayer old new before)
    (isBackward : IsLayer old.reverse new.reverse backward) (sizes : backward.size = before.size)
    (odd : (old.size + new.size) % 2 = 1)
    (far : 2 * before.size ≤ distance old new old.size new.size + 1)
    (found : meetForward old.size new.size before (advance old new before) backward = some point) :
    Midway old new point := by
  obtain ⟨p, member, result⟩ := List.exists_of_findSome?_eq_some found
  have inside : p ≤ before.size := Nat.le_of_lt_succ (List.mem_range.mp member)
  obtain ⟨⟨onPath, met⟩, here⟩ := Option.ite_none_right_eq_some.mp result
  obtain ⟨b, depth⟩ : ∃ b, before.size = b + 1 := ⟨before.size - 1, by omega⟩
  obtain ⟨q, insideB, opposite⟩ := (natAbs_diagonal_le_iff old.size new.size before.size b p
    (by omega)).mp (by omega)
  rw [reachOn_opposite (sizes.trans depth) opposite] at met
  have ahead := isBefore.advance.furthest (size_advance old new before) inside
  have back := isBackward.furthest (sizes.trans depth) insideB
  have parity := distance_mod_two old new old.size new.size
  have close := distance_le_of_met ahead back opposite inside insideB met
  obtain ⟨onGrid, near⟩ := isBefore.start_reached p inside
  rw [getD_advance old new before p inside onGrid] at met
  have started := met_at_start (fun step within => agrees_of_lt_matchRun within) back opposite
    onGrid met
  obtain ⟨between, half⟩ := between_of_near near back opposite insideB (by omega) onGrid started
  rw [← Option.some.inj here, toNat_sub_diagonal]
  exact ⟨between, by rw [half]; omega⟩

theorem far_of_meetForward (isBefore : IsLayer old new before)
    (isBackward : IsLayer old.reverse new.reverse backward) (sizes : backward.size = before.size)
    (odd : (old.size + new.size) % 2 = 1)
    (far : 2 * before.size ≤ distance old new old.size new.size + 1)
    (missed : meetForward old.size new.size before (advance old new before) backward = none) :
    2 * (before.size + 1) ≤ distance old new old.size new.size + 1 := by
  have parity := distance_mod_two old new old.size new.size
  apply Nat.not_lt.mp
  intro close
  obtain ⟨b, depth⟩ : ∃ b, before.size = b + 1 := ⟨before.size - 1, by omega⟩
  obtain ⟨p, q, inside, insideB, opposite, met⟩ :=
    exists_met (a := before.size) (b := b) (show distance old new old.size new.size = _ by omega)
  have passed := List.findSome?_eq_none_iff.mp missed p (List.mem_range.mpr (by omega))
  have onPath := (natAbs_diagonal_le_iff old.size new.size before.size b p (by omega)).mpr
    ⟨q, insideB, opposite⟩
  have ahead := isBefore.advance.furthest (size_advance old new before) inside
  have back := isBackward.furthest (sizes.trans depth) insideB
  refine Option.some_ne_none _ ((if_pos ⟨by omega, ?_⟩).symm.trans passed)
  rw [reachOn_opposite (sizes.trans depth) opposite]
  exact met _ _ ahead back

/-- Where a path from the last corner meets one from the first, it is still in the grid, and on a
shortest way. -/
theorem between_of_metBackward (isForward : IsLayer old new forward)
    (isBackward : IsLayer old.reverse new.reverse backward) {depth q : Nat}
    (sizeForward : forward.size = depth + 1) (sizeBackward : backward.size = depth + 1)
    (even : (old.size + new.size) % 2 = 0)
    (far : 2 * depth ≤ distance old new old.size new.size + 1) (inside : q ≤ depth)
    (onPath : (diagonal depth q - ((old.size : Int) - new.size)).natAbs ≤ depth)
    (met : old.size ≤ backward.getD q 0 +
      reachOn forward ((old.size : Int) - new.size - diagonal depth q)) :
    let i := backward.getD q 0
    let j := i + 2 * q - depth
    depth ≤ i + 2 * q ∧ Between old new (old.size - i) (new.size - j) i j ∧
      distance old.reverse new.reverse i j = depth ∧
      distance old new old.size new.size = depth + depth := by
  intro i j
  obtain ⟨p, insideA, opposite⟩ := (natAbs_diagonal_le_iff old.size new.size depth depth q
    (by omega)).mp onPath
  rw [reachOn_opposite sizeForward opposite] at met
  have ahead := isForward.furthest sizeForward insideA
  have back := isBackward.furthest sizeBackward inside
  have parity := distance_mod_two old new old.size new.size
  have close := distance_le_of_met ahead back (by omega) insideA inside (by omega)
  -- the same from the last corner, where the path found has the role of the path that starts
  have ahead' : Furthest old.reverse.reverse new.reverse.reverse depth p (forward.getD p 0) := by
    simpa using ahead
  have apart : distance old.reverse new.reverse old.reverse.size new.reverse.size = depth + depth := by
    rw [Array.size_reverse, Array.size_reverse, distance_reverse]
    omega
  obtain ⟨between, half⟩ := between_of_near back.reached ahead' (by simpa using opposite) insideA apart
    back.onGrid (by simpa using met)
  have turned := between.turn
  rw [Array.size_reverse, Array.size_reverse] at turned
  exact ⟨back.onGrid, turned, half, by omega⟩

theorem midway_of_meetBackward (sweep : Sweep) (isForward : IsLayer old new forward)
    (isBackward : IsLayer old.reverse new.reverse backward) {depth : Nat}
    (sizeForward : forward.size = depth + 1) (sizeBackward : backward.size = depth + 1)
    (even : (old.size + new.size) % 2 = 0)
    (far : 2 * depth ≤ distance old new old.size new.size + 1)
    (found : meetBackward sweep old.size new.size forward backward = some point) :
    Midway old new point := by
  obtain ⟨q, member, result⟩ := List.exists_of_findSome?_eq_some found
  rw [sizeBackward, Nat.add_sub_cancel] at member result
  have inside : q ≤ depth := by cases sweep <;> simp [Sweep.positions] at member <;> omega
  obtain ⟨⟨onPath, met⟩, here⟩ := Option.ite_none_right_eq_some.mp result
  obtain ⟨onGrid, between, half, apart⟩ := between_of_metBackward isForward isBackward sizeForward
    sizeBackward even far inside onPath met
  have acrossOld := between.acrossOld
  have acrossNew := between.acrossNew
  have shortest := between.shortest
  rw [← Option.some.inj here, toNat_sub_sub_diagonal new.size onGrid, Int.toNat_sub]
  have insideOld := Nat.le.intro ((Nat.add_comm _ _).trans acrossOld)
  have insideNew := Nat.le.intro ((Nat.add_comm _ _).trans acrossNew)
  refine ⟨?_, ?_⟩
  · simpa only [Nat.sub_sub_self insideOld, Nat.sub_sub_self insideNew] using between
  · simp only
    omega

theorem far_of_meetBackward (sweep : Sweep) (isForward : IsLayer old new forward)
    (isBackward : IsLayer old.reverse new.reverse backward) {depth : Nat}
    (sizeForward : forward.size = depth + 1) (sizeBackward : backward.size = depth + 1)
    (even : (old.size + new.size) % 2 = 0)
    (far : 2 * depth ≤ distance old new old.size new.size + 1)
    (missed : meetBackward sweep old.size new.size forward backward = none) :
    2 * (depth + 1) ≤ distance old new old.size new.size + 1 := by
  have parity := distance_mod_two old new old.size new.size
  apply Nat.not_lt.mp
  intro close
  obtain ⟨p, q, inside, insideB, opposite, met⟩ :=
    exists_met (a := depth) (b := depth) (show distance old new old.size new.size = _ by omega)
  have passed := List.findSome?_eq_none_iff.mp missed q
    (by rw [sizeBackward]; cases sweep <;> simp [Sweep.positions] <;> omega)
  have onPath := (natAbs_diagonal_le_iff old.size new.size depth depth q (by omega)).mpr
    ⟨p, inside, by omega⟩
  have ahead := isForward.furthest sizeForward inside
  have back := isBackward.furthest sizeBackward insideB
  rw [sizeBackward, Nat.add_sub_cancel] at passed
  refine Option.some_ne_none _ ((if_pos ⟨onPath, ?_⟩).symm.trans passed)
  rw [reachOn_opposite sizeForward (p := q) (q := p) (by omega), Nat.add_comm]
  exact met _ _ ahead back

end Layers

/-- The search finds a point halfway between the corners before it runs out of layers. -/
theorem exists_meet (sweep : Sweep) (old new : Array α) (rounds : Nat) (forward backward : Array Nat)
    (isForward : IsLayer old new forward) (isBackward : IsLayer old.reverse new.reverse backward)
    (sizes : backward.size = forward.size)
    (far : 2 * forward.size ≤ distance old new old.size new.size + 1)
    (enough : old.size + new.size + 1 < 2 * (forward.size + rounds)) :
    ∃ point, meet sweep old new old.reverse new.reverse rounds forward backward = some point ∧
      Midway old new point := by
  induction rounds generalizing forward backward with
  | zero =>
      have most := distance_le_add old new old.size new.size
      omega
  | succ rounds ih =>
      have sizeForward := size_advance old new forward
      have sizeBackward := size_advance old.reverse new.reverse backward
      have next := ih (advance old new forward) (advance old.reverse new.reverse backward)
        isForward.advance isBackward.advance (by omega)
      rw [sizeForward] at next
      rw [sizes] at sizeBackward
      simp only [meet]
      by_cases odd : (old.size + new.size) % 2 = 1
      · rw [if_pos odd]
        cases found : meetForward old.size new.size forward (advance old new forward) backward with
        | some point => exact ⟨point, rfl, midway_of_meetForward isForward isBackward sizes odd far found⟩
        | none =>
            exact next (far_of_meetForward isForward isBackward sizes odd far found) (by omega)
      · rw [if_neg odd]
        cases found : meetBackward sweep old.size new.size (advance old new forward)
            (advance old.reverse new.reverse backward) with
        | some point =>
            exact ⟨point, rfl, midway_of_meetBackward sweep isForward.advance isBackward.advance
              sizeForward sizeBackward (by omega) far found⟩
        | none =>
            exact next (far_of_meetBackward sweep isForward.advance isBackward.advance
              sizeForward sizeBackward (by omega) far found) (by omega)

theorem isLayer_empty (old new : Array α) : IsLayer old new #[] :=
  fun p within => absurd within (Nat.not_lt_zero p)

theorem exists_splitPoint (sweep : Sweep) (old new : List α) :
    ∃ point, splitPoint? sweep old new = some point ∧ Midway old.toArray new.toArray point := by
  unfold splitPoint?
  rw [← List.reverse_toArray, ← List.reverse_toArray]
  exact exists_meet sweep old.toArray new.toArray _ #[] #[] (isLayer_empty _ _) (isLayer_empty _ _)
    rfl (by simp) (by simp; omega)

end Redline.LineDiff
