import Redline.Proofs.LineDiff.Distance

/-! Distances from both corners of the grid. The lists reversed give the distance from the last
corner: no point is nearer to both corners than they are to each other, and on the way from one to
the other there is a point at every distance. -/

namespace Redline.LineDiff

variable {α : Type}

theorem agrees_reverse {old new : Array α} {i j s t : Nat} (acrossOld : i + s + 1 = old.size)
    (acrossNew : j + t + 1 = new.size) :
    Agrees old.reverse new.reverse s t ↔ Agrees old new i j := by
  have mirrorOld : old.size - 1 - s = i := by omega
  have mirrorNew : new.size - 1 - t = j := by omega
  unfold Agrees
  rw [Array.getElem?_reverse (by omega), Array.getElem?_reverse (by omega), mirrorOld, mirrorNew,
    Array.size_reverse]
  exact ⟨fun agrees => ⟨by omega, agrees.2⟩, fun agrees => ⟨by omega, agrees.2⟩⟩

variable [DecidableEq α]

theorem distance_le_through (old new : Array α) (i j s t : Nat) (acrossOld : i + s = old.size)
    (acrossNew : j + t = new.size) :
    distance old new old.size new.size ≤
      distance old new i j + distance old.reverse new.reverse s t := by
  -- the induction is on the way from the last corner, and the point moves towards it
  fun_induction distance old.reverse new.reverse s t generalizing i j with
  | case1 t =>
      obtain rfl : i = old.size := by omega
      have down := (distance_le_down_steps old new old.size j t).1
      rwa [acrossNew] at down
  | case2 s =>
      obtain rfl : j = new.size := by omega
      have right := (distance_le_down_steps new old new.size i (s + 1)).1
      rwa [acrossOld, distance_comm new old, distance_comm new old] at right
  | case3 s t agrees ih =>
      have ahead := distance_of_agrees ((agrees_reverse (by omega) (by omega)).mp agrees)
      have through := ih (i + 1) (j + 1) (by omega) (by omega)
      rwa [ahead] at through
  | case4 s t differ ihDown ihRight =>
      have right := (distance_right old new i j).1
      have down := (distance_down old new i j).1
      have throughRight := ihDown (i + 1) j (by omega) (by omega)
      have throughDown := ihRight i (j + 1) (by omega) (by omega)
      omega

theorem distance_reverse (old new : Array α) :
    distance old.reverse new.reverse old.size new.size = distance old new old.size new.size := by
  apply Nat.le_antisymm
  · have back := distance_le_through old.reverse new.reverse 0 0 old.size new.size (by simp) (by simp)
    simpa using back
  · simpa using distance_le_through old new 0 0 old.size new.size (by simp) (by simp)

/-- The point `i`, `j` lies on a shortest way between the corners, `s` and `t` before the last. -/
structure Between (old new : Array α) (i j s t : Nat) : Prop where
  acrossOld : i + s = old.size
  acrossNew : j + t = new.size
  shortest : distance old new i j + distance old.reverse new.reverse s t =
    distance old new old.size new.size

theorem Between.of_le {old new : Array α} {i j s t : Nat} (acrossOld : i + s = old.size)
    (acrossNew : j + t = new.size)
    (short : distance old new i j + distance old.reverse new.reverse s t ≤
      distance old new old.size new.size) : Between old new i j s t :=
  ⟨acrossOld, acrossNew,
    Nat.le_antisymm short (distance_le_through old new i j s t acrossOld acrossNew)⟩

theorem Between.comm {old new : Array α} {i j s t : Nat} (between : Between old new i j s t) :
    Between new old j i t s := by
  obtain ⟨acrossOld, acrossNew, shortest⟩ := between
  refine ⟨acrossNew, acrossOld, ?_⟩
  rwa [distance_comm new old j, distance_comm new.reverse, distance_comm new old new.size]

theorem Between.turn {old new : Array α} {i j s t : Nat}
    (between : Between old.reverse new.reverse s t i j) : Between old new i j s t := by
  obtain ⟨acrossOld, acrossNew, shortest⟩ := between
  simp only [Array.size_reverse, Array.reverse_reverse, distance_reverse] at acrossOld acrossNew shortest
  exact ⟨by omega, by omega, by omega⟩

theorem Between.right_back {old new : Array α} {i j s t : Nat} (between : Between old new (i + 1) j s t)
    (nearer : distance old new i j + 1 = distance old new (i + 1) j) :
    Between old new i j (s + 1) t := by
  obtain ⟨acrossOld, acrossNew, shortest⟩ := between
  have back := (distance_right old.reverse new.reverse s t).1
  exact .of_le (by omega) acrossNew (by omega)

theorem Between.down_back {old new : Array α} {i j s t : Nat} (between : Between old new i (j + 1) s t)
    (nearer : distance old new i j + 1 = distance old new i (j + 1)) :
    Between old new i j s (t + 1) := by
  obtain ⟨acrossOld, acrossNew, shortest⟩ := between
  have back := (distance_down old.reverse new.reverse s t).1
  exact .of_le acrossOld (by omega) (by omega)

theorem Between.diagonal_back {old new : Array α} {i j s t : Nat}
    (between : Between old new (i + 1) (j + 1) s t) (agrees : Agrees old new i j) :
    Between old new i j (s + 1) (t + 1) := by
  obtain ⟨acrossOld, acrossNew, shortest⟩ := between
  have back := distance_of_agrees ((agrees_reverse (i := i) (j := j) (s := s) (t := t)
    (by omega) (by omega)).mpr agrees)
  rw [distance_of_agrees agrees] at shortest
  exact .of_le (by omega) (by omega) (by omega)

theorem Between.exists_on_edge {old new : Array α} {j s t : Nat} (between : Between old new 0 j s t)
    (steps : Nat) (near : steps ≤ j) : ∃ t', Between old new 0 steps s t' := by
  induction j generalizing t with
  | zero => exact ⟨t, by rwa [Nat.le_zero.mp near]⟩
  | succ j ih =>
      by_cases here : steps = j + 1
      · exact ⟨t, by rwa [here]⟩
      · exact ih (between.down_back (by simp)) (by omega)

theorem Between.exists_distance {old new : Array α} {i j s t : Nat} (between : Between old new i j s t)
    (steps : Nat) (near : steps ≤ distance old new i j) :
    ∃ i' j' s' t', Between old new i' j' s' t' ∧ distance old new i' j' = steps := by
  fun_induction distance old new i j generalizing s t with
  | case1 j =>
      obtain ⟨t', onEdge⟩ := between.exists_on_edge steps near
      exact ⟨0, steps, s, t', onEdge, by simp⟩
  | case2 i =>
      obtain ⟨s', onEdge⟩ := between.comm.exists_on_edge steps near
      exact ⟨steps, 0, s', t, onEdge.comm, by simp⟩
  | case3 i j agrees ih => exact ih (between.diagonal_back agrees) near
  | case4 i j differ ihDown ihRight =>
      have here := distance_of_not_agrees differ
      by_cases stays : steps = distance old new (i + 1) (j + 1)
      · exact ⟨i + 1, j + 1, s, t, between, stays.symm⟩
      · by_cases left : distance old new i (j + 1) ≤ distance old new (i + 1) j
        · have nearer : distance old new i (j + 1) + 1 = distance old new (i + 1) (j + 1) := by omega
          exact ihDown (between.right_back nearer) (by omega)
        · have nearer : distance old new (i + 1) j + 1 = distance old new (i + 1) (j + 1) := by omega
          exact ihRight (between.down_back nearer) (by omega)

theorem exists_between (old new : Array α) (steps : Nat)
    (near : steps ≤ distance old new old.size new.size) :
    ∃ i j s t, Between old new i j s t ∧ distance old new i j = steps :=
  Between.exists_distance (s := 0) (t := 0) ⟨rfl, rfl, by simp⟩ steps near

end Redline.LineDiff
