import Redline.LineDiff.Hunk
import Redline.Proofs.LineDiff.Alternation

/-! Regions put into hunks. Every gap comes into a hunk, every hunk lies where its start says, and a
hunk ends only within a run of same lines that is longer than the context of two changes. -/

namespace Redline.LineDiff

variable {α : Type} {radius : Nat} {regions : List (Region α)}

namespace Hunk

@[simp] theorem start_push (side : Side) (hunk : Hunk α) (region : Region α) :
    (hunk.push region).start side = hunk.start side := rfl

@[simp] theorem lines_push (side : Side) (hunk : Hunk α) (region : Region α) :
    (hunk.push region).lines side = hunk.lines side ++ region.lines side := by
  simp [push, lines]

@[simp] theorem start_behind (side : Side) (hunk : Hunk α) (skipped : Nat) (regions : List (Region α)) :
    (hunk.behind skipped regions).start side = hunk.start side + (hunk.lines side).length + skipped := by
  cases side <;> rfl

@[simp] theorem lines_behind (side : Side) (hunk : Hunk α) (skipped : Nat) (regions : List (Region α)) :
    (hunk.behind skipped regions).lines side = regions.flatMap (Region.lines side) := rfl

@[simp] theorem regions_behind (hunk : Hunk α) (skipped : Nat) (regions : List (Region α)) :
    (hunk.behind skipped regions).regions = regions := rfl

@[simp] theorem regions_push (hunk : Hunk α) (region : Region α) :
    (hunk.push region).regions = hunk.regions ++ [region] := rfl

end Hunk

def Region.gap? : Region α → Option (Gap α)
  | .same _ => none
  | .changed gap => some gap

def gaps (regions : List (Region α)) : List (Gap α) :=
  regions.filterMap Region.gap?

@[simp] theorem gaps_append (first second : List (Region α)) :
    gaps (first ++ second) = gaps first ++ gaps second :=
  List.filterMap_append

@[simp] theorem gaps_nil : gaps ([] : List (Region α)) = [] := rfl

@[simp] theorem gaps_same (lines : List α) (regions : List (Region α)) :
    gaps (.same lines :: regions) = gaps regions := rfl

@[simp] theorem gaps_changed (gap : Gap α) (regions : List (Region α)) :
    gaps (.changed gap :: regions) = gap :: gaps regions := rfl

theorem gaps_of_isIdle {hunk : Hunk α} (idle : hunk.isIdle = true) : gaps hunk.regions = [] := by
  unfold Hunk.isIdle at idle
  split at idle
  · next none => simp [none]
  · next lines same => simp [same]
  · cases idle

@[simp] theorem gaps_trimFront (radius : Nat) (regions : List (Region α)) :
    gaps (trimFront radius regions) = gaps regions := by
  fun_cases trimFront radius regions <;> simp

@[simp] theorem gaps_trimBack (radius : Nat) (regions : List (Region α)) :
    gaps (trimBack radius regions) = gaps regions := by
  fun_induction trimBack radius regions with
  | case1 => rfl
  | case2 => rfl
  | case3 region rest more ih => cases region <;> simp [ih]

theorem gaps_hunksFrom (hunk : Hunk α) (regions : List (Region α)) :
    gaps ((hunksFrom radius hunk regions).flatMap Hunk.regions) =
      gaps hunk.regions ++ gaps regions := by
  fun_induction hunksFrom radius hunk regions with
  | case1 hunk idle => simp [gaps_of_isIdle idle]
  | case2 => simp
  | case3 hunk lines rest long ended next ih =>
    rw [List.flatMap_cons, gaps_append, ih]
    simp [ended, next]
  | case4 hunk lines rest short ih => simp [ih]
  | case5 hunk gap rest ih => simp [ih]

theorem gaps_hunks (radius : Nat) (regions : List (Region α)) :
    gaps ((hunks radius regions).flatMap Hunk.regions) = gaps regions := by
  simp [hunks, gaps_hunksFrom]

theorem regionCount_eq_sum (regions : List (Region α)) :
    regionCount regions =
      ((gaps regions).map fun gap => gap.removed.length + gap.added.length).sum := by
  induction regions with
  | nil => rfl
  | cons region regions ih => cases region <;> simp [regionCount, Region.changeCount, ih]

/-- Grouping adds no change and loses none. -/
theorem regionCount_hunks (radius : Nat) (regions : List (Region α)) :
    regionCount ((hunks radius regions).flatMap Hunk.regions) = regionCount regions := by
  rw [regionCount_eq_sum, gaps_hunks, ← regionCount_eq_sum]

theorem lines_eq_of_gaps_eq_nil (none : gaps regions = []) :
    regions.flatMap (Region.lines .old) = regions.flatMap (Region.lines .new) := by
  induction regions with
  | nil => rfl
  | cons region regions ih =>
      cases region with
      | same lines => simpa [Region.lines] using ih none
      | changed gap => cases none

theorem Alternating.regionCount_eq_zero_iff (alternating : Alternating regions) :
    regionCount regions = 0 ↔ gaps regions = [] := by
  constructor
  · intro unchanged
    rcases alternating.eq_same_of_regionCount unchanged with rfl | ⟨lines, rfl⟩ <;> rfl
  · intro none
    rw [regionCount_eq_sum, none]
    rfl

theorem Alternating.hunks_eq_nil_iff (alternating : Alternating regions) (radius : Nat) :
    hunks radius regions = [] ↔ gaps regions = [] := by
  constructor
  · intro none
    rw [← gaps_hunks radius, none]
    rfl
  · intro none
    have unchanged := alternating.regionCount_eq_zero_iff.mpr none
    rcases alternating.eq_same_of_regionCount unchanged with rfl | ⟨lines, rfl⟩
    · rfl
    · simp [hunks, trimFront, trimBack, hunksFrom, Hunk.push, Hunk.isIdle]
      omega

def LiesAt (start : Nat) (lines whole : List α) : Prop :=
  ∃ before after, before.length = start ∧ before ++ lines ++ after = whole

theorem LiesAt.mem {start : Nat} {lines whole : List α} (lies : LiesAt start lines whole) {line : α}
    (member : line ∈ lines) : line ∈ whole := by
  obtain ⟨before, after, _, rfl⟩ := lies
  simp [member]

theorem LiesAt.trans {first second : Nat} {lines more whole : List α} (inner : LiesAt first lines more)
    (outer : LiesAt second more whole) : LiesAt (second + first) lines whole := by
  obtain ⟨before, after, rfl, rfl⟩ := inner
  obtain ⟨above, below, rfl, rfl⟩ := outer
  exact ⟨above ++ before, after ++ below, by simp, by simp⟩

theorem lies_trimFront (side : Side) (radius : Nat) (regions : List (Region α)) :
    LiesAt (idleFront radius regions) ((trimFront radius regions).flatMap (Region.lines side))
      (regions.flatMap (Region.lines side)) := by
  match regions with
  | [] => exact ⟨[], [], rfl, rfl⟩
  | .changed gap :: rest => exact ⟨[], [], rfl, by simp [trimFront]⟩
  | .same lines :: rest =>
      refine ⟨lines.take (lines.length - radius), [], by simp [idleFront], ?_⟩
      simp only [trimFront, Region.lines, List.flatMap_cons, List.append_nil]
      rw [← List.append_assoc, List.take_append_drop]

theorem lies_trimBack (side : Side) (radius : Nat) (regions : List (Region α)) :
    LiesAt 0 ((trimBack radius regions).flatMap (Region.lines side))
      (regions.flatMap (Region.lines side)) := by
  fun_induction trimBack radius regions with
  | case1 => exact ⟨[], [], rfl, rfl⟩
  | case2 lines => exact ⟨[], lines.drop radius, rfl, by simp [Region.lines]⟩
  | case3 region rest more ih =>
    obtain ⟨before, after, length, whole⟩ := ih
    obtain rfl := List.length_eq_zero_iff.mp length
    exact ⟨[], after, rfl, by simp [← whole]⟩

theorem lies_hunksFrom (side : Side) {hunk : Hunk α} {whole : List α}
    (lies : LiesAt (hunk.start side) (hunk.lines side ++ regions.flatMap (Region.lines side)) whole) :
    ∀ found ∈ hunksFrom radius hunk regions, LiesAt (found.start side) (found.lines side) whole := by
  fun_induction hunksFrom radius hunk regions with
  | case1 => simp
  | case2 hunk => simpa using lies
  | case3 hunk lines rest long ended next ih =>
    obtain ⟨before, after, length, rfl⟩ := lies
    intro found member
    rcases List.mem_cons.mp member with rfl | later
    · refine ⟨before, lines.drop radius ++ rest.flatMap (Region.lines side) ++ after, length, ?_⟩
      simp only [ended, Hunk.lines_push, Region.lines, List.flatMap_cons, List.append_assoc]
      rw [← List.append_assoc (lines.take radius), List.take_append_drop]
    · refine ih ⟨before ++ hunk.lines side ++ lines.take (lines.length - radius), after, ?_, ?_⟩
        found later
      · simp [next, ended, Region.lines, length]
        omega
      · simp only [next, Hunk.lines_behind, Region.lines, List.flatMap_cons, List.flatMap_nil,
          List.append_nil, List.append_assoc]
        rw [← List.append_assoc (lines.take _), List.take_append_drop]
  | case4 hunk lines rest short ih => exact ih (by simpa using lies)
  | case5 hunk gap rest ih => exact ih (by simpa using lies)

/-- Every hunk lies where its start says, on both sides. -/
theorem lies_hunks (side : Side) (radius : Nat) (regions : List (Region α)) :
    ∀ hunk ∈ hunks radius regions,
      LiesAt (hunk.start side) (hunk.lines side) (regions.flatMap (Region.lines side)) := by
  apply lies_hunksFrom
  have trimmed := (lies_trimBack side radius (trimFront radius regions)).trans
    (lies_trimFront side radius regions)
  cases side <;> simpa [Hunk.lines, Hunk.start, Side.of] using trimmed

def RunsWithin (bound : Nat) (regions : List (Region α)) : Prop :=
  ∀ lines, Region.same lines ∈ regions → lines.length ≤ bound

theorem runsWithin_of_length (side : Side) {bound : Nat}
    (short : (regions.flatMap (Region.lines side)).length ≤ bound) : RunsWithin bound regions := by
  intro lines member
  have within : lines.Sublist (regions.flatMap (Region.lines side)) :=
    List.sublist_flatten_of_mem (List.mem_map.mpr ⟨_, member, rfl⟩)
  exact Nat.le_trans within.length_le short

theorem RunsWithin.mono {small large : Nat} (runs : RunsWithin small regions) (le : small ≤ large) :
    RunsWithin large regions :=
  fun lines member => Nat.le_trans (runs lines member) le

theorem RunsWithin.subset {bound : Nat} {inner : List (Region α)} (runs : RunsWithin bound regions)
    (within : inner ⊆ regions) : RunsWithin bound inner :=
  fun lines member => runs lines (within member)

theorem trimFront_of_runsWithin (runs : RunsWithin radius regions) : trimFront radius regions = regions := by
  fun_cases trimFront radius regions with
  | case1 lines rest => rw [Nat.sub_eq_zero_of_le (runs lines (by simp)), List.drop_zero]
  | case2 => rfl

theorem idleFront_of_runsWithin (runs : RunsWithin radius regions) : idleFront radius regions = 0 := by
  fun_cases idleFront radius regions with
  | case1 lines rest => exact Nat.sub_eq_zero_of_le (runs lines (by simp))
  | case2 => rfl

theorem trimBack_of_runsWithin (runs : RunsWithin radius regions) : trimBack radius regions = regions := by
  fun_induction trimBack radius regions with
  | case1 => rfl
  | case2 lines => rw [List.take_of_length_le (runs lines (by simp))]
  | case3 region rest more ih => rw [ih (runs.subset (List.subset_cons_self _ _))]

theorem hunksFrom_of_runsWithin (runs : RunsWithin (2 * radius) regions) (hunk : Hunk α) :
    hunksFrom radius hunk regions =
      let whole : Hunk α := { hunk with regions := hunk.regions ++ regions }
      if whole.isIdle then [] else [whole] := by
  fun_induction hunksFrom radius hunk regions with
  | case1 hunk idle => simp [idle]
  | case2 hunk busy => simp [busy]
  | case3 hunk lines rest long ended next ih =>
    have within := runs lines (by simp)
    omega
  | case4 hunk lines rest short ih =>
    simpa [Hunk.push] using ih (runs.subset (List.subset_cons_self _ _))
  | case5 hunk gap rest ih =>
    simpa [Hunk.push] using ih (runs.subset (List.subset_cons_self _ _))

theorem hunks_of_runsWithin (runs : RunsWithin radius regions) (change : gaps regions ≠ []) :
    hunks radius regions = [⟨0, 0, regions⟩] := by
  have busy : (Hunk.mk 0 0 regions).isIdle = false :=
    Bool.eq_false_iff.mpr fun idle => change (gaps_of_isIdle idle)
  simp [hunks, idleFront_of_runsWithin runs, trimFront_of_runsWithin runs, trimBack_of_runsWithin runs,
    hunksFrom_of_runsWithin (runs.mono (Nat.le_mul_of_pos_left radius Nat.two_pos)), busy]

theorem runsWithin_trimFront (runs : RunsWithin (2 * radius) regions.tail) :
    RunsWithin (2 * radius) (trimFront radius regions) := by
  intro lines member
  match regions with
  | [] => cases member
  | .changed gap :: rest => exact runs lines (by simpa [trimFront] using member)
  | .same front :: rest =>
      rcases List.mem_cons.mp member with here | later
      · obtain rfl := Region.same.inj here
        rw [List.length_drop]
        omega
      · exact runs lines later

theorem runsWithin_trimBack (runs : RunsWithin (2 * radius) regions.dropLast) :
    RunsWithin (2 * radius) (trimBack radius regions) := by
  fun_induction trimBack radius regions with
  | case1 => exact runs
  | case2 back =>
    intro lines member
    obtain rfl := Region.same.inj (List.mem_singleton.mp member)
    rw [List.length_take]
    omega
  | case3 region rest more ih =>
    intro lines member
    match rest with
    | [] =>
        obtain rfl := List.mem_singleton.mp member
        exact absurd rfl (more lines rfl)
    | next :: rest =>
        rcases List.mem_cons.mp member with rfl | later
        · exact runs lines (by simp)
        · exact ih (runs.subset (List.subset_cons_self _ _)) lines later

theorem dropLast_trimFront (radius : Nat) (regions : List (Region α)) :
    (trimFront radius regions).dropLast = trimFront radius regions.dropLast := by
  match regions with
  | [] | [.same _] | [.changed _] => rfl
  | .same _ :: _ :: _ | .changed _ :: _ :: _ => rfl

theorem hunksFrom_ne_nil {hunk : Hunk α} (several : 1 < hunk.regions.length + regions.length) :
    hunksFrom radius hunk regions ≠ [] := by
  fun_induction hunksFrom radius hunk regions with
  | case1 hunk idle =>
    unfold Hunk.isIdle at idle
    split at idle <;> simp_all
  | case2 => simp
  | case3 => simp
  | case4 hunk lines rest short ih =>
    apply ih
    simp at several ⊢
    omega
  | case5 hunk gap rest ih =>
    apply ih
    simp at several ⊢
    omega

theorem two_le_length_hunksFrom (before : List (Region α)) {lines : List α} {after : List (Region α)}
    (hunk : Hunk α) (long : 2 * radius < lines.length) (more : after ≠ []) :
    2 ≤ (hunksFrom radius hunk (before ++ .same lines :: after)).length := by
  induction before generalizing hunk with
  | nil =>
      have some := List.length_pos_iff.mpr more
      rw [List.nil_append, hunksFrom, if_pos long, List.length_cons]
      exact Nat.succ_le_succ (List.length_pos_iff.mpr (hunksFrom_ne_nil (by simp; omega)))
  | cons region before ih =>
      cases region with
      | changed gap => exact ih _
      | same first =>
          rw [List.cons_append, hunksFrom]
          split
          · exact Nat.le_succ_of_le (ih _)
          · exact ih _

theorem trimBack_append (before : List (Region α)) {after : List (Region α)} (some : after ≠ []) :
    trimBack radius (before ++ after) = before ++ trimBack radius after := by
  induction before with
  | nil => rfl
  | cons region before ih =>
      rw [List.cons_append, trimBack, ih, List.cons_append]
      simp [some]

theorem trimBack_ne_nil (some : regions ≠ []) : trimBack radius regions ≠ [] := by
  fun_cases trimBack radius regions <;> simp_all

theorem two_le_length_hunks {before after : List (Region α)} {lines : List α} (someBefore : before ≠ [])
    (someAfter : after ≠ []) (long : 2 * radius < lines.length) :
    2 ≤ (hunks radius (before ++ .same lines :: after)).length := by
  obtain ⟨front, trimmed⟩ : ∃ front, trimFront radius (before ++ .same lines :: after) =
      front ++ .same lines :: after := by
    match before with
    | .same first :: rest => exact ⟨.same (first.drop (first.length - radius)) :: rest, rfl⟩
    | .changed gap :: rest => exact ⟨.changed gap :: rest, rfl⟩
  have behind : trimBack radius (.same lines :: after) = .same lines :: trimBack radius after :=
    trimBack_append [.same lines] someAfter
  rw [hunks, trimmed, trimBack_append _ (List.cons_ne_nil _ _), behind]
  exact two_le_length_hunksFrom front _ long (trimBack_ne_nil someAfter)

/-- There is one hunk at most exactly where no run of same lines between two changes is longer than
the context of both. -/
theorem length_hunks_le_one_iff :
    (hunks radius regions).length ≤ 1 ↔ RunsWithin (2 * radius) regions.tail.dropLast := by
  constructor
  · intro one lines member
    refine Nat.le_of_not_lt fun long => ?_
    match regions with
    | [] => cases member
    | front :: rest =>
      rcases List.eq_nil_or_concat rest with rfl | ⟨inner, back, rfl⟩
      · cases member
      · rw [List.tail_cons, List.concat_eq_append, List.dropLast_concat] at member
        obtain ⟨before, after, rfl⟩ := List.append_of_mem member
        have several := two_le_length_hunks (List.cons_ne_nil front before)
          (List.append_ne_nil_of_right_ne_nil after (List.cons_ne_nil back [])) long
        simp only [List.concat_eq_append, List.cons_append, List.append_assoc] at one several
        omega
  · intro runs
    rw [hunks, hunksFrom_of_runsWithin]
    · simp only
      split <;> simp
    · apply runsWithin_trimBack
      rw [dropLast_trimFront]
      apply runsWithin_trimFront
      rwa [List.tail_dropLast]

end Redline.LineDiff
