import Mathlib
import Redline.LineDiff.Compare
import Redline.Proofs.LineDiff.Steady

/-! The regions of a script take turns. No edit of a script is without lines, settled or not, and so
same lines lie between two gaps wherever both are apart. -/

namespace Redline.LineDiff

variable {α : Type}

def Filled (script : List (Edit α)) : Prop :=
  ∀ edit ∈ script, edit.allLines ≠ []

@[simp] theorem filled_nil : Filled ([] : List (Edit α)) := by simp [Filled]

@[simp] theorem filled_cons (edit : Edit α) (script : List (Edit α)) :
    Filled (edit :: script) ↔ edit.allLines ≠ [] ∧ Filled script := by simp [Filled]

@[simp] theorem filled_append (first second : List (Edit α)) :
    Filled (first ++ second) ↔ Filled first ∧ Filled second := by
  simp only [Filled, List.forall_mem_append]

@[simp] theorem filled_reverse (script : List (Edit α)) : Filled script.reverse ↔ Filled script := by
  simp [Filled]

@[simp] theorem filled_keepAll (lines : List α) : Filled (keepAll lines) := by
  cases lines <;> simp [keepAll, Edit.allLines]

theorem Filled.keepBefore {lines : List α} (some : lines ≠ []) {script : List (Edit α)}
    (filled : Filled script) : Filled (keepBefore lines script) := by
  fun_cases LineDiff.keepBefore lines script <;> simp_all [Edit.allLines]

theorem Filled.keepAfter {lines : List α} (some : lines ≠ []) {script : List (Edit α)}
    (filled : Filled script) : Filled (keepAfter lines script) := by
  fun_cases LineDiff.keepAfter lines script <;> simp_all [Edit.allLines]

theorem filled_cursor (cursor : Cursor α) :
    Filled cursor.script ↔ Filled cursor.above ∧ cursor.part.lines ≠ [] ∧ Filled cursor.below := by
  simp [Cursor.script, Edit.allLines]

variable [DecidableEq α]

theorem filled_divide (sweep : Sweep) (i j : Nat) (old new : List α) :
    Filled (divide sweep i j old new) := by
  fun_induction divide sweep i j old new with
  | case1 i j old new box i' j' middle second first =>
    have inner : Filled middle := by
      simp only [middle]
      split
      · exact filled_nil
      · next _ some => simpa [Edit.allLines] using some
      · next _ some => simpa [Edit.allLines] using some
      · next someOld someNew =>
          split
          · simp_all [replaceAll, Edit.allLines]
          · next division _ => exact (filled_append _ _).mpr ⟨second division, first division⟩
    simp [inner]

theorem filled_rise (motion : Motion) (past : Bool) (above : List (Edit α)) (part : Change α)
    (below : List (Edit α)) (filled : Filled (Cursor.mk above part below).script) :
    Filled (rise motion past above part below).script := by
  rw [filled_cursor] at filled
  fun_induction rise motion past above part below with
  | case1 => rwa [filled_cursor]
  | case2 part below next rest same ih => simp_all [Edit.allLines]
  | case3 part below next rest other past ih => simp_all [Edit.allLines]
  | case4 => rwa [filled_cursor]
  | case5 => rwa [filled_cursor]
  | case6 part below kept rest run slid risen ih =>
    apply ih
    obtain ⟨above, _, below⟩ := filled
    exact ⟨by simp_all, by simp [risen, slid], below.keepBefore slid⟩

theorem filled_sink (motion : Motion) (above : List (Edit α)) (part : Change α)
    (below : List (Edit α)) (filled : Filled (Cursor.mk above part below).script) :
    Filled (sink motion above part below).script := by
  rw [filled_cursor] at filled
  fun_induction sink motion above part below with
  | case1 => rwa [filled_cursor]
  | case2 above part next rest same ih => simp_all [Edit.allLines]
  | case3 above part next rest other ih => simp_all [Edit.allLines]
  | case4 => rwa [filled_cursor]
  | case5 above part kept rest run slid sunk ih =>
    apply ih
    obtain ⟨above, _, below⟩ := filled
    exact ⟨above.keepAfter slid, by simp [sunk, slid], by simp_all⟩

theorem filled_gather (motion : Motion) {sunk : Cursor α} (filled : Filled sunk.script) :
    Filled (sunk.gather motion).script := by
  simp only [Cursor.gather]
  split
  · exact filled_rise motion false sunk.above sunk.part sunk.below filled
  · exact filled

theorem filled_rest (motion : Motion) (rounds : Nat) (cursor : Cursor α)
    (filled : Filled cursor.script) : Filled (cursor.rest motion rounds).script := by
  fun_induction Cursor.rest motion rounds cursor with
  | case1 => exact filled
  | case2 => exact filled_sink _ _ _ _ (filled_rise _ _ _ _ _ filled)
  | case3 => exact filled_gather motion (filled_sink _ _ _ _ (filled_rise _ _ _ _ _ filled))
  | case4 rounds cursor risen sunk gathers grown ih =>
    exact ih (filled_sink _ _ _ _ (filled_rise _ _ _ _ _ filled))

theorem filled_settleFrom (mine : Side) (motion : Motion) (steps : Nat) (above below : List (Edit α))
    (filledAbove : Filled above) (filledBelow : Filled below) :
    Filled (settleFrom motion mine steps above below) := by
  fun_induction settleFrom motion mine steps above below with
  | case1 => simp [filledAbove, filledBelow]
  | case2 => simpa using filledAbove
  | case3 steps above kept rest ih => simp_all
  | case4 steps above part rest same resting ih =>
    have filled : Filled (Cursor.mk above part rest).script :=
      (filled_cursor _).mpr ⟨filledAbove, by simpa [Edit.allLines] using filledBelow⟩
    have rested : Filled resting.script := filled_rest motion _ _ filled
    obtain ⟨restedAbove, restedPart, restedBelow⟩ := (filled_cursor _).mp rested
    exact ih ((filled_cons _ _).mpr ⟨restedPart, restedAbove⟩) restedBelow
  | case5 steps above part rest other ih => simp_all

theorem filled_settleBoth (motion : Motion) {script : List (Edit α)} (filled : Filled script) :
    Filled (settleBoth motion script) := by
  unfold settleBoth settle
  exact filled_settleFrom .new motion _ _ _ filled_nil
    (filled_settleFrom .old motion _ _ _ filled_nil filled)

omit [DecidableEq α]

def Region.isSame : Region α → Bool
  | .same _ => true
  | .changed _ => false

def Region.IsFilled : Region α → Prop
  | .same lines => lines ≠ []
  | .changed gap => gap.removed ≠ [] ∨ gap.added ≠ []

/-- No region is empty, and no two neighbours are of the same kind. -/
structure Alternating (regions : List (Region α)) : Prop where
  apart : regions.IsChain fun first second => first.isSame ≠ second.isSame
  filled : ∀ region ∈ regions, region.IsFilled

theorem isChain_ofScript (script : List (Edit α)) :
    (Region.ofScript script).IsChain fun first second => first.isSame ≠ second.isSame := by
  fun_induction Region.ofScript script with
  | case1 => exact .nil
  | case2 lines rest more regions found ih =>
    simp only [found, List.isChain_cons, Region.isSame] at ih ⊢
    exact ih
  | case3 lines rest other ih =>
    refine ih.cons fun next first => ?_
    obtain ⟨regions, found⟩ := List.head?_eq_some_iff.mp first
    cases next with
    | same more => exact absurd found (other more regions)
    | changed gap => simp [Region.isSame]
  | case4 part rest gap regions found ih =>
    simp only [found, List.isChain_cons, Region.isSame] at ih ⊢
    exact ih
  | case5 part rest other ih =>
    refine ih.cons fun next first => ?_
    obtain ⟨regions, found⟩ := List.head?_eq_some_iff.mp first
    cases next with
    | same more => simp [Region.isSame]
    | changed gap => exact absurd found (other gap regions)

theorem isFilled_ofScript {script : List (Edit α)} (filled : Filled script) :
    ∀ region ∈ Region.ofScript script, region.IsFilled := by
  fun_induction Region.ofScript script with
  | case1 => simp
  | case2 lines rest more regions found ih => simp_all [Region.IsFilled, Edit.allLines]
  | case3 lines rest other ih => simp_all [Region.IsFilled, Edit.allLines]
  | case4 part rest gap regions found ih =>
    rcases part with ⟨mine, lines, anchor⟩
    cases mine <;> simp_all [Region.IsFilled, Edit.allLines, Gap.cons]
  | case5 part rest other ih =>
    rcases part with ⟨mine, lines, anchor⟩
    cases mine <;> simp_all [Region.IsFilled, Edit.allLines, Gap.cons, Gap.empty]

theorem alternating_ofScript {script : List (Edit α)} (filled : Filled script) :
    Alternating (Region.ofScript script) :=
  ⟨isChain_ofScript script, isFilled_ofScript filled⟩

theorem alternating_regions (old new : List Char) : Alternating (regions .anyEnding old new) :=
  alternating_ofScript (filled_settleBoth _ (filled_divide _ _ _ _ _))

theorem changeCount_align (old new : List (List Char)) :
    changeCount (Style.anyEnding.align old new) = changeCount (script .fromLow old new) := by
  simp [Style.anyEnding]

theorem regionCount_append (first second : List (Region α)) :
    regionCount (first ++ second) = regionCount first + regionCount second := by
  induction first with
  | nil => simp [regionCount]
  | cons region first ih => rw [List.cons_append, regionCount, ih, regionCount, Nat.add_assoc]

theorem Region.changeCount_pos {gap : Gap α} (filled : (Region.changed gap).IsFilled) :
    0 < (Region.changed gap).changeCount := by
  rcases filled with some | some
  · have removed := List.length_pos_iff.mpr some
    simp only [Region.changeCount]
    omega
  · have added := List.length_pos_iff.mpr some
    simp only [Region.changeCount]
    omega

namespace Alternating

variable {regions : List (Region α)}

theorem of_infix (alternating : Alternating regions) {inner : List (Region α)}
    (within : inner <:+: regions) : Alternating inner where
  apart := List.IsChain.infix alternating.apart within
  filled region member := alternating.filled region (within.subset member)

theorem eq_same_of_regionCount (alternating : Alternating regions) (none : regionCount regions = 0) :
    regions = [] ∨ ∃ lines, regions = [.same lines] := by
  have same : ∀ region ∈ regions, region.isSame = true := by
    intro region member
    cases region with
    | same lines => rfl
    | changed gap =>
        have some := Region.changeCount_pos (alternating.filled _ member)
        obtain ⟨before, after, rfl⟩ := List.append_of_mem member
        rw [regionCount_append, regionCount] at none
        omega
  rcases regions with _ | ⟨first, _ | ⟨second, rest⟩⟩
  · exact .inl rfl
  · have here := same first (by simp)
    cases first with
    | same lines => exact .inr ⟨lines, rfl⟩
    | changed gap => cases here
  · have apart := (List.isChain_cons_cons.mp alternating.apart).1
    rw [same first (by simp), same second (by simp)] at apart
    exact absurd rfl apart

theorem isSame_front {front : Region α} {rest : List (Region α)} (alternating : Alternating (front :: rest))
    {first : α} {lines : List α} (spelled : (front :: rest).flatMap (Region.lines .new) = first :: lines)
    (added : first ∉ (front :: rest).flatMap (Region.lines .old)) : front.isSame = false := by
  cases front with
  | changed gap => rfl
  | same same =>
      obtain ⟨line, more, rfl⟩ := List.exists_cons_of_ne_nil (alternating.filled (.same same) (by simp))
      simp_all [Region.lines]

theorem isSame_back {back : Region α} {rest : List (Region α)} (alternating : Alternating (rest ++ [back]))
    {last : α} {lines : List α} (spelled : (rest ++ [back]).flatMap (Region.lines .new) = lines ++ [last])
    (added : last ∉ (rest ++ [back]).flatMap (Region.lines .old)) : back.isSame = false := by
  cases back with
  | changed gap => rfl
  | same same =>
      have some : same ≠ [] := alternating.filled (.same same) (by simp)
      obtain ⟨more, line, rfl⟩ := (List.eq_nil_or_concat same).resolve_left some
      have same : line = last := by
        have ends := congrArg List.getLast? spelled
        simpa [Region.lines] using ends
      exact absurd (by simp [Region.lines, same]) added

/-- Where a first and a last line are new, a gap stands at either end. -/
theorem exists_gaps_around (alternating : Alternating regions) {first last : α} {lines : List α}
    (spelled : regions.flatMap (Region.lines .new) = first :: lines ++ [last])
    (newFirst : first ∉ regions.flatMap (Region.lines .old))
    (newLast : last ∉ regions.flatMap (Region.lines .old)) :
    (∃ gap, regions = [.changed gap]) ∨
      ∃ front middle back, regions = .changed front :: middle ++ [.changed back] := by
  match regions, alternating with
  | [], _ => cases spelled
  | front :: rest, alternating =>
    have frontGap := alternating.isSame_front spelled newFirst
    cases front with
    | same lines => cases frontGap
    | changed front =>
      rcases List.eq_nil_or_concat rest with rfl | ⟨middle, back, rfl⟩
      · exact .inl ⟨front, rfl⟩
      · rw [List.concat_eq_append, ← List.cons_append] at alternating spelled newLast ⊢
        have backGap := alternating.isSame_back spelled newLast
        cases back with
        | same lines => cases backGap
        | changed back => exact .inr ⟨front, middle, back, rfl⟩

/-- Where only a first and a last line are added, all other lines lie between two gaps. -/
theorem eq_surrounded (alternating : Alternating regions) {old : List α} {first last : α}
    (some : old ≠ []) (spellsOld : regions.flatMap (Region.lines .old) = old)
    (spellsNew : regions.flatMap (Region.lines .new) = first :: old ++ [last])
    (newFirst : first ∉ old) (newLast : last ∉ old) (count : regionCount regions = 2) :
    ∃ front back, regions = [.changed front, .same old, .changed back] := by
  have someOld : 0 < old.length := List.length_pos_iff.mpr some
  have lengthOld := congrArg List.length spellsOld
  have lengthNew := congrArg List.length spellsNew
  rcases alternating.exists_gaps_around spellsNew (by rwa [spellsOld]) (by rwa [spellsOld]) with
    ⟨gap, rfl⟩ | ⟨front, middle, back, rfl⟩
  · simp [regionCount, Region.changeCount, Region.lines, Side.of] at count lengthOld lengthNew
    omega
  · have someFront := Region.changeCount_pos (alternating.filled (.changed front) (by simp))
    have someBack := Region.changeCount_pos (alternating.filled (.changed back) (by simp))
    have inner : Alternating middle :=
      alternating.of_infix ⟨[.changed front], [.changed back], by simp⟩
    simp only [regionCount_append, List.cons_append, regionCount] at count
    -- both gaps are of one line, which leaves none for the regions between
    rcases inner.eq_same_of_regionCount (by omega) with rfl | ⟨lines, rfl⟩
    · simp [regionCount, Region.changeCount, Region.lines, Side.of] at count lengthOld lengthNew
      omega
    · simp [regionCount, Region.changeCount, Region.lines, Side.of] at count lengthOld lengthNew
      have noneFront : front.removed = [] := List.length_eq_zero_iff.mp (by omega)
      have noneBack : back.removed = [] := List.length_eq_zero_iff.mp (by omega)
      refine ⟨front, back, ?_⟩
      simp_all [Region.lines, Side.of]

end Alternating

end Redline.LineDiff
