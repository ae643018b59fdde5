import Redline.LineDiff.Compare
import Redline.Proofs.LineDiff.Division
import Redline.Proofs.LineDiff.Sinking

/-! The comparison comes to an end by progress in every part. Its search divides a box before it runs
out of layers, and both parts are smaller. A pass that settles a script goes from edit to edit; a change
of its side first rises and then sinks, past one edit at a time, while edits around it are put in and
taken out, and the pass goes on behind the place where it comes to rest. Every such pass ends. -/

namespace Redline.LineDiff

variable {α : Type}

inductive Pass (α : Type) where
  | scanning (above below : List (Edit α))
  | rising (cursor : Cursor α)
  | sinking (cursor : Cursor α)

def Pass.script : Pass α → List (Edit α)
  | .scanning above below => above.reverse ++ below
  | .rising cursor => cursor.script
  | .sinking cursor => cursor.script

variable [DecidableEq α]

def Cursor.up? (motion : Motion) : Cursor α → Option (Cursor α)
  | ⟨[], _, _⟩ => none
  | ⟨.change next :: rest, part, below⟩ =>
    if next.side = part.side then some ⟨rest, { next with lines := next.lines ++ part.lines }, below⟩
    else some ⟨rest, part, .change next :: below⟩
  | ⟨.keep kept :: rest, part, below⟩ =>
    let run := riseOver motion kept part
    if run = [] then none
    else
      let risen : Change α :=
        { part with
          lines := run ++ part.lines.take (part.lines.length - run.length)
          anchor := part.anchor - run.length }
      some ⟨keepAll (kept.take (kept.length - run.length)) ++ rest, risen, keepBefore run below⟩

def Cursor.down? (motion : Motion) : Cursor α → Option (Cursor α)
  | ⟨_, _, []⟩ => none
  | ⟨above, part, .change next :: rest⟩ =>
    if next.side = part.side then some ⟨above, { part with lines := part.lines ++ next.lines }, rest⟩
    else some ⟨.change next :: above, part, rest⟩
  | ⟨above, part, .keep kept :: rest⟩ =>
    let run := sinkOver motion kept part
    if run = [] then none
    else
      let sunk : Change α :=
        { part with
          lines := part.lines.drop run.length ++ run
          anchor := part.anchor + run.length }
      some ⟨keepAfter run above, sunk, keepAll (kept.drop run.length) ++ rest⟩

def Pass.next? (motion : Motion) (side : Side) : Pass α → Option (Pass α)
  | .scanning _ [] => none
  | .scanning above (.keep kept :: below) => some (.scanning (.keep kept :: above) below)
  | .scanning above (.change part :: below) =>
    if part.side = side then some (.rising ⟨above, part, below⟩)
    else some (.scanning (.change part :: above) below)
  | .rising cursor =>
    match cursor.up? motion with
    | some risen => some (.rising risen)
    | none => some (.sinking cursor)
  | .sinking cursor =>
    match cursor.down? motion with
    | some sunk => some (.sinking sunk)
    | none => some (.scanning (.change cursor.part :: cursor.above) cursor.below)

inductive Pass.Ends (motion : Motion) (side : Side) : Pass α → List (Edit α) → Prop
  | done {pass : Pass α} : pass.next? motion side = none → Pass.Ends motion side pass pass.script
  | step {pass later : Pass α} {left : List (Edit α)} : pass.next? motion side = some later →
      Pass.Ends motion side later left → Pass.Ends motion side pass left

variable {motion : Motion} {side : Side}

theorem Pass.Ends.unique {pass : Pass α} {left other : List (Edit α)}
    (ends : Pass.Ends motion side pass left) (ends' : Pass.Ends motion side pass other) : left = other := by
  induction ends with
  | done stops =>
      cases ends' with
      | done => rfl
      | step moves => rw [stops] at moves; cases moves
  | step moves _ ih =>
      cases ends' with
      | done stops => rw [stops] at moves; cases moves
      | step moves' later =>
          rw [moves] at moves'
          cases moves'
          exact ih later

theorem Pass.Ends.rising {cursor : Cursor α} {left : List (Edit α)}
    (ends : Pass.Ends motion side (.sinking (rise motion true cursor.above cursor.part cursor.below)) left) :
    Pass.Ends motion side (.rising cursor) left := by
  obtain ⟨above, part, below⟩ := cursor
  fun_induction rise motion true above part below with
  | case1 part below => exact .step (by simp [Pass.next?, Cursor.up?]) ends
  | case2 part below next rest same ih => exact .step (by simp [Pass.next?, Cursor.up?, same]) (ih ends)
  | case3 part below next rest other past ih =>
      exact .step (by simp [Pass.next?, Cursor.up?, other]) (ih ends)
  | case4 part below next rest other stays => exact absurd rfl stays
  | case5 part below kept rest run stuck => exact .step (by simp_all [Pass.next?, Cursor.up?, run]) ends
  | case6 part below kept rest run slid risen ih =>
      exact .step (by simp_all [Pass.next?, Cursor.up?, run, risen]) (ih ends)

theorem Pass.Ends.sinking {cursor : Cursor α} {left : List (Edit α)}
    (ends :
      let sunk := sink motion cursor.above cursor.part cursor.below
      Pass.Ends motion side (.scanning (.change sunk.part :: sunk.above) sunk.below) left) :
    Pass.Ends motion side (.sinking cursor) left := by
  obtain ⟨above, part, below⟩ := cursor
  fun_induction sink motion above part below with
  | case1 above part => exact .step (by simp [Pass.next?, Cursor.down?]) ends
  | case2 above part next rest same ih =>
      exact .step (by simp [Pass.next?, Cursor.down?, same]) (ih ends)
  | case3 above part next rest other ih =>
      exact .step (by simp [Pass.next?, Cursor.down?, other]) (ih ends)
  | case4 above part kept rest run stuck => exact .step (by simp_all [Pass.next?, Cursor.down?, run]) ends
  | case5 above part kept rest run slid sunk ih =>
      exact .step (by simp_all [Pass.next?, Cursor.down?, run, sunk]) (ih ends)

theorem Pass.Ends.settled {cursor : Cursor α} {left : List (Edit α)}
    (ends : Pass.Ends motion side
      (.scanning (.change (cursor.settled motion).part :: (cursor.settled motion).above)
        (cursor.settled motion).below) left) :
    Pass.Ends motion side (.rising cursor) left :=
  .rising (.sinking ends)

theorem mul_add_le_of_progress {bound count count' weight weight' : Nat} (light : weight' ≤ bound)
    (progress : count' < count ∨ count' = count ∧ weight' ≤ weight) :
    count' * (bound + 1) + weight' ≤ count * (bound + 1) + weight := by
  rcases progress with fewer | ⟨rfl, less⟩
  · have scaled := Nat.mul_le_mul_right (bound + 1) fewer
    rw [Nat.succ_mul] at scaled
    omega
  · omega

/-- A pass does what is settled with enough steps. One step is enough for every change of the side and
every unit of weight that can be below it. -/
theorem ends_settleFrom (plain : motion.gathers = false) (side : Side) (bound steps : Nat)
    (above below : List (Edit α))
    (small : bulk above + bulk below ≤ bound)
    (enough : countOf side (above ++ below) * (bound + 1) + weight below < steps) :
    Pass.Ends motion side (.scanning above below) (settleFrom motion side steps above below) := by
  fun_induction settleFrom motion side steps above below with
  | case1 => omega
  | case2 steps above =>
      have ends : Pass.Ends motion side (.scanning above []) (Pass.scanning above []).script := .done rfl
      simpa [Pass.script] using ends
  | case3 steps above kept rest ih =>
      refine .step rfl (ih ?_ ?_)
      · simp only [bulk_cons] at small ⊢
        omega
      · simp only [countOf_append, countOf_keep, weight_cons, Edit.weight] at enough ⊢
        omega
  | case4 steps above part rest same resting ih =>
      have came : resting = (Cursor.mk above part rest).settled motion :=
        rest_plain plain (above.length + rest.length) ⟨above, part, rest⟩
      have restSide : resting.part.side = side := came ▸ (side_settled _).trans same
      have restBulk : resting.bulk ≤ (Cursor.mk above part rest).bulk := came ▸ bulk_settled_le _
      have progress := settled_progress motion ⟨above, part, rest⟩
      have light := weight_le_bulk resting.below
      rw [← came] at progress
      simp only [Cursor.bulk, Cursor.countOthers, same] at restBulk progress
      simp only [bulk_cons, List.cons_append, countOf_append, countOf_change, same, if_true, Nat.succ_mul,
        weight_cons, Edit.weight, ← Nat.add_assoc, restSide] at small enough ih
      have lightLeft : weight resting.below ≤ bound := by omega
      have lighter := mul_add_le_of_progress lightLeft progress
      have later := ih (by omega) (by omega)
      rw [came] at later ⊢
      exact .step (by simp [Pass.next?, same]) (.settled later)
  | case5 steps above part rest other ih =>
      refine .step (by simp [Pass.next?, other]) (ih ?_ ?_)
      · simp only [bulk_cons] at small ⊢
        omega
      · simp only [countOf_append, countOf_change, other, if_false, Nat.add_zero, weight_cons, Edit.weight]
          at enough ⊢
        omega

theorem ends_iff (plain : motion.gathers = false) (side : Side) (script left : List (Edit α)) :
    Pass.Ends motion side (.scanning [] script) left ↔ left = settle motion side script := by
  have heavy := weight_le_bulk script
  have bounded := bulk_le script
  have few := Nat.mul_le_mul_right (2 * weight script + 1) (countOf_le_length side script)
  have ends := ends_settleFrom plain side (2 * weight script) (settleSteps script) [] script
    (by simpa [bulk] using bounded) (by rw [settleSteps, List.nil_append, Nat.add_mul, Nat.one_mul]; omega)
  exact ⟨fun ends' => ends'.unique ends, fun same => same ▸ ends⟩

def additionsSlide : Motion :=
  { slides := fun side => side = .new, gathers := false }

structure Splits (old new : List α) (x y : Nat) : Prop where
  insideOld : x ≤ old.length
  insideNew : y ≤ new.length
  notFirst : (x, y) ≠ (0, 0)
  notLast : (x, y) ≠ (old.length, new.length)
  firstSmaller : (old.take x).length + (new.take y).length < old.length + new.length
  secondSmaller : (old.drop x).length + (new.drop y).length < old.length + new.length

omit [DecidableEq α] in
theorem splits_of_divides {old new : List α} {point : Nat × Nat}
    (divides : Divides old.length new.length point) : Splits old new point.1 point.2 := by
  obtain ⟨insideOld, insideNew, afterFirst, beforeLast⟩ := divides
  refine ⟨insideOld, insideNew, ?_, ?_, ?_, ?_⟩
  · intro first
    simp only [Prod.mk.injEq] at first
    omega
  · intro last
    simp only [Prod.mk.injEq] at last
    omega
  · simp only [List.length_take]
    omega
  · simp only [List.length_drop]
    omega

theorem exists_splits (sweep : Sweep) {old new : List α} (someOld : old ≠ []) (someNew : new ≠ [])
    (begins : commonPrefix old new = []) (ends : commonPrefix old.reverse new.reverse = []) :
    ∃ x y : Nat, crossing? sweep old new = some ((x : Int), (y : Int)) ∧
      splitPoint? sweep old new = some (x, y) ∧ Splits old new x y := by
  obtain ⟨division, found, crosses⟩ := exists_crossing sweep someOld someNew begins ends
  exact ⟨division.val.1, division.val.2, crosses, splitPoint?_of_division? found,
    splits_of_divides division.property⟩

/-- Everywhere in a comparison of two lists of lines there is progress. Wherever its recursion comes to
lists that are not empty between their common ends, the search finds a point of the grid within its
layers, apart from both corners, so that the recursion goes on with two smaller boxes, and comes to an
end with the script. Every pass over a script ends, and so do the two that settle this one. -/
theorem align_progress (old new : List (List Char)) :
    (∀ old' new' : List (List Char),
      let box := Box.ofLists old' new'
      box.old ≠ [] → box.new ≠ [] →
      ∃ x y : Nat, crossing? .fromLow box.old box.new = some ((x : Int), (y : Int)) ∧
        splitPoint? .fromLow box.old box.new = some (x, y) ∧ Splits box.old box.new x y) ∧
    (∀ edits, Divided .fromLow 0 0 old new edits ↔ edits = script .fromLow old new) ∧
    (∀ (side : Side) (edits left : List (Edit (List Char))),
      Pass.Ends additionsSlide side (.scanning [] edits) left ↔ left = settle additionsSlide side edits) ∧
    ∃ halfway, Pass.Ends additionsSlide .old (.scanning [] (script .fromLow old new)) halfway ∧
      Pass.Ends additionsSlide .new (.scanning [] halfway) (Style.anyEnding.align old new) := by
  have plain : additionsSlide.gathers = false := rfl
  refine ⟨?_, fun edits => divided_iff, ends_iff plain, settle additionsSlide .old (script .fromLow old new),
    (ends_iff plain _ _ _).mpr rfl, (ends_iff plain _ _ _).mpr rfl⟩
  intro old' new' box someOld someNew
  exact exists_splits .fromLow someOld someNew (Box.commonPrefix_ofLists old' new')
    (Box.commonPrefix_reverse_ofLists old' new')

theorem align_progress_exchanged :
    crossing? .fromLow [['a'], ['b']] [['b'], ['a']] = some (0, 1) ∧
      Splits [['a'], ['b']] [['b'], ['a']] 0 1 := by
  have found : crossing? .fromLow [['a'], ['b']] [['b'], ['a']] = some (0, 1) := by decide +kernel
  obtain ⟨splits, -⟩ := align_progress [] []
  obtain ⟨x, y, crosses, -, smaller⟩ :=
    splits [['a'], ['b']] [['b'], ['a']] (by decide) (by decide)
  have same := found.symm.trans crosses
  simp only [Option.some.injEq, Prod.mk.injEq] at same
  obtain rfl : x = 0 := by omega
  obtain rfl : y = 1 := by omega
  exact ⟨found, smaller⟩

end Redline.LineDiff
