import Redline.LineDiff.Region
import Redline.LineDiff.Script
import Redline.LineDiff.Settle
import Redline.LineDiff.Shared

/-! What scripts spell. Moving changes, joining them and putting back lines that were set apart
leave what both sides spell: the old lines for the old side and the new lines for the new one. -/

namespace Redline.LineDiff

variable {α : Type}

theorem spell_keepBefore (side : Side) (lines : List α) (script : List (Edit α)) :
    spell side (keepBefore lines script) = lines ++ spell side script := by
  fun_cases keepBefore lines script <;> simp [Edit.lines]

theorem spell_reverse_keepAfter (side : Side) (lines : List α) (script : List (Edit α)) :
    spell side (keepAfter lines script).reverse = spell side script.reverse ++ lines := by
  fun_cases keepAfter lines script <;> simp [Edit.lines]

theorem flatMap_lines_ofScript (side : Side) (script : List (Edit α)) :
    (Region.ofScript script).flatMap (Region.lines side) = spell side script := by
  fun_induction Region.ofScript script with
  | case1 => rfl
  | case2 lines rest more regions found ih => simp_all [Edit.lines, Region.lines]
  | case3 => simp_all [Edit.lines, Region.lines]
  | case4 part rest gap regions found ih =>
    simp only [found, List.flatMap_cons] at ih
    rcases part with ⟨mine, lines, anchor⟩
    cases side <;> cases mine <;> simp [Edit.lines, Region.lines, Gap.cons, Side.of, ← ih]
  | case5 part rest regions ih =>
    rcases part with ⟨mine, lines, anchor⟩
    cases side <;> cases mine <;> simp_all [Edit.lines, Region.lines, Gap.cons, Gap.empty, Side.of]

@[simp] theorem spell_joined (side : Side) (script : List (Edit α)) :
    spell side (joined script) = spell side script := by
  rw [← flatMap_lines_ofScript side script, joined]
  induction Region.ofScript script with
  | nil => rfl
  | cons region regions ih =>
      rw [List.flatMap_cons, spell_append, ih, List.flatMap_cons]
      cases region <;> cases side <;> simp [Region.edits, Region.lines, Side.of]

@[simp] theorem spell_atoms (side : Side) (edit : Edit α) :
    spell side edit.atoms = edit.lines side := by
  cases edit with
  | keep lines => induction lines <;> simp_all [Edit.atoms, Edit.lines, spell]
  | change part =>
      rcases part with ⟨mine, lines, anchor⟩
      simp only [Edit.atoms, Edit.lines, spell]
      split <;> induction lines <;> simp_all [Edit.lines]

theorem length_lines_of_mem_atoms {edit atom : Edit α} (member : atom ∈ edit.atoms) (side : Side) :
    (atom.lines side).length ≤ 1 := by
  cases edit with
  | keep lines =>
      obtain ⟨line, _, rfl⟩ := List.mem_map.1 member
      simp [Edit.lines]
  | change part =>
      obtain ⟨line, _, rfl⟩ := List.mem_map.1 member
      simp only [Edit.lines]
      split <;> simp

theorem append_passLine (mine rest : List α) (lines : List (α × Bool)) (short : mine.length ≤ 1)
    (next : sharedLines lines = mine ++ rest) :
    (passLine mine lines).1.map Prod.fst ++ mine ++ (passLine mine lines).2.map Prod.fst =
      lines.map Prod.fst := by
  match mine, short with
  | [], _ => simp [passLine]
  | [line], _ =>
    simp only [passLine, List.isEmpty_cons, Bool.false_eq_true, if_false]
    induction lines with
    | nil => simp [sharedLines] at next
    | cons first lines ih =>
      rcases first with ⟨first, apart⟩
      cases apart <;> simp_all [sharedLines]

theorem sharedLines_passLine (mine rest : List α) (lines : List (α × Bool))
    (short : mine.length ≤ 1) (next : sharedLines lines = mine ++ rest) :
    sharedLines (passLine mine lines).2 = rest := by
  match mine, short with
  | [], _ => simpa [passLine] using next
  | [line], _ =>
    simp only [passLine, List.isEmpty_cons, Bool.false_eq_true, if_false]
    induction lines with
    | nil => simp [sharedLines] at next
    | cons first lines ih =>
      rcases first with ⟨first, apart⟩
      cases apart <;> simp_all [sharedLines]

/-- A script for the lines that are not set apart spells all lines once the others are back. -/
theorem spell_restoreApart (side : Side) (atoms : List (Edit α)) (old new : List (α × Bool))
    (short : ∀ atom ∈ atoms, (atom.lines side).length ≤ 1)
    (spelled : sharedLines (side.of old new) = spell side atoms) :
    spell side (restoreApart atoms old new) = (side.of old new).map Prod.fst := by
  induction atoms generalizing old new with
  | nil => cases side <;> simp [restoreApart, Side.of]
  | cons atom atoms ih =>
      rw [spell_cons] at spelled
      have passed := append_passLine (atom.lines side) (spell side atoms) (side.of old new)
        (short atom (by simp)) spelled
      have behind := sharedLines_passLine (atom.lines side) (spell side atoms) (side.of old new)
        (short atom (by simp)) spelled
      have later := ih (passLine (atom.lines .old) old).2 (passLine (atom.lines .new) new).2
        (fun atom member => short atom (by simp [member]))
      cases side
      · simpa [restoreApart, later behind, Side.of] using passed
      · simpa [restoreApart, later behind, Side.of] using passed

variable [DecidableEq α]

theorem spell_throughShared (side : Side) (make : List α → List α → List (Edit α))
    (spelled : ∀ old new, spell side (make old new) = side.of old new) (old new : List α) :
    spell side (throughShared make old new) = side.of old new := by
  have restored := spell_restoreApart side
    ((make (sharedLines (setApart old new)) (sharedLines (setApart new old))).flatMap Edit.atoms)
    (setApart old new) (setApart new old)
  rw [throughShared, restored]
  · cases side <;> simp [Side.of]
  · intro atom member
    obtain ⟨edit, _, within⟩ := List.mem_flatMap.1 member
    exact length_lines_of_mem_atoms within side
  · have flat (script : List (Edit α)) : spell side (script.flatMap Edit.atoms) = spell side script := by
      induction script <;> simp_all
    rw [flat, spelled]
    cases side <;> rfl

theorem take_append_riseOver (motion : Motion) (kept : List α) (part : Change α) :
    kept.take (kept.length - (riseOver motion kept part).length) ++ riseOver motion kept part =
      kept := by
  unfold riseOver
  split
  · exact take_append_commonSuffix_left kept part.lines
  · simp

theorem take_append_riseOver_part (motion : Motion) (kept : List α) (part : Change α) :
    part.lines.take (part.lines.length - (riseOver motion kept part).length) ++
      riseOver motion kept part = part.lines := by
  unfold riseOver
  split
  · exact take_append_commonSuffix_right kept part.lines
  · simp

theorem append_drop_sinkOver (motion : Motion) (kept : List α) (part : Change α) :
    sinkOver motion kept part ++ kept.drop (sinkOver motion kept part).length = kept := by
  unfold sinkOver
  split
  · exact commonPrefix_append_drop_left kept part.lines
  · simp

theorem append_drop_sinkOver_part (motion : Motion) (kept : List α) (part : Change α) :
    sinkOver motion kept part ++ part.lines.drop (sinkOver motion kept part).length =
      part.lines := by
  unfold sinkOver
  split
  · exact commonPrefix_append_drop_right kept part.lines
  · simp

theorem spell_rise (side : Side) (motion : Motion) (past : Bool) (above : List (Edit α))
    (part : Change α) (below : List (Edit α)) :
    spell side (rise motion past above part below).script =
      spell side (Cursor.mk above part below).script := by
  fun_induction rise motion past above part below with
  | case1 => rfl
  | case2 part below next rest same ih =>
    rw [ih]
    by_cases mine : part.side = side <;> simp [Cursor.script, Edit.lines, same, mine]
  | case3 part below next rest other past ih =>
    rw [ih]
    by_cases mine : part.side = side <;> by_cases his : next.side = side <;>
      simp_all [Cursor.script, Edit.lines]
  | case4 => rfl
  | case5 => rfl
  | case6 part below kept rest run slid risen ih =>
    have keptSplit := take_append_riseOver motion kept part
    have partSplit := take_append_riseOver_part motion kept part
    rw [ih]
    by_cases mine : part.side = side
    · simp only [Cursor.script, risen, List.reverse_append, reverse_keepAll, spell_append, spell_cons,
        spell_keepAll, spell_keepBefore, Edit.lines, mine, if_true, List.reverse_cons, spell_nil,
        List.append_assoc, List.append_nil]
      rw [← List.append_assoc (kept.take _), keptSplit, ← List.append_assoc (part.lines.take _),
        partSplit]
    · simp only [Cursor.script, risen, List.reverse_append, reverse_keepAll, spell_append, spell_cons,
        spell_keepAll, spell_keepBefore, Edit.lines, mine, if_false, List.reverse_cons, spell_nil,
        List.append_assoc, List.append_nil, List.nil_append]
      rw [← List.append_assoc (kept.take _), keptSplit]

theorem spell_sink (side : Side) (motion : Motion) (above : List (Edit α)) (part : Change α)
    (below : List (Edit α)) :
    spell side (sink motion above part below).script =
      spell side (Cursor.mk above part below).script := by
  fun_induction sink motion above part below with
  | case1 => rfl
  | case2 above part next rest same ih =>
    rw [ih]
    by_cases mine : part.side = side <;> simp [Cursor.script, Edit.lines, same, mine]
  | case3 above part next rest other ih =>
    rw [ih]
    by_cases mine : part.side = side <;> by_cases his : next.side = side <;>
      simp_all [Cursor.script, Edit.lines]
  | case4 => rfl
  | case5 above part kept rest run slid sunk ih =>
    have keptSplit := append_drop_sinkOver motion kept part
    have partSplit := append_drop_sinkOver_part motion kept part
    rw [ih]
    by_cases mine : part.side = side
    · simp only [Cursor.script, sunk, spell_append, spell_cons, spell_reverse_keepAfter,
        spell_keepAll, Edit.lines, mine, if_true, List.append_assoc]
      rw [← List.append_assoc (sinkOver motion kept part) (part.lines.drop _), partSplit,
        ← List.append_assoc (sinkOver motion kept part) (kept.drop _), keptSplit]
    · simp only [Cursor.script, sunk, spell_append, spell_cons, spell_reverse_keepAfter,
        spell_keepAll, Edit.lines, mine, if_false, List.append_assoc, List.nil_append]
      rw [← List.append_assoc (sinkOver motion kept part) (kept.drop _), keptSplit]

theorem spell_gather (side : Side) (motion : Motion) (sunk : Cursor α) :
    spell side (sunk.gather motion).script = spell side sunk.script := by
  simp only [Cursor.gather]
  split
  · exact spell_rise side motion false sunk.above sunk.part sunk.below
  · rfl

theorem spell_rest (side : Side) (motion : Motion) (rounds : Nat) (cursor : Cursor α) :
    spell side (cursor.rest motion rounds).script = spell side cursor.script := by
  fun_induction Cursor.rest motion rounds cursor with
  | case1 => rfl
  | case2 cursor => exact (spell_sink ..).trans (spell_rise ..)
  | case3 cursor => exact (spell_gather ..).trans ((spell_sink ..).trans (spell_rise ..))
  | case4 rounds cursor risen sunk gathers grown ih =>
    exact ih.trans ((spell_sink ..).trans (spell_rise ..))

theorem spell_settleFrom (side mine : Side) (motion : Motion) (steps : Nat)
    (above below : List (Edit α)) :
    spell side (settleFrom motion mine steps above below) =
      spell side (above.reverse ++ below) := by
  fun_induction settleFrom motion mine steps above below with
  | case1 => rfl
  | case2 => simp
  | case3 above steps kept rest ih => rw [ih]; simp
  | case4 steps above part rest same resting ih =>
    rw [ih]
    have rested := spell_rest side motion (above.length + rest.length + 1) ⟨above, part, rest⟩
    simpa [Cursor.script] using rested
  | case5 above steps part rest other ih => rw [ih]; simp

@[simp] theorem spell_settleBoth (side : Side) (motion : Motion) (script : List (Edit α)) :
    spell side (settleBoth motion script) = spell side script := by
  simp [settleBoth, settle, spell_settleFrom]

end Redline.LineDiff
