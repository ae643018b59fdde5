import Redline.LineDiff.Spelling
import Redline.Proofs.LineDiff.Shortest

/-! Settling adds no change, and neither does joining changes to gaps. A change that slides takes as many
lines as it leaves, and changes that meet are put together, so that the number of changed lines stays
what it was. -/

namespace Redline.LineDiff

variable {α : Type}

theorem changeCount_keepBefore (lines : List α) (script : List (Edit α)) :
    changeCount (keepBefore lines script) = changeCount script := by
  fun_cases keepBefore lines script <;> simp [Edit.changeCount]

theorem changeCount_keepAfter (lines : List α) (script : List (Edit α)) :
    changeCount (keepAfter lines script) = changeCount script := by
  fun_cases keepAfter lines script <;> simp [Edit.changeCount]

theorem changeCount_cursor (cursor : Cursor α) :
    changeCount cursor.script =
      changeCount cursor.above + cursor.part.lines.length + changeCount cursor.below := by
  simp only [Cursor.script, changeCount_append, changeCount_reverse, changeCount_cons, Edit.changeCount]
  omega

def Region.changeCount : Region α → Nat
  | .same _ => 0
  | .changed gap => gap.removed.length + gap.added.length

def regionCount : List (Region α) → Nat
  | [] => 0
  | region :: regions => region.changeCount + regionCount regions

theorem regionCount_ofScript (script : List (Edit α)) :
    regionCount (Region.ofScript script) = changeCount script := by
  fun_induction Region.ofScript script with
  | case1 => rfl
  | case2 lines rest more regions found ih =>
    simp_all [Edit.changeCount, Region.changeCount, regionCount]
  | case3 => simp_all [Edit.changeCount, Region.changeCount, regionCount]
  | case4 part rest gap regions found ih =>
    rcases part with ⟨mine, lines, anchor⟩
    cases mine <;> simp_all [Edit.changeCount, Region.changeCount, regionCount, Gap.cons] <;> omega
  | case5 part rest regions ih =>
    rcases part with ⟨mine, lines, anchor⟩
    cases mine <;> simp_all [Edit.changeCount, Region.changeCount, regionCount, Gap.cons, Gap.empty]

variable [DecidableEq α]

theorem changeCount_rise (motion : Motion) (past : Bool) (above : List (Edit α)) (part : Change α)
    (below : List (Edit α)) :
    changeCount (rise motion past above part below).script =
      changeCount (Cursor.mk above part below).script := by
  fun_induction rise motion past above part below with
  | case1 => rfl
  | case2 part below next rest same ih =>
    simp only [ih, changeCount_cursor, changeCount_cons, Edit.changeCount, List.length_append]
    omega
  | case3 part below next rest other past ih =>
    simp only [ih, changeCount_cursor, changeCount_cons]
    omega
  | case4 => rfl
  | case5 => rfl
  | case6 part below kept rest run slid risen ih =>
    have turned := congrArg List.length (take_append_riseOver_part motion kept part)
    rw [ih, changeCount_cursor, changeCount_cursor, changeCount_append, changeCount_keepAll,
      changeCount_keepBefore, changeCount_cons, Edit.changeCount]
    simp only [risen, run, List.length_append] at turned ⊢
    omega

theorem changeCount_sink (motion : Motion) (above : List (Edit α)) (part : Change α)
    (below : List (Edit α)) :
    changeCount (sink motion above part below).script =
      changeCount (Cursor.mk above part below).script := by
  fun_induction sink motion above part below with
  | case1 => rfl
  | case2 above part next rest same ih =>
    simp only [ih, changeCount_cursor, changeCount_cons, Edit.changeCount, List.length_append]
    omega
  | case3 above part next rest other ih =>
    simp only [ih, changeCount_cursor, changeCount_cons]
    omega
  | case4 => rfl
  | case5 above part kept rest run slid sunk ih =>
    have turned := congrArg List.length (append_drop_sinkOver_part motion kept part)
    rw [ih, changeCount_cursor, changeCount_cursor, changeCount_append, changeCount_keepAll,
      changeCount_keepAfter, changeCount_cons, Edit.changeCount]
    simp only [sunk, run, List.length_append] at turned ⊢
    omega

theorem changeCount_gather (motion : Motion) (sunk : Cursor α) :
    changeCount (sunk.gather motion).script = changeCount sunk.script := by
  simp only [Cursor.gather]
  split
  · exact changeCount_rise motion false sunk.above sunk.part sunk.below
  · rfl

theorem changeCount_rest (motion : Motion) (rounds : Nat) (cursor : Cursor α) :
    changeCount (cursor.rest motion rounds).script = changeCount cursor.script := by
  fun_induction Cursor.rest motion rounds cursor with
  | case1 => rfl
  | case2 cursor => exact (changeCount_sink ..).trans (changeCount_rise ..)
  | case3 cursor =>
    exact (changeCount_gather ..).trans ((changeCount_sink ..).trans (changeCount_rise ..))
  | case4 rounds cursor risen sunk gathers grown ih =>
    exact ih.trans ((changeCount_sink ..).trans (changeCount_rise ..))

theorem changeCount_settleFrom (mine : Side) (motion : Motion) (steps : Nat)
    (above below : List (Edit α)) :
    changeCount (settleFrom motion mine steps above below) = changeCount above + changeCount below := by
  fun_induction settleFrom motion mine steps above below with
  | case1 => simp
  | case2 => simp
  | case3 above steps kept rest ih => rw [ih]; simp [Edit.changeCount]
  | case4 steps above part rest same resting ih =>
    have rested : changeCount resting.script = changeCount (Cursor.mk above part rest).script :=
      changeCount_rest motion (above.length + rest.length + 1) ⟨above, part, rest⟩
    simp only [changeCount_cursor] at rested
    simp only [ih, changeCount_cons, Edit.changeCount]
    omega
  | case5 above steps part rest other ih =>
    rw [ih, changeCount_cons, changeCount_cons]
    omega

@[simp] theorem changeCount_settleBoth (motion : Motion) (script : List (Edit α)) :
    changeCount (settleBoth motion script) = changeCount script := by
  simp [settleBoth, settle, changeCount_settleFrom]

end Redline.LineDiff
