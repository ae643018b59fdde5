import Redline.LineDiff.Affix
import Redline.LineDiff.Edit

/-! Scripts whose changes have settled. A change rises as far as it can, past changes of the other
side and past kept lines that it can slide over, takes in every change of its own side on the way,
and sinks as far as it can in the same manner. Sliding over kept lines turns the lines of a change
around, so that both sides of the script spell the same as before. A change that gathers rises once
more, to the nearest place beside a change of the other side, if there is one. -/

namespace Redline.LineDiff

variable {α : Type}

/-- A change on its way through a script. Of the edits above it and below it the nearest comes first. -/
structure Cursor (α : Type) where
  above : List (Edit α)
  part : Change α
  below : List (Edit α)

def Cursor.script (cursor : Cursor α) : List (Edit α) :=
  cursor.above.reverse ++ .change cursor.part :: cursor.below

structure Motion where
  slides : Side → Bool
  gathers : Bool

def keepBefore (lines : List α) : List (Edit α) → List (Edit α)
  | .keep more :: rest => .keep (lines ++ more) :: rest
  | rest => .keep lines :: rest

def keepAfter (lines : List α) : List (Edit α) → List (Edit α)
  | .keep more :: rest => .keep (more ++ lines) :: rest
  | rest => .keep lines :: rest

variable [DecidableEq α]

def riseOver (motion : Motion) (kept : List α) (part : Change α) : List α :=
  if motion.slides part.side then commonSuffix kept part.lines else []

def sinkOver (motion : Motion) (kept : List α) (part : Change α) : List α :=
  if motion.slides part.side then commonPrefix kept part.lines else []

theorem length_riseOver_le (motion : Motion) (kept : List α) (part : Change α) :
    (riseOver motion kept part).length ≤ kept.length := by
  unfold riseOver
  split
  · exact length_commonSuffix_le_left kept part.lines
  · simp

theorem length_sinkOver_le (motion : Motion) (kept : List α) (part : Change α) :
    (sinkOver motion kept part).length ≤ kept.length := by
  unfold sinkOver
  split
  · exact length_commonPrefix_le_left kept part.lines
  · simp

def rise (motion : Motion) (past : Bool) (above : List (Edit α)) (part : Change α)
    (below : List (Edit α)) : Cursor α :=
  match above with
  | [] => ⟨[], part, below⟩
  | .change next :: rest =>
    if next.side = part.side then
      rise motion past rest { next with lines := next.lines ++ part.lines } below
    else if past then rise motion past rest part (.change next :: below)
    else ⟨.change next :: rest, part, below⟩
  | .keep kept :: rest =>
    let run := riseOver motion kept part
    if run = [] then ⟨.keep kept :: rest, part, below⟩
    else
      let risen : Change α :=
        { part with
          lines := run ++ part.lines.take (part.lines.length - run.length)
          anchor := part.anchor - run.length }
      rise motion past (keepAll (kept.take (kept.length - run.length)) ++ rest) risen
        (keepBefore run below)
termination_by weight above
decreasing_by
  · simp [Edit.weight]
  · simp [Edit.weight]
  · rename_i slid
    have shorter := weight_keepAll_le (kept.take (kept.length - (riseOver motion kept part).length))
    have within := length_riseOver_le motion kept part
    have some : 0 < (riseOver motion kept part).length := List.length_pos_iff.2 slid
    simp only [weight_append, weight_cons, Edit.weight, Edit.allLines, List.length_take] at *
    omega

def sink (motion : Motion) (above : List (Edit α)) (part : Change α) (below : List (Edit α)) :
    Cursor α :=
  match below with
  | [] => ⟨above, part, []⟩
  | .change next :: rest =>
    if next.side = part.side then
      sink motion above { part with lines := part.lines ++ next.lines } rest
    else sink motion (.change next :: above) part rest
  | .keep kept :: rest =>
    let run := sinkOver motion kept part
    if run = [] then ⟨above, part, .keep kept :: rest⟩
    else
      let sunk : Change α :=
        { part with
          lines := part.lines.drop run.length ++ run
          anchor := part.anchor + run.length }
      sink motion (keepAfter run above) sunk (keepAll (kept.drop run.length) ++ rest)
termination_by weight below
decreasing_by
  · simp [Edit.weight]
  · simp [Edit.weight]
  · rename_i slid
    have shorter := weight_keepAll_le (kept.drop (sinkOver motion kept part).length)
    have within := length_sinkOver_le motion kept part
    have some : 0 < (sinkOver motion kept part).length := List.length_pos_iff.2 slid
    simp only [weight_append, weight_cons, Edit.weight, Edit.allLines, List.length_drop] at *
    omega

def Cursor.gathered (cursor : Cursor α) : Bool :=
  match cursor.above with
  | .change next :: _ => next.side ≠ cursor.part.side
  | _ => false

def Cursor.gather (motion : Motion) (sunk : Cursor α) : Cursor α :=
  let risen := rise motion false sunk.above sunk.part sunk.below
  if risen.gathered then risen else sunk

def Cursor.rest (motion : Motion) : Nat → Cursor α → Cursor α
  | 0, cursor => cursor
  | rounds + 1, cursor =>
    let risen := rise motion true cursor.above cursor.part cursor.below
    let sunk := sink motion risen.above risen.part risen.below
    if !motion.gathers then sunk
    else if sunk.part.lines.length = cursor.part.lines.length then sunk.gather motion
    else sunk.rest motion rounds

/-- Settles the changes of one side that are still below, one after the other. What lies above
comes with the nearest edit first. A change can take in no more others than there are edits. -/
def settleFrom (motion : Motion) (side : Side) : Nat → List (Edit α) → List (Edit α) → List (Edit α)
  | 0, above, below => above.reverse ++ below
  | _ + 1, above, [] => above.reverse
  | steps + 1, above, .keep kept :: rest => settleFrom motion side steps (.keep kept :: above) rest
  | steps + 1, above, .change part :: rest =>
    if part.side = side then
      let resting := (Cursor.mk above part rest).rest motion (above.length + rest.length + 1)
      settleFrom motion side steps (.change resting.part :: resting.above) resting.below
    else settleFrom motion side steps (.change part :: above) rest

/-- Enough steps to settle a script: a step either joins two changes, or leaves less below than
there was, where less than two edits for every line and one more can lie. -/
def settleSteps (script : List (Edit α)) : Nat :=
  (script.length + 1) * (2 * weight script + 1)

def settle (motion : Motion) (side : Side) (script : List (Edit α)) : List (Edit α) :=
  settleFrom motion side (settleSteps script) [] script

def settleBoth (motion : Motion) (script : List (Edit α)) : List (Edit α) :=
  settle motion .new (settle motion .old script)

end Redline.LineDiff
