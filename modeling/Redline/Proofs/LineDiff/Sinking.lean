import Redline.LineDiff.Spelling

/-! What a change leaves that has risen and sunk. It sinks at least as far as it would have sunk without
rising first: over the lines that it has risen over, and then on as before. So it either has taken in
another change of its side or leaves no more below than there was. -/

namespace Redline.LineDiff

variable {α : Type}

def Edit.isOf (side : Side) : Edit α → Bool
  | .keep _ => false
  | .change part => part.side = side

def countOf (side : Side) (script : List (Edit α)) : Nat :=
  script.countP (Edit.isOf side)

def Edit.bulk (edit : Edit α) : Nat :=
  max 1 (2 * edit.allLines.length)

def bulk : List (Edit α) → Nat
  | [] => 0
  | edit :: rest => edit.bulk + bulk rest

@[simp] theorem countOf_nil (side : Side) : countOf side ([] : List (Edit α)) = 0 := rfl

@[simp] theorem countOf_keep (side : Side) (lines : List α) (script : List (Edit α)) :
    countOf side (.keep lines :: script) = countOf side script := by
  simp [countOf, Edit.isOf]

@[simp] theorem countOf_change (side : Side) (part : Change α) (script : List (Edit α)) :
    countOf side (.change part :: script) = countOf side script + if part.side = side then 1 else 0 := by
  simp [countOf, Edit.isOf, List.countP_cons]

@[simp] theorem countOf_append (side : Side) (first second : List (Edit α)) :
    countOf side (first ++ second) = countOf side first + countOf side second :=
  List.countP_append

@[simp] theorem countOf_keepAll (side : Side) (lines : List α) : countOf side (keepAll lines) = 0 := by
  cases lines <;> simp [keepAll]

@[simp] theorem countOf_keepBefore (side : Side) (lines : List α) (script : List (Edit α)) :
    countOf side (keepBefore lines script) = countOf side script := by
  fun_cases keepBefore lines script <;> simp

@[simp] theorem countOf_keepAfter (side : Side) (lines : List α) (script : List (Edit α)) :
    countOf side (keepAfter lines script) = countOf side script := by
  fun_cases keepAfter lines script <;> simp

theorem countOf_le_length (side : Side) (script : List (Edit α)) : countOf side script ≤ script.length :=
  List.countP_le_length

@[simp] theorem bulk_cons (edit : Edit α) (script : List (Edit α)) :
    bulk (edit :: script) = edit.bulk + bulk script := rfl

@[simp] theorem bulk_append (first second : List (Edit α)) :
    bulk (first ++ second) = bulk first + bulk second := by
  induction first with
  | nil => simp [bulk]
  | cons edit first ih => rw [List.cons_append, bulk_cons, bulk_cons, ih, Nat.add_assoc]

@[simp] theorem bulk_keepAll (lines : List α) : bulk (keepAll lines) = 2 * lines.length := by
  cases lines with
  | nil => rfl
  | cons line lines =>
      simp only [keepAll, bulk, Edit.bulk, Edit.allLines, List.length_cons]
      omega

theorem bulk_keepBefore_le {lines : List α} (some : lines ≠ []) (script : List (Edit α)) :
    bulk (keepBefore lines script) ≤ 2 * lines.length + bulk script := by
  have positive := List.length_pos_iff.mpr some
  fun_cases keepBefore lines script <;> simp [Edit.bulk, Edit.allLines] <;> omega

theorem bulk_keepAfter_le {lines : List α} (some : lines ≠ []) (script : List (Edit α)) :
    bulk (keepAfter lines script) ≤ 2 * lines.length + bulk script := by
  have positive := List.length_pos_iff.mpr some
  fun_cases keepAfter lines script <;> simp [Edit.bulk, Edit.allLines] <;> omega

theorem weight_le_bulk (script : List (Edit α)) : weight script ≤ bulk script := by
  induction script with
  | nil => exact Nat.le_refl 0
  | cons edit script ih =>
      simp only [weight_cons, bulk_cons, Edit.weight, Edit.bulk]
      omega

theorem bulk_le (script : List (Edit α)) : bulk script ≤ 2 * weight script := by
  induction script with
  | nil => exact Nat.le_refl 0
  | cons edit script ih =>
      simp only [weight_cons, bulk_cons, Edit.weight, Edit.bulk]
      omega

theorem keepAll_of_ne_nil {lines : List α} (some : lines ≠ []) : keepAll lines = [.keep lines] := by
  cases lines with
  | nil => exact absurd rfl some
  | cons line lines => rfl

theorem exists_keepBefore_cons (line : α) {run : List α} (some : run ≠ []) (below : List (Edit α)) :
    ∃ kept rest, keepBefore (line :: run) below = .keep (line :: kept) :: rest ∧
      keepAll kept ++ rest = keepBefore run below := by
  fun_cases keepBefore (line :: run) below with
  | case1 more rest => exact ⟨run ++ more, rest, rfl, by rw [keepAll_of_ne_nil (by simp [some])]; rfl⟩
  | case2 below noKeep =>
      refine ⟨run, below, rfl, ?_⟩
      rw [keepAll_of_ne_nil some, keepBefore]
      · rfl
      · exact noKeep

def Cursor.bulk (cursor : Cursor α) : Nat :=
  LineDiff.bulk cursor.above + (Edit.change cursor.part).bulk + LineDiff.bulk cursor.below

def Cursor.countOthers (side : Side) (cursor : Cursor α) : Nat :=
  countOf side cursor.above + countOf side cursor.below

variable [DecidableEq α]

def Cursor.settled (motion : Motion) (cursor : Cursor α) : Cursor α :=
  let risen := rise motion true cursor.above cursor.part cursor.below
  sink motion risen.above risen.part risen.below

variable {motion : Motion} {side : Side}

theorem side_rise (past : Bool) (above : List (Edit α)) (part : Change α) (below : List (Edit α)) :
    (rise motion past above part below).part.side = part.side := by
  fun_induction rise motion past above part below with
  | case1 => rfl
  | case2 part below next rest same ih => exact ih.trans same
  | case3 part below next rest other past ih => exact ih
  | case4 => rfl
  | case5 => rfl
  | case6 part below kept rest run slid risen ih => exact ih

theorem side_sink (above : List (Edit α)) (part : Change α) (below : List (Edit α)) :
    (sink motion above part below).part.side = part.side := by
  fun_induction sink motion above part below with
  | case1 => rfl
  | case2 above part next rest same ih => exact ih
  | case3 above part next rest other ih => exact ih
  | case4 => rfl
  | case5 above part kept rest run slid sunk ih => exact ih

theorem bulk_rise_le (past : Bool) (above : List (Edit α)) (part : Change α) (below : List (Edit α)) :
    (rise motion past above part below).bulk ≤ (Cursor.mk above part below).bulk := by
  fun_induction rise motion past above part below with
  | case1 => exact Nat.le_refl _
  | case2 part below next rest same ih =>
      simp only [Cursor.bulk, bulk_cons, Edit.bulk, Edit.allLines, List.length_append] at ih ⊢
      omega
  | case3 part below next rest other past ih =>
      simp only [Cursor.bulk, bulk_cons] at ih ⊢
      omega
  | case4 => exact Nat.le_refl _
  | case5 => exact Nat.le_refl _
  | case6 part below kept rest run slid risen ih =>
      have turned := congrArg List.length (take_append_riseOver_part motion kept part)
      have split := congrArg List.length (take_append_riseOver motion kept part)
      have pushed := bulk_keepBefore_le slid below
      simp only [Cursor.bulk, bulk_append, bulk_keepAll, bulk_cons, Edit.bulk, Edit.allLines, risen, run,
        List.length_append] at ih turned split pushed ⊢
      omega

theorem bulk_sink_le (above : List (Edit α)) (part : Change α) (below : List (Edit α)) :
    (sink motion above part below).bulk ≤ (Cursor.mk above part below).bulk := by
  fun_induction sink motion above part below with
  | case1 => exact Nat.le_refl _
  | case2 above part next rest same ih =>
      simp only [Cursor.bulk, bulk_cons, Edit.bulk, Edit.allLines, List.length_append] at ih ⊢
      omega
  | case3 above part next rest other ih =>
      simp only [Cursor.bulk, bulk_cons] at ih ⊢
      omega
  | case4 => exact Nat.le_refl _
  | case5 above part kept rest run slid sunk ih =>
      have turned := congrArg List.length (append_drop_sinkOver_part motion kept part)
      have split := congrArg List.length (append_drop_sinkOver motion kept part)
      have pushed := bulk_keepAfter_le slid above
      simp only [Cursor.bulk, bulk_append, bulk_keepAll, bulk_cons, Edit.bulk, Edit.allLines, sunk, run,
        List.length_append] at ih turned split pushed ⊢
      omega

theorem countOthers_sink_le (motion : Motion) (above : List (Edit α)) (part : Change α)
    (below : List (Edit α)) :
    (sink motion above part below).countOthers part.side ≤
      (Cursor.mk above part below).countOthers part.side := by
  fun_induction sink motion above part below with
  | case1 => exact Nat.le_refl _
  | case2 above part next rest same ih =>
      simp only [Cursor.countOthers, countOf_change] at ih ⊢
      omega
  | case3 above part next rest other ih =>
      simp only [Cursor.countOthers, countOf_change] at ih ⊢
      omega
  | case4 => exact Nat.le_refl _
  | case5 above part kept rest run slid sunk ih =>
      simp only [Cursor.countOthers, countOf_append, countOf_keepAll, countOf_keepAfter, countOf_keep, sunk]
        at ih ⊢
      omega

theorem weight_sink_le (above : List (Edit α)) (part : Change α) (below : List (Edit α)) :
    weight (sink motion above part below).below ≤ weight below := by
  fun_induction sink motion above part below with
  | case1 => exact Nat.le_refl _
  | case2 above part next rest same ih => exact Nat.le_trans ih (Nat.le_add_left _ _)
  | case3 above part next rest other ih => exact Nat.le_trans ih (Nat.le_add_left _ _)
  | case4 => exact Nat.le_refl _
  | case5 above part kept rest run slid sunk ih =>
      have positive := List.length_pos_iff.mpr slid
      have within := length_sinkOver_le motion kept part
      have shorter := weight_keepAll_le (kept.drop run.length)
      simp only [weight_append, weight_cons, Edit.weight, Edit.allLines, List.length_drop, run]
        at ih positive within shorter ⊢
      omega

def leftBelow (motion : Motion) (side : Side) (lines : List α) (below : List (Edit α)) : List (Edit α) :=
  (sink motion [] ⟨side, lines, 0⟩ below).below

theorem below_sink (above : List (Edit α)) (part : Change α) (below : List (Edit α)) :
    (sink motion above part below).below = leftBelow motion part.side part.lines below := by
  suffices congr : ∀ (above' : List (Edit α)) (part' : Change α), part'.side = part.side →
      part'.lines = part.lines →
      (sink motion above part below).below = (sink motion above' part' below).below from
    congr [] ⟨part.side, part.lines, 0⟩ rfl rfl
  fun_induction sink motion above part below with
  | case1 above part => intro above' part' _ _; rw [sink]
  | case2 above part next rest same ih =>
      intro above' part' sides lines
      rw [sink, if_pos (same.trans sides.symm)]
      exact ih _ _ sides (by simp [lines])
  | case3 above part next rest other ih =>
      intro above' part' sides lines
      rw [sink, if_neg (sides ▸ other)]
      exact ih _ _ sides lines
  | case4 above part kept rest run stuck =>
      intro above' part' sides lines
      have sameRun : sinkOver motion kept part' = run := by simp [run, sinkOver, sides, lines]
      rw [sink, sameRun, if_pos stuck]
  | case5 above part kept rest run slid sunk ih =>
      intro above' part' sides lines
      have sameRun : sinkOver motion kept part' = run := by simp [run, sinkOver, sides, lines]
      rw [sink, sameRun, if_neg slid]
      exact ih _ _ sides (by simp [sunk, lines])

section LeftBelow

variable {lines : List α}

theorem leftBelow_keep_stuck {kept : List α} (rest : List (Edit α)) (stuck : commonPrefix kept lines = []) :
    leftBelow motion side lines (.keep kept :: rest) = .keep kept :: rest := by
  have noRun : sinkOver motion kept ⟨side, lines, 0⟩ = [] := by simp [sinkOver, stuck]
  rw [leftBelow, sink, noRun, if_pos rfl]

theorem leftBelow_keep_slid (slides : motion.slides side = true) {kept : List α} (rest : List (Edit α))
    (slid : commonPrefix kept lines ≠ []) :
    leftBelow motion side lines (.keep kept :: rest) =
      leftBelow motion side (lines.drop (commonPrefix kept lines).length ++ commonPrefix kept lines)
        (keepAll (kept.drop (commonPrefix kept lines).length) ++ rest) := by
  have run : sinkOver motion kept ⟨side, lines, 0⟩ = commonPrefix kept lines := by simp [sinkOver, slides]
  rw [leftBelow, sink, run, if_neg slid, below_sink]

theorem weight_leftBelow_le (motion : Motion) (side : Side) (lines : List α) (below : List (Edit α)) :
    weight (leftBelow motion side lines below) ≤ weight below :=
  weight_sink_le ..

end LeftBelow

theorem commonPrefix_append_self (lines more : List α) : commonPrefix (lines ++ more) lines = lines := by
  induction lines with
  | nil => cases more <;> rfl
  | cons line lines ih => simp [commonPrefix, ih]

theorem commonPrefix_concat (kept lines : List α) (line : α) :
    commonPrefix kept (lines ++ [line]) = commonPrefix kept lines ∨
      ∃ more, kept = lines ++ line :: more := by
  fun_induction commonPrefix kept lines with
  | case1 kept first rest ih =>
      rcases ih with same | ⟨more, rfl⟩
      · exact .inl (by simp [commonPrefix, same])
      · exact .inr ⟨more, rfl⟩
  | case2 first kept second rest differ => exact .inl (by simp [commonPrefix, differ])
  | case3 kept rest notBoth =>
      cases kept with
      | nil => exact .inl (by simp [commonPrefix])
      | cons first kept =>
          cases rest with
          | nil =>
              by_cases same : first = line
              · exact .inr ⟨kept, by simp [same]⟩
              · exact .inl (by simp [commonPrefix, same])
          | cons second rest => exact absurd rfl (notBoth first kept second rest rfl)

/-- A change that slides over many lines at once leaves what it leaves when it slides over one line
first. -/
theorem leftBelow_slide_one (slides : motion.slides side = true) (line : α) (lines kept : List α)
    (rest : List (Edit α)) :
    leftBelow motion side (line :: lines) (.keep (line :: kept) :: rest) =
      leftBelow motion side (lines ++ [line]) (keepAll kept ++ rest) := by
  have both : commonPrefix (line :: kept) (line :: lines) = line :: commonPrefix kept lines := by
    simp [commonPrefix]
  rw [leftBelow_keep_slid slides rest (by simp [both]), both]
  simp only [List.length_cons, List.drop_succ_cons]
  by_cases stuck : commonPrefix kept lines = []
  · simp [stuck]
  · have someKept : kept ≠ [] := fun none => stuck (by simp [none, commonPrefix])
    rw [keepAll_of_ne_nil someKept, List.singleton_append]
    rcases commonPrefix_concat kept lines line with same | ⟨more, whole⟩
    · have within := length_commonPrefix_le_right kept lines
      rw [leftBelow_keep_slid slides rest (by rwa [same]), same, List.drop_append_of_le_length within,
        List.append_assoc, List.singleton_append]
    · -- the change has slid over its own length, and begins anew
      have passed : commonPrefix kept lines = lines := by
        rw [whole, commonPrefix_append_self]
      have passedAll : commonPrefix kept (lines ++ [line]) = lines ++ [line] := by
        simpa [whole] using commonPrefix_append_self (lines ++ [line]) more
      have anew := leftBelow_slide_one slides line lines more rest
      rw [leftBelow_keep_slid slides rest (by simp [passedAll]), passed, passedAll, whole]
      simpa [keepAll] using anew
termination_by kept.length
decreasing_by
  rw [whole]
  simp only [List.length_append, List.length_cons]
  omega

theorem weight_leftBelow_turned_le (slides : motion.slides side = true) {run : List α} (slid : run ≠ [])
    (lines : List α) (below : List (Edit α)) :
    weight (leftBelow motion side (run ++ lines) (keepBefore run below)) ≤
      weight (leftBelow motion side (lines ++ run) below) := by
  induction run generalizing lines with
  | nil => exact absurd rfl slid
  | cons line run ih =>
      by_cases last : run = []
      · subst last
        fun_cases keepBefore [line] below with
        | case1 more rest =>
            rw [List.singleton_append, List.singleton_append, leftBelow_slide_one slides]
            cases more with
            | nil =>
                -- an edit that keeps no line stops a change, and is gone when it has been joined
                have less := weight_leftBelow_le motion side (lines ++ [line]) rest
                rw [leftBelow_keep_stuck rest (by simp [commonPrefix]), weight_cons]
                simp only [keepAll, List.nil_append]
                omega
            | cons first more => exact Nat.le_refl _
        | case2 =>
            rw [List.singleton_append, leftBelow_slide_one slides]
            exact Nat.le_refl _
      · obtain ⟨kept, rest, joined, left⟩ := exists_keepBefore_cons line last below
        have later := ih last (lines ++ [line])
        rw [joined, List.cons_append, leftBelow_slide_one slides, left]
        simpa using later

theorem rise_sink (motion : Motion) (above : List (Edit α)) (part : Change α) (below : List (Edit α)) :
    let risen := rise motion true above part below
    risen.countOthers part.side < (Cursor.mk above part below).countOthers part.side ∨
      risen.countOthers part.side = (Cursor.mk above part below).countOthers part.side ∧
        weight (leftBelow motion part.side risen.part.lines risen.below) ≤
          weight (leftBelow motion part.side part.lines below) := by
  fun_induction rise motion true above part below with
  | case1 part below => exact .inr ⟨rfl, Nat.le_refl _⟩
  | case2 part below next rest same ih =>
      simp only [same, Cursor.countOthers, countOf_change, if_true] at ih ⊢
      omega
  | case3 part below next rest other past ih =>
      have passed : leftBelow motion part.side part.lines (.change next :: below) =
          leftBelow motion part.side part.lines below := by
        rw [leftBelow, sink, if_neg other, below_sink]
      simp only [passed, Cursor.countOthers, countOf_change, other, if_false] at ih ⊢
      exact ih
  | case4 part below next rest other stays => exact absurd rfl stays
  | case5 part below kept rest run stuck => exact .inr ⟨rfl, Nat.le_refl _⟩
  | case6 part below kept rest run slid risen ih =>
      have slides : motion.slides part.side = true :=
        Decidable.byContradiction fun stays => slid (by simp [run, riseOver, stays])
      have turned := weight_leftBelow_turned_le slides slid
        (part.lines.take (part.lines.length - run.length)) below
      have whole : part.lines.take (part.lines.length - run.length) ++ run = part.lines :=
        take_append_riseOver_part motion kept part
      rw [whole] at turned
      simp only [Cursor.countOthers, countOf_append, countOf_keepAll, countOf_keepBefore, countOf_keep, risen]
        at ih ⊢
      omega

theorem rest_plain (plain : motion.gathers = false) (rounds : Nat) (cursor : Cursor α) :
    cursor.rest motion (rounds + 1) = cursor.settled motion := by
  simp [Cursor.rest, Cursor.settled, plain]

theorem side_settled (cursor : Cursor α) : (cursor.settled motion).part.side = cursor.part.side :=
  (side_sink ..).trans (side_rise ..)

theorem bulk_settled_le (cursor : Cursor α) : (cursor.settled motion).bulk ≤ cursor.bulk :=
  Nat.le_trans (bulk_sink_le ..) (bulk_rise_le ..)

/-- A change that has settled has taken in another, or has left no more below than there was. -/
theorem settled_progress (motion : Motion) (cursor : Cursor α) :
    let settled := cursor.settled motion
    settled.countOthers cursor.part.side < cursor.countOthers cursor.part.side ∨
      settled.countOthers cursor.part.side = cursor.countOthers cursor.part.side ∧
        weight settled.below ≤ weight cursor.below := by
  obtain ⟨above, part, below⟩ := cursor
  have rises := rise_sink motion above part below
  have sides : (rise motion true above part below).part.side = part.side := side_rise true above part below
  have stays := weight_leftBelow_le motion part.side part.lines below
  simp only [Cursor.settled, below_sink, sides]
  generalize rise motion true above part below = risen at rises sides ⊢
  have sinks := countOthers_sink_le motion risen.above risen.part risen.below
  rw [sides] at sinks
  simp only [Cursor.countOthers] at rises sinks ⊢
  omega

end Redline.LineDiff
