/-! How the lines of a text stand in another one. A line that the other text lacks says nothing
about where the two agree, and a line that it has all over says little. The first is set apart
always, the second where it lies among lines of the first kind. -/

namespace Redline.LineDiff

inductive Standing where
  | shared
  | common
  | lone
  deriving DecidableEq, Repr

namespace Standing

def nearRoot (n : Nat) : Nat :=
  Nat.pow 2 (Nat.log2 n / 2)

def ofCount (length count : Nat) : Standing :=
  if count = 0 then .lone
  else if 5 * nearRoot (length / 64) < count then .common
  else .shared

def share : Standing → Standing
  | .common => .shared
  | standing => standing

def shareTogether (least : Nat) : List Standing → List Standing
  | [] => []
  | .common :: rest =>
    let together := Standing.common :: rest.takeWhile (· = .common)
    (if least ≤ together.length then together.map share else together) ++
      shareTogether least (rest.dropWhile (· = .common))
  | standing :: rest => standing :: shareTogether least rest
termination_by standings => standings.length
decreasing_by
  · have := (List.dropWhile_sublist (· = Standing.common) (l := rest)).length_le
    simp only [List.length_cons]
    omega
  · simp

/-- Shares the first common lines, until three lone lines follow each other, or a lone line comes
that is not among the first eight. `before` lines have been passed, the last `lone` of them lone. -/
def shareFirst (before lone : Nat) : List Standing → List Standing
  | [] => []
  | .lone :: rest =>
    if 8 ≤ before ∨ lone = 2 then .lone :: rest
    else .lone :: shareFirst (before + 1) (lone + 1) rest
  | standing :: rest => standing.share :: shareFirst (before + 1) 0 rest

/-- Shares common lines in a run without shared lines, which begins and ends with a lone line. All
of them, if they are more than a quarter of the run; else those that lie together in too great a
number, and those near both ends. -/
def shareWithin (run : List Standing) : List Standing :=
  if run.length < 4 * run.count .common then run.map share
  else
    let apart := shareTogether (nearRoot (run.length / 4) + 1) run
    (shareFirst 0 0 (shareFirst 0 0 apart).reverse).reverse

def settle : List Standing → List Standing
  | [] => []
  | .lone :: rest =>
    let unshared := rest.takeWhile (· ≠ .shared)
    let run := (unshared.reverse.dropWhile (· = .common)).reverse
    shareWithin (.lone :: run) ++ settle (rest.drop run.length)
  | standing :: rest => standing.share :: settle rest
termination_by standings => standings.length
decreasing_by
  · simp only [List.length_drop, List.length_cons]
    omega
  · simp

theorem length_shareTogether (least : Nat) (standings : List Standing) :
    (shareTogether least standings).length = standings.length := by
  fun_induction shareTogether least standings with
  | case1 => rfl
  | case2 rest together ih =>
    have whole := congrArg List.length
      (List.takeWhile_append_dropWhile (p := (· = Standing.common)) (l := rest))
    simp only [List.length_append] at whole
    rw [List.length_append, ih]
    split <;> simp only [together, List.length_map, List.length_cons] <;> omega
  | case3 standing rest _ ih => simp [ih]

theorem length_shareFirst (before lone : Nat) (standings : List Standing) :
    (shareFirst before lone standings).length = standings.length := by
  fun_induction shareFirst before lone standings <;> simp_all

theorem length_shareWithin (run : List Standing) : (shareWithin run).length = run.length := by
  unfold shareWithin
  split <;> simp [length_shareFirst, length_shareTogether]

theorem length_settle (standings : List Standing) : (settle standings).length = standings.length := by
  fun_induction settle standings with
  | case1 => rfl
  | case2 rest unshared run ih =>
    have short : run.length ≤ rest.length := by
      have trimmed := (List.dropWhile_sublist (· = Standing.common) (l := unshared.reverse)).length_le
      have taken := (List.takeWhile_sublist (· ≠ Standing.shared) (l := rest)).length_le
      simp only [run, unshared, List.length_reverse] at *
      omega
    rw [List.length_append, length_shareWithin, ih]
    simp only [List.length_cons, List.length_drop]
    omega
  | case3 standing rest _ ih => simp [ih]

end Standing

variable {α : Type}

def setApart [DecidableEq α] (mine other : List α) : List (α × Bool) :=
  let standings := mine.map fun line => Standing.ofCount mine.length (other.count line)
  mine.zip ((Standing.settle standings).map fun standing => standing ≠ .shared)

@[simp] theorem map_fst_setApart [DecidableEq α] (mine other : List α) :
    (setApart mine other).map Prod.fst = mine := by
  apply List.map_fst_zip
  simp [Standing.length_settle]

end Redline.LineDiff
