import Redline.Proofs.LineDiff.Shortest

/-! Divide and conquer that trusts its search. The search for a point where paths meet can be run in
whole numbers, with nothing that keeps a path or a point in the grid. It finds the same points, all of
them in the grid and none in its first or last corner, so that a recursion that takes them unchecked
ends, with the script of both lists. -/

namespace Redline.LineDiff

def crossForward (n m : Nat) (before forward backward : Array Nat) : Option (Int × Int) :=
  let d := before.size
  let shift : Int := n - m
  (List.range (d + 1)).findSome? fun j =>
    let k := diagonal d j
    if (k - shift).natAbs < d ∧ n ≤ forward.getD j 0 + reachOn backward (shift - k) then
      some (start before j, start before j - k)
    else none

def crossBackward (sweep : Sweep) (n m : Nat) (forward backward : Array Nat) : Option (Int × Int) :=
  let d := backward.size - 1
  let shift : Int := n - m
  (sweep.positions d).findSome? fun j =>
    let k := diagonal d j
    let i := backward.getD j 0
    if (k - shift).natAbs ≤ d ∧ n ≤ i + reachOn forward (shift - k) then
      some (n - i, m - (i - k))
    else none

variable {α : Type} [DecidableEq α]

def cross (sweep : Sweep) (old new oldBack newBack : Array α) :
    Nat → Array Nat → Array Nat → Option (Int × Int)
  | 0, _, _ => none
  | depth + 1, forward, backward =>
    let forward' := advance old new forward
    let backward' := advance oldBack newBack backward
    let met :=
      if (old.size + new.size) % 2 = 1 then
        crossForward old.size new.size forward forward' backward
      else crossBackward sweep old.size new.size forward' backward'
    match met with
    | some place => some place
    | none => cross sweep old new oldBack newBack depth forward' backward'

def crossing? (sweep : Sweep) (old new : List α) : Option (Int × Int) :=
  cross sweep old.toArray new.toArray old.reverse.toArray new.reverse.toArray
    ((old.length + new.length + 1) / 2 + 1) #[] #[]

def place (point : Nat × Nat) : Int × Int :=
  (point.1, point.2)

theorem findSome?_eq_of_forall {β γ : Type} {values : List β} {first second : β → Option γ}
    (same : ∀ value ∈ values, first value = second value) :
    values.findSome? first = values.findSome? second := by
  induction values with
  | nil => rfl
  | cons value values ih =>
      rw [List.findSome?_cons, List.findSome?_cons, same value (by simp),
        ih fun other member => same other (by simp [member])]

section Layers

variable {old new : Array α} {before forward backward : Array Nat}

theorem crossForward_eq (isBefore : IsLayer old new before) :
    crossForward old.size new.size before forward backward =
      (meetForward old.size new.size before forward backward).map place := by
  unfold crossForward meetForward
  rw [List.map_findSome?]
  apply findSome?_eq_of_forall
  intro p member
  have onGrid := (isBefore.start_reached p (Nat.le_of_lt_succ (List.mem_range.mp member))).1
  simp only [Function.comp_apply]
  split
  · simp only [Option.map_some, place, diagonal, Option.some.injEq, Prod.mk.injEq, true_and]
    omega
  · rfl

theorem crossBackward_eq (sweep : Sweep) (isForward : IsLayer old new forward)
    (isBackward : IsLayer old.reverse new.reverse backward) {depth : Nat}
    (sizeForward : forward.size = depth + 1) (sizeBackward : backward.size = depth + 1)
    (even : (old.size + new.size) % 2 = 0)
    (far : 2 * depth ≤ distance old new old.size new.size + 1) :
    crossBackward sweep old.size new.size forward backward =
      (meetBackward sweep old.size new.size forward backward).map place := by
  unfold crossBackward meetBackward
  rw [List.map_findSome?]
  apply findSome?_eq_of_forall
  intro q member
  rw [sizeBackward, Nat.add_sub_cancel] at member
  have inside : q ≤ depth := by cases sweep <;> simp [Sweep.positions] at member <;> omega
  simp only [Function.comp_apply]
  split
  next found =>
    obtain ⟨onGrid, ⟨acrossOld, acrossNew, -⟩, -⟩ := between_of_metBackward isForward isBackward
      sizeForward sizeBackward even far inside (by simpa [sizeBackward] using found.1)
      (by simpa [sizeBackward] using found.2)
    simp only [Option.map_some, place, diagonal, Option.some.injEq, Prod.mk.injEq]
    omega
  next => rfl

theorem cross_eq (sweep : Sweep) (old new : Array α) (rounds : Nat) (forward backward : Array Nat)
    (isForward : IsLayer old new forward) (isBackward : IsLayer old.reverse new.reverse backward)
    (sizes : backward.size = forward.size)
    (far : 2 * forward.size ≤ distance old new old.size new.size + 1) :
    cross sweep old new old.reverse new.reverse rounds forward backward =
      (meet sweep old new old.reverse new.reverse rounds forward backward).map place := by
  induction rounds generalizing forward backward with
  | zero => rfl
  | succ rounds ih =>
      have sizeForward := size_advance old new forward
      have sizeBackward := size_advance old.reverse new.reverse backward
      have next := ih (advance old new forward) (advance old.reverse new.reverse backward)
        isForward.advance isBackward.advance (by omega)
      rw [sizeForward] at next
      rw [sizes] at sizeBackward
      simp only [cross, meet]
      by_cases odd : (old.size + new.size) % 2 = 1
      · rw [if_pos odd, if_pos odd, crossForward_eq isForward]
        cases missed : meetForward old.size new.size forward (advance old new forward) backward with
        | some point => rfl
        | none => exact next (far_of_meetForward isForward isBackward sizes odd far missed)
      · rw [if_neg odd, if_neg odd, crossBackward_eq sweep isForward.advance isBackward.advance sizeForward
          sizeBackward (by omega) far]
        cases missed : meetBackward sweep old.size new.size (advance old new forward)
            (advance old.reverse new.reverse backward) with
        | some point => rfl
        | none =>
            exact next (far_of_meetBackward sweep isForward.advance isBackward.advance sizeForward
              sizeBackward (by omega) far missed)

end Layers

theorem crossing?_eq (sweep : Sweep) (old new : List α) :
    crossing? sweep old new = (splitPoint? sweep old new).map place := by
  unfold crossing? splitPoint?
  rw [← List.reverse_toArray, ← List.reverse_toArray]
  exact cross_eq sweep old.toArray new.toArray _ #[] #[] (isLayer_empty _ _) (isLayer_empty _ _) rfl (by simp)

theorem splitPoint?_of_division? {sweep : Sweep} {old new : List α}
    {division : { point // Divides old.length new.length point }}
    (found : division? sweep old new = some division) : splitPoint? sweep old new = some division.val := by
  unfold division? at found
  split at found
  next => cases found
  next point split =>
    rw [split]
    split at found
    next inside =>
      cases found
      rfl
    next => cases found

theorem exists_crossing (sweep : Sweep) {old new : List α} (someOld : old ≠ []) (someNew : new ≠ [])
    (begins : commonPrefix old new = []) (ends : commonPrefix old.reverse new.reverse = []) :
    ∃ division, division? sweep old new = some division ∧
      crossing? sweep old new = some (place division.val) := by
  obtain ⟨division, found, -⟩ := exists_division sweep someOld someNew begins ends
  refine ⟨division, found, ?_⟩
  rw [crossing?_eq, splitPoint?_of_division? found]
  rfl

/-- Scripts of a recursion that divides two lists wherever its search says, and stops only where one of
them is empty. -/
inductive Divided (sweep : Sweep) : Nat → Nat → List α → List α → List (Edit α) → Prop
  | same {i j : Nat} {old new head tail : List α} :
      Box.ofLists old new = ⟨head, [], [], tail⟩ →
      Divided sweep i j old new (keepAll head ++ keepAll tail)
  | removed {i j : Nat} {old new head lines tail : List α} :
      Box.ofLists old new = ⟨head, lines, [], tail⟩ → lines ≠ [] →
      Divided sweep i j old new (keepAll head ++ .change ⟨.old, lines, j + head.length⟩ :: keepAll tail)
  | added {i j : Nat} {old new head lines tail : List α} :
      Box.ofLists old new = ⟨head, [], lines, tail⟩ → lines ≠ [] →
      Divided sweep i j old new (keepAll head ++ .change ⟨.new, lines, i + head.length⟩ :: keepAll tail)
  | split {i j x y : Nat} {old new head old' new' tail : List α} {first second : List (Edit α)} :
      Box.ofLists old new = ⟨head, old', new', tail⟩ → old' ≠ [] → new' ≠ [] →
      crossing? sweep old' new' = some ((x : Int), (y : Int)) →
      Divided sweep (i + head.length) (j + head.length) (old'.take x) (new'.take y) first →
      Divided sweep (i + head.length + x) (j + head.length + y) (old'.drop x) (new'.drop y) second →
      Divided sweep i j old new (keepAll head ++ (first ++ second) ++ keepAll tail)

theorem divided_divide (sweep : Sweep) (i j : Nat) (old new : List α) :
    Divided sweep i j old new (divide sweep i j old new) := by
  fun_induction divide sweep i j old new with
  | case1 i j old new box i' j' middle ihFirst ihSecond =>
      have whole : Box.ofLists old new = ⟨box.head, box.old, box.new, box.tail⟩ := rfl
      simp only [middle]
      split
      · next noOld noNew =>
          rw [noOld, noNew] at whole
          simpa using Divided.same whole
      · next noNew someOld =>
          rw [noNew] at whole
          simpa using Divided.removed whole someOld
      · next noOld someNew =>
          rw [noOld] at whole
          simpa using Divided.added whole someNew
      · next someOld someNew _ =>
          obtain ⟨division, found, crosses⟩ := exists_crossing sweep someOld someNew
            (Box.commonPrefix_ofLists old new) (Box.commonPrefix_reverse_ofLists old new)
          rw [found]
          exact .split whole someOld someNew crosses (ihFirst division) (ihSecond division)

theorem Divided.eq_divide {sweep : Sweep} {i j : Nat} {old new : List α} {edits : List (Edit α)}
    (divided : Divided sweep i j old new edits) : edits = divide sweep i j old new := by
  induction divided with
  | same whole =>
      rw [divide, whole]
      simp
  | removed whole some =>
      rw [divide, whole]
      obtain ⟨line, rest, rfl⟩ := List.exists_cons_of_ne_nil some
      simp
  | added whole some =>
      rw [divide, whole]
      obtain ⟨line, rest, rfl⟩ := List.exists_cons_of_ne_nil some
      simp
  | @split i j x y old new head old' new' tail first second whole someOld someNew crosses _ _ ihFirst
      ihSecond =>
      have begins := Box.commonPrefix_ofLists old new
      have ends := Box.commonPrefix_reverse_ofLists old new
      rw [whole] at begins ends
      obtain ⟨division, found, placed⟩ := exists_crossing sweep someOld someNew begins ends
      have here : division.val = (x, y) := by
        rw [crosses] at placed
        simp only [place, Option.some.injEq, Prod.mk.injEq, Int.natCast_inj] at placed
        exact Prod.ext placed.1.symm placed.2.symm
      rw [divide, whole]
      obtain ⟨line, rest, rfl⟩ := List.exists_cons_of_ne_nil someOld
      obtain ⟨line', rest', rfl⟩ := List.exists_cons_of_ne_nil someNew
      simp only [found, here, ihFirst, ihSecond]

theorem divided_iff {sweep : Sweep} {i j : Nat} {old new : List α} {edits : List (Edit α)} :
    Divided sweep i j old new edits ↔ edits = divide sweep i j old new :=
  ⟨Divided.eq_divide, fun same => same ▸ divided_divide sweep i j old new⟩

end Redline.LineDiff
