/-! Furthest-reaching paths through the grid of two lists, and the point where the paths from
the start and those from the end meet.

A path walks through the grid from its corner: right past an old entry, down past a new one,
diagonally past an entry that both lists have. Diagonal `k` holds the points whose old index is
`k` more than the new one. Layer `d` holds, for every diagonal that `d` straight steps can end
on, the furthest old index that they reach there: diagonal `d - 2 * j` at position `j`. Paths
from the end are those of the reversed lists. -/

namespace Redline.LineDiff

variable {α : Type} [DecidableEq α]

def matchRun (old new : Array α) (i j : Nat) : Nat :=
  if inside : i < old.size ∧ j < new.size then
    if old[i] = new[j] then matchRun old new (i + 1) (j + 1) + 1 else 0
  else 0
termination_by old.size - i

def diagonal (d j : Nat) : Int :=
  d - 2 * j

def start (layer : Array Nat) (j : Nat) : Nat :=
  if j = layer.size then layer.getD (j - 1) 0
  else if j = 0 then layer.getD 0 0 + 1
  else if layer.getD j 0 < layer.getD (j - 1) 0 then layer.getD (j - 1) 0
  else layer.getD j 0 + 1

/-- Follows a diagonal from old index `i` as long as the entries are the same. Paths may leave
the grid; outside there is nothing to follow. -/
def follow (old new : Array α) (k : Int) (i : Nat) : Nat :=
  if 0 ≤ (i : Int) - k then i + matchRun old new i ((i : Int) - k).toNat else i

def advance (old new : Array α) (layer : Array Nat) : Array Nat :=
  Array.ofFn fun j : Fin (layer.size + 1) =>
    follow old new (diagonal layer.size j) (start layer j)

def reachOn (layer : Array Nat) (k : Int) : Nat :=
  layer.getD (((layer.size : Int) - 1 - k) / 2).toNat 0

def meetForward (n m : Nat) (before forward backward : Array Nat) : Option (Nat × Nat) :=
  let d := before.size
  let shift : Int := n - m
  (List.range (d + 1)).findSome? fun j =>
    let k := diagonal d j
    if (k - shift).natAbs < d ∧ n ≤ forward.getD j 0 + reachOn backward (shift - k) then
      some (start before j, ((start before j : Int) - k).toNat)
    else none

inductive Sweep where
  | fromLow
  | fromHigh
  deriving DecidableEq, Repr

def Sweep.positions (d : Nat) : Sweep → List Nat
  | .fromLow => List.range (d + 1)
  | .fromHigh => (List.range (d + 1)).reverse

def meetBackward (sweep : Sweep) (n m : Nat) (forward backward : Array Nat) : Option (Nat × Nat) :=
  let d := backward.size - 1
  let shift : Int := n - m
  (sweep.positions d).findSome? fun j =>
    let k := diagonal d j
    let i := backward.getD j 0
    if (k - shift).natAbs ≤ d ∧ n ≤ i + reachOn forward (shift - k) then
      some (((n : Int) - i).toNat, ((m : Int) - (i - k)).toNat)
    else none

/-- Grows layers from both corners in turn until two paths meet. Two paths from opposite corners
have steps of the same parity as the sizes differ by, so only one direction can meet. -/
def meet (sweep : Sweep) (old new oldBack newBack : Array α) :
    Nat → Array Nat → Array Nat → Option (Nat × Nat)
  | 0, _, _ => none
  | depth + 1, forward, backward =>
    let odd := (old.size + new.size) % 2 = 1
    let forward' := advance old new forward
    let backward' := advance oldBack newBack backward
    let met :=
      if odd then meetForward old.size new.size forward forward' backward
      else meetBackward sweep old.size new.size forward' backward'
    match met with
    | some point => some point
    | none => meet sweep old new oldBack newBack depth forward' backward'

def splitPoint? (sweep : Sweep) (old new : List α) : Option (Nat × Nat) :=
  meet sweep old.toArray new.toArray old.reverse.toArray new.reverse.toArray
    ((old.length + new.length + 1) / 2 + 1) #[] #[]

theorem size_advance (old new : Array α) (layer : Array Nat) :
    (advance old new layer).size = layer.size + 1 := by
  simp [advance]

end Redline.LineDiff
