import Redline.LineDiff.Region

/-! Regions in hunks. Around the changes some of the same lines are kept as context, and where more
than the context of two changes lies between them, a hunk ends and another one starts. -/

namespace Redline.LineDiff

variable {α : Type}

/-- Regions one behind the other, and where the first of them starts on both sides. -/
structure Hunk (α : Type) where
  oldStart : Nat
  newStart : Nat
  regions : List (Region α)
  deriving DecidableEq, Repr

namespace Hunk

def start (side : Side) (hunk : Hunk α) : Nat :=
  side.of hunk.oldStart hunk.newStart

def lines (side : Side) (hunk : Hunk α) : List α :=
  hunk.regions.flatMap (Region.lines side)

def stop (side : Side) (hunk : Hunk α) : Nat :=
  hunk.start side + (hunk.lines side).length

def push (hunk : Hunk α) (region : Region α) : Hunk α :=
  { hunk with regions := hunk.regions ++ [region] }

def behind (hunk : Hunk α) (skipped : Nat) (regions : List (Region α)) : Hunk α :=
  { oldStart := hunk.stop .old + skipped
    newStart := hunk.stop .new + skipped
    regions := regions }

def span (side : Side) (hunk : Hunk α) : Nat × Nat :=
  match hunk.regions.head?, hunk.regions.getLast? with
  | some first, some last =>
    ((first.span side (hunk.start side)).1,
      (last.span side (hunk.stop side - (last.lines side).length)).2)
  | _, _ => (0, 0)

def isIdle (hunk : Hunk α) : Bool :=
  match hunk.regions with
  | [] | [.same _] => true
  | _ => false

end Hunk

/-- Goes on with a hunk. It ends within a run of more than twice `radius` same lines, and the next
one starts where as many lines of the run are left. -/
def hunksFrom (radius : Nat) (hunk : Hunk α) : List (Region α) → List (Hunk α)
  | [] => if hunk.isIdle then [] else [hunk]
  | .same lines :: rest =>
    if 2 * radius < lines.length then
      let ended := hunk.push (.same (lines.take radius))
      let next := ended.behind (lines.length - 2 * radius) [.same (lines.drop (lines.length - radius))]
      ended :: hunksFrom radius next rest
    else hunksFrom radius (hunk.push (.same lines)) rest
  | .changed gap :: rest => hunksFrom radius (hunk.push (.changed gap)) rest

def idleFront (radius : Nat) : List (Region α) → Nat
  | .same lines :: _ => lines.length - radius
  | _ => 0

def trimFront (radius : Nat) : List (Region α) → List (Region α)
  | .same lines :: rest => .same (lines.drop (lines.length - radius)) :: rest
  | regions => regions

def trimBack (radius : Nat) : List (Region α) → List (Region α)
  | [] => []
  | [.same lines] => [.same (lines.take radius)]
  | region :: rest => region :: trimBack radius rest

def hunks (radius : Nat) (regions : List (Region α)) : List (Hunk α) :=
  let start := idleFront radius regions
  hunksFrom radius ⟨start, start, []⟩ (trimBack radius (trimFront radius regions))

end Redline.LineDiff
